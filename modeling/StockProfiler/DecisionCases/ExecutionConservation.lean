import StockProfiler.DecisionCases.ExecutionReconciliation

/-!
# Attribution conserves quantities

Each reservation takes from its fills, in their order, what its accepted quantity
still admits. What it takes and what exceeds it add up to what was filled.
-/

namespace StockProfiler.DecisionCases

open PositionManagement Portfolio

/-- The fills of a reservation, in the order in which they are divided. -/
def orderedFills (snapshot : ReconciledPositionSnapshot) (reservationId : String)
    (fills : List AttributedFill) : List AttributedFill :=
  (fills.filter (·.reservationId = some reservationId)).insertionSort
    fun a b => fillBefore snapshot a b

/-- A fill differs from another one at most in how it is divided. -/
structure SameFill (a b : AttributedFill) : Prop where
  entryId : b.entryId = a.entryId
  accountId : b.accountId = a.accountId
  securityId : b.securityId = a.securityId
  reservationId : b.reservationId = a.reservationId
  classification : b.classification = a.classification
  quantity : b.quantity = a.quantity
  cashUsed : b.cashUsed = a.cashUsed

namespace SameFill

variable {a b c : AttributedFill}

theorem refl (a : AttributedFill) : SameFill a a := ⟨rfl, rfl, rfl, rfl, rfl, rfl, rfl⟩

theorem trans (h : SameFill a b) (h' : SameFill b c) : SameFill a c :=
  ⟨h'.entryId.trans h.entryId, h'.accountId.trans h.accountId, h'.securityId.trans h.securityId,
    h'.reservationId.trans h.reservationId, h'.classification.trans h.classification,
    h'.quantity.trans h.quantity, h'.cashUsed.trans h.cashUsed⟩

theorem key_eq (h : SameFill a b) : b.key = a.key := by
  rw [AttributedFill.key, AttributedFill.key, h.entryId, h.accountId]

theorem occurredAt_eq (h : SameFill a b) (snapshot : ReconciledPositionSnapshot) :
    occurredAt snapshot b = occurredAt snapshot a := by
  rw [occurredAt, occurredAt, h.key_eq]

theorem forall₂_trans {as bs cs : List AttributedFill} (h : List.Forall₂ SameFill as bs)
    (h' : List.Forall₂ SameFill bs cs) : List.Forall₂ SameFill as cs := by
  induction h generalizing cs with
  | nil => exact h'
  | cons hab _ ih =>
    cases h' with
    | cons hbc h' => exact .cons (hab.trans hbc) (ih h')

end SameFill

section Order

variable {snapshot : ReconciledPositionSnapshot} {reservationId : String}
  {fills : List AttributedFill} {divide : ℕ → AttributedFill → AttributedFill}

theorem map_fst_orderedPositions :
    (orderedPositions snapshot reservationId fills).map Prod.fst =
      orderedFills snapshot reservationId fills := by
  have hfilter :
      (fills.zipIdx.filter fun p => p.1.reservationId = some reservationId).map Prod.fst =
      fills.filter (·.reservationId = some reservationId) := by
    conv_rhs => rw [← List.zipIdx_map_fst 0 fills, List.filter_map]
    rfl
  rw [orderedPositions, orderedFills, ← hfilter]
  exact List.map_insertionSort _ _ _ _ fun _ _ _ _ => Iff.rfl

theorem orderedPositions_mapIdx (hdivide : ∀ index fill, SameFill fill (divide index fill)) :
    orderedPositions snapshot reservationId (fills.mapIdx divide) =
      (orderedPositions snapshot reservationId fills).map fun p => (divide p.2 p.1, p.2) := by
  have hzip : (fills.mapIdx divide).zipIdx = fills.zipIdx.map fun p => (divide p.2 p.1, p.2) := by
    apply List.ext_getElem?
    intro index
    simp only [List.getElem?_zipIdx, List.getElem?_mapIdx, List.getElem?_map, Option.map_map]
    cases fills[index]? <;> simp
  unfold orderedPositions
  rw [hzip, List.filter_map]
  have hfilter : fills.zipIdx.filter ((fun p => decide (p.1.reservationId = some reservationId)) ∘
      fun p => (divide p.2 p.1, p.2)) =
        fills.zipIdx.filter fun p => p.1.reservationId = some reservationId := by
    refine List.filter_congr fun p _ => ?_
    rw [Function.comp_apply, (hdivide p.2 p.1).reservationId]
  rw [hfilter]
  refine (List.map_insertionSort _ _ _ _ fun a _ b _ => ?_).symm
  simp only [fillBefore, (hdivide _ _).occurredAt_eq, (hdivide _ _).entryId]

/-- The ordered fills after a division are the divided ones, in the same order. -/
theorem orderedFills_mapIdx (hdivide : ∀ index fill, SameFill fill (divide index fill)) :
    orderedFills snapshot reservationId (fills.mapIdx divide) =
      (orderedPositions snapshot reservationId fills).map fun p => divide p.2 p.1 := by
  rw [← map_fst_orderedPositions, orderedPositions_mapIdx hdivide, List.map_map]
  rfl

theorem fill_of_mem_orderedPositions {p : AttributedFill × ℕ}
    (h : p ∈ orderedPositions snapshot reservationId fills) :
    fills[p.2]? = some p.1 ∧ p.1.reservationId = some reservationId := by
  obtain ⟨hmem, hreservation⟩ := List.mem_filter.mp ((List.perm_insertionSort _ _).mem_iff.mp h)
  exact ⟨List.mem_zipIdx_iff_getElem?.mp hmem, of_decide_eq_true hreservation⟩

theorem nodup_orderedPositions :
    ((orderedPositions snapshot reservationId fills).map Prod.snd).Nodup := by
  refine (((List.perm_insertionSort _ _).map _).nodup_iff).mpr ?_
  refine List.Nodup.sublist (List.filter_sublist.map _) ?_
  rw [List.zipIdx_map_snd]
  exact List.nodup_range'

end Order

section Allot

variable {ctx : DecimalContext} {snapshot : ReconciledPositionSnapshot}
  {fills fills' raw : List AttributedFill} {reservation : AllocationCommitment}

theorem sameFill_divideFill (matched : Dict ℕ ℚ) (index : ℕ) (fill : AttributedFill) :
    SameFill fill (divideFill ctx matched index fill) := by
  unfold divideFill
  cases matched.get? index with
  | none => exact SameFill.refl fill
  | some intent => exact ⟨rfl, rfl, rfl, rfl, rfl, rfl, rfl⟩

/-- The fills of a reservation are divided by the capped steps of their quantities. -/
structure DividedFor (ctx : DecimalContext) (snapshot : ReconciledPositionSnapshot)
    (fills : List AttributedFill) (reservation : AllocationCommitment) (quantity : ℚ) : Prop where
  quantity_eq : reservation.quantity = some quantity
  steps : cappedSteps ctx quantity 0 0
    ((orderedFills snapshot reservation.commitmentId fills).map (·.quantity)) =
      some ((orderedFills snapshot reservation.commitmentId fills).map (·.intentQuantity))
  excess : ∀ fill ∈ orderedFills snapshot reservation.commitmentId fills,
    fill.externalQuantity = ctx.sub fill.quantity fill.intentQuantity

theorem get?_matched {ordered : List (AttributedFill × ℕ)} {steps : List ℚ} {matched : Dict ℕ ℚ}
    (hmatched : (ordered.map Prod.snd).map matched.get? = steps.map some) :
    (∀ p ∈ ordered, matched.get? p.2 = some (divideFill ctx matched p.2 p.1).intentQuantity) ∧
      ordered.map (fun p => (divideFill ctx matched p.2 p.1).intentQuantity) = steps := by
  have hsome : ∀ p ∈ ordered,
      matched.get? p.2 = some (divideFill ctx matched p.2 p.1).intentQuantity := by
    intro p hp
    have hmem : matched.get? p.2 ∈ steps.map some :=
      hmatched ▸ List.mem_map_of_mem (List.mem_map_of_mem hp)
    obtain ⟨step, -, hstep⟩ := List.mem_map.mp hmem
    rw [divideFill, ← hstep]
    rfl
  refine ⟨hsome, List.map_injective_iff.mpr (Option.some_injective ℚ) ?_⟩
  rw [← hmatched, List.map_map, List.map_map]
  exact List.map_congr_left fun p hp => (hsome p hp).symm

theorem divideFill_of_ne {steps : List ℚ} {index : ℕ} {fill : AttributedFill}
    (hfill : fills[index]? = some fill) (hne : fill.reservationId ≠ some reservation.commitmentId) :
    divideFill ctx (((orderedPositions snapshot reservation.commitmentId fills).map
      Prod.snd).zip steps) index fill = fill := by
  unfold divideFill
  cases hget : Dict.get? (((orderedPositions snapshot reservation.commitmentId fills).map
      Prod.snd).zip steps) index with
  | none => rfl
  | some intent =>
    obtain ⟨hindex, -⟩ := List.of_mem_zip (Dict.mem_of_get? hget)
    obtain ⟨p, hp, rfl⟩ := List.mem_map.mp hindex
    obtain ⟨hposition, hreservation⟩ := fill_of_mem_orderedPositions hp
    rw [hfill] at hposition
    exact absurd (Option.some.inj hposition ▸ hreservation) hne

variable (h : allotReservation ctx snapshot fills reservation = .ok fills')
include h

theorem allotReservation_inv :
    ∃ quantity steps, reservation.quantity = some quantity ∧
      cappedSteps ctx quantity 0 0
        ((orderedPositions snapshot reservation.commitmentId fills).map (·.1.quantity)) =
          some steps ∧
      fills' = fills.mapIdx (divideFill ctx
        (((orderedPositions snapshot reservation.commitmentId fills).map Prod.snd).zip steps)) := by
  simp only [allotReservation, bind_eq_ok, known_eq_ok] at h
  obtain ⟨quantity, hquantity, steps, hsteps, h⟩ := h
  exact ⟨quantity, steps, hquantity, hsteps, (Except.ok.inj h).symm⟩

theorem sameFill_allotReservation : List.Forall₂ SameFill fills fills' := by
  obtain ⟨quantity, steps, -, -, rfl⟩ := allotReservation_inv h
  refine List.forall₂_iff_get.mpr ⟨(List.length_mapIdx ..).symm, fun index hindex hindex' => ?_⟩
  rw [List.get_eq_getElem, List.get_eq_getElem, List.getElem_mapIdx]
  exact sameFill_divideFill _ _ _

theorem getElem?_allotReservation_of_ne {index : ℕ}
    {fill : AttributedFill} (hfill : fills[index]? = some fill)
    (hne : fill.reservationId ≠ some reservation.commitmentId) : fills'[index]? = some fill := by
  obtain ⟨quantity, steps, -, -, rfl⟩ := allotReservation_inv h
  rw [List.getElem?_mapIdx, hfill, Option.map_some, divideFill_of_ne hfill hne]

theorem orderedFills_allotReservation_of_ne {id : String} (hne : id ≠ reservation.commitmentId) :
    orderedFills snapshot id fills' = orderedFills snapshot id fills := by
  obtain ⟨quantity, steps, -, -, rfl⟩ := allotReservation_inv h
  rw [orderedFills_mapIdx (sameFill_divideFill _), ← map_fst_orderedPositions]
  refine List.map_congr_left fun p hp => ?_
  obtain ⟨hfill, hid⟩ := fill_of_mem_orderedPositions hp
  exact divideFill_of_ne hfill (by rw [hid]; exact fun heq => hne (Option.some.inj heq))

/-- An allotment divides the fills of its reservation. -/
theorem dividedFor_allotReservation :
    ∃ quantity, DividedFor ctx snapshot fills' reservation quantity := by
  obtain ⟨quantity, steps, hquantity, hsteps, rfl⟩ := allotReservation_inv h
  set ordered := orderedPositions snapshot reservation.commitmentId fills
  have hlength : steps.length = (ordered.map Prod.snd).length := by
    rw [length_cappedSteps hsteps, List.length_map, List.length_map]
  obtain ⟨hget, hintents⟩ := @get?_matched ctx ordered steps _
    (Dict.map_get?_zip nodup_orderedPositions hlength)
  refine ⟨quantity, hquantity, ?_, ?_⟩
  · rw [orderedFills_mapIdx (sameFill_divideFill _), List.map_map, List.map_map]
    refine Eq.trans ?_ (hsteps.trans (congrArg some hintents.symm))
    congr 1
    exact List.map_congr_left fun p _ => (sameFill_divideFill _ p.2 p.1).quantity
  · intro fill hfill
    rw [orderedFills_mapIdx (sameFill_divideFill _)] at hfill
    obtain ⟨p, hp, rfl⟩ := List.mem_map.mp hfill
    rw [divideFill, hget p hp]
    rfl

end Allot

section Fold

variable {ctx : DecimalContext} {snapshot : ReconciledPositionSnapshot}
  {raw fills : List AttributedFill} {reservations : List AllocationCommitment}

/-- What has happened to the raw fills once the reservations of a list were allotted. -/
structure Allotted (ctx : DecimalContext) (snapshot : ReconciledPositionSnapshot)
    (raw : List AttributedFill) (done : List AllocationCommitment)
    (fills : List AttributedFill) : Prop where
  same : List.Forall₂ SameFill raw fills
  divided : ∀ reservation ∈ done, ∃ quantity, DividedFor ctx snapshot fills reservation quantity
  untouched : ∀ (index : ℕ) (fill : AttributedFill), raw[index]? = some fill →
    (∀ reservation ∈ done, fill.reservationId ≠ some reservation.commitmentId) →
      fills[index]? = some fill

/-- A division for one reservation does not depend on the fills of the other ones. -/
theorem DividedFor.congr {reservation : AllocationCommitment} {quantity : ℚ}
    {fills' : List AttributedFill} (h : DividedFor ctx snapshot fills reservation quantity)
    (heq : orderedFills snapshot reservation.commitmentId fills' =
      orderedFills snapshot reservation.commitmentId fills) :
    DividedFor ctx snapshot fills' reservation quantity := by
  refine ⟨h.quantity_eq, ?_, ?_⟩
  · rw [heq]
    exact h.steps
  · rw [heq]
    exact h.excess

/-- Allotting reservations with distinct identities divides the fills of each one. -/
theorem allotted_foldlM (hnodup : (reservations.map (·.commitmentId)).Nodup)
    (h : reservations.foldlM (allotReservation ctx snapshot) raw = .ok fills) :
    Allotted ctx snapshot raw reservations fills := by
  induction reservations using List.reverseRecOn generalizing fills with
  | nil =>
    cases h
    exact ⟨List.forall₂_same.mpr fun a _ => SameFill.refl a, fun _ h => absurd h List.not_mem_nil,
      fun _ _ h _ => h⟩
  | append_singleton done reservation ih =>
    rw [List.foldlM_append] at h
    obtain ⟨middle, hmiddle, h⟩ := bind_eq_ok.mp h
    obtain ⟨last, hlast, h⟩ := bind_eq_ok.mp h
    cases h
    rw [List.map_append, List.map_singleton, List.nodup_append] at hnodup
    obtain ⟨hdone, -, hdisjoint⟩ := hnodup
    have hbefore := ih hdone hmiddle
    refine ⟨?_, ?_, ?_⟩
    · exact SameFill.forall₂_trans hbefore.same (sameFill_allotReservation hlast)
    · intro other hother
      rcases List.mem_append.mp hother with hother | hother
      · obtain ⟨quantity, hdivided⟩ := hbefore.divided other hother
        refine ⟨quantity, hdivided.congr (orderedFills_allotReservation_of_ne hlast ?_)⟩
        exact hdisjoint _ (List.mem_map_of_mem hother) _ (List.mem_singleton_self _)
      · obtain rfl := List.mem_singleton.mp hother
        exact dividedFor_allotReservation hlast
    · intro index fill hfill hne
      refine getElem?_allotReservation_of_ne hlast ?_ (hne _ (by simp))
      exact hbefore.untouched index fill hfill fun other hother =>
        hne other (List.mem_append_left _ hother)

end Fold

section Attribute

variable {order : BrokerExecutionOrder} {fills : List AttributedFill} {ctx : DecimalContext}
  {ledger : DecisionLedger} {scope : ResultAccessScope} {command : CandidateExecutionCommand}
  {snapshot : ReconciledPositionSnapshot} {reservations : Dict String AllocationCommitment}
  {orders : AttributedOrders}

theorem isIntended_classifyOrder {recorded : List AllocationCommitment}
    {reservation : Option AllocationCommitment} {classification : ExecutionClassification}
    {reasons : List String}
    (h : classifyOrder ctx ledger scope command snapshot recorded reservation order =
      .ok (classification, reasons))
    (hintended : ExecutionClassification.isIntended classification) : reservation ≠ none := by
  rintro rfl
  have hnot : ∀ c : ExecutionClassification, c = .external ∨ c = .unknown →
      ¬ExecutionClassification.isIntended c := by
    rintro c (rfl | rfl) <;> decide
  unfold classifyOrder at h
  dsimp only at h
  split at h
  · exact hnot _ (.inl (congrArg Prod.fst (Except.ok.inj h)).symm) hintended
  · split at h
    · exact hnot _ (.inr (congrArg Prod.fst (Except.ok.inj h)).symm) hintended
    · exact hnot _ (.inl (congrArg Prod.fst (Except.ok.inj h)).symm) hintended

theorem attributeOrder_inv {attributed : BrokerExecutionOrder × AttributedOrder}
    (h : attributeOrder ctx ledger scope command snapshot reservations order = .ok attributed) :
    attributed.1 = order ∧ attributed.2.accountId = order.accountId ∧
      attributed.2.orderId = order.orderId ∧
      (ExecutionClassification.isIntended attributed.2.classification →
        ∃ reservation, causalReservation reservations order = some reservation ∧
          attributed.2.reservationId = some reservation.commitmentId) ∧
      (¬ExecutionClassification.isIntended attributed.2.classification →
        attributed.2.reservationId = none) := by
  simp only [attributeOrder, bind_eq_ok] at h
  obtain ⟨⟨classification, reasons⟩, hclassify, h⟩ := h
  obtain rfl := (Except.ok.inj h).symm
  refine ⟨rfl, rfl, rfl, fun hintended => ?_, fun hnot => if_neg hnot⟩
  obtain ⟨reservation, hreservation⟩ :=
    Option.ne_none_iff_exists'.mp (isIntended_classifyOrder hclassify hintended)
  refine ⟨reservation, hreservation, (if_pos hintended).trans ?_⟩
  rw [hreservation, Option.map_some]

/-- What is known of a fill once it is attributed and not yet divided. -/
structure RawFill (reservations : Dict String AllocationCommitment) (orders : AttributedOrders)
    (fill : BrokerExecutionFill) (raw : AttributedFill) : Prop where
  key_eq : raw.key = fill.key
  intent : raw.intentQuantity = 0
  external : raw.externalQuantity = 0
  reservation : ExecutionClassification.isIntended raw.classification →
    ∃ id reservation, reservations.get? id = some reservation ∧
      raw.reservationId = some reservation.commitmentId
  noReservation : ¬ExecutionClassification.isIntended raw.classification →
    raw.reservationId = none
  unknown : raw.classification = .unknown →
    ∃ p ∈ orders, p.1.securityId = raw.securityId ∧ p.2.classification = .unknown

theorem rawFill_of_ok
    (horders : command.orders.mapM (attributeOrder ctx ledger scope command snapshot reservations) =
      .ok orders) {fill : BrokerExecutionFill} {raw : AttributedFill}
    (h : attributeFill ctx command snapshot reservations orders fill = .ok raw) :
    RawFill reservations orders fill raw := by
  simp only [attributeFill, bind_eq_ok, known_eq_ok] at h
  obtain ⟨entry, hentry, ⟨order, attribution⟩, hfind, ⟨⟩, hfacts, ⟨⟩, hcorrection, fees,
    hfees, h⟩ := h
  obtain rfl := (Except.ok.inj h).symm
  -- The order of the fill was attributed, so an intended one has its reservation.
  obtain ⟨source, -, hsource⟩ := forall₂_mem_right (mapM_eq_ok.mp horders)
    (List.mem_of_find?_eq_some hfind)
  obtain ⟨rfl, -, -, hintended, -⟩ := attributeOrder_inv hsource
  refine ⟨rfl, rfl, rfl, fun hclass => ?_, fun hclass => if_neg hclass, fun hclass => ?_⟩
  rotate_left
  · refine ⟨_, List.mem_of_find?_eq_some hfind, rfl, ?_⟩
    by_contra hnot
    split at hclass
    · cases hclass
    · exact hnot hclass
  have hattribution : ExecutionClassification.isIntended attribution.classification := by
    by_contra hnot
    simp [hnot] at hclass
  obtain ⟨reservation, hreservation, -⟩ := hintended hattribution
  refine ⟨order.causalReservationId.getD "", reservation, hreservation, (if_pos hclass).trans ?_⟩
  rw [hreservation, Option.map_some]

/-- Marking external fills changes nothing about a fill of a reservation. -/
theorem orderedFills_markExternal {id : String}
    (h : ∀ fill ∈ fills, fill.reservationId = some id → fill.classification ≠ .external) :
    orderedFills snapshot id (fills.map markExternal) = orderedFills snapshot id fills := by
  have hid : ∀ fill, (markExternal fill).reservationId = fill.reservationId := by
    intro fill
    unfold markExternal
    split <;> rfl
  have hfilter : (fills.map markExternal).filter (·.reservationId = some id) =
      fills.filter (·.reservationId = some id) := by
    rw [List.filter_map]
    have hsame : (fun fill : AttributedFill => decide (fill.reservationId = some id)) ∘
        markExternal = fun fill => decide (fill.reservationId = some id) := by
      funext fill
      rw [Function.comp_apply, hid]
    rw [hsame]
    refine (List.map_congr_left fun fill hfill => ?_).trans (List.map_id _)
    obtain ⟨hmem, hreservation⟩ := List.mem_filter.mp hfill
    exact if_neg (h fill hmem (of_decide_eq_true hreservation))
  rw [orderedFills, orderedFills, hfilter]

/-- What an attribution establishes of its fills. -/
structure FillsAttributed (ctx : DecimalContext) (command : CandidateExecutionCommand)
    (snapshot : ReconciledPositionSnapshot) (reservations : Dict String AllocationCommitment)
    (orders : AttributedOrders) (fills : List AttributedFill) : Prop where
  keys : fills.map (·.key) = command.fills.map (·.key)
  divided : ∀ reservation ∈ reservations.map Prod.snd,
    ∃ quantity, DividedFor ctx snapshot fills reservation quantity
  intended : ∀ fill ∈ fills, ExecutionClassification.isIntended fill.classification →
    ∃ reservation ∈ reservations.map Prod.snd, fill.reservationId = some reservation.commitmentId
  notIntended : ∀ fill ∈ fills, ¬ExecutionClassification.isIntended fill.classification →
    fill.reservationId = none ∧ fill.intentQuantity = 0
  external : ∀ fill ∈ fills, fill.classification = .external → fill.externalQuantity = fill.quantity
  unknown : ∀ fill ∈ fills, fill.classification = .unknown →
    ∃ p ∈ orders, p.1.securityId = fill.securityId ∧ p.2.classification = .unknown

/-- An attribution divides every fill of a reservation, and no other one. -/
theorem fillsAttributed_of_ok (hnodup : ((reservations.map Prod.snd).map (·.commitmentId)).Nodup)
    (horders : command.orders.mapM (attributeOrder ctx ledger scope command snapshot reservations) =
      .ok orders) (h : attributeFills ctx command snapshot reservations orders = .ok fills) :
    FillsAttributed ctx command snapshot reservations orders fills := by
  simp only [attributeFills, bind_eq_ok] at h
  obtain ⟨raw, hraw, divided, hdivided, h⟩ := h
  obtain rfl := (Except.ok.inj h).symm
  have hraw := (mapM_eq_ok.mp hraw).imp fun _ _ hfill => rawFill_of_ok horders hfill
  have hallotted := allotted_foldlM hnodup hdivided
  have hmark : ∀ fill, SameFill fill (markExternal fill) := by
    intro fill
    unfold markExternal
    split
    · exact ⟨rfl, rfl, rfl, rfl, rfl, rfl, rfl⟩
    · exact SameFill.refl fill
  -- A divided fill still says what its raw fill said, and is raw if it is not intended.
  have hfacts : ∀ fill ∈ divided,
      (ExecutionClassification.isIntended fill.classification →
        ∃ reservation ∈ reservations.map Prod.snd,
          fill.reservationId = some reservation.commitmentId) ∧
      (¬ExecutionClassification.isIntended fill.classification →
        fill.reservationId = none ∧ fill.intentQuantity = 0) ∧
      (fill.classification = .unknown →
        ∃ p ∈ orders, p.1.securityId = fill.securityId ∧ p.2.classification = .unknown) := by
    intro fill hfill
    obtain ⟨index, hindex, rfl⟩ := List.mem_iff_getElem.mp hfill
    have hlength := hallotted.same.length_eq
    have hindex' : index < raw.length := hlength ▸ hindex
    have hsame : SameFill raw[index] divided[index] := hallotted.same.get hindex' hindex
    obtain ⟨source, -, hsource⟩ := forall₂_mem_right hraw (List.getElem_mem hindex')
    rw [hsame.classification, hsame.reservationId, hsame.securityId]
    refine ⟨?_, ?_, hsource.unknown⟩
    · intro hintended
      obtain ⟨id, reservation, hget, hreservation⟩ := hsource.reservation hintended
      exact ⟨reservation, List.mem_map_of_mem (Dict.mem_of_get? hget), hreservation⟩
    · intro hnot
      have hnone := hsource.noReservation hnot
      have hkept := hallotted.untouched index raw[index] (List.getElem?_eq_getElem hindex')
        fun _ _ => by rw [hnone]; exact Option.some_ne_none _ |>.symm
      rw [List.getElem?_eq_getElem hindex] at hkept
      exact ⟨hnone, Option.some.inj hkept ▸ hsource.intent⟩
  refine ⟨?_, ?_, ?_, ?_, ?_, ?_⟩
  · calc (divided.map markExternal).map (·.key) = divided.map (·.key) := by
          rw [List.map_map]
          exact List.map_congr_left fun fill _ => (hmark fill).key_eq
      _ = raw.map (·.key) :=
          (map_eq_map_of_forall₂ (hallotted.same.imp fun _ _ h => h.key_eq.symm)).symm
      _ = command.fills.map (·.key) :=
          (map_eq_map_of_forall₂ (hraw.imp fun _ _ hfill => hfill.key_eq.symm)).symm
  · intro reservation hreservation
    obtain ⟨quantity, hquantity⟩ := hallotted.divided reservation hreservation
    refine ⟨quantity,
      hquantity.congr (orderedFills_markExternal fun fill hfill hid hexternal => ?_)⟩
    have hnot : ¬ExecutionClassification.isIntended fill.classification := by
      rw [hexternal]
      decide
    rw [((hfacts fill hfill).2.1 hnot).1] at hid
    exact nomatch hid
  · intro marked hmarked hintended
    obtain ⟨fill, hfill, rfl⟩ := List.mem_map.mp hmarked
    rw [(hmark fill).classification] at hintended
    rw [(hmark fill).reservationId]
    exact (hfacts fill hfill).1 hintended
  · intro marked hmarked hnot
    obtain ⟨fill, hfill, rfl⟩ := List.mem_map.mp hmarked
    rw [(hmark fill).classification] at hnot
    rw [(hmark fill).reservationId]
    have hintent : (markExternal fill).intentQuantity = fill.intentQuantity := by
      unfold markExternal
      split <;> rfl
    rw [hintent]
    exact (hfacts fill hfill).2.1 hnot
  · intro marked hmarked hexternal
    obtain ⟨fill, hfill, rfl⟩ := List.mem_map.mp hmarked
    rw [(hmark fill).classification] at hexternal
    rw [markExternal, if_pos hexternal]
  · intro marked hmarked hunknown
    obtain ⟨fill, hfill, rfl⟩ := List.mem_map.mp hmarked
    rw [(hmark fill).classification] at hunknown
    rw [(hmark fill).securityId]
    exact (hfacts fill hfill).2.2 hunknown

end Attribute

section Conservation

variable {outcome previous : CandidateExecutionOutcome} {facts : SettlementContext}
  {ledger : DecisionLedger} {scope : ResultAccessScope} {command : CandidateExecutionCommand}
  {snapshot : ReconciledPositionSnapshot} {reservations : Dict String AllocationCommitment}
  {fills : List AttributedFill}

/-- The fills of a reservation, in their order, take from it what it still admits. -/
structure TakesInOrder (fills : List AttributedFill) (accepted : ℚ) : Prop where
  total : (fills.map (·.intentQuantity)).sum = min (fills.map (·.quantity)).sum accepted
  /-- After each fill what was taken is what was filled so far, up to the accepted quantity. -/
  soFar : ∀ done rest, fills = done ++ rest →
    (done.map (·.intentQuantity)).sum = min (done.map (·.quantity)).sum accepted ∧
      0 ≤ (done.map (·.intentQuantity)).sum ∧ (done.map (·.intentQuantity)).sum ≤ accepted

/-- A fill is its intent and what exceeds it, both in the direction of the fill. -/
structure Divides (fill : AttributedFill) : Prop where
  quantity_eq : fill.quantity = fill.intentQuantity + fill.externalQuantity
  purchase : 0 ≤ fill.quantity → 0 ≤ fill.intentQuantity ∧ 0 ≤ fill.externalQuantity
  correction : fill.quantity ≤ 0 → fill.intentQuantity ≤ 0 ∧ fill.externalQuantity ≤ 0

/-- In exact arithmetic a divided reservation is taken in order. -/
theorem takesInOrder_of_divided {reservation : AllocationCommitment} {accepted : ℚ}
    (h : DividedFor .exact snapshot fills reservation accepted) :
    TakesInOrder (orderedFills snapshot reservation.commitmentId fills) accepted := by
  have hpos := reservation.quantity_pos accepted h.quantity_eq
  have hsoFar : ∀ done rest, orderedFills snapshot reservation.commitmentId fills = done ++ rest →
      (done.map (·.intentQuantity)).sum = min (done.map (·.quantity)).sum accepted ∧
        0 ≤ (done.map (·.quantity)).sum := by
    intro done rest heq
    have hsteps := h.steps
    rw [heq] at hsteps
    have htake : ((done ++ rest).map (·.quantity)).take (done.map (·.intentQuantity)).length =
        done.map (·.quantity) := by
      rw [List.length_map, ← List.map_take, List.take_left]
    have hsplit : (done ++ rest).map (·.intentQuantity) =
        done.map (·.intentQuantity) ++ rest.map (·.intentQuantity) := List.map_append
    have hsum := sum_cappedSteps_prefix (min_eq_left hpos.le).symm le_rfl hsteps hsplit
    rw [htake, zero_add, zero_add] at hsum
    exact hsum
  refine ⟨(hsoFar _ [] (List.append_nil _).symm).1, fun done rest heq => ?_⟩
  obtain ⟨hsum, hnonneg⟩ := hsoFar done rest heq
  refine ⟨hsum, ?_, ?_⟩
  · rw [hsum]
    exact le_min hnonneg hpos.le
  · rw [hsum]
    exact min_le_right _ _

/-- In exact arithmetic each fill of a divided reservation is divided. -/
theorem divides_of_divided {reservation : AllocationCommitment} {accepted : ℚ}
    (h : DividedFor .exact snapshot fills reservation accepted) {fill : AttributedFill}
    (hfill : fill ∈ orderedFills snapshot reservation.commitmentId fills) : Divides fill := by
  have hpos := reservation.quantity_pos accepted h.quantity_eq
  have hbetween := cappedSteps_between (min_eq_left hpos.le).symm h.steps
  rw [List.forall₂_map_left_iff, List.forall₂_map_right_iff, List.forall₂_same] at hbetween
  obtain ⟨hpurchase, hcorrection⟩ := hbetween fill hfill
  have hexcess := h.excess fill hfill
  rw [DecimalContext.exact_sub] at hexcess
  refine ⟨?_, fun hquantity => ?_, fun hquantity => ?_⟩
  · rw [hexcess, add_sub_cancel]
  · have := hpurchase hquantity
    rw [hexcess]
    exact ⟨this.1, sub_nonneg.mpr this.2⟩
  · have := hcorrection hquantity
    rw [hexcess]
    exact ⟨this.2, sub_nonpos.mpr this.1⟩

theorem nodup_reservationsOf (history : List DecisionEventFact) :
    (((reservationsOf history).map Prod.snd).map (·.commitmentId)).Nodup := by
  have hkeys : ((reservationsOf history).map Prod.snd).map (·.commitmentId) =
      Dict.keys (reservationsOf history) := by
    rw [Dict.keys, List.map_map]
    refine List.map_congr_left fun entry hentry => ?_
    obtain ⟨reservation, -, rfl⟩ := List.mem_map.mp (Dict.mem_ofFirst hentry)
    rfl
  rw [hkeys]
  exact Dict.keys_ofFirst_nodup _

/-- Where nothing moves, an identity that is owned once keeps its owner. -/
theorem owner_of_not_moves {owned now : List ((String × String) × Option String)}
    (hnodup : (owned.map Prod.fst).Nodup) (h : (now.any fun (key, reservation) =>
      ((Dict.ofLast (owned.filterMap fun (key, owner) => owner.map fun id => (key, id))).get?
        key).any fun owner => reservation ≠ some owner) = false) {key : String × String}
    {owner reservation : Option String} (howner : (key, owner) ∈ owned)
    (hnow : (key, reservation) ∈ now) (howned : owner ≠ none) : reservation = owner := by
  obtain ⟨id, rfl⟩ := Option.ne_none_iff_exists'.mp howned
  -- With distinct keys the last owner of the key is the one that is given.
  have hget : Dict.get? (Dict.ofLast (owned.filterMap fun (key, owner) =>
      owner.map fun id => (key, id))) key = some id := by
    rw [Dict.get?_ofLast]
    refine Dict.get?_of_mem ?_ (List.mem_reverse.mpr (List.mem_filterMap.mpr
      ⟨(key, some id), howner, rfl⟩))
    rw [Dict.keys, List.map_reverse, List.nodup_reverse]
    refine List.Nodup.sublist (Dict.keys_filterMap_sublist ?_ _) hnodup
    rintro ⟨key, reservation⟩ entry hentry
    obtain ⟨id, -, rfl⟩ := Option.map_eq_some_iff.mp hentry
    rfl
  by_contra hmoves
  apply List.any_eq_false.mp h (key, reservation) hnow
  dsimp only
  rw [hget]
  exact decide_eq_true hmoves

theorem not_movesAttribution (h : movesAttribution outcome previous = false) :
    ((outcome.fills.map fun row => (row.key, row.reservationId)).any fun (key, reservation) =>
      ((Dict.ofLast ((previous.fills.map fun row => (row.key, row.reservationId)).filterMap
        fun (key, owner) => owner.map fun id => (key, id))).get? key).any fun owner =>
          reservation ≠ some owner) = false ∧
    ((outcome.orderAttributions.map fun row =>
      ((row.accountId, row.orderId), row.reservationId)).any fun (key, reservation) =>
        ((Dict.ofLast ((previous.orderAttributions.map fun row =>
          ((row.accountId, row.orderId), row.reservationId)).filterMap fun (key, owner) =>
            owner.map fun id => (key, id))).get? key).any fun owner =>
              reservation ≠ some owner) = false := by
  unfold movesAttribution at h
  simp only [Bool.decide_or, Bool.or_eq_false_iff, decide_eq_false_iff_not, Bool.not_eq_true] at h
  exact h

/-- A fill of an earlier outcome keeps the reservation that owns it. -/
theorem owner_of_not_movesAttribution (h : movesAttribution outcome previous = false)
    (hnodup : (previous.fills.map (·.key)).Nodup) {before fill : AttributedFill}
    (hbefore : before ∈ previous.fills) (hfill : fill ∈ outcome.fills)
    (hkey : fill.key = before.key) (howned : before.reservationId ≠ none) :
    fill.reservationId = before.reservationId := by
  refine owner_of_not_moves ?_ (not_movesAttribution h).1
    (List.mem_map.mpr ⟨before, hbefore, rfl⟩) (List.mem_map.mpr ⟨fill, hfill, ?_⟩) howned
  · rw [List.map_map]
    exact hnodup
  · rw [hkey]

/-- An order of an earlier outcome keeps the reservation that owns it. -/
theorem orderOwner_of_not_movesAttribution (h : movesAttribution outcome previous = false)
    (hnodup : (previous.orderAttributions.map fun row => (row.accountId, row.orderId)).Nodup)
    {before order : AttributedOrder} (hbefore : before ∈ previous.orderAttributions)
    (horder : order ∈ outcome.orderAttributions) (haccount : order.accountId = before.accountId)
    (hid : order.orderId = before.orderId) (howned : before.reservationId ≠ none) :
    order.reservationId = before.reservationId := by
  refine owner_of_not_moves ?_ (not_movesAttribution h).2
    (List.mem_map.mpr ⟨before, hbefore, rfl⟩) (List.mem_map.mpr ⟨order, horder, ?_⟩) howned
  · rw [List.map_map]
    exact hnodup
  · rw [haccount, hid]

/-- What a reconciled outcome conserves. -/
structure ConservesQuantities (ledger : DecisionLedger) (scope : ResultAccessScope)
    (command : CandidateExecutionCommand) (confirmation : CandidateConfirmationOutcome)
    (snapshot : ReconciledPositionSnapshot) (outcome : CandidateExecutionOutcome) : Prop where
  keys : (outcome.fills.map (·.key)).Nodup
  reservation : ∀ id reservation accepted,
    (reservationsOf (ledger.candidateConfirmationHistory scope command.portfolioId)).get? id =
      some reservation → reservation.quantity = some accepted →
        TakesInOrder (orderedFills snapshot id outcome.fills) accepted
  intended : ∀ fill ∈ outcome.fills, fill.classification = .planned ∨
    fill.classification = .deviation → Divides fill
  external : ∀ fill ∈ outcome.fills, fill.classification = .external →
    fill.externalQuantity = fill.quantity ∧ fill.intentQuantity = 0
  owners : ∀ fact ∈ ledger.candidateExecutionHistory scope,
    ∀ earlier ∈ fact.result.candidateExecution, (earlier.fills.map (·.key)).Nodup →
      ∀ before ∈ earlier.fills, ∀ fill ∈ outcome.fills, fill.key = before.key →
        before.reservationId ≠ none → fill.reservationId = before.reservationId
  rows : List.Forall₂ (fun reservation row =>
    row.reservationId = reservation.commitmentId ∧ reservation.quantity =
      some row.acceptedQuantity ∧
      row.filledQuantity =
        ((orderedFills snapshot reservation.commitmentId outcome.fills).map
          (·.intentQuantity)).sum ∧
      ((reservationsOf (ledger.candidateConfirmationHistory scope command.portfolioId)).get?
        reservation.commitmentId = some reservation →
          row.filledQuantity + row.remainingQuantity = row.acceptedQuantity))
    confirmation.reservations outcome.rows

/-- The row of a reservation says what its fills took. -/
theorem row_settleReservation {reservation : AllocationCommitment} {settlement : Settlement}
    (h : settleReservation .exact facts reservation = .ok settlement) :
    settlement.row.reservationId = reservation.commitmentId ∧
      reservation.quantity = some settlement.row.acceptedQuantity ∧
      settlement.row.filledQuantity =
        ((orderedFills snapshot reservation.commitmentId facts.fills).map (·.intentQuantity)).sum ∧
      settlement.row.remainingQuantity =
        max 0 (settlement.row.acceptedQuantity - settlement.row.filledQuantity) := by
  simp only [settleReservation, bind_eq_ok, known_eq_ok] at h
  obtain ⟨accepted, haccepted, priceCap, -, ⟨⟩, -, h⟩ := h
  obtain rfl := (Except.ok.inj h).symm
  refine ⟨rfl, haccepted, ?_, rfl⟩
  refine (DecimalContext.exact_sum _).trans ?_
  exact (((List.perm_insertionSort (fillBefore snapshot · ·) _).map _).sum_eq).symm

/-- An attribution conserves quantities, and the rows of its settlement say so. -/
theorem conservesQuantities_of_attributed {confirmation : CandidateConfirmationOutcome}
    {previouslyWithdrawn : List String} {executionId : String} {settlements : List Settlement}
    {unassociated : List AllocationCommitment}
    (hattributed : Attributed .exact ledger scope command confirmation previouslyWithdrawn snapshot
      facts) (hsettlements : List.Forall₂ (fun reservation settlement =>
      settleReservation .exact facts reservation = .ok settlement)
        confirmation.reservations settlements) (hattributions : checkAttributions ledger scope
      (reconciledOutcome executionId confirmation facts settlements unassociated) = .ok ⟨⟩) :
    ConservesQuantities ledger scope command confirmation snapshot
      (reconciledOutcome executionId confirmation facts settlements unassociated) := by
  set history := ledger.candidateConfirmationHistory scope command.portfolioId with hhistory
  have hfills := fillsAttributed_of_ok (nodup_reservationsOf history) hattributed.orders
    hattributed.fills
  have hdivided : ∀ id reservation, (reservationsOf history).get? id = some reservation →
      reservation.commitmentId = id ∧
        ∃ quantity, DividedFor .exact snapshot facts.fills reservation quantity := by
    intro id reservation hget
    have hmem := Dict.mem_of_get? hget
    obtain ⟨source, -, hsource⟩ := List.mem_map.mp (Dict.mem_ofFirst hmem)
    obtain ⟨rfl, rfl⟩ := Prod.mk.inj hsource
    exact ⟨rfl, hfills.divided _ (List.mem_map_of_mem hmem)⟩
  have htakes : ∀ id reservation accepted, (reservationsOf history).get? id = some reservation →
      reservation.quantity = some accepted →
        TakesInOrder (orderedFills snapshot id facts.fills) accepted := by
    intro id reservation accepted hget haccepted
    obtain ⟨rfl, quantity, hquantity⟩ := hdivided id reservation hget
    obtain rfl := Option.some.inj (haccepted.symm.trans hquantity.quantity_eq)
    exact takesInOrder_of_divided hquantity
  refine ⟨?_, htakes, ?_, ?_, ?_, ?_⟩
  · obtain ⟨confirmedAt, historyStartAt, hchecked⟩ := hattributed.checked
    simp only [checkBrokerFacts, bind_eq_ok, require_eq_ok] at hchecked
    obtain ⟨⟨⟩, ⟨-, hnodup⟩, -⟩ := hchecked
    exact hfills.keys ▸ hnodup
  · intro fill hfill hclass
    obtain ⟨reservation, hreservation, hid⟩ := hfills.intended fill hfill (decide_eq_true hclass)
    obtain ⟨quantity, hquantity⟩ := hfills.divided reservation hreservation
    refine divides_of_divided hquantity ?_
    exact (List.perm_insertionSort _ _).mem_iff.mpr
      (List.mem_filter.mpr ⟨hfill, decide_eq_true hid⟩)
  · intro fill hfill hexternal
    refine ⟨hfills.external fill hfill hexternal, (hfills.notIntended fill hfill ?_).2⟩
    rw [hexternal]
    decide
  · intro fact hfact earlier hearlier hnodup before hbefore fill hfill hkey howned
    rw [checkAttributions, require_eq_ok, Bool.not_eq_true', List.any_eq_false] at hattributions
    refine owner_of_not_movesAttribution ?_ hnodup hbefore hfill hkey howned
    have hnot := hattributions fact hfact
    rw [Option.mem_def.mp hearlier, Option.any_some, Bool.not_eq_true] at hnot
    exact hnot
  · refine List.forall₂_map_right_iff.mpr (hsettlements.imp fun reservation settlement h => ?_)
    obtain ⟨hid, haccepted, hfilled, hremaining⟩ := row_settleReservation h
    refine ⟨hid, haccepted, hfilled, fun hrecorded => ?_⟩
    have hcap := (htakes _ reservation _ hrecorded haccepted).soFar _ [] (List.append_nil _).symm
    rw [← hfilled] at hcap
    rw [hremaining, max_eq_right (sub_nonneg.mpr hcap.2.2), add_sub_cancel]

/-- A reconciled execution conserves the quantities that were filled. -/
theorem reconciled_conservesQuantities {case : FrozenDecisionCase} {businessPrerequisiteMet : Bool}
    {outcome : CandidateExecutionOutcome}
    (h : adjudicateCandidateExecution .exact ledger case businessPrerequisiteMet = some outcome)
    (hreconciled : outcome.disposition = .reconciled) :
    ∃ command scope confirmed confirmation snapshot, case.candidateExecution = some command ∧
      case.accessScope = some scope ∧
      executionSource ledger scope command businessPrerequisiteMet =
        some (confirmed, confirmation) ∧
      executionProof ledger scope command = some snapshot ∧
      ConservesQuantities ledger scope command confirmation snapshot outcome := by
  obtain ⟨command, scope, confirmed, confirmation, hcommand, hscope, hsource, hexecute⟩ :=
    reconciled_adjudicate h hreconciled
  obtain ⟨-, reconciled, hreconcile, hattributions, rfl⟩ :=
    reconciled_executeCandidates hexecute hreconciled
  obtain ⟨source, snapshot, facts, settlements, unassociated, -, -, hattributed, hsettlements, -,
    rfl⟩ := reconcileExecution_inv hreconcile
  have hconserves := conservesQuantities_of_attributed hattributed hsettlements hattributions
  exact ⟨command, scope, confirmed, confirmation, snapshot, hcommand, hscope, hsource,
    hattributed.proof, hconserves.keys, hconserves.reservation, hconserves.intended,
    hconserves.external, hconserves.owners, hconserves.rows⟩

end Conservation

namespace SampleExecution

open SampleBroker (cash evidence)

def scope : ResultAccessScope := .personal "U" "A"

def route : AcquisitionRoute :=
  SampleRoutes.acquisition "S" Literal.one ⟨Literal.one.val, Literal.one.pos.le⟩

def plan : CandidateAllocationOutcome where
  disposition := .planned
  reasons := []
  planId := some "E1"
  candidateBatchId := some "B"
  candidateEventId := some "C"
  portfolioId := some "P"
  correlations := some ⟨"1", "1"⟩
  routes := [route]
  purchaseSequence := ["S"]
  rows := [
    { candidate := ⟨"S", true, none, [0]⟩
      issuerId := "I"
      committedExposure := 0
      targetGap := 100
      continuousPrincipal := 100
      principal := 100
      outcome := .fullyAllocated
      reasons := []
      legs := [⟨route, 10, 100, 1⟩] }]

def reservation (quantity : PositiveAmount) : AllocationCommitment where
  commitmentId := "E2:S:A"
  accountId := "A"
  securityId := "S"
  issuerId := "I"
  brokerOrderId := none
  principal := 10 * quantity.val
  quantity := some quantity.val
  priceCap := some 10
  purchaseCost := 1
  disposalFriction := 0
  evidence := evidence 0
  quantity_pos := fun _ h => Option.some.inj h ▸ quantity.pos

def revalidation (t : Instant) : CandidateAllocationCommand where
  cutoffAt := t
  riskHandoff := ⟨"P", "H", "H1", "H2", "H3", "H4"⟩
  candidateEventId := "C"

def planFact : DecisionEventFact where
  case := { decisionEventId := "E1", businessObjectId := "E1", accessScope := some scope,
            candidateAllocation := some (revalidation 0) }
  result := { candidateAllocation := some plan }
  committedAt := 0
  decisionEventId := "E1"

def confirmationFact (eventId : String) (quantity : PositiveAmount) : DecisionEventFact where
  case :=
    { decisionEventId := eventId
      businessObjectId := eventId
      accessScope := some scope
      candidateConfirmation := some
        { operation := .submit
          userId := "U"
          portfolioId := "P"
          candidateBatchId := "B"
          planEventId := "E1"
          planId := "E1"
          seenConfirmationId := none
          withdrawalPositionEventId := none
          choices := [⟨"S", .accept⟩]
          revalidation := revalidation 10 } }
  result :=
    { candidateConfirmation := some
        { disposition := .confirmed
          reasons := []
          confirmationId := some eventId
          planId := some "E1"
          portfolioId := some "P"
          choices := [⟨"S", .accept⟩]
          reservations := [reservation quantity] } }
  committedAt := 10
  decisionEventId := eventId

/-- An entry that buys a quantity for ten apiece, or corrects one that did. -/
def entry (entryId : String) (quantity : ℚ) (occurredAt : Instant)
    (corrects : Option String := none) : AuthoritativeLedgerEntry :=
  SampleBroker.fill entryId quantity (10 * quantity) (-10 * quantity) occurredAt corrects

/-- An order at the broker for a quantity, of which some is filled. -/
def order (orderId : String) (status : BrokerOrderStatus) (causal : Option String)
    (quantity : PositiveAmount) (filled remaining : ℕ) : BrokerExecutionOrder where
  orderId := orderId
  accountId := "A"
  securityId := "S"
  issuerId := "I"
  side := .buy
  status := status
  quantity := quantity.val
  filledQuantity := filled
  remainingQuantity := some (remaining : ℚ)
  limitPrice := some 10
  reservedCash := some (10 * remaining)
  submittedAt := 20
  causalReservationId := causal
  stepConfirmationId := none
  evidence := evidence 50
  quantity_pos := quantity.pos
  filledQuantity_nonneg := Nat.cast_nonneg _
  remainingQuantity_nonneg := fun _ h => Option.some.inj h ▸ Nat.cast_nonneg _
  limitPrice_pos := Literal.mem_ten_pos
  reservedCash_nonneg := fun _ h => Option.some.inj h ▸ 
    mul_nonneg Literal.ten.pos.le (Nat.cast_nonneg _)

def snapshot (entries : List AuthoritativeLedgerEntry) : ReconciledPositionSnapshot :=
  SampleBroker.snapshot (evidence 50) 50 1000 [cash (evidence 50) 1000 1000] entries

def positionFact (snapshot : ReconciledPositionSnapshot) : DecisionEventFact where
  case := { decisionEventId := "E3", businessObjectId := "E3", accessScope := some scope }
  result :=
    { position := some
        { disposition := .reconciled, reasons := [], snapshot := snapshot, conflicts := [] } }
  committedAt := 50
  decisionEventId := "E3"

def ledger (confirmations : List DecisionEventFact) (snapshot : ReconciledPositionSnapshot) :
    DecisionLedger where
  events := planFact :: confirmations ++ [positionFact snapshot]
  observedAt := 60
  sessionCloseOn := fun _ _ => some 1000

def case (orders : List BrokerExecutionOrder) (fills : List BrokerExecutionFill) :
    FrozenDecisionCase where
  decisionEventId := "E4"
  businessObjectId := "E4"
  accessScope := some scope
  candidateExecution := some
    { operation := .reconcile
      portfolioId := "P"
      planEventId := "E1"
      confirmationEventId := "E2"
      cutoffAt := 50
      seenExecutionId := none
      positionEventId := some "E3"
      brokerEvidence := some (evidence 50)
      fundsEvidence := some (evidence 50)
      orders := orders
      fills := fills }

def fill (entryId : String) : BrokerExecutionFill := ⟨entryId, "O1", "A", 10, [], by decide +kernel⟩

/-- A purchase of ten pieces and a correction that takes four of them back. -/
def corrected : DecisionLedger :=
  ledger [confirmationFact "E2" Literal.ten]
    (snapshot [entry "F1" 10 30, entry "F2" (-4) 40 (some "F1")])

def correctedCase : FrozenDecisionCase :=
  case [order "O1" .cancelled (some "E2:S:A") Literal.ten 6 0]
    [fill "F1", fill "F2"]

/-- Twelve pieces are bought for a reservation of ten that was first recorded for twenty. -/
def recordedOtherwise : DecisionLedger :=
  ledger [confirmationFact "E0" Literal.twenty,
    confirmationFact "E2" Literal.ten] (snapshot [entry "F1" 12 30])

def recordedOtherwiseCase : FrozenDecisionCase :=
  case [order "O1" .filled (some "E2:S:A") ⟨12, by decide +kernel⟩ 12 0]
    [fill "F1"]

def decimals : DecimalContext := .ofPrecision 38 .halfEven DecimalContext.thirtyEight_pos

def large : PositiveAmount := ⟨10 ^ 38, by decide +kernel⟩

/-- A purchase of half a piece before one of more pieces than the digits can count. -/
def rounded : DecisionLedger :=
  ledger [confirmationFact "E2" large]
    (snapshot [entry "F1" (1 / 2) 30, entry "F2" (10 ^ 38) 40])

def roundedCase : FrozenDecisionCase :=
  case [order "O1" .filled (some "E2:S:A") large (10 ^ 38) 0] [fill "F1", fill "F2"]

end SampleExecution

open SampleExecution in
/-- What a purchase and its correction conserve. -/
theorem sample_conservesQuantities :
    ∃ outcome, adjudicateCandidateExecution .exact corrected correctedCase true = some outcome ∧
      outcome.disposition = .reconciled ∧
      ∃ command scope confirmed confirmation snapshot,
        correctedCase.candidateExecution = some command ∧
        correctedCase.accessScope = some scope ∧
        executionSource corrected scope command true = some (confirmed, confirmation) ∧
        executionProof corrected scope command = some snapshot ∧
        ConservesQuantities corrected scope command confirmation snapshot outcome := by
  have hrun : (adjudicateCandidateExecution .exact corrected correctedCase true).any
      (·.disposition = .reconciled) := by decide +kernel
  obtain ⟨outcome, houtcome, hreconciled⟩ := (Option.any_eq_true _ _).mp hrun
  exact ⟨outcome, houtcome, of_decide_eq_true hreconciled,
    reconciled_conservesQuantities houtcome (of_decide_eq_true hreconciled)⟩

open SampleExecution in
/-- A correction takes intent back, a reservation that was first recorded otherwise does not add
up, and rounding takes more than was accepted. -/
theorem sample_conservation_exceptions :
    (adjudicateCandidateExecution decimals corrected correctedCase true).any (fun outcome =>
      outcome.disposition = .reconciled ∧
        ¬∀ fill ∈ outcome.fills, fill.classification = .planned ∨ fill.classification = .deviation →
          fill.quantity = fill.intentQuantity + fill.externalQuantity ∧ 0 ≤ fill.intentQuantity ∧
            0 ≤ fill.externalQuantity) ∧
    (adjudicateCandidateExecution decimals recordedOtherwise recordedOtherwiseCase true).any
      (fun outcome => outcome.disposition = .reconciled ∧
        ¬∀ row ∈ outcome.rows, row.filledQuantity + row.remainingQuantity = row.acceptedQuantity) ∧
    (adjudicateCandidateExecution decimals rounded roundedCase true).any (fun outcome =>
      outcome.disposition = .reconciled ∧
        ¬(outcome.fills.map (·.intentQuantity)).sum ≤ 10 ^ 38) := by
  decide +kernel

end StockProfiler.DecisionCases
