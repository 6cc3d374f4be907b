import StockProfiler.DecisionCases.MonitoringProjection

/-!
# What a projection covers

Each target of the deterministic plan takes over the place of the first case that shares an
obligation with it, also of a case that another target of the plan has just made. The obligations
alone say which places a target may replace and which ones it surely does. A projection covers the
plan where whatever its targets may replace is named and carried again, and it does not where
something that they surely replace is nowhere else.
-/

namespace StockProfiler.DecisionCases

open PositionManagement Portfolio Delivery

variable {place number : ℕ}

section Places

variable (retained : List MonitoringCase) (plan : ExecutionPlanOutcome)

/-- The targets of a plan that an obligation asks for. -/
def obligedTargets : List ExecutionTarget := plan.targets.filter (·.sourceObligationIds ≠ [])

/-- The obligations at a place: of a retained case, or of a target of the plan. -/
def placeObligations : List (List String) :=
  retained.map (·.obligationIds) ++ (obligedTargets plan).map (·.sourceObligationIds)

/-- The targets that are required at a place. -/
def placeTargets : List (List ExecutionTarget) :=
  retained.map (·.requiredTargets) ++ (obligedTargets plan).map ([·])

/-- A target of the plan takes over a place. -/
def Replaces (number place : ℕ) : Prop :=
  TakesOver (fun asked holder => Intersects holder asked) (retained.map (·.obligationIds))
    ((obligedTargets plan).map (·.sourceObligationIds)) number place

/-- No target of the plan takes over a place. -/
def Stays (place : ℕ) : Prop :=
  Kept (fun asked holder => Intersects holder asked) (retained.map (·.obligationIds))
    ((obligedTargets plan).map (·.sourceObligationIds)) place

/-- A target shares an obligation with the case that is at a place before it. -/
def Reaches (number place : ℕ) : Prop :=
  MeetsAt (fun asked holder => Intersects holder asked) (retained.map (·.obligationIds))
    ((obligedTargets plan).map (·.sourceObligationIds)) number place

/-- A target shares an obligation with the case at a place, and there are enough earlier targets to
replace all the cases before it that share one with the target. -/
def MayReplace (number place : ℕ) : Prop :=
  MayTakeOver (fun asked holder => Intersects holder asked) (retained.map (·.obligationIds))
    ((obligedTargets plan).map (·.sourceObligationIds)) number place

/-- The case at a place is the first that shares an obligation with a target, and no earlier target
shares one with it. -/
def SurelyReplaces (number place : ℕ) : Prop :=
  SurelyTakesOver (fun asked holder => Intersects holder asked) (retained.map (·.obligationIds))
    ((obligedTargets plan).map (·.sourceObligationIds)) number place

/-- No target of the plan shares an obligation with the case that is at a place before it. -/
def Untouched (place : ℕ) : Prop :=
  SurelyKept (fun asked holder => Intersects holder asked) (retained.map (·.obligationIds))
    ((obligedTargets plan).map (·.sourceObligationIds)) place

/-- No target of the plan surely replaces the case at a place. -/
def MayRemain (place : ℕ) : Prop :=
  MayBeKept (fun asked holder => Intersects holder asked) (retained.map (·.obligationIds))
    ((obligedTargets plan).map (·.sourceObligationIds)) place

instance (number place : ℕ) : Decidable (MayReplace retained plan number place) :=
  inferInstanceAs (Decidable (MayTakeOver ..))

instance : DecidablePred (Untouched retained plan) := fun _ =>
  inferInstanceAs (Decidable (SurelyKept ..))

/-- A required target keeps no more of its security than a target asks for. -/
def ExecutionTarget.AsStrict (required target : ExecutionTarget) : Prop :=
  required.securityId = target.securityId ∧ required.targetQuantity ≤ target.targetQuantity

instance (required target : ExecutionTarget) :
    Decidable (ExecutionTarget.AsStrict required target) :=
  inferInstanceAs (Decidable (_ ∧ _))

/-- Some case requires a target that is as strict. -/
def NamedBy (cases : List MonitoringCase) (target : ExecutionTarget) : Prop :=
  ∃ item ∈ cases, ∃ required ∈ item.requiredTargets, ExecutionTarget.AsStrict required target

instance (cases : List MonitoringCase) (target : ExecutionTarget) :
    Decidable (NamedBy cases target) :=
  inferInstanceAs (Decidable (∃ item ∈ cases, ∃ required ∈ item.requiredTargets,
    ExecutionTarget.AsStrict required target))

variable (P : ℕ → Prop)

/-- One of some places requires a target that is as strict. -/
def NamedAt (target : ExecutionTarget) : Prop :=
  ∃ place < retained.length + (obligedTargets plan).length, P place ∧
    ∃ targets ∈ (placeTargets retained plan)[place]?, ∃ required ∈ targets,
      ExecutionTarget.AsStrict required target

/-- One of some places carries an obligation. -/
def CarriedAt (identity : String) : Prop :=
  ∃ place < retained.length + (obligedTargets plan).length, P place ∧
    ∃ ids ∈ (placeObligations retained plan)[place]?, identity ∈ ids

instance [DecidablePred P] (target : ExecutionTarget) :
    Decidable (NamedAt retained plan P target) :=
  inferInstanceAs (Decidable (∃ place < _, _))

instance [DecidablePred P] (identity : String) :
    Decidable (CarriedAt retained plan P identity) :=
  inferInstanceAs (Decidable (∃ place < _, _))

variable (added : List MonitoringCase)

/-- A target is for the security of an earlier one and no weaker, or the earlier one is named by a
case that no target shares an obligation with. -/
def NamesAgain (number place : ℕ) : Prop :=
  ∀ successor ∈ (obligedTargets plan)[number]?, ∀ target ∈ (obligedTargets plan)[place]?,
    ExecutionTarget.AsStrict successor target ∨
      NamedAt retained plan (Untouched retained plan) target ∨ NamedBy added target

/-- A target has the obligations at a place, or they are carried by a case that no target shares an
obligation with. -/
def CarriesAgain (number place : ℕ) : Prop :=
  ∀ successor ∈ (obligedTargets plan)[number]?, ∀ ids ∈ (placeObligations retained plan)[place]?,
    ∀ identity ∈ ids, identity ∈ successor.sourceObligationIds ∨
      CarriedAt retained plan (Untouched retained plan) identity

instance (number place : ℕ) : Decidable (NamesAgain retained plan added number place) :=
  inferInstanceAs (Decidable (∀ successor ∈ (obligedTargets plan)[number]?,
    ∀ target ∈ (obligedTargets plan)[place]?, _))

instance (number place : ℕ) : Decidable (CarriesAgain retained plan number place) :=
  inferInstanceAs (Decidable (∀ successor ∈ (obligedTargets plan)[number]?,
    ∀ ids ∈ (placeObligations retained plan)[place]?, ∀ identity ∈ ids, _))

/-- Whatever the targets of a plan may replace is named and carried again. -/
structure ReplacesSafely : Prop where
  named : ∀ number < (obligedTargets plan).length, ∀ place < number,
    MayReplace retained plan number (retained.length + place) →
      NamesAgain retained plan added number place
  carried : ∀ number < (obligedTargets plan).length, ∀ place < retained.length + number,
    MayReplace retained plan number place → CarriesAgain retained plan number place

instance : Decidable (ReplacesSafely retained plan added) :=
  decidable_of_iff (_ ∧ _) ⟨fun ⟨named, carried⟩ => ⟨named, carried⟩,
    fun h => ⟨h.named, h.carried⟩⟩

/-- Whatever the targets of a plan surely replace is elsewhere, too. -/
structure MayCover : Prop where
  /-- Each target is named at a place that none surely replaces, or by another case. -/
  named : ∀ target ∈ obligedTargets plan,
    NamedAt retained plan (MayRemain retained plan) target ∨ NamedBy added target
  /-- What a target surely replaces is carried at a place that none surely replaces. -/
  carried : ∀ number place, SurelyReplaces retained plan number place →
    ∀ ids ∈ (placeObligations retained plan)[place]?, ∀ identity ∈ ids,
      CarriedAt retained plan (MayRemain retained plan) identity

/-- The targets of a plan are for different securities that no other case names, and the retained
cases share no obligation with them. -/
structure Standalone : Prop where
  securities : ((obligedTargets plan).map (·.securityId)).Nodup
  unrelated : ∀ item ∈ retained, ∀ target ∈ obligedTargets plan,
    ¬ Intersects item.obligationIds target.sourceObligationIds
  unnamed : ∀ target ∈ obligedTargets plan, ¬ NamedBy (retained ++ added) target

end Places

theorem ExecutionTarget.AsStrict.trans {first second third : ExecutionTarget}
    (h : ExecutionTarget.AsStrict first second) (h' : ExecutionTarget.AsStrict second third) :
    ExecutionTarget.AsStrict first third :=
  ⟨h.1.trans h'.1, h.2.trans h'.2⟩

section Bounds

variable {retained : List MonitoringCase} {plan : ExecutionPlanOutcome}

theorem namedBy_append {cases others : List MonitoringCase} {target : ExecutionTarget} :
    NamedBy (cases ++ others) target ↔ NamedBy cases target ∨ NamedBy others target := by
  simp only [NamedBy, List.mem_append, or_and_right, exists_or]

/-- The places of a list are below its length. -/
theorem lt_of_mem_placeTargets {targets : List ExecutionTarget}
    (h : targets ∈ (placeTargets retained plan)[place]?) :
    place < retained.length + (obligedTargets plan).length := by
  have hlt := (List.getElem?_eq_some_iff.mp h).1
  rwa [placeTargets, List.length_append, List.length_map, List.length_map] at hlt

theorem lt_of_mem_placeObligations {ids : List String}
    (h : ids ∈ (placeObligations retained plan)[place]?) :
    place < retained.length + (obligedTargets plan).length := by
  have hlt := (List.getElem?_eq_some_iff.mp h).1
  rwa [placeObligations, List.length_append, List.length_map, List.length_map] at hlt

theorem namedAt_iff {P : ℕ → Prop} {target : ExecutionTarget} :
    NamedAt retained plan P target ↔ ∃ place, P place ∧
      ∃ targets ∈ (placeTargets retained plan)[place]?, ∃ required ∈ targets,
        ExecutionTarget.AsStrict required target :=
  ⟨fun ⟨place, _, h⟩ => ⟨place, h⟩, fun ⟨place, hP, targets, htargets, h⟩ =>
    ⟨place, lt_of_mem_placeTargets htargets, hP, targets, htargets, h⟩⟩

theorem carriedAt_iff {P : ℕ → Prop} {identity : String} :
    CarriedAt retained plan P identity ↔ ∃ place, P place ∧
      ∃ ids ∈ (placeObligations retained plan)[place]?, identity ∈ ids :=
  ⟨fun ⟨place, _, h⟩ => ⟨place, h⟩, fun ⟨place, hP, ids, hids, h⟩ =>
    ⟨place, lt_of_mem_placeObligations hids, hP, ids, hids, h⟩⟩

/-- More places name at least as much. -/
theorem NamedAt.mono {P Q : ℕ → Prop} (hPQ : ∀ place, P place → Q place) {target : ExecutionTarget}
    (h : NamedAt retained plan P target) : NamedAt retained plan Q target := by
  obtain ⟨place, hlt, hP, hnamed⟩ := h
  exact ⟨place, hlt, hPQ place hP, hnamed⟩

theorem CarriedAt.mono {P Q : ℕ → Prop} (hPQ : ∀ place, P place → Q place) {identity : String}
    (h : CarriedAt retained plan P identity) : CarriedAt retained plan Q identity := by
  obtain ⟨place, hlt, hP, hcarried⟩ := h
  exact ⟨place, hlt, hPQ place hP, hcarried⟩

/-- A case that no target shares an obligation with stays. -/
theorem Untouched.stays (h : Untouched retained plan place) : Stays retained plan place :=
  SurelyKept.kept h

theorem Stays.mayRemain (h : Stays retained plan place) : MayRemain retained plan place :=
  Kept.mayBeKept h

theorem SurelyReplaces.replaces (h : SurelyReplaces retained plan number place) :
    Replaces retained plan number place :=
  SurelyTakesOver.takesOver h

theorem Replaces.mayReplace (h : Replaces retained plan number place) :
    MayReplace retained plan number place :=
  TakesOver.mayTakeOver h

theorem Replaces.lt (h : Replaces retained plan number place) :
    number < (obligedTargets plan).length ∧ place < retained.length + number := by
  have hlt := lt_of_takesOver h
  rwa [List.length_map, List.length_map] at hlt

end Bounds

section Loop

variable (identities : CaseIdentities) (reads : MonitoringReads) (command : MonitoringCommand)
  (source : ConclusionReport) (original : OriginalAction) (action : PositionActionOutcome)
  (plan : ExecutionPlanOutcome) (retained : List MonitoringCase)

/-- A target meets the cases that share an obligation with it. -/
def MeetsCase (target : ExecutionTarget) (item : MonitoringCase) : Prop :=
  Intersects item.obligationIds target.sourceObligationIds

instance (target : ExecutionTarget) : DecidablePred (MeetsCase target) := fun _ =>
  inferInstanceAs (Decidable (Intersects _ _))

theorem foldl_projectTarget : plan.targets.foldl
      (projectTarget identities reads command source original action plan) retained =
    (obligedTargets plan).foldl (takeOver MeetsCase
      (targetCase identities reads command source original action plan)) retained := by
  rw [obligedTargets, List.foldl_filter]
  congr 1
  funext items target
  by_cases hids : target.sourceObligationIds = []
  · rw [projectTarget, if_pos hids, if_neg (by simpa using hids)]
  · rw [projectTarget, if_neg hids, if_pos (by simpa using hids), takeOver]
    change _ = Option.elim (previousCase items target) items items.erase ++
      [targetCase identities reads command source original action plan target
        (previousCase items target)]
    cases previousCase items target <;> rfl

theorem projectionRun : TakeoverRun MeetsCase
    (targetCase identities reads command source original action plan)
    (fun asked holder => Intersects holder asked) (·.obligationIds) (·.sourceObligationIds)
    retained (obligedTargets plan) :=
  takeoverRun ⟨fun _ _ => Iff.rfl, fun _ _ => rfl⟩

theorem namedBy_loop_iff (target : ExecutionTarget) :
    NamedBy (plan.targets.foldl
      (projectTarget identities reads command source original action plan) retained) target ↔
      NamedAt retained plan (Stays retained plan) target := by
  rw [foldl_projectTarget, NamedBy, namedAt_iff]
  exact (projectionRun identities reads command source original action plan
    retained).exists_item_iff (·.requiredTargets) ([·])
      (fun targets => ∃ required ∈ targets, ExecutionTarget.AsStrict required target)
      (fun _ _ => rfl)

theorem carriedBy_loop_iff (identity : String) :
    (∃ item ∈ plan.targets.foldl
      (projectTarget identities reads command source original action plan) retained,
        identity ∈ item.obligationIds) ↔
      CarriedAt retained plan (Stays retained plan) identity := by
  rw [foldl_projectTarget, carriedAt_iff]
  exact (projectionRun identities reads command source original action plan
    retained).exists_item_iff (·.obligationIds) (·.sourceObligationIds) (identity ∈ ·)
      (fun _ _ => rfl)

end Loop

section Coverage

variable {retained added : List MonitoringCase} {plan : ExecutionPlanOutcome}

theorem placeTargets_append (place : ℕ) :
    (placeTargets retained plan)[retained.length + place]? =
      (obligedTargets plan)[place]?.map ([·]) := by
  rw [placeTargets,
    List.getElem?_append_right (by rw [List.length_map]; exact Nat.le_add_right _ _),
    List.length_map, Nat.add_sub_cancel_left, List.getElem?_map]

theorem placeTargets_retained (hplace : place < retained.length) :
    (placeTargets retained plan)[place]? = retained[place]?.map (·.requiredTargets) := by
  rw [placeTargets, List.getElem?_append_left (by rwa [List.length_map]), List.getElem?_map]

theorem placeObligations_append (place : ℕ) :
    (placeObligations retained plan)[retained.length + place]? =
      (obligedTargets plan)[place]?.map (·.sourceObligationIds) := by
  rw [placeObligations,
    List.getElem?_append_right (by rw [List.length_map]; exact Nat.le_add_right _ _),
    List.length_map, Nat.add_sub_cancel_left, List.getElem?_map]

/-- What holds of places that stay, and passes from a target to what it replaces, holds of all
places. -/
theorem forall_of_replaces {P : ℕ → Prop} (hstays : ∀ place, Stays retained plan place → P place)
    (hreplaced : ∀ number place, Replaces retained plan number place →
      P (retained.length + number) → P place) :
    ∀ place < retained.length + (obligedTargets plan).length, P place := by
  have hall := forall_of_takesOver hstays (fun number place h => by
    rw [List.length_map]
    exact hreplaced number place h)
  rwa [List.length_map, List.length_map] at hall

theorem exists_successor (h : Replaces retained plan number place) :
    ∃ successor, (obligedTargets plan)[number]? = some successor :=
  ⟨_, List.getElem?_eq_getElem h.lt.1⟩

/-- Where what is replaced is named again, each target is named by a case that stays. -/
theorem ReplacesSafely.namedAt (h : ReplacesSafely retained plan added) :
    ∀ target ∈ obligedTargets plan,
      NamedAt retained plan (Stays retained plan) target ∨ NamedBy added target := by
  have hplaces : ∀ place < retained.length + (obligedTargets plan).length,
      ∀ index, place = retained.length + index → ∀ target ∈ (obligedTargets plan)[index]?,
        NamedAt retained plan (Stays retained plan) target ∨ NamedBy added target := by
    refine forall_of_replaces ?_ ?_
    · rintro place hstays index rfl target htarget
      rw [Option.mem_def] at htarget
      refine .inl (namedAt_iff.mpr ⟨_, hstays, [target], ?_, target, List.mem_singleton.mpr rfl,
        rfl, le_rfl⟩)
      rw [placeTargets_append, htarget]
      rfl
    · rintro number place hreplaces ih index rfl target htarget
      obtain ⟨successor, hsuccessor⟩ := exists_successor hreplaces
      have hlt := hreplaces.lt
      have hagain := h.named number hlt.1 index (by omega) hreplaces.mayReplace
      rcases hagain successor hsuccessor target htarget with hstrict | huntouched | hadded
      · -- Whatever names the successor names the target that it replaced.
        rcases ih number rfl successor hsuccessor with
          ⟨stays, hbound, hstays, targets, htargets, required, hmem, hrequired⟩ |
            ⟨item, hitem, required, hmem, hrequired⟩
        · exact .inl ⟨stays, hbound, hstays, targets, htargets, required, hmem,
            hrequired.trans hstrict⟩
        · exact .inr ⟨item, hitem, required, hmem, hrequired.trans hstrict⟩
      · exact .inl (huntouched.mono fun _ => Untouched.stays)
      · exact .inr hadded
  intro target hmem
  obtain ⟨index, htarget⟩ := List.mem_iff_getElem?.mp hmem
  have hlt := (List.getElem?_eq_some_iff.mp htarget).1
  exact hplaces _ (by omega) index rfl target htarget

/-- Where what is replaced is carried again, each replaced obligation is at a case that stays. -/
theorem ReplacesSafely.carriedAt (h : ReplacesSafely retained plan added) :
    ∀ number place, Replaces retained plan number place →
      ∀ ids ∈ (placeObligations retained plan)[place]?, ∀ identity ∈ ids,
        CarriedAt retained plan (Stays retained plan) identity := by
  have hplaces : ∀ place < retained.length + (obligedTargets plan).length,
      ∀ ids ∈ (placeObligations retained plan)[place]?, ∀ identity ∈ ids,
        CarriedAt retained plan (Stays retained plan) identity := by
    refine forall_of_replaces ?_ ?_
    · intro place hstays ids hids identity hmem
      exact carriedAt_iff.mpr ⟨place, hstays, ids, hids, hmem⟩
    · intro number place hreplaces ih ids hids identity hmem
      obtain ⟨successor, hsuccessor⟩ := exists_successor hreplaces
      have hlt := hreplaces.lt
      have hagain := h.carried number hlt.1 place hlt.2 hreplaces.mayReplace
      rcases hagain successor hsuccessor ids hids identity hmem with hown | huntouched
      · refine ih successor.sourceObligationIds ?_ identity hown
        rw [Option.mem_def, placeObligations_append, hsuccessor]
        rfl
      · exact huntouched.mono fun _ => Untouched.stays
  intro number place _ ids hids
  exact hplaces place (lt_of_mem_placeObligations hids) ids hids

theorem reaches_append :
    Reaches retained plan number (retained.length + place) ↔ place < number ∧
      ∃ successor ∈ (obligedTargets plan)[number]?, ∃ target ∈ (obligedTargets plan)[place]?,
        Intersects target.sourceObligationIds successor.sourceObligationIds := by
  have hplace := @placeObligations_append retained plan place
  rw [placeObligations] at hplace
  simp only [Reaches, MeetsAt, SharesAt, hplace, List.length_map, Nat.add_lt_add_iff_left,
    List.getElem?_map, Option.mem_def, Option.map_eq_some_iff, exists_exists_and_eq_and]

theorem reaches_retained (hplace : place < retained.length) :
    Reaches retained plan number place ↔
      ∃ successor ∈ (obligedTargets plan)[number]?, ∃ item ∈ retained[place]?,
        Intersects item.obligationIds successor.sourceObligationIds := by
  have hheld : (retained.map (·.obligationIds) ++
      (obligedTargets plan).map (·.sourceObligationIds))[place]? =
      retained[place]?.map (·.obligationIds) := by
    rw [List.getElem?_append_left (by rwa [List.length_map]), List.getElem?_map]
  have hbefore : place < (retained.map (·.obligationIds)).length + number := by
    rw [List.length_map]
    exact Nat.lt_add_right number hplace
  simp only [Reaches, MeetsAt, SharesAt, hbefore, hheld, true_and, List.getElem?_map,
    Option.mem_def, Option.map_eq_some_iff, exists_exists_and_eq_and]

namespace Standalone

variable (h : Standalone retained plan added)
include h

theorem eq_of_securityId {index other : ℕ} {target named : ExecutionTarget}
    (hnamed : (obligedTargets plan)[other]? = some named)
    (htarget : (obligedTargets plan)[index]? = some target)
    (hsecurity : named.securityId = target.securityId) : other = index := by
  obtain ⟨hother, rfl⟩ := List.getElem?_eq_some_iff.mp hnamed
  obtain ⟨hindex, rfl⟩ := List.getElem?_eq_some_iff.mp htarget
  rw [← List.length_map (·.securityId)] at hother hindex
  have hsame : ((obligedTargets plan).map (·.securityId))[other] =
      ((obligedTargets plan).map (·.securityId))[index] := by
    rw [List.getElem_map, List.getElem_map]
    exact hsecurity
  exact h.securities.getElem_inj_iff.mp hsame

/-- Only an earlier target is reached where the retained cases share nothing with the plan. -/
theorem exists_of_reaches (hreaches : Reaches retained plan number place) :
    ∃ index, place = retained.length + index ∧ index < number ∧
      ∃ successor ∈ (obligedTargets plan)[number]?, ∃ target ∈ (obligedTargets plan)[index]?,
        Intersects target.sourceObligationIds successor.sourceObligationIds := by
  by_cases hplace : place < retained.length
  · obtain ⟨successor, hsuccessor, item, hitem, hshares⟩ :=
      (reaches_retained hplace).mp hreaches
    exact absurd hshares (h.unrelated item (List.mem_of_getElem? hitem) successor
      (List.mem_of_getElem? hsuccessor))
  · obtain ⟨index, rfl⟩ := Nat.exists_eq_add_of_le (Nat.le_of_not_lt hplace)
    exact ⟨index, rfl, reaches_append.mp hreaches⟩

/-- Targets with obligations of their own replace nothing. -/
theorem replacesSafely (hapart : (obligedTargets plan).Pairwise fun earlier later =>
      ¬ Intersects earlier.sourceObligationIds later.sourceObligationIds) :
    ReplacesSafely retained plan added := by
  have hnone : ∀ number place, ¬ MayReplace retained plan number place := by
    intro number place hmay
    obtain ⟨index, rfl, hlt, successor, hsuccessor, target, htarget, hshares⟩ :=
      h.exists_of_reaches hmay.1
    obtain ⟨hnumber, rfl⟩ := List.getElem?_eq_some_iff.mp hsuccessor
    obtain ⟨hindex, rfl⟩ := List.getElem?_eq_some_iff.mp htarget
    exact List.pairwise_iff_getElem.mp hapart index number hindex hnumber hlt hshares
  exact ⟨fun number _ place _ hmay => absurd hmay (hnone number _),
    fun number _ place _ hmay => absurd hmay (hnone number place)⟩

/-- The case of a target is the only one that names it, so none may surely replace it. -/
theorem not_surelyReplaces (hcover : MayCover retained plan added) (number index : ℕ) :
    ¬ SurelyReplaces retained plan number (retained.length + index) := by
  intro hsurely
  obtain ⟨-, -, -, target, htarget, -⟩ := reaches_append.mp hsurely.1
  have hmem := List.mem_of_getElem? htarget
  have hunnamed := h.unnamed target hmem
  rw [namedBy_append] at hunnamed
  rcases hcover.named target hmem with hnamed | hadded
  · obtain ⟨place, hremains, targets, htargets, required, hrequired, hstrict⟩ :=
      namedAt_iff.mp hnamed
    by_cases hplace : place < retained.length
    · rw [placeTargets_retained hplace] at htargets
      obtain ⟨item, hitem, rfl⟩ := Option.map_eq_some_iff.mp htargets
      exact hunnamed (.inl ⟨item, List.mem_of_getElem? hitem, required, hrequired, hstrict⟩)
    · obtain ⟨other, rfl⟩ := Nat.exists_eq_add_of_le (Nat.le_of_not_lt hplace)
      rw [placeTargets_append] at htargets
      obtain ⟨named, hother, rfl⟩ := Option.map_eq_some_iff.mp htargets
      obtain rfl := List.mem_singleton.mp hrequired
      obtain rfl : other = index := h.eq_of_securityId hother htarget hstrict.1
      exact hremains.2 number (lt_of_takesOver hsurely.replaces).1 hsurely
  · exact hunnamed (.inr hadded)

/-- A plan whose targets stand alone is covered only where none shares an obligation with another:
the first one that does would replace the first case that it reaches. -/
theorem pairwise_apart (hcover : MayCover retained plan added) :
    (obligedTargets plan).Pairwise fun earlier later =>
      ¬ Intersects earlier.sourceObligationIds later.sourceObligationIds := by
  have hnone : ∀ number index, ¬ Reaches retained plan number (retained.length + index) := by
    intro number
    induction number using Nat.strongRecOn with
    | ind number ihNumber =>
      intro index
      induction index using Nat.strongRecOn with
      | ind index ihIndex =>
        intro hreaches
        refine h.not_surelyReplaces hcover number index ⟨hreaches, fun preferred hlt hmeets => ?_,
          fun rival hlt hmeets => ihNumber rival hlt index hmeets⟩
        obtain ⟨other, rfl, -⟩ := h.exists_of_reaches hmeets
        exact ihIndex other (by omega) hmeets
  refine List.pairwise_iff_getElem.mpr fun index number hindex hnumber hlt hshares => ?_
  exact hnone number index (reaches_append.mpr ⟨hlt, _, List.getElem?_eq_getElem hnumber, _,
    List.getElem?_eq_getElem hindex, hshares⟩)

end Standalone

end Coverage

section Outcome

variable {reasons : List String} {original : OriginalAction} {action : PositionActionOutcome}
  {units : List PositionActionUnit} {plan : ExecutionPlanOutcome} (identities : CaseIdentities)
  (reads : MonitoringReads) (command : MonitoringCommand) (source : ConclusionReport)
  (blocked : MonitoringOutcome) (prerequisiteMet : Bool)

/-- The statistical case that a projection adds. -/
def addedCases (original : OriginalAction) (action : PositionActionOutcome) :
    List MonitoringCase :=
  if ¬ prerequisiteMet then []
  else match statisticalWindow reads command source original,
      statisticalDirection reads original action with
    | some (windowStart, windowEnd), some direction =>
      [statisticalCase identities source original action direction windowStart windowEnd]
    | _, _ => []

/-- The cases that a projection of a plan replaces. -/
def replacedCases (plan : ExecutionPlanOutcome) : List MonitoringCase :=
  match projectable reads command source blocked with
  | .error _ => []
  | .ok (original, action, _) => replacedItems MeetsCase
      (targetCase identities reads command source original action plan) blocked.cases
      (obligedTargets plan)

/-- The cases of a projection cover a plan. -/
structure CoversPlan (plan : ExecutionPlanOutcome) : Prop where
  /-- Each target with an obligation is required by some case, with no larger quantity. -/
  targets : ∀ target ∈ plan.targets, target.sourceObligationIds ≠ [] → NamedBy
    (projectPositionAction identities reads command source blocked prerequisiteMet).cases target
  /-- Some case carries each obligation of a case that was replaced. -/
  obligations : ∀ previous ∈ replacedCases identities reads command source blocked plan,
    ∀ identity ∈ previous.obligationIds, ∃ item ∈
      (projectPositionAction identities reads command source blocked prerequisiteMet).cases,
        identity ∈ item.obligationIds

variable {identities reads command source blocked prerequisiteMet}

/-- The action that a run projects is the one of its report. -/
theorem action_of_projectable
    (h : projectable reads command source blocked = .ok (original, action, units)) :
    source.positionAction = some action := by
  unfold projectable at h
  split at h
  · rename_i haction
    split at h
    · exact absurd h nofun
    · split at h
      · obtain ⟨-, rfl, -⟩ := Prod.mk.inj (Except.ok.inj h)
        exact haction
      · exact absurd h nofun
  · exact absurd h nofun

theorem cases_of_refused (h : projectable reads command source blocked = .error reasons) :
    (projectPositionAction identities reads command source blocked prerequisiteMet).cases =
      blocked.cases := by
  rw [projectPositionAction, h]

/-- The cases of a projection are what the loop leaves, and the statistical one. -/
theorem cases_of_projectable
    (h : projectable reads command source blocked = .ok (original, action, units)) :
    (projectPositionAction identities reads command source blocked prerequisiteMet).cases =
      projectTargets identities reads command source original action blocked.cases ++
        addedCases identities reads command source prerequisiteMet original action := by
  rw [projectPositionAction, h, addedCases]
  dsimp only
  split
  · exact (List.append_nil _).symm
  · cases statisticalWindow reads command source original with
    | none => exact (List.append_nil _).symm
    | some window => cases statisticalDirection reads original action <;> rfl

theorem obligationIds_addedCases {item : MonitoringCase}
    (h : item ∈ addedCases identities reads command source prerequisiteMet original action) :
    item.obligationIds = [] := by
  unfold addedCases at h
  split at h
  · exact nomatch h
  · split at h
    · obtain rfl := List.mem_singleton.mp h
      rfl
    · exact nomatch h

theorem mem_obligedTargets {target : ExecutionTarget} :
    target ∈ obligedTargets plan ↔ target ∈ plan.targets ∧ target.sourceObligationIds ≠ [] := by
  rw [obligedTargets, List.mem_filter, decide_eq_true_eq]

theorem replacedCases_of_refused (h : projectable reads command source blocked = .error reasons) :
    replacedCases identities reads command source blocked plan = [] := by
  rw [replacedCases, h]

/-- Where a run projects, its cases cover the plan where the places that stay do. -/
theorem coversPlan_iff_stays
    (hrun : projectable reads command source blocked = .ok (original, action, units))
    (hplan : action.deterministicExecution = some plan) :
    CoversPlan identities reads command source blocked prerequisiteMet plan ↔
      (∀ target ∈ obligedTargets plan,
        NamedAt blocked.cases plan (Stays blocked.cases plan) target ∨
          NamedBy (addedCases identities reads command source prerequisiteMet original action)
            target) ∧
      ∀ number place, Replaces blocked.cases plan number place →
        ∀ ids ∈ (placeObligations blocked.cases plan)[place]?, ∀ identity ∈ ids,
          CarriedAt blocked.cases plan (Stays blocked.cases plan) identity := by
  have hcases := @cases_of_projectable original action units identities reads command source
    blocked prerequisiteMet hrun
  have hloop : projectTargets identities reads command source original action blocked.cases =
      plan.targets.foldl
        (projectTarget identities reads command source original action plan) blocked.cases := by
    rw [projectTargets, hplan]
  have htargets : (∀ target ∈ plan.targets, target.sourceObligationIds ≠ [] → NamedBy
      (projectPositionAction identities reads command source blocked prerequisiteMet).cases
        target) ↔ ∀ target ∈ obligedTargets plan,
      NamedAt blocked.cases plan (Stays blocked.cases plan) target ∨
        NamedBy (addedCases identities reads command source prerequisiteMet original action)
          target := by
    simp only [mem_obligedTargets, and_imp, hcases, hloop, namedBy_append, namedBy_loop_iff]
  have hcarried : ∀ identity, (∃ item ∈
      (projectPositionAction identities reads command source blocked prerequisiteMet).cases,
        identity ∈ item.obligationIds) ↔
      CarriedAt blocked.cases plan (Stays blocked.cases plan) identity := by
    intro identity
    rw [hcases, hloop, ← carriedBy_loop_iff identities reads command source original action]
    constructor
    · rintro ⟨item, hitem, hidentity⟩
      rcases List.mem_append.mp hitem with hmem | hmem
      · exact ⟨item, hmem, hidentity⟩
      · rw [obligationIds_addedCases hmem] at hidentity
        exact nomatch hidentity
    · rintro ⟨item, hitem, hidentity⟩
      exact ⟨item, List.mem_append_left _ hitem, hidentity⟩
  have hobligations : (∀ previous ∈ replacedCases identities reads command source blocked plan,
      ∀ identity ∈ previous.obligationIds, ∃ item ∈
        (projectPositionAction identities reads command source blocked prerequisiteMet).cases,
          identity ∈ item.obligationIds) ↔
      ∀ number place, Replaces blocked.cases plan number place →
        ∀ ids ∈ (placeObligations blocked.cases plan)[place]?, ∀ identity ∈ ids,
          CarriedAt blocked.cases plan (Stays blocked.cases plan) identity := by
    simp only [hcarried, replacedCases, hrun]
    exact (projectionRun identities reads command source original action plan
      blocked.cases).forall_replaced_iff (·.obligationIds) (·.sourceObligationIds)
        (fun ids => ∀ identity ∈ ids,
          CarriedAt blocked.cases plan (Stays blocked.cases plan) identity) (fun _ _ => rfl)
  rw [← htargets, ← hobligations]
  exact ⟨fun hcovers => ⟨hcovers.targets, hcovers.obligations⟩, fun h => ⟨h.1, h.2⟩⟩

end Outcome

namespace SampleProjection

def original : OriginalAction where
  command := {
    cutoffAt := 10
    securityId := "S"
    lifecycleId := "L"
    securityEventId := "E"
    execution := {
      portfolioId := "P"
      authorizationId := "A"
      cutoffAt := 10
      concentrationEventId := "X"
      stressEventId := "T"
      liquidityEventId := "Q"
      drawdownEventId := "D" }
    policy := samplePolicy }
  qualificationId := "K"

def target (securityId : String) (quantity : ℚ) (sourceObligationIds : List String) :
    ExecutionTarget where
  securityId
  targetQuantity := quantity
  requiredSaleQuantity := none
  sourceObligationIds
  direction := directionOf quantity

variable (targets : List ExecutionTarget)

def plan : ExecutionPlanOutcome where
  disposition := .planned
  reasons := []
  newExposureBlocked := false
  targets

def action : PositionActionOutcome where
  disposition := .concluded
  securityId := "S"
  lifecycleId := "L"
  deterministicExecution := some (plan targets)

def source : ConclusionReport where
  eventId := "R"
  reportVersionId := "R1"
  knowledgeCutoff := "10"
  positionAction := some (action targets)

def reads : MonitoringReads where
  original := some original
  corrected := false
  inputsUnchanged := true
  actionUnits := fun _ => some []
  exitAssessment := fun _ => none
  riskState := fun _ => none
  assessment := fun _ => none
  history := []

def command : MonitoringCommand where
  contractVersion := "1.1.0"
  portfolioId := "P"
  cutoffAt := 10
  kind := .dailyClose
  sourceEventId := "R"

def identities : CaseIdentities where
  target := fun portfolioId ids => portfolioId ++ String.intercalate "," ids
  statistical := fun eventId reportVersionId => eventId ++ reportVersionId

def blocked (cases : List MonitoringCase) : MonitoringOutcome where
  portfolioId := "P"
  kind := .dailyClose
  disposition := .blocked
  reasons := ["MONITORING_HANDOFF_UNAVAILABLE"]
  cases

def retained (caseId : String) (ids : List String) (required : ExecutionTarget) :
    MonitoringCase where
  caseId
  sourceEventId := "R0"
  obligationIds := ids
  priority := .p1
  plan := none
  requiredTargets := [required]
  firstEstablishedAt := "5"
  lastReviewedAt := "5"

def shared : List ExecutionTarget := [target "S" 50 ["stress"], target "T" 20 ["stress"]]

/-- The second reduction of a shared obligation takes the case of the first one. -/
theorem shared_spec : (source shared).positionAction = some (action shared) ∧
    (action shared).deterministicExecution = some (plan shared) ∧
    target "S" 50 ["stress"] ∈ (plan shared).targets ∧
    ¬ NamedBy (projectPositionAction identities reads command (source shared) (blocked [])
      true).cases (target "S" 50 ["stress"]) := by
  decide +kernel

/-- Two reductions share an obligation that each had a case for, and a third has its own. -/
def reviewed : List ExecutionTarget :=
  [target "S" 50 ["stress"], target "T" 20 ["stress", "issuer"], target "U" 0 ["own"]]

def reviewedCases : List MonitoringCase :=
  [retained "C1" ["stress"] (target "S" 80 ["stress"]),
    retained "C2" ["stress", "issuer"] (target "T" 40 ["stress", "issuer"]),
    retained "C3" ["other"] (target "V" 10 ["other"])]

theorem reviewed_spec : projectable reads command (source reviewed) (blocked reviewedCases) =
      .ok (original, action reviewed, []) ∧
    ReplacesSafely reviewedCases (plan reviewed)
      (addedCases identities reads command (source reviewed) true original (action reviewed)) := by
  decide +kernel

end SampleProjection

end StockProfiler.DecisionCases
