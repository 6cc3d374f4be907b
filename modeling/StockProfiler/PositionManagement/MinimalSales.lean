import StockProfiler.PositionManagement.RoutingChoices

/-!
# Minimal sales

In exact arithmetic a routed plan sells of every security the least legal quantity that
meets its target as far as it can be met.
-/

namespace StockProfiler.PositionManagement

variable {quantity : ℚ} {key : String × String} {legs : List ExecutionLeg}

section Legal

/-- The number of increments counts the steps that stay within a maximum. -/
theorem lt_incrementCount {route : ExecutionRoute} {maximum : ℚ} {k : ℕ} :
    k < incrementCount .exact route maximum ↔
      route.minimumQuantity + k * route.quantityIncrement ≤ maximum := by
  have hpos := route.quantityIncrement_pos
  unfold incrementCount
  split
  · rw [DecimalContext.exact_div, DecimalContext.exact_sub, Int.lt_toNat, Int.lt_add_one_iff,
      Int.le_floor, Int.cast_natCast, le_div_iff₀ hpos, le_sub_iff_add_le']
  · rename_i hlt
    have hstep : 0 ≤ k * route.quantityIncrement := by positivity
    constructor
    · intro h
      exact absurd h (Nat.not_lt_zero _)
    · intro h
      exact absurd (le_trans (le_add_of_nonneg_right hstep) h) hlt

/-- A quantity that a route can sell of a unit. -/
def RouteSells (route : ExecutionRoute) (maximum : ℚ) (total : Option ℚ) (quantity : ℚ) : Prop :=
  (∃ k : ℕ, quantity = route.minimumQuantity + k * route.quantityIncrement ∧
    quantity ≤ maximum) ∨
  (route.allowFullOddLot = true ∧ total = some maximum ∧ quantity = maximum)

theorem mem_legalQuantities {route : ExecutionRoute} {maximum : ℚ} {total : Option ℚ} :
    quantity ∈ legalQuantities .exact route maximum total ↔
      quantity = 0 ∨ RouteSells route maximum total quantity := by
  have hsteps : quantity ∈ (List.range (incrementCount .exact route maximum)).map (fun i =>
      DecimalContext.exact.add route.minimumQuantity
        (DecimalContext.exact.mul i route.quantityIncrement)) ↔
      ∃ k : ℕ, quantity = route.minimumQuantity + k * route.quantityIncrement ∧
        quantity ≤ maximum := by
    simp only [List.bind_eq_flatMap, List.pure_def, List.mem_map, List.mem_flatMap,
      List.mem_range, List.mem_singleton, lt_incrementCount, DecimalContext.exact_add,
      DecimalContext.exact_mul]
    constructor
    · rintro ⟨_, ⟨k, hk, rfl⟩, rfl⟩
      exact ⟨k, rfl, hk⟩
    · rintro ⟨k, rfl, hk⟩
      exact ⟨k, ⟨k, hk, rfl⟩, rfl⟩
  have hodd : quantity ∈ (if route.allowFullOddLot ∧ total = some maximum then [maximum] else []) ↔
      route.allowFullOddLot = true ∧ total = some maximum ∧ quantity = maximum := by
    split
    · rename_i h
      simp [h.1, h.2]
    · rename_i h
      simp only [List.not_mem_nil, false_iff]
      exact fun hall => h ⟨hall.1, hall.2.1⟩
  unfold legalQuantities RouteSells
  rw [mem_sortedSet, List.mem_append, List.mem_cons, hsteps, hodd, or_assoc]

end Legal

section Snapshot

variable (command : ExecutionPlanCommand) (snapshot : ReconciledPositionSnapshot)

/-- A quantity that may be sold of the unit of an account: nothing, the minimum and some
increments within its sellable quantity, or the full odd lot where that is permitted. -/
def IsLegal (key : String × String) (quantity : ℚ) : Prop :=
  quantity = 0 ∨ ∃ unit route maximum,
    (unitsByKey snapshot.actionUnits).get? key = some unit ∧
    (routesByKey command.routes).get? key = some route ∧
    unit.exactStatisticalActionQuantity = some maximum ∧
    RouteSells route maximum unit.totalQuantity quantity

/-- The units of a security, by account. -/
def keysOf (securityId : String) : List (String × String) :=
  (sortedKeys (unitsByKey snapshot.actionUnits)).filter (·.2 = securityId)

/-- What legal quantities of every unit of a security add up to. -/
def legalTotals (securityId : String) : Set ℚ :=
  {total | ∃ values, List.Forall₂ (IsLegal command snapshot) (keysOf snapshot securityId) values ∧
    values.sum = total}

/-- The legal quantities of a unit, as a list. -/
def legalList (key : String × String) : List ℚ :=
  (do
    let unit ← (unitsByKey snapshot.actionUnits).get? key
    let route ← (routesByKey command.routes).get? key
    let maximum ← unit.exactStatisticalActionQuantity
    return legalQuantities .exact route maximum unit.totalQuantity).getD [0]

variable {command snapshot}

theorem mem_legalList :
    quantity ∈ legalList command snapshot key ↔ IsLegal command snapshot key quantity := by
  unfold legalList IsLegal
  cases hunit : (unitsByKey snapshot.actionUnits).get? key with
  | none => simp
  | some unit =>
    cases hroute : (routesByKey command.routes).get? key with
    | none => simp
    | some route =>
      cases hmaximum : unit.exactStatisticalActionQuantity with
      | none => simp [hmaximum]
      | some maximum => simp [hmaximum, mem_legalQuantities]

theorem isLegal_zero (key : String × String) : IsLegal command snapshot key 0 := .inl rfl

end Snapshot

section Totals

variable {lists : List (List ℚ)}

/-- What the choices of one quantity from each list add up to. -/
def choiceTotals (lists : List (List ℚ)) : Set ℚ :=
  {total | ∃ values ∈ choices lists, values.sum = total}

theorem choiceTotals_congr {lists' : List (List ℚ)}
    (h : List.Forall₂ (fun list list' => ∀ quantity, quantity ∈ list ↔ quantity ∈ list')
      lists lists') : choiceTotals lists = choiceTotals lists' := by
  have hmem : ∀ values, values ∈ choices lists ↔ values ∈ choices lists' := by
    intro values
    rw [mem_choices, mem_choices]
    induction h generalizing values with
    | nil => exact Iff.rfl
    | cons hlist _ ih => simp only [List.forall₂_cons_right_iff, hlist, ih]
  ext total
  exact exists_congr fun values => and_congr_left' (hmem values)

/-- The greatest quantity of every list makes the greatest total. -/
theorem isGreatest_choiceTotals {maxima : List ℚ} (h : lists.mapM List.max? = some maxima) :
    IsGreatest (choiceTotals lists) maxima.sum := by
  have hmax := forall₂_of_mapM_eq_some h
  constructor
  · refine ⟨maxima, mem_choices.mpr (hmax.imp fun list maximum h => ?_).flip, rfl⟩
    exact List.max?_mem h
  · rintro total ⟨values, hvalues, rfl⟩
    have hle : List.Forall₂ (· ≤ ·) values maxima := by
      rw [mem_choices] at hvalues
      clear h
      induction hmax generalizing values with
      | nil =>
        obtain rfl := List.forall₂_nil_right_iff.mp hvalues
        exact .nil
      | cons hlist _ ih =>
        obtain ⟨value, rest, hvalue, hrest, rfl⟩ := List.forall₂_cons_right_iff.mp hvalues
        exact .cons ((List.max?_eq_some_iff.mp hlist).2 value hvalue) (ih rest hrest)
    exact hle.sum_le_sum

theorem exists_isGreatest_choiceTotals (h : ∀ list ∈ lists, list ≠ []) :
    ∃ largest, IsGreatest (choiceTotals lists) largest := by
  have hmaxima : ∃ maxima, lists.mapM List.max? = some maxima := by
    induction lists with
    | nil => exact ⟨[], rfl⟩
    | cons list lists ih =>
      rw [List.forall_mem_cons] at h
      obtain ⟨maxima, hmaxima⟩ := ih h.2
      obtain ⟨maximum, hmaximum⟩ := Option.isSome_iff_exists.mp
        (List.isSome_max?_iff.mpr h.1)
      exact ⟨maximum :: maxima, by rw [List.mapM_cons, hmaximum, hmaxima]; rfl⟩
  obtain ⟨maxima, hmaxima⟩ := hmaxima
  exact ⟨_, isGreatest_choiceTotals hmaxima⟩

/-- The least total is the least one that meets what is required as far as it can be met. -/
theorem isLeast_leastTotal {required total : ℚ}
    (h : leastTotal .exact lists required = some total) :
    ∃ largest, IsGreatest (choiceTotals lists) largest ∧
      IsLeast {t | t ∈ choiceTotals lists ∧ min required largest ≤ t} total := by
  unfold leastTotal at h
  obtain ⟨maxima, hmaxima, h⟩ := bind_eq_some.mp h
  refine ⟨maxima.sum, isGreatest_choiceTotals hmaxima, ?_⟩
  have hmem : ∀ t, t ∈ (((choices lists).map DecimalContext.exact.sum).filter
      (min required (DecimalContext.exact.sum maxima) ≤ ·)) ↔
      t ∈ choiceTotals lists ∧ min required maxima.sum ≤ t := by
    intro t
    simp only [List.mem_filter, List.mem_map, DecimalContext.exact_sum, decide_eq_true_eq,
      choiceTotals, Set.mem_ofPred_eq]
  have hmin := List.min?_eq_some_iff.mp h
  exact ⟨(hmem total).mp hmin.1, fun t ht => hmin.2 t ((hmem t).mpr ht)⟩

end Totals

section Options

variable {route : Option ExecutionRoute} {active : List String} {unit : PositionActionUnit}
  {ctx : DecimalContext} {command : ExecutionPlanCommand} {snapshot : ReconciledPositionSnapshot}
  {targets : List ExecutionTarget} {options : RoutingOptions}

/-- The options of a unit are the ones that its route allows. -/
theorem rel_of_routingOptions
    (h : routingOptions ctx command (unitsByKey snapshot.actionUnits) targets = .ok options)
    (key : String × String) : Option.Rel (fun unit own => unitOptions ctx command.cutoffAt
      (activeSecurities targets) ((routesByKey command.routes).get? key) unit = .ok own)
      ((unitsByKey snapshot.actionUnits).get? key) (options.get? key) := by
  refine Dict.get?_rel_of_forall₂ (R := fun key unit own => unitOptions ctx command.cutoffAt
    (activeSecurities targets) ((routesByKey command.routes).get? key) unit = .ok own) ?_ key
  refine (mapM_eq_ok.mp h).imp fun entry result hentry => ?_
  obtain ⟨own, hown, hresult⟩ := bind_eq_ok.mp hentry
  cases hresult
  exact ⟨rfl, hown⟩

theorem securityId_of_unitsByKey {units : List PositionActionUnit}
    (h : (unitsByKey units).get? key = some unit) : unit.securityId = key.2 := by
  obtain ⟨_, -, heq⟩ := List.mem_map.mp (Dict.mem_ofLast (Dict.mem_of_get? h))
  obtain ⟨rfl, rfl⟩ := Prod.mk.inj heq
  rfl

theorem mem_keysOf {securityId : String} :
    key ∈ keysOf snapshot securityId ↔
      ((unitsByKey snapshot.actionUnits).get? key).isSome ∧ key.2 = securityId := by
  unfold keysOf sortedKeys
  rw [List.mem_filter, decide_eq_true_eq, List.mem_map]
  simp only [mem_sortedSet, List.mem_map]
  rw [← Dict.mem_keys_iff]
  refine and_congr_left' ⟨?_, fun h => ⟨toLex key, ⟨key, h, rfl⟩, rfl⟩⟩
  rintro ⟨_, ⟨key', h, rfl⟩, rfl⟩
  exact h

/-- The quantities of an active unit: zero, or what its route can sell. -/
theorem mem_quantities_of_active {own : UnitOptions} {cutoffAt : Instant}
    (h : unitOptions .exact cutoffAt active route unit = .ok own)
    (hactive : unit.securityId ∈ active) (quantity : ℚ) :
    quantity ∈ own.quantities ↔ quantity = 0 ∨ ∃ route' maximum,
      route = some route' ∧ unit.exactStatisticalActionQuantity = some maximum ∧
      RouteSells route' maximum unit.totalQuantity quantity := by
  unfold unitOptions at h
  split at h
  · rename_i hzero
    cases h
    replace hzero := hzero.resolve_right (not_not.mpr hactive)
    rw [List.mem_singleton]
    refine ⟨.inl, fun hlegal => hlegal.elim id ?_⟩
    rintro ⟨route', maximum, -, hmaximum, hsells⟩
    obtain rfl := Option.some.inj (hzero.symm.trans hmaximum)
    rcases hsells with ⟨k, rfl, hle⟩ | ⟨-, -, rfl⟩
    · have hpos := route'.minimumQuantity_pos
      have hstep : 0 ≤ k * route'.quantityIncrement :=
        mul_nonneg k.cast_nonneg route'.quantityIncrement_pos.le
      exact absurd hle (not_le.mpr (add_pos_of_pos_of_nonneg hpos hstep))
    · rfl
  · split at h
    · rename_i maximum price hmaximum hprice
      split at h
      · exact nomatch h
      · rename_i route'
        split at h
        · exact nomatch h
        · split at h
          · exact nomatch h
          · split at h
            · exact nomatch h
            · cases h
              simp [mem_legalQuantities, hmaximum]
    · exact nomatch h

/-- A unit of a security with nothing to sell sells nothing. -/
theorem quantities_of_inactive {own : UnitOptions} {cutoffAt : Instant}
    (h : unitOptions ctx cutoffAt active route unit = .ok own)
    (hactive : unit.securityId ∉ active) : own.quantities = [0] := by
  unfold unitOptions at h
  rw [if_pos (.inr hactive)] at h
  exact Except.ok.inj h ▸ rfl

variable (securityId : String)

/-- The lists of quantities that a security is sold by. -/
theorem lists_securityOptions :
    (securityOptions (unitsByKey snapshot.actionUnits) options securityId).map (·.2) =
      (keysOf snapshot securityId).map fun key =>
        ((options.get? key).map (·.quantities)).getD [] := by
  rw [securityOptions, List.map_map, keysOf]
  rfl

theorem keys_securityOptions :
    (securityOptions (unitsByKey snapshot.actionUnits) options securityId).map (·.1) =
      keysOf snapshot securityId := by
  rw [securityOptions, List.map_map, keysOf]
  exact List.map_id _

/-- The legal totals are the totals of the lists of legal quantities. -/
theorem legalTotals_eq : legalTotals command snapshot securityId =
    choiceTotals ((keysOf snapshot securityId).map (legalList command snapshot)) := by
  ext total
  refine exists_congr fun values => and_congr_left' ?_
  rw [mem_choices, List.forall₂_map_right_iff]
  constructor
  · intro h
    exact (h.imp fun key value hlegal => mem_legalList.mpr hlegal).flip
  · intro h
    exact (List.Forall₂.flip h).imp fun key value hmem => mem_legalList.mp hmem

theorem exists_isGreatest_legalTotals :
    ∃ largest, IsGreatest (legalTotals command snapshot securityId) largest := by
  rw [legalTotals_eq]
  refine exists_isGreatest_choiceTotals (List.forall_mem_map.mpr fun key _ => ?_)
  exact List.ne_nil_of_mem (mem_legalList.mpr (isLegal_zero key))

variable (h : routingOptions .exact command (unitsByKey snapshot.actionUnits) targets = .ok options)
include h

theorem isLegal_of_mem_options (hmem : quantity ∈ ((options.get? key).map (·.quantities)).getD []) :
    IsLegal command snapshot key quantity := by
  have hrel := rel_of_routingOptions h key
  cases hunit : (unitsByKey snapshot.actionUnits).get? key with
  | none =>
    rw [hunit] at hrel
    cases hown : options.get? key with
    | none =>
      rw [hown] at hmem
      exact nomatch hmem
    | some own => exact absurd (hown ▸ hrel) nofun
  | some unit =>
    rw [hunit] at hrel
    cases hown : options.get? key with
    | none => exact absurd (hown ▸ hrel) nofun
    | some own =>
      rw [hown] at hrel hmem
      obtain ⟨hoptions⟩ := hrel
      by_cases hactive : unit.securityId ∈ activeSecurities targets
      · rcases (mem_quantities_of_active hoptions hactive quantity).mp hmem with
          hzero | ⟨route, maximum, hroute, hmaximum, hsells⟩
        · exact .inl hzero
        · exact .inr ⟨unit, route, maximum, hunit, hroute, hmaximum, hsells⟩
      · rw [Option.map_some, Option.getD_some, quantities_of_inactive hoptions hactive,
          List.mem_singleton] at hmem
        exact .inl hmem

/-- A security with something to sell has the legal quantities of its units to choose from. -/
theorem choiceTotals_of_active {securityId : String}
    (hactive : securityId ∈ activeSecurities targets) :
    choiceTotals ((securityOptions (unitsByKey snapshot.actionUnits) options securityId).map
      (·.2)) = legalTotals command snapshot securityId := by
  rw [lists_securityOptions, legalTotals_eq]
  refine choiceTotals_congr ?_
  rw [List.forall₂_map_left_iff, List.forall₂_map_right_iff, List.forall₂_same]
  intro key hkey quantity
  obtain ⟨hsome, rfl⟩ := mem_keysOf.mp hkey
  rw [mem_legalList]
  refine ⟨isLegal_of_mem_options h, fun hlegal => ?_⟩
  obtain ⟨unit, hunit⟩ := Option.isSome_iff_exists.mp hsome
  have hrel := rel_of_routingOptions h key
  rw [hunit] at hrel
  cases hown : options.get? key with
  | none => exact absurd (hown ▸ hrel) nofun
  | some own =>
    rw [hown] at hrel
    obtain ⟨hoptions⟩ := hrel
    have hsecurity := securityId_of_unitsByKey hunit
    refine (mem_quantities_of_active hoptions (hsecurity ▸ hactive) quantity).mpr ?_
    refine hlegal.imp_right ?_
    rintro ⟨unit', route, maximum, hunit', hroute, hmaximum, hsells⟩
    obtain rfl := Option.some.inj (hunit.symm.trans hunit')
    exact ⟨route, maximum, hroute, hmaximum, hsells⟩

/-- A security with nothing to sell has nothing to choose from. -/
theorem choiceTotals_of_inactive {securityId : String}
    (hactive : securityId ∉ activeSecurities targets) {total : ℚ}
    (htotal : total ∈ choiceTotals ((securityOptions (unitsByKey snapshot.actionUnits) options
      securityId).map (·.2))) : total = 0 := by
  rw [lists_securityOptions] at htotal
  obtain ⟨values, hvalues, rfl⟩ := htotal
  rw [mem_choices] at hvalues
  refine List.sum_eq_zero fun value hvalue => ?_
  obtain ⟨list, hlist, hmem⟩ := forall₂_mem_left hvalues hvalue
  obtain ⟨key, hkey, rfl⟩ := List.mem_map.mp hlist
  obtain ⟨hsome, rfl⟩ := mem_keysOf.mp hkey
  obtain ⟨unit, hunit⟩ := Option.isSome_iff_exists.mp hsome
  have hrel := rel_of_routingOptions h key
  rw [hunit] at hrel
  cases hown : options.get? key with
  | none => exact absurd (hown ▸ hrel) nofun
  | some own =>
    rw [hown] at hrel hmem
    obtain ⟨hoptions⟩ := hrel
    have hsecurity := securityId_of_unitsByKey hunit
    rw [Option.map_some, Option.getD_some,
      quantities_of_inactive hoptions (hsecurity ▸ hactive)] at hmem
    exact List.mem_singleton.mp hmem

end Options

section Targets

variable {ctx : DecimalContext} {command : ExecutionPlanCommand}
  {snapshot : ReconciledPositionSnapshot} {targets : List ExecutionTarget}
  {options : RoutingOptions} {fundingGap : Option (List ExecutionLeg → Option ℚ)}
  {target : ExecutionTarget} {routed : TargetRouting}

theorem mem_of_keptVariants {units : Dict (String × String) PositionActionUnit}
    {variants kept : List (List ExecutionLeg)}
    (h : keptVariants ctx command units options fundingGap variants = some kept)
    (hlegs : legs ∈ kept) : legs ∈ variants := by
  unfold keptVariants at h
  split at h
  · exact Option.some.inj h ▸ hlegs
  · obtain ⟨least, hleast, rfl⟩ := Option.map_eq_some_iff.mp h
    obtain rfl := List.mem_singleton.mp hlegs
    exact mem_of_leastRanked hleast

/-- How a target was routed: by variants of the least total of what may be sold. -/
structure RoutedBy (ctx : DecimalContext) (command : ExecutionPlanCommand)
    (snapshot : ReconciledPositionSnapshot) (options : RoutingOptions) (target : ExecutionTarget)
    (routed : TargetRouting) (required total : ℚ) : Prop where
  required_eq : target.requiredSaleQuantity = some required
  total_eq : leastTotal ctx ((securityOptions (unitsByKey snapshot.actionUnits) options
    target.securityId).map (·.2)) required = some total
  revised_eq : routed.revised = reviseTarget ctx target required total
  variants : ∀ legs ∈ routed.variants, ∃ values ∈ choices ((securityOptions
    (unitsByKey snapshot.actionUnits) options target.securityId).map (·.2)),
    ctx.sum values = total ∧ makeLegs ctx command (unitsByKey snapshot.actionUnits)
      (keysOf snapshot target.securityId) values = some legs

theorem routedBy_of_routeTarget (h : routeTarget ctx command (unitsByKey snapshot.actionUnits)
    options fundingGap target = .ok routed) :
    ∃ required total, RoutedBy ctx command snapshot options target routed required total := by
  unfold routeTarget at h
  obtain ⟨-, -, h⟩ := bind_eq_ok.mp h
  obtain ⟨required, hrequired, h⟩ := bind_eq_ok.mp h
  obtain ⟨total, htotal, h⟩ := bind_eq_ok.mp h
  obtain ⟨variants, hvariants, h⟩ := bind_eq_ok.mp h
  obtain ⟨kept, hkept, h⟩ := bind_eq_ok.mp h
  cases h
  rw [known_eq_ok] at hrequired htotal hvariants hkept
  refine ⟨required, total, hrequired, htotal, rfl, fun legs hlegs => ?_⟩
  obtain ⟨values, hvalues, hlegs⟩ := forall₂_mem_right (forall₂_of_mapM_eq_some hvariants)
    (mem_of_keptVariants hkept hlegs)
  obtain ⟨hmem, hsum⟩ := List.mem_filter.mp hvalues
  rw [keys_securityOptions] at hlegs
  exact ⟨values, hmem, of_decide_eq_true hsum, hlegs⟩

section RoutedBy

variable {required total : ℚ}

theorem RoutedBy.sellsOnly (h : RoutedBy ctx command snapshot options target routed required total)
    (hlegs : legs ∈ routed.variants) : SellsOnly legs target.securityId := by
  obtain ⟨values, -, -, hmake⟩ := h.variants legs hlegs
  exact fun leg hleg => securityId_of_makeLegs hmake (fun key hkey => (mem_keysOf.mp hkey).2) hleg

theorem RoutedBy.sum_quantity
    (h : RoutedBy .exact command snapshot options target routed required total)
    (hlegs : legs ∈ routed.variants) : (legs.map (·.quantity)).sum = total := by
  obtain ⟨values, hvalues, hsum, hmake⟩ := h.variants legs hlegs
  rw [DecimalContext.exact_sum] at hsum
  have hlength := (mem_choices.mp hvalues).length_eq
  rw [lists_securityOptions, List.length_map] at hlength
  exact (sum_quantity_of_makeLegs hmake hlength.symm).trans hsum

/-- The legs of a variant sell legal quantities that are not zero. -/
theorem RoutedBy.isLegal (h : RoutedBy ctx command snapshot options target routed required total)
    (hoptions : routingOptions .exact command (unitsByKey snapshot.actionUnits) targets =
      .ok options) (hlegs : legs ∈ routed.variants) {leg : ExecutionLeg} (hleg : leg ∈ legs) :
    IsLegal command snapshot (legKey leg) leg.quantity ∧ leg.quantity ≠ 0 := by
  obtain ⟨values, hvalues, -, hmake⟩ := h.variants legs hlegs
  have hmem : (legKey leg, leg.quantity) ∈
      ((keysOf snapshot target.securityId).zip values).filter (·.2 ≠ 0) := by
    rw [← sales_of_makeLegs hmake]
    exact List.mem_map_of_mem hleg
  obtain ⟨hzip, hne⟩ := List.mem_filter.mp hmem
  rw [mem_choices, lists_securityOptions, List.forall₂_map_right_iff] at hvalues
  have hlist := (List.forall₂_iff_zip.mp hvalues.flip).2 hzip
  exact ⟨isLegal_of_mem_options hoptions hlist, of_decide_eq_true hne⟩

/-- The total is the least legal one that meets the target as far as it can be met. -/
theorem RoutedBy.isLeast (h : RoutedBy .exact command snapshot options target routed required total)
    (hoptions : routingOptions .exact command (unitsByKey snapshot.actionUnits) targets =
      .ok options) (htarget : target ∈ targets) (hnodup : (targets.map (·.securityId)).Nodup) :
    ∃ largest, IsGreatest (legalTotals command snapshot target.securityId) largest ∧
      IsLeast {t | t ∈ legalTotals command snapshot target.securityId ∧
        min required largest ≤ t} total := by
  obtain ⟨largest, hlargest, hleast⟩ := isLeast_leastTotal h.total_eq
  by_cases hzero : target.requiredSaleQuantity = some 0
  · have hinactive : target.securityId ∉ activeSecurities targets := by
      intro hactive
      obtain ⟨other, hother, hsame⟩ := List.mem_map.mp hactive
      obtain ⟨hmem, hne⟩ := List.mem_filter.mp hother
      obtain rfl := List.inj_on_of_nodup_map hnodup hmem htarget hsame
      exact of_decide_eq_true hne hzero
    obtain rfl : (0 : ℚ) = required := Option.some.inj (hzero.symm.trans h.required_eq)
    obtain rfl := choiceTotals_of_inactive hoptions hinactive hleast.1.1
    obtain ⟨most, hmost⟩ : ∃ most, IsGreatest (legalTotals command snapshot target.securityId)
        most := exists_isGreatest_legalTotals _
    have hnone : (0 : ℚ) ∈ legalTotals command snapshot target.securityId := by
      refine ⟨(keysOf snapshot target.securityId).map fun _ => 0, ?_, ?_⟩
      · rw [List.forall₂_map_right_iff, List.forall₂_same]
        exact fun key _ => isLegal_zero key
      · exact List.sum_eq_zero fun value hvalue => by
          obtain ⟨_, _, rfl⟩ := List.mem_map.mp hvalue
          rfl
    have hmin : min 0 most = 0 := min_eq_left (hmost.2 hnone)
    refine ⟨most, hmost, ⟨hnone, hmin.le⟩, fun t ht => ?_⟩
    exact hmin ▸ ht.2
  · have hactive : target.securityId ∈ activeSecurities targets :=
      List.mem_map.mpr ⟨target, List.mem_filter.mpr ⟨htarget, decide_eq_true hzero⟩, rfl⟩
    rw [choiceTotals_of_active hoptions hactive] at hlargest hleast
    exact ⟨largest, hlargest, hleast⟩

end RoutedBy

end Targets

section Plans

variable (command : ExecutionPlanCommand) (snapshot : ReconciledPositionSnapshot)

/-- What legs sell of a security. -/
def soldOf (legs : List ExecutionLeg) (securityId : String) : ℚ :=
  ((legsOf legs securityId).map (·.quantity)).sum

/-- Legs sell the least legal quantity that meets a target as far as it can be met. -/
structure SellsLeast (legs : List ExecutionLeg) (target revised : ExecutionTarget)
    (required remaining largest : ℚ) : Prop where
  security : revised.securityId = target.securityId
  required_eq : target.requiredSaleQuantity = some required
  remaining_eq : revised.remainingQuantity = some remaining
  sold_eq : soldOf legs target.securityId = target.targetQuantity + required - remaining
  largest_legal : IsGreatest (legalTotals command snapshot target.securityId) largest
  least : IsLeast {total | total ∈ legalTotals command snapshot target.securityId ∧
    min required largest ≤ total} (soldOf legs target.securityId)
  gap : revised.remainingGap = some (max 0 (required - soldOf legs target.securityId))
  /-- Rounding sold out a security of which something was to be kept. -/
  full : revised.roundingInducedFullSale = true ↔
    soldOf legs target.securityId = target.targetQuantity + required ∧ 0 < target.targetQuantity

/-- A leg sells a legal quantity of its own account, which is positive unless the account's
sellable quantity is negative. -/
structure LegalLeg (leg : ExecutionLeg) : Prop where
  legal : IsLegal command snapshot (legKey leg) leg.quantity
  ne_zero : leg.quantity ≠ 0
  pos : (∀ unit maximum, (unitsByKey snapshot.actionUnits).get? (legKey leg) = some unit →
    unit.exactStatisticalActionQuantity = some maximum → 0 ≤ maximum) → 0 < leg.quantity

/-- A plan sells the least legal quantities, and says whether they are enough. -/
structure PlansLeast (targets : List ExecutionTarget) (plan : ExecutionPlanOutcome) : Prop where
  sales : List.Forall₂ (fun target revised => ∃ required remaining largest,
    SellsLeast command snapshot plan.legs target revised required remaining largest)
    targets plan.targets
  legs : ∀ leg ∈ plan.legs, LegalLeg command snapshot leg
  complete : plan.disposition = .planned ∨ plan.disposition = .reconfirmationRequired →
    ∀ revised ∈ plan.targets, revised.remainingGap = some 0
  reconfirmation : plan.disposition = .reconfirmationRequired ↔
    (∀ revised ∈ plan.targets, revised.remainingGap = some 0) ∧
      ∃ revised ∈ plan.targets, revised.roundingInducedFullSale = true

variable {command snapshot} {targets : List ExecutionTarget} {plan : ExecutionPlanOutcome}
  {fundingGap : Option (List ExecutionLeg → Option ℚ)}

/-- A legal quantity is positive unless it is nothing or the account's quantity is negative. -/
theorem pos_of_isLegal (h : IsLegal command snapshot key quantity) (hne : quantity ≠ 0)
    (hnonneg : ∀ unit maximum, (unitsByKey snapshot.actionUnits).get? key = some unit →
      unit.exactStatisticalActionQuantity = some maximum → 0 ≤ maximum) : 0 < quantity := by
  rcases h with hzero | ⟨unit, route, maximum, hunit, -, hmaximum, ⟨k, rfl, -⟩ | ⟨-, -, rfl⟩⟩
  · exact absurd hzero hne
  · have hpos := route.minimumQuantity_pos
    have hstep : 0 ≤ k * route.quantityIncrement :=
      mul_nonneg k.cast_nonneg route.quantityIncrement_pos.le
    exact add_pos_of_pos_of_nonneg hpos hstep
  · exact lt_of_le_of_ne (hnonneg unit quantity hunit hmaximum) hne.symm

/-- What a routed plan is made of: a variant of every target. -/
theorem groups_of_routing {ctx : DecimalContext}
    (h : routing ctx command snapshot targets fundingGap = .ok plan) :
    ∃ options routed groups,
      routingOptions ctx command (unitsByKey snapshot.actionUnits) targets = .ok options ∧
      List.Forall₂ (fun target result => routeTarget ctx command (unitsByKey snapshot.actionUnits)
        options fundingGap target = .ok result) targets routed ∧
      List.Forall₂ (fun group result => group ∈ result.variants) groups routed ∧
      plan = routedPlan options targets (routed.map (·.revised)) groups.flatten := by
  unfold routing at h
  obtain ⟨-, -, h⟩ := bind_eq_ok.mp h
  obtain ⟨options, hoptions, h⟩ := bind_eq_ok.mp h
  obtain ⟨routed, hrouted, h⟩ := bind_eq_ok.mp h
  obtain ⟨-, -, h⟩ := bind_eq_ok.mp h
  obtain ⟨legs, hlegs, h⟩ := bind_eq_ok.mp h
  cases h
  obtain ⟨groups, hgroups, rfl⟩ := List.mem_map.mp (mem_of_leastRanked (known_eq_ok.mp hlegs))
  rw [mem_choices, List.forall₂_map_right_iff] at hgroups
  exact ⟨options, routed, groups, hoptions, mapM_eq_ok.mp hrouted, hgroups, rfl⟩

/-- A plan of revised targets says whether every gap is closed and whether rounding sold out. -/
theorem disposition_routedPlan {options : RoutingOptions} {revised : List ExecutionTarget}
    (hgap : ∀ target ∈ revised, ∃ x, target.remainingGap = some (max 0 x)) :
    ((routedPlan options targets revised legs).disposition = .planned ∨
      (routedPlan options targets revised legs).disposition = .reconfirmationRequired →
        ∀ target ∈ revised, target.remainingGap = some 0) ∧
    ((routedPlan options targets revised legs).disposition = .reconfirmationRequired ↔
      (∀ target ∈ revised, target.remainingGap = some 0) ∧
        ∃ target ∈ revised, target.roundingInducedFullSale = true) := by
  have hincomplete : (revised.any fun target => target.remainingGap.all (0 < ·)) = false ↔
      ∀ target ∈ revised, target.remainingGap = some 0 := by
    rw [List.any_eq_false]
    refine forall₂_congr fun target htarget => ?_
    obtain ⟨x, hx⟩ := hgap target htarget
    rw [hx, Option.all_some, decide_eq_true_eq, not_lt, Option.some.injEq]
    exact ⟨fun hle => le_antisymm hle (le_max_left _ _), le_of_eq⟩
  unfold routedPlan
  dsimp only
  cases hany : revised.any fun target => target.remainingGap.all (0 < ·) with
  | true =>
    have hnot := mt hincomplete.mpr fun h => Bool.noConfusion (hany.symm.trans h)
    refine ⟨fun h => ?_, ⟨fun h => ?_, fun h => absurd h.1 hnot⟩⟩
    · rcases h with h | h <;> simp at h
    · simp at h
  | false =>
    have hall := hincomplete.mp hany
    refine ⟨fun _ => hall, ?_⟩
    cases hfull : revised.any (·.roundingInducedFullSale) with
    | true =>
      obtain ⟨target, htarget, hflag⟩ := List.any_eq_true.mp hfull
      exact ⟨fun _ => ⟨hall, target, htarget, hflag⟩, fun _ => rfl⟩
    | false =>
      refine ⟨fun h => by simp at h, fun ⟨_, target, htarget, hflag⟩ => ?_⟩
      exact absurd hflag (List.any_eq_false.mp hfull target htarget)

/-- A plan that is routed in exact arithmetic sells of every security the least legal quantity
that meets its target as far as it can be met. -/
theorem routing_plansLeast (h : routing .exact command snapshot targets fundingGap = .ok plan)
    (hnodup : (targets.map (·.securityId)).Nodup) : PlansLeast command snapshot targets plan := by
  obtain ⟨options, routed, groups, hoptions, hrouted, hgroups, rfl⟩ := groups_of_routing h
  have hby : List.Forall₂ (fun target result => ∃ required total,
      RoutedBy .exact command snapshot options target result required total) targets routed :=
    hrouted.imp fun _ _ => routedBy_of_routeTarget
  have hsells : List.Forall₂ SellsOnly groups (targets.map (·.securityId)) := by
    rw [List.forall₂_map_right_iff, List.forall₂_iff_get]
    refine ⟨hgroups.length_eq.trans hby.length_eq.symm, fun index hgroup htarget => ?_⟩
    obtain ⟨_, _, hrouting⟩ := hby.get htarget (hby.length_eq ▸ htarget)
    exact hrouting.sellsOnly (hgroups.get hgroup (hby.length_eq ▸ htarget))
  have hown := legsOf_flatten hsells hnodup
  rw [List.forall₂_map_right_iff] at hown
  have hsales : List.Forall₂ (fun target result => ∃ required remaining largest,
      SellsLeast command snapshot groups.flatten target result.revised required remaining largest)
      targets routed := by
    rw [List.forall₂_iff_get]
    refine ⟨hby.length_eq, fun index htarget hresult => ?_⟩
    have hgroup : index < groups.length := hgroups.length_eq ▸ hresult
    obtain ⟨required, total, hrouting⟩ := hby.get htarget hresult
    have hsold : soldOf groups.flatten (targets.get ⟨index, htarget⟩).securityId = total := by
      rw [soldOf, hown.get hgroup htarget]
      exact hrouting.sum_quantity (hgroups.get hgroup hresult)
    obtain ⟨largest, hlargest, hleast⟩ :=
      hrouting.isLeast hoptions (List.get_mem ..) hnodup
    refine ⟨required, _, largest, ?_, hrouting.required_eq, by rw [hrouting.revised_eq]; rfl,
      ?_, hlargest, hsold ▸ hleast, ?_, ?_⟩
    · rw [hrouting.revised_eq]
      rfl
    · rw [hsold, DecimalContext.exact_sub, DecimalContext.exact_add, sub_sub_cancel]
    · rw [hrouting.revised_eq, hsold]
      rfl
    · rw [hrouting.revised_eq, hsold]
      exact decide_eq_true_iff
  have hgaps : ∀ target ∈ routed.map (·.revised), ∃ x, target.remainingGap = some (max 0 x) := by
    refine List.forall_mem_map.mpr fun result hresult => ?_
    obtain ⟨target, -, required, remaining, largest, hsale⟩ := forall₂_mem_right hsales hresult
    exact ⟨_, hsale.gap⟩
  obtain ⟨hcomplete, hreconfirmation⟩ := disposition_routedPlan hgaps
  refine ⟨List.forall₂_map_right_iff.mpr hsales, fun leg hleg => ?_, hcomplete, hreconfirmation⟩
  obtain ⟨group, hgroup, hmem⟩ := List.mem_flatten.mp hleg
  obtain ⟨result, hresult, hvariant⟩ := forall₂_mem_left hgroups hgroup
  obtain ⟨target, -, required, total, hrouting⟩ := forall₂_mem_right hby hresult
  obtain ⟨hlegal, hne⟩ := hrouting.isLegal hoptions hvariant hmem
  exact ⟨hlegal, hne, pos_of_isLegal hlegal hne⟩

end Plans

namespace SampleRouting

open Literal

variable {plan : ExecutionPlanOutcome}

def unit (accountId securityId : String) (quantity : ℚ) : PositionActionUnit :=
  SampleBroker.unit accountId securityId quantity (SampleBroker.evidence 0)

def snapshot (units : List PositionActionUnit) : ReconciledPositionSnapshot :=
  { SampleBroker.snapshot (SampleBroker.evidence 0) 0 1000 [] [] with actionUnits := units }

def route (accountId securityId : String) (lot : PositiveAmount) (odd : Bool)
    (commission : Amount) : ExecutionRoute :=
  SampleBroker.route accountId securityId lot odd 0 (SampleBroker.evidence 0) commission

def command (routes : List ExecutionRoute) : ExecutionPlanCommand where
  portfolioId := "P"
  authorizationId := "K"
  cutoffAt := 0
  concentrationEventId := "X"
  stressEventId := "T"
  liquidityEventId := "Q"
  drawdownEventId := "D"
  routes

def target (securityId : String) (kept required : ℚ) : ExecutionTarget where
  securityId
  targetQuantity := kept
  requiredSaleQuantity := some required
  sourceObligationIds := []
  direction := .reduce

def decimals : DecimalContext := .ofPrecision 38 .halfEven DecimalContext.thirtyEight_pos

/-- What a plan is asked for. -/
structure Request where
  routes : List ExecutionRoute
  units : List PositionActionUnit
  targets : List ExecutionTarget

def Request.routing (request : Request) (ctx : DecimalContext)
    (fundingGap : Option (List ExecutionLeg → Option ℚ)) :
    Except RoutingFailure ExecutionPlanOutcome :=
  PositionManagement.routing ctx (command request.routes) (snapshot request.units)
    request.targets fundingGap

def quantities (result : Except RoutingFailure ExecutionPlanOutcome) : Option (List ℚ) :=
  result.toOption.map fun plan => plan.legs.map (·.quantity)

theorem exists_plan {result : Except RoutingFailure ExecutionPlanOutcome} {sold : List ℚ}
    (h : quantities result = some sold) :
    ∃ plan, result = .ok plan ∧ plan.legs.map (·.quantity) = sold := by
  cases result with
  | error _ => exact nomatch h
  | ok plan => exact ⟨plan, rfl, Option.some.inj h⟩

/-- Two accounts, of which the second one may sell its odd lot. -/
def odd : Request where
  routes := [route "A" "S" ten false zero, route "B" "S" ten true zero]
  units := [unit "A" "S" 50, unit "B" "S" 25]
  targets := [target "S" 40 35]

theorem odd_spec : quantities (odd.routing .exact none) = some [10, 25] := by
  decide +kernel

/-- The odd lot and one lot meet the target. -/
theorem odd_plansLeast : ∃ plan, odd.routing .exact none = .ok plan ∧
    plan.legs.map (·.quantity) = [10, 25] ∧
    PlansLeast (command odd.routes) (snapshot odd.units) odd.targets plan := by
  obtain ⟨plan, hplan, hsold⟩ := exists_plan odd_spec
  exact ⟨plan, hplan, hsold, routing_plansLeast hplan (by decide)⟩

def twice : Request where
  routes := [route "A" "S" ten false zero]
  units := [unit "A" "S" 50]
  targets := [target "S" 40 10, target "S" 40 10]

/-- A holding just below two shares, in digits that the arithmetic rounds. -/
def fine : PositionActionUnit := unit "A" "S" (2 - 1 / 10 ^ 39)

def rounded : Request where
  routes := [route "A" "S" one false zero]
  units := [fine]
  targets := [target "S" 0 2]

/-- A holding whose sellable quantity is negative, beside another one. -/
def negative : Request where
  routes := [route "A" "S" ten true zero, route "B" "S" ten false zero]
  units := [unit "A" "S" (-5), unit "B" "S" 10]
  targets := [target "S" 0 5]

theorem twice_spec : quantities (twice.routing decimals none) = some [10, 10] ∧
    ∀ plan ∈ (twice.routing decimals none).toOption, soldOf plan.legs "S" = 20 ∧
      plan.targets.map (·.remainingQuantity) = [some 40, some 40] := by
  decide +kernel

theorem rounded_spec : quantities (rounded.routing decimals none) = some [2] ∧
    ∀ plan ∈ (rounded.routing decimals none).toOption,
      plan.legs.map legKey = [("A", "S")] := by
  decide +kernel

theorem negative_spec : quantities (negative.routing decimals none) = some [-5, 10] := by
  decide +kernel

theorem not_plansLeast_twice (h : twice.routing decimals none = .ok plan) :
    ¬PlansLeast (command twice.routes) (snapshot twice.units) twice.targets plan := by
  intro hleast
  obtain ⟨hsold, hremaining⟩ := twice_spec.2 plan (by rw [h]; rfl)
  obtain ⟨revised, rest, ⟨required, remaining, largest, hsale⟩, -, hplan⟩ :=
    List.forall₂_cons_left_iff.mp hleast.sales
  rw [hplan, List.map_cons] at hremaining
  have hkept := hsale.remaining_eq.symm.trans (List.cons.inj hremaining).1
  have hsold' : soldOf plan.legs "S" = 40 + required - remaining := hsale.sold_eq
  obtain rfl : 10 = required := Option.some.inj hsale.required_eq
  rw [hsold, Option.some.inj hkept] at hsold'
  norm_num at hsold'

theorem not_plansLeast_rounded (h : rounded.routing decimals none = .ok plan)
    (hsold : plan.legs.map (·.quantity) = [2]) :
    ¬PlansLeast (command rounded.routes) (snapshot rounded.units) rounded.targets plan := by
  intro hleast
  have hkey := rounded_spec.2 plan (by rw [h]; rfl)
  obtain ⟨leg, hlegs, hquantity⟩ := List.map_eq_singleton_iff.mp hsold
  rw [hlegs] at hkey
  have hlegal := (hleast.legs leg (by rw [hlegs]; exact List.mem_singleton_self _)).legal
  rw [hquantity, List.head_eq_of_cons_eq hkey] at hlegal
  rcases hlegal with hzero | ⟨unit, route, maximum, hunit, hroute, hmaximum, hsells⟩
  · norm_num at hzero
  · obtain rfl : fine = unit := Option.some.inj hunit
    cases hroute
    obtain rfl : 2 - 1 / 10 ^ 39 = maximum := Option.some.inj hmaximum
    rcases hsells with ⟨k, -, hle⟩ | ⟨hodd, -⟩
    · norm_num at hle
    · exact Bool.noConfusion hodd

/-- Routing does not sell the least legal quantity where a security is asked for twice or a
quotient is rounded, and it sells a negative quantity where one is sellable. -/
theorem routing_not_plansLeast :
    (∃ plan, twice.routing decimals none = .ok plan ∧
      ¬PlansLeast (command twice.routes) (snapshot twice.units) twice.targets plan) ∧
    (∃ plan, rounded.routing decimals none = .ok plan ∧
      ¬PlansLeast (command rounded.routes) (snapshot rounded.units) rounded.targets plan) ∧
    ∃ plan, negative.routing decimals none = .ok plan ∧ ∃ leg ∈ plan.legs, leg.quantity < 0 := by
  refine ⟨?_, ?_, ?_⟩
  · obtain ⟨plan, hplan, -⟩ := exists_plan twice_spec.1
    exact ⟨plan, hplan, not_plansLeast_twice hplan⟩
  · obtain ⟨plan, hplan, hsold⟩ := exists_plan rounded_spec.1
    exact ⟨plan, hplan, not_plansLeast_rounded hplan hsold⟩
  · obtain ⟨plan, hplan, hsold⟩ := exists_plan negative_spec
    obtain ⟨leg, hleg, hquantity⟩ := List.mem_map.mp
      (hsold ▸ List.mem_cons_self : (-5 : ℚ) ∈ plan.legs.map (·.quantity))
    exact ⟨plan, hplan, leg, hleg, hquantity ▸ by norm_num⟩

end SampleRouting

end StockProfiler.PositionManagement
