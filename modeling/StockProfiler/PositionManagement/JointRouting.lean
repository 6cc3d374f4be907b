import StockProfiler.Core.LexRank
import StockProfiler.PositionManagement.MinimalSales

/-!
# Joint routing

The rank of a candidate adds up over legs of different securities. So the variants that
rank least for each target, taken together, rank least among all combinations of variants.
-/

namespace StockProfiler.PositionManagement

variable {xs ys : List ExecutionLeg} {legs : List ExecutionLeg}

section Additive

variable {amount : List ExecutionLeg → ℚ} {securityId : String} {key : String × String}

/-- No leg of one candidate sells a security of the other. -/
def Apart (xs ys : List ExecutionLeg) : Prop :=
  ∀ securityId, legsOf xs securityId = [] ∨ legsOf ys securityId = []

/-- An amount that adds up over candidates that sell different securities. -/
def Additive (amount : List ExecutionLeg → ℚ) : Prop :=
  ∀ xs ys, Apart xs ys → amount (xs ++ ys) = amount xs + amount ys

theorem Additive.nil (h : Additive amount) : amount [] = 0 := by
  have hsum := h [] [] fun _ => .inl rfl
  rw [List.append_nil] at hsum
  exact left_eq_add.mp hsum

theorem additive_zero : Additive fun _ => 0 := fun _ _ _ => (add_zero 0).symm

theorem Additive.neg (h : Additive amount) : Additive fun legs => -amount legs := by
  intro xs ys hapart
  dsimp only
  rw [h xs ys hapart, neg_add]

theorem additive_sum {α : Type*} {items : List α} {amount : α → List ExecutionLeg → ℚ}
    (h : ∀ item ∈ items, Additive (amount item)) :
    Additive fun legs => (items.map (amount · legs)).sum := by
  intro xs ys hapart
  dsimp only
  rw [← List.sum_map_add]
  exact congrArg List.sum (List.map_congr_left fun item hitem => h item hitem xs ys hapart)

theorem additive_legSum (amount : ExecutionLeg → ℚ) (p : ExecutionLeg → Bool) :
    Additive fun legs => legSum .exact legs amount p := by
  intro xs ys _
  simp only [legSum, DecimalContext.exact_sum, List.filter_append, List.map_append,
    List.sum_append]

/-- What legs sell of a unit is the last quantity that a leg of it names. -/
theorem legQuantity_eq (legs : List ExecutionLeg) (key : String × String) :
    legQuantity legs key =
      (((legs.filter (legKey · = key)).map (·.quantity)).getLast?).getD 0 := by
  rw [← Dict.valuesOf_map, ← Dict.get?_ofLast_eq_getLast?]
  rfl

theorem filter_legKey_eq_nil (h : legsOf legs key.2 = []) : legs.filter (legKey · = key) = [] := by
  rw [legsOf, List.filter_eq_nil_iff] at h
  refine List.filter_eq_nil_iff.mpr fun leg hleg hkey => h leg hleg ?_
  rw [decide_eq_true_eq] at hkey ⊢
  exact congrArg Prod.snd hkey

theorem legQuantity_eq_zero (h : legsOf legs key.2 = []) : legQuantity legs key = 0 := by
  rw [legQuantity_eq, filter_legKey_eq_nil h]
  rfl

theorem legQuantity_append_left (h : legsOf ys key.2 = []) :
    legQuantity (xs ++ ys) key = legQuantity xs key := by
  rw [legQuantity_eq, legQuantity_eq, List.filter_append, filter_legKey_eq_nil h,
    List.append_nil]

theorem legQuantity_append_right (h : legsOf xs key.2 = []) :
    legQuantity (xs ++ ys) key = legQuantity ys key := by
  rw [legQuantity_eq, legQuantity_eq, List.filter_append, filter_legKey_eq_nil h,
    List.nil_append]

theorem additive_legQuantity (key : String × String) : Additive (legQuantity · key) := by
  intro xs ys hapart
  dsimp only
  rcases hapart key.2 with h | h
  · rw [legQuantity_append_right h, legQuantity_eq_zero h, zero_add]
  · rw [legQuantity_append_left h, legQuantity_eq_zero h, add_zero]

variable {units : Dict (String × String) PositionActionUnit}

theorem proportionalDeviation_congr {ctx : DecimalContext}
    (h : ∀ key : String × String, key.2 = securityId → legQuantity xs key = legQuantity ys key) :
    proportionalDeviation ctx units xs securityId =
      proportionalDeviation ctx units ys securityId := by
  have hown : ∀ entry ∈ units.filter (·.1.2 = securityId),
      legQuantity xs entry.1 = legQuantity ys entry.1 := fun entry hentry =>
    h entry.1 (of_decide_eq_true (List.mem_filter.mp hentry).2)
  have htotal : (units.filter (·.1.2 = securityId)).map (fun entry => legQuantity xs entry.1) =
      (units.filter (·.1.2 = securityId)).map fun entry => legQuantity ys entry.1 :=
    List.map_congr_left hown
  unfold proportionalDeviation
  dsimp only
  rw [htotal]
  refine congrArg ctx.sum (List.map_congr_left fun entry hentry => ?_)
  rw [hown entry hentry]

/-- A security of which nothing is sold is split in proportion. -/
theorem proportionalDeviation_eq_zero (h : legsOf legs securityId = []) :
    proportionalDeviation .exact units legs securityId = 0 := by
  have hzero : ∀ key : String × String, key.2 = securityId →
      legQuantity legs key = legQuantity [] key := by
    intro key hkey
    rw [legQuantity_eq_zero (hkey ▸ h), legQuantity_eq_zero rfl]
  rw [proportionalDeviation_congr hzero]
  have hnone : ∀ key, legQuantity [] key = 0 := fun _ => rfl
  simp only [proportionalDeviation, hnone, DecimalContext.exact_sum, DecimalContext.exact_mul,
    DecimalContext.exact_sub, List.map_const', List.sum_replicate, nsmul_zero, zero_mul, sub_zero,
    abs_zero]

theorem additive_proportionalDeviation (securityId : String) :
    Additive (proportionalDeviation .exact units · securityId) := by
  intro xs ys hapart
  dsimp only
  rcases hapart securityId with h | h
  · rw [proportionalDeviation_eq_zero h, zero_add]
    refine proportionalDeviation_congr fun key hkey => ?_
    exact legQuantity_append_right (hkey ▸ h)
  · rw [proportionalDeviation_eq_zero h, add_zero]
    refine proportionalDeviation_congr fun key hkey => ?_
    exact legQuantity_append_left (hkey ▸ h)

end Additive

section Scores

variable (command : ExecutionPlanCommand) (units : Dict (String × String) PositionActionUnit)
  (conservative : List String)

/-- The components of a rank without a funding gap. -/
def rankParts : List (List ExecutionLeg → ℚ) :=
  (fun _ => 0) ::
    (sortedSet (command.routes.map (·.firstSellableAt))).map (fun window legs =>
      -legSum .exact legs (·.grossProceeds) (·.route.firstSellableAt = window)) ++
    [(legSum .exact · (·.disposalCost) (·.securityId ∉ conservative)),
      fun legs => (((sortedSet (units.map (·.1.2))).filter (· ∈ conservative)).map
        (proportionalDeviation .exact units legs)).sum,
      (legSum .exact · (·.disposalCost) (·.securityId ∈ conservative)),
      fun legs => (((sortedSet (units.map (·.1.2))).filter (· ∉ conservative)).map
        (proportionalDeviation .exact units legs)).sum] ++
    (sortedKeys units).map fun key legs => legQuantity legs key

/-- The rank of a candidate without a funding gap. -/
def score (legs : List ExecutionLeg) : List ℚ :=
  (rankParts command units conservative).map (· legs)

variable {command units conservative}

theorem rank_eq_score (legs : List ExecutionLeg) :
    rank .exact command units conservative (fun _ => some 0) legs =
      some (score command units conservative legs) := by
  simp only [rank, score, rankParts, Option.map_some, List.map_append, List.map_cons,
    List.map_nil, List.map_map, List.cons_append, DecimalContext.exact_neg,
    DecimalContext.exact_sum, Function.comp_def]

/-- Every component adds up over candidates that sell different securities. -/
theorem additive_of_mem {part : List ExecutionLeg → ℚ}
    (h : part ∈ rankParts command units conservative) : Additive part := by
  simp only [rankParts, List.cons_append, List.mem_cons, List.mem_append, List.mem_map,
    List.not_mem_nil, or_false] at h
  rcases h with rfl | (⟨window, -, rfl⟩ | rfl | rfl | rfl | rfl) | ⟨key, -, rfl⟩
  · exact additive_zero
  · exact (additive_legSum _ _).neg
  · exact additive_legSum _ _
  · exact additive_sum fun securityId _ => additive_proportionalDeviation securityId
  · exact additive_legSum _ _
  · exact additive_sum fun securityId _ => additive_proportionalDeviation securityId
  · exact additive_legQuantity key

/-- The length of every score. -/
def scoreLength (command : ExecutionPlanCommand)
    (units : Dict (String × String) PositionActionUnit) (conservative : List String) : ℕ :=
  (rankParts command units conservative).length

theorem length_score (legs : List ExecutionLeg) :
    (score command units conservative legs).length = scoreLength command units conservative :=
  List.length_map ..

theorem score_append (h : Apart xs ys) :
    score command units conservative (xs ++ ys) =
      addRanks (score command units conservative xs) (score command units conservative ys) := by
  rw [score, score, score, addRanks, List.zipWith_map, List.zipWith_self]
  exact List.map_congr_left fun part hpart => additive_of_mem hpart xs ys h

theorem score_nil : score command units conservative [] =
    List.replicate (scoreLength command units conservative) 0 := by
  refine List.eq_replicate_iff.mpr ⟨length_score [], fun amount hamount => ?_⟩
  obtain ⟨part, hpart, rfl⟩ := List.mem_map.mp hamount
  exact (additive_of_mem hpart).nil

/-- The score of groups of different securities is the sum of their scores. -/
theorem score_flatten {groups : List (List ExecutionLeg)} {securities : List String}
    (h : List.Forall₂ SellsOnly groups securities) (hnodup : securities.Nodup) :
    score command units conservative groups.flatten =
      totalRank (scoreLength command units conservative)
        (groups.map (score command units conservative)) := by
  induction h with
  | nil => exact score_nil
  | @cons group securityId groups securities hgroup hrest ih =>
    rw [List.nodup_cons] at hnodup
    have hapart : Apart group groups.flatten := by
      intro other
      by_cases heq : securityId = other
      · exact .inr (legsOf_flatten_eq_nil hrest (heq ▸ hnodup.1))
      · exact .inl (hgroup.legsOf_eq_nil heq)
    rw [List.flatten_cons, score_append hapart, ih hnodup.2]
    rfl

end Scores

section Variants

variable {ctx : DecimalContext} {command : ExecutionPlanCommand}
  {snapshot : ReconciledPositionSnapshot} {options : RoutingOptions}
  {conservative : List String} {target : ExecutionTarget} {routed : TargetRouting}
  {required total : ℚ}

/-- The legs sell exactly the chosen values. -/
theorem map_legQuantity_of_makeLegs {units : Dict (String × String) PositionActionUnit}
    {keys : List (String × String)} {values : List ℚ}
    (h : makeLegs ctx command units keys values = some legs) (hkeys : keys.Nodup)
    (hlength : keys.length = values.length) : keys.map (legQuantity legs) = values := by
  have hfst : (keys.zip values).map Prod.fst = keys := List.map_fst_zip hlength.le
  have hzip : (Dict.keys (keys.zip values)).Nodup := by
    rw [Dict.keys, hfst]
    exact hkeys
  have hsales := sales_of_makeLegs h
  have hfilter : (Dict.keys ((keys.zip values).filter (·.2 ≠ 0))).Nodup :=
    hzip.sublist (List.filter_sublist.map Prod.fst)
  have hread : ∀ key, legQuantity legs key =
      ((Dict.get? ((keys.zip values).filter (·.2 ≠ 0)) key).getD 0) := by
    intro key
    calc legQuantity legs key = ((Dict.ofLast (legs.map fun leg =>
          (legKey leg, leg.quantity))).get? key).getD 0 := rfl
      _ = _ := by rw [hsales, Dict.ofLast_of_nodup hfilter]
  have hentry : ∀ entry ∈ keys.zip values, legQuantity legs entry.1 = entry.2 := by
    intro entry hentry
    rw [hread]
    by_cases hzero : entry.2 = 0
    · cases hget : Dict.get? ((keys.zip values).filter (·.2 ≠ 0)) entry.1 with
      | none => exact hzero.symm
      | some value =>
        obtain ⟨hmem, hne⟩ := List.mem_filter.mp (Dict.mem_of_get? hget)
        have hvalue := (Dict.get?_of_mem hzip hmem).symm.trans (Dict.get?_of_mem hzip hentry)
        exact absurd (Option.some.inj hvalue ▸ hzero) (of_decide_eq_true hne)
    · rw [Dict.get?_of_mem hfilter (List.mem_filter.mpr ⟨hentry, decide_eq_true hzero⟩)]
      rfl
  calc keys.map (legQuantity legs) = ((keys.zip values).map Prod.fst).map (legQuantity legs) := by
        rw [hfst]
    _ = (keys.zip values).map Prod.snd := by
        rw [List.map_map]
        exact List.map_congr_left hentry
    _ = values := List.map_snd_zip hlength.ge

theorem keysOf_nodup (securityId : String) : (keysOf snapshot securityId).Nodup := by
  refine List.Nodup.filter _ ?_
  exact (sortedSet_nodup _).map ofLex.injective

theorem RoutedBy.eq_of_score_eq
    (h : RoutedBy ctx command snapshot options target routed required total)
    {legs' : List ExecutionLeg} (hlegs : legs ∈ routed.variants) (hlegs' : legs' ∈ routed.variants)
    (heq : score command (unitsByKey snapshot.actionUnits) conservative legs =
      score command (unitsByKey snapshot.actionUnits) conservative legs') : legs = legs' := by
  obtain ⟨values, hvalues, -, hmake⟩ := h.variants legs hlegs
  obtain ⟨values', hvalues', -, hmake'⟩ := h.variants legs' hlegs'
  have hlength : ∀ xs ∈ choices ((securityOptions (unitsByKey snapshot.actionUnits) options
      target.securityId).map (·.2)), (keysOf snapshot target.securityId).length = xs.length := by
    intro xs hxs
    have hxs := (mem_choices.mp hxs).length_eq
    rw [lists_securityOptions, List.length_map] at hxs
    exact hxs.symm
  have hread : ∀ key ∈ keysOf snapshot target.securityId,
      legQuantity legs key = legQuantity legs' key := by
    intro key hkey
    refine List.map_inj_left.mp heq (legQuantity · key) ?_
    exact List.mem_append_right _ (List.mem_map.mpr ⟨key, (List.mem_filter.mp hkey).1, rfl⟩)
  have hsame : values = values' := by
    rw [← map_legQuantity_of_makeLegs hmake (keysOf_nodup _) (hlength values hvalues),
      ← map_legQuantity_of_makeLegs hmake' (keysOf_nodup _) (hlength values' hvalues')]
    exact List.map_congr_left hread
  exact Option.some.inj (hmake.symm.trans (hsame ▸ hmake'))

end Variants

section Routing

variable (command : ExecutionPlanCommand) (snapshot : ReconciledPositionSnapshot)

/-- The constant gap of nothing. -/
def noGap : Option (List ExecutionLeg → Option ℚ) := some fun _ => some 0

/-- Only the variant of least rank. -/
def narrowed (options : RoutingOptions) (routed : TargetRouting) : TargetRouting :=
  { routed with
    variants := (leastRanked (rankOf .exact command (unitsByKey snapshot.actionUnits) options
      none) routed.variants).toList }

variable {command snapshot} {options : RoutingOptions} {target : ExecutionTarget}

/-- Without a gap every candidate is ranked by its score. -/
theorem rankOf_eq_score (units : Dict (String × String) PositionActionUnit) :
    rankOf .exact command units options none =
      fun legs => some (score command units (conservativeSecurities options) legs) :=
  funext fun legs => rank_eq_score legs

theorem variants_ne_nil {ctx : DecimalContext} {lists : List (List ℚ)} {required total : ℚ}
    (h : leastTotal ctx lists required = some total) {f : List ℚ → Option (List ExecutionLeg)}
    {variants : List (List ExecutionLeg)}
    (hvariants : ((choices lists).filter (ctx.sum · = total)).mapM f = some variants) :
    variants ≠ [] := by
  unfold leastTotal at h
  obtain ⟨maxima, -, h⟩ := bind_eq_some.mp h
  obtain ⟨hmem, -⟩ := List.mem_filter.mp (List.min?_mem h)
  obtain ⟨values, hvalues, hsum⟩ := List.mem_map.mp hmem
  obtain ⟨legs, hlegs, -⟩ := forall₂_mem_left (forall₂_of_mapM_eq_some hvariants)
    (List.mem_filter.mpr ⟨hvalues, decide_eq_true hsum⟩)
  exact List.ne_nil_of_mem hlegs

/-- Routed on its own, a target keeps the variant that ranks least of the ones it shares. -/
theorem routeTarget_none (target : ExecutionTarget) :
    routeTarget .exact command (unitsByKey snapshot.actionUnits) options none target =
      (routeTarget .exact command (unitsByKey snapshot.actionUnits) options noGap target).map
        (narrowed command snapshot options) := by
  unfold routeTarget
  dsimp only
  rw [map_bind_ok]
  refine bind_congr_ok fun _ _ => ?_
  rw [map_bind_ok]
  refine bind_congr_ok fun required _ => ?_
  rw [map_bind_ok]
  refine bind_congr_ok fun total htotal => ?_
  rw [map_bind_ok]
  refine bind_congr_ok fun variants hvariants => ?_
  rw [known_eq_ok] at htotal hvariants
  obtain ⟨least, hleast⟩ : ∃ least, leastRanked (rankOf .exact command
      (unitsByKey snapshot.actionUnits) options none) variants = some least :=
    exists_leastRanked (fun legs _ => by rw [rankOf_eq_score]; rfl)
      (variants_ne_nil htotal hvariants)
  have hkept : keptVariants .exact command (unitsByKey snapshot.actionUnits) options none
      variants = some [least] := by
    unfold keptVariants
    rw [hleast]
    rfl
  have hjoint : keptVariants .exact command (unitsByKey snapshot.actionUnits) options noGap
      variants = some variants := rfl
  rw [hkept, hjoint]
  refine congrArg Except.ok ?_
  rw [narrowed, hleast]
  rfl

/-- The variants that rank least, one of each target. -/
structure LeastVariants (command : ExecutionPlanCommand) (snapshot : ReconciledPositionSnapshot)
    (options : RoutingOptions) (targets : List ExecutionTarget) (routed : List TargetRouting)
    (leasts : List (List ExecutionLeg)) : Prop where
  routedBy : List.Forall₂ (fun target result => ∃ required total,
    RoutedBy .exact command snapshot options target result required total) targets routed
  least : List.Forall₂ (fun least result => leastRanked (rankOf .exact command
    (unitsByKey snapshot.actionUnits) options none) result.variants = some least) leasts routed

section LeastVariants

variable {targets : List ExecutionTarget} {routed : List TargetRouting}
  {leasts groups : List (List ExecutionLeg)}

/-- Variants of the targets sell different securities. -/
theorem sellsOnly_of_variants (hby : List.Forall₂ (fun target result => ∃ required total,
      RoutedBy .exact command snapshot options target result required total) targets routed)
    (hgroups : List.Forall₂ (fun group result => group ∈ result.variants) groups routed) :
    List.Forall₂ SellsOnly groups (targets.map (·.securityId)) := by
  rw [List.forall₂_map_right_iff]
  induction hby generalizing groups with
  | nil =>
    obtain rfl := List.forall₂_nil_right_iff.mp hgroups
    exact .nil
  | cons hrouting _ ih =>
    obtain ⟨group, rest, hgroup, hrest, rfl⟩ := List.forall₂_cons_right_iff.mp hgroups
    obtain ⟨required, total, hrouting⟩ := hrouting
    exact .cons (hrouting.sellsOnly hgroup) (ih hrest)

variable (h : LeastVariants command snapshot options targets routed leasts)
include h

theorem LeastVariants.score_le
    (hgroups : List.Forall₂ (fun group result => group ∈ result.variants) groups routed) :
    List.Forall₂ (fun least group =>
      score command (unitsByKey snapshot.actionUnits) (conservativeSecurities options) least ≤
      score command (unitsByKey snapshot.actionUnits) (conservativeSecurities options) group)
      leasts groups := by
  have hleast := h.least
  clear h
  induction hleast generalizing groups with
  | nil =>
    obtain rfl := List.forall₂_nil_right_iff.mp hgroups
    exact .nil
  | cons hhead _ ih =>
    obtain ⟨group, rest, hgroup, hrest, rfl⟩ := List.forall₂_cons_right_iff.mp hgroups
    obtain ⟨r, hr, -, hle⟩ := spec_of_leastRanked hhead
    obtain ⟨s, hs, hrs⟩ := hle group hgroup
    rw [rankOf_eq_score] at hr hs
    cases hr
    cases hs
    exact .cons hrs (ih hrest)

theorem LeastVariants.eq_of_score_eq
    (hgroups : List.Forall₂ (fun group result => group ∈ result.variants) groups routed)
    (heq : List.Forall₂ (fun least group =>
      score command (unitsByKey snapshot.actionUnits) (conservativeSecurities options) least =
      score command (unitsByKey snapshot.actionUnits) (conservativeSecurities options) group)
      leasts groups) : groups = leasts := by
  obtain ⟨hby, hleast⟩ := h
  induction hby generalizing groups leasts with
  | nil =>
    obtain rfl := List.forall₂_nil_right_iff.mp hgroups
    exact (List.forall₂_nil_right_iff.mp heq).symm
  | cons hrouting _ ih =>
    obtain ⟨group, rest, hgroup, hrest, rfl⟩ := List.forall₂_cons_right_iff.mp hgroups
    obtain ⟨least, others, hhead, hothers, rfl⟩ := List.forall₂_cons_right_iff.mp hleast
    obtain ⟨required, total, hrouting⟩ := hrouting
    obtain ⟨hscore, hscores⟩ := List.forall₂_cons.mp heq
    rw [hrouting.eq_of_score_eq (mem_of_leastRanked hhead) hgroup hscore,
      ih hrest hscores hothers]

/-- The least variants of the targets form the least joint choice. -/
theorem LeastVariants.joint (hnodup : (targets.map (·.securityId)).Nodup) :
    leastRanked (rankOf .exact command (unitsByKey snapshot.actionUnits) options none)
      ((choices (routed.map (·.variants))).map List.flatten) = some leasts.flatten := by
  have hmem : List.Forall₂ (fun least result => least ∈ result.variants) leasts routed :=
    h.least.imp fun _ _ => mem_of_leastRanked
  have hflat : ∀ groups, List.Forall₂ (fun group result => group ∈ result.variants) groups routed →
      score command (unitsByKey snapshot.actionUnits) (conservativeSecurities options)
        groups.flatten = totalRank (scoreLength command (unitsByKey snapshot.actionUnits)
          (conservativeSecurities options)) (groups.map (score command
            (unitsByKey snapshot.actionUnits) (conservativeSecurities options))) :=
    fun groups hgroups => score_flatten (sellsOnly_of_variants h.routedBy hgroups) hnodup
  rw [rankOf_eq_score]
  refine leastRanked_eq_some ?_ (fun _ _ => rfl) ?_
  · refine List.mem_map.mpr ⟨leasts, mem_choices.mpr ?_, rfl⟩
    exact List.forall₂_map_right_iff.mpr hmem
  · intro other hother r s hr hs hle
    obtain ⟨groups, hgroups, rfl⟩ := List.mem_map.mp hother
    rw [mem_choices, List.forall₂_map_right_iff] at hgroups
    cases hr
    cases hs
    rw [hflat groups hgroups, hflat leasts hmem] at hle
    have heq := forall₂_eq_of_totalRank_le length_score (h.score_le hgroups) hle
    rw [h.eq_of_score_eq hgroups heq]

end LeastVariants

theorem exists_least_of_routeTarget {result : TargetRouting}
    (h : routeTarget .exact command (unitsByKey snapshot.actionUnits) options noGap target =
      .ok result) : ∃ least, leastRanked (rankOf .exact command (unitsByKey snapshot.actionUnits)
        options none) result.variants = some least := by
  unfold routeTarget at h
  obtain ⟨-, -, h⟩ := bind_eq_ok.mp h
  obtain ⟨required, -, h⟩ := bind_eq_ok.mp h
  obtain ⟨total, htotal, h⟩ := bind_eq_ok.mp h
  obtain ⟨variants, hvariants, h⟩ := bind_eq_ok.mp h
  obtain ⟨kept, hkept, h⟩ := bind_eq_ok.mp h
  cases h
  rw [known_eq_ok] at htotal hvariants hkept
  obtain rfl : variants = kept := Option.some.inj hkept
  exact exists_leastRanked (fun legs _ => by rw [rankOf_eq_score]; rfl)
    (variants_ne_nil htotal hvariants)

theorem exists_leastVariants {targets : List ExecutionTarget} {routed : List TargetRouting}
    (h : List.Forall₂ (fun target result => routeTarget .exact command
      (unitsByKey snapshot.actionUnits) options noGap target = .ok result) targets routed) :
    ∃ leasts, LeastVariants command snapshot options targets routed leasts := by
  have hleasts : ∃ leasts, List.Forall₂ (fun least result => leastRanked (rankOf .exact command
      (unitsByKey snapshot.actionUnits) options none) result.variants = some least)
      leasts routed := by
    induction h with
    | nil => exact ⟨[], .nil⟩
    | cons hhead _ ih =>
      obtain ⟨least, hleast⟩ := exists_least_of_routeTarget hhead
      obtain ⟨leasts, hleasts⟩ := ih
      exact ⟨least :: leasts, .cons hleast hleasts⟩
  obtain ⟨leasts, hleasts⟩ := hleasts
  exact ⟨leasts, h.imp fun _ _ => routedBy_of_routeTarget, hleasts⟩

theorem choices_singletons {α : Type*} (items : List α) : choices (items.map ([·])) = [items] := by
  induction items with
  | nil => rfl
  | cons item items ih => rw [List.map_cons, choices, ih]; rfl

theorem choiceCount_singletons {α : Type*} (items : List α) :
    choiceCount (items.map ([·])) = 1 := by
  refine List.prod_eq_one fun size hsize => ?_
  obtain ⟨list, hlist, rfl⟩ := List.mem_map.mp hsize
  obtain ⟨item, -, rfl⟩ := List.mem_map.mp hlist
  rfl

variable (command snapshot) in
/-- What routing does once its targets are routed. -/
def finished (fundingGap : Option (List ExecutionLeg → Option ℚ)) (options : RoutingOptions)
    (targets : List ExecutionTarget) (routed : List TargetRouting) :
    Except RoutingFailure ExecutionPlanOutcome := do
  require (choiceCount (routed.map (·.variants)) ≤ 200000) (.blocked "EXECUTION_SEARCH_LIMIT")
  let legs ← known (leastRanked (rankOf .exact command (unitsByKey snapshot.actionUnits) options
    fundingGap) ((choices (routed.map (·.variants))).map List.flatten)) .raised
  return routedPlan options targets (routed.map (·.revised)) legs

section Finished

variable {targets : List ExecutionTarget} {routed : List TargetRouting}
  {leasts : List (List ExecutionLeg)}

/-- With only the variants of least rank, these are the plan. -/
theorem LeastVariants.finished_narrowed
    (h : LeastVariants command snapshot options targets routed leasts) :
    finished command snapshot none options targets
      (routed.map (narrowed command snapshot options)) =
        .ok (routedPlan options targets (routed.map (·.revised)) leasts.flatten) := by
  have hvariants : (routed.map (narrowed command snapshot options)).map (·.variants) =
      leasts.map ([·]) := by
    rw [List.map_map]
    refine (map_eq_map_of_forall₂ (h.least.imp fun least result hleast => ?_)).symm
    rw [Function.comp_apply, narrowed, hleast]
    rfl
  have hrevised : (routed.map (narrowed command snapshot options)).map (·.revised) =
      routed.map (·.revised) := by
    rw [List.map_map]
    rfl
  unfold finished
  rw [hvariants, hrevised, choiceCount_singletons, choices_singletons, rankOf_eq_score]
  rfl

/-- With all variants, the plan is made of those of least rank. -/
theorem LeastVariants.finished_joint
    (h : LeastVariants command snapshot options targets routed leasts)
    (hnodup : (targets.map (·.securityId)).Nodup)
    (hsmall : choiceCount (routed.map (·.variants)) ≤ 200000) :
    finished command snapshot noGap options targets routed =
      .ok (routedPlan options targets (routed.map (·.revised)) leasts.flatten) := by
  have hjoint : leastRanked (rankOf .exact command (unitsByKey snapshot.actionUnits) options
      noGap) ((choices (routed.map (·.variants))).map List.flatten) = some leasts.flatten :=
    h.joint hnodup
  have hrequire : require (choiceCount (routed.map (·.variants)) ≤ 200000)
      (RoutingFailure.blocked "EXECUTION_SEARCH_LIMIT") = .ok () := require_eq_ok.mpr hsmall
  unfold finished
  rw [hrequire, hjoint]
  rfl

end Finished

/-- Routing target by target gives what the joint search over all combinations gives, unless
that search is too large. -/
theorem routing_none_eq_joint {targets : List ExecutionTarget}
    (hnodup : (targets.map (·.securityId)).Nodup)
    (hlimit : routing .exact command snapshot targets noGap ≠
      .error (.blocked "EXECUTION_SEARCH_LIMIT")) :
    routing .exact command snapshot targets none =
      routing .exact command snapshot targets noGap := by
  have hseparate : ∀ options, targets.mapM (routeTarget .exact command
      (unitsByKey snapshot.actionUnits) options none) = (targets.mapM (routeTarget .exact command
        (unitsByKey snapshot.actionUnits) options noGap)).map
          (List.map (narrowed command snapshot options)) := by
    intro options
    rw [← mapM_map_ok]
    exact congrArg (targets.mapM ·) (funext routeTarget_none)
  unfold routing at hlimit ⊢
  dsimp only at hlimit ⊢
  refine bind_congr_ok fun _ hscope => bind_congr_ok fun options hoptions => ?_
  rw [hscope, hoptions] at hlimit
  change targets.mapM _ >>= finished command snapshot none options targets =
    targets.mapM _ >>= finished command snapshot noGap options targets
  replace hlimit : targets.mapM _ >>= finished command snapshot noGap options targets ≠ _ := hlimit
  rw [hseparate options]
  cases hrouted : targets.mapM (routeTarget .exact command (unitsByKey snapshot.actionUnits)
      options noGap) with
  | error _ => rfl
  | ok routed =>
    rw [hrouted] at hlimit
    replace hlimit : finished command snapshot noGap options targets routed ≠ _ := hlimit
    obtain ⟨leasts, hleasts⟩ := exists_leastVariants (mapM_eq_ok.mp hrouted)
    have hsmall : choiceCount (routed.map (·.variants)) ≤ 200000 := by
      by_contra hlarge
      refine hlimit ?_
      unfold finished require
      rw [if_neg hlarge]
      rfl
    exact hleasts.finished_narrowed.trans (hleasts.finished_joint hnodup hsmall).symm

end Routing

namespace SampleRouting

open Literal

/-- Two securities, of which one is held in two accounts of different costs. -/
def split : Request where
  routes := [route "A" "S" ten false ⟨1 / 10, by decide +kernel⟩,
    route "B" "S" ten false ⟨2 / 10, by decide +kernel⟩,
    route "A" "T" ten false ⟨1, zero_le_one⟩]
  units := [unit "A" "S" 50, unit "B" "S" 50, unit "A" "T" 50]
  targets := [target "S" 90 10, target "T" 40 10]

/-- The other security costs so much to sell that the arithmetic rounds the difference away. -/
def hidden : Request where
  routes := [route "A" "S" ten false ⟨1 / 10, by decide +kernel⟩,
    route "B" "S" ten false ⟨2 / 10, by decide +kernel⟩,
    route "A" "T" ten false ⟨10 ^ 38, by decide +kernel⟩]
  units := split.units
  targets := split.targets

def doubled : Request where
  routes := [route "A" "S" ten false zero, route "B" "S" ten false zero]
  units := [unit "A" "S" 50, unit "B" "S" 50]
  targets := [target "S" 90 10, target "S" 90 10]

def soldKeys (result : Except RoutingFailure ExecutionPlanOutcome) :
    Option (List (String × String)) :=
  result.toOption.map fun plan => plan.legs.map legKey

theorem split_spec : soldKeys (split.routing .exact noGap) = some [("A", "S"), ("A", "T")] := by
  decide +kernel

theorem hidden_spec : soldKeys (hidden.routing decimals none) = some [("A", "S"), ("A", "T")] ∧
    soldKeys (hidden.routing decimals noGap) = some [("B", "S"), ("A", "T")] := by
  decide +kernel

theorem doubled_spec : soldKeys (doubled.routing decimals none) = some [("B", "S"), ("B", "S")] ∧
    soldKeys (doubled.routing decimals noGap) = some [("B", "S"), ("A", "S")] := by
  decide +kernel

/-- The cheaper account sells, in both searches. -/
theorem split_joint : split.routing .exact none = split.routing .exact noGap ∧
    soldKeys (split.routing .exact noGap) = some [("A", "S"), ("A", "T")] := by
  refine ⟨routing_none_eq_joint (by decide) fun herror => ?_, split_spec⟩
  have hsold := split_spec
  rw [Request.routing, herror] at hsold
  exact nomatch hsold

/-- The searches differ where a security is asked for twice, and where a cost is rounded away. -/
theorem routing_ne_joint :
    (soldKeys (doubled.routing decimals none) = some [("B", "S"), ("B", "S")] ∧
      soldKeys (doubled.routing decimals noGap) = some [("B", "S"), ("A", "S")]) ∧
    (soldKeys (hidden.routing decimals none) = some [("A", "S"), ("A", "T")] ∧
      soldKeys (hidden.routing decimals noGap) = some [("B", "S"), ("A", "T")]) ∧
    doubled.routing decimals none ≠ doubled.routing decimals noGap ∧
    hidden.routing decimals none ≠ hidden.routing decimals noGap := by
  refine ⟨doubled_spec, hidden_spec, fun heq => ?_, fun heq => ?_⟩
  · have hsold := doubled_spec.1
    rw [heq, doubled_spec.2] at hsold
    exact absurd hsold (by decide)
  · have hsold := hidden_spec.1
    rw [heq, hidden_spec.2] at hsold
    exact absurd hsold (by decide)

end SampleRouting

end StockProfiler.PositionManagement
