import StockProfiler.Core.Sums
import StockProfiler.PositionManagement.ExecutionRouting

/-!
# What routing chooses from

A candidate is one of the choices of a legal quantity for every unit, its legs are the
quantities that are not zero, and the one that is taken ranks least.
-/

namespace StockProfiler.PositionManagement

variable {group : List ExecutionLeg} {groups : List (List ExecutionLeg)} {securities : List String}
  {securityId : String}

theorem mem_choices {α : Type*} {lists : List (List α)} {items : List α} :
    items ∈ choices lists ↔ List.Forall₂ (· ∈ ·) items lists := by
  induction lists generalizing items with
  | nil => rw [choices, List.mem_singleton, List.forall₂_nil_right_iff]
  | cons list lists ih =>
    rw [choices, List.mem_flatMap, List.forall₂_cons_right_iff]
    constructor
    · rintro ⟨item, hitem, h⟩
      obtain ⟨rest, hrest, rfl⟩ := List.mem_map.mp h
      exact ⟨item, rest, hitem, ih.mp hrest, rfl⟩
    · rintro ⟨item, rest, hitem, hrest, rfl⟩
      exact ⟨item, hitem, List.mem_map.mpr ⟨rest, ih.mpr hrest, rfl⟩⟩

section Least

variable {rankOf : List ExecutionLeg → Option (List ℚ)} {candidates : List (List ExecutionLeg)}
  {legs other : List ExecutionLeg}

/-- What ranks least is ranked, and every other candidate has no lesser rank. -/
theorem spec_of_leastRanked (h : leastRanked rankOf candidates = some legs) :
    ∃ r, rankOf legs = some r ∧ legs ∈ candidates ∧
      ∀ other ∈ candidates, ∃ s, rankOf other = some s ∧ r ≤ s := by
  unfold leastRanked at h
  obtain ⟨ranked, hranked, h⟩ := bind_eq_some.mp h
  obtain ⟨least, hleast, h⟩ := bind_eq_some.mp h
  cases h
  have hpairs := forall₂_of_mapM_eq_some hranked
  obtain ⟨candidate, hcandidate, hmap⟩ := forall₂_mem_right hpairs (List.argmin_mem hleast)
  obtain ⟨r, hr, rfl⟩ := Option.map_eq_some_iff.mp hmap
  refine ⟨r, hr, hcandidate, fun other hother => ?_⟩
  obtain ⟨pair, hpair, hmap⟩ := forall₂_mem_left hpairs hother
  obtain ⟨s, hs, rfl⟩ := Option.map_eq_some_iff.mp hmap
  have hnot := List.not_lt_of_mem_argmin hpair hleast
  exact ⟨s, hs, not_lt.mp hnot⟩

theorem mem_of_leastRanked (h : leastRanked rankOf candidates = some legs) : legs ∈ candidates := by
  obtain ⟨-, -, hmem, -⟩ := spec_of_leastRanked h
  exact hmem

theorem exists_leastRanked (hrank : ∀ legs ∈ candidates, (rankOf legs).isSome)
    (hne : candidates ≠ []) : ∃ legs, leastRanked rankOf candidates = some legs := by
  have hranked : ∃ ranked, (candidates.mapM fun legs => (rankOf legs).map (·, legs)) =
      some ranked ∧ ranked.length = candidates.length := by
    clear hne
    induction candidates with
    | nil => exact ⟨[], rfl, rfl⟩
    | cons legs candidates ih =>
      rw [List.forall_mem_cons] at hrank
      obtain ⟨r, hr⟩ := Option.isSome_iff_exists.mp hrank.1
      obtain ⟨ranked, hmap, hlength⟩ := ih hrank.2
      refine ⟨(r, legs) :: ranked, ?_, congrArg Nat.succ hlength⟩
      rw [List.mapM_cons, hr, hmap]
      rfl
  obtain ⟨ranked, hmap, hlength⟩ := hranked
  cases hleast : ranked.argmin Prod.fst with
  | none =>
    rw [List.argmin_eq_none] at hleast
    rw [hleast, List.length_nil] at hlength
    exact absurd (List.length_eq_zero_iff.mp hlength.symm) hne
  | some least =>
    refine ⟨least.2, ?_⟩
    unfold leastRanked
    rw [hmap, Option.bind_eq_bind, Option.bind_some, hleast]
    rfl

theorem leastRanked_eq_some (hmem : legs ∈ candidates)
    (hrank : ∀ legs ∈ candidates, (rankOf legs).isSome)
    (hunique : ∀ other ∈ candidates, ∀ r s, rankOf legs = some r → rankOf other = some s →
      s ≤ r → other = legs) : leastRanked rankOf candidates = some legs := by
  obtain ⟨least, hleast⟩ := exists_leastRanked hrank (List.ne_nil_of_mem hmem)
  obtain ⟨r, hr, hcandidate, hle⟩ := spec_of_leastRanked hleast
  obtain ⟨s, hs, hrs⟩ := hle legs hmem
  rw [hleast, hunique least hcandidate s r hs hr hrs]

end Least

section Legs

variable {values : List ℚ} {keys : List (String × String)} {legs : List ExecutionLeg}
  {ctx : DecimalContext} {command : ExecutionPlanCommand}
  {units : Dict (String × String) PositionActionUnit}

/-- The unit that a leg sells. -/
def legKey (leg : ExecutionLeg) : String × String := (leg.accountId, leg.securityId)

/-- A leg sells the quantity of the unit that it was made for. -/
theorem spec_of_makeLeg {key : String × String} {quantity : ℚ} {leg : ExecutionLeg}
    (h : makeLeg ctx command units key quantity = some leg) :
    (legKey leg, leg.quantity) = (key, quantity) := by
  unfold makeLeg at h
  obtain ⟨route, -, h⟩ := bind_eq_some.mp h
  obtain ⟨curve, -, h⟩ := bind_eq_some.mp h
  obtain ⟨unit, -, h⟩ := bind_eq_some.mp h
  obtain ⟨price, -, h⟩ := bind_eq_some.mp h
  cases h
  rfl

variable (h : makeLegs ctx command units keys values = some legs)
include h

/-- The legs sell the quantities that are not zero, each of its unit. -/
theorem sales_of_makeLegs :
    legs.map (fun leg => (legKey leg, leg.quantity)) = (keys.zip values).filter (·.2 ≠ 0) := by
  have hpairs := (forall₂_of_mapM_eq_some h).imp fun entry leg h => (spec_of_makeLeg h).symm
  rw [← map_eq_map_of_forall₂ (f := id) hpairs, List.map_id]

/-- The legs that were made for units of a security sell this security. -/
theorem securityId_of_makeLegs (hkeys : ∀ key ∈ keys, key.2 = securityId) {leg : ExecutionLeg}
    (hleg : leg ∈ legs) : leg.securityId = securityId := by
  have hmem : (legKey leg, leg.quantity) ∈ (keys.zip values).filter (·.2 ≠ 0) := by
    rw [← sales_of_makeLegs h]
    exact List.mem_map_of_mem hleg
  exact hkeys _ (List.of_mem_zip (List.mem_filter.mp hmem).1).1

theorem sum_quantity_of_makeLegs
    (hlength : keys.length = values.length) : (legs.map (·.quantity)).sum = values.sum := by
  have hsales := congrArg (List.map Prod.snd) (sales_of_makeLegs h)
  rw [List.map_map] at hsales
  have hzip : ∀ entries : List ((String × String) × ℚ),
      ((entries.filter (·.2 ≠ 0)).map Prod.snd).sum = (entries.map Prod.snd).sum := by
    intro entries
    induction entries with
    | nil => rfl
    | cons entry entries ih =>
      rw [List.map_cons, List.sum_cons, ← ih, List.filter_cons]
      by_cases hzero : entry.2 = 0
      · simp [hzero]
      · simp [hzero]
  calc (legs.map (·.quantity)).sum = (((keys.zip values).filter (·.2 ≠ 0)).map Prod.snd).sum :=
        congrArg List.sum hsales
    _ = ((keys.zip values).map Prod.snd).sum := hzip _
    _ = values.sum := by rw [List.map_snd_zip hlength.ge]

end Legs

/-- The legs of a security. -/
def legsOf (legs : List ExecutionLeg) (securityId : String) : List ExecutionLeg :=
  legs.filter (·.securityId = securityId)

/-- Every leg of a group sells the same security. -/
def SellsOnly (group : List ExecutionLeg) (securityId : String) : Prop :=
  ∀ leg ∈ group, leg.securityId = securityId

theorem SellsOnly.legsOf_eq (h : SellsOnly group securityId) : legsOf group securityId = group :=
  List.filter_eq_self.mpr fun leg hleg => decide_eq_true (h leg hleg)

theorem SellsOnly.legsOf_eq_nil {other : String} (h : SellsOnly group securityId)
    (hne : securityId ≠ other) : legsOf group other = [] :=
  List.filter_eq_nil_iff.mpr fun leg hleg hsells =>
    hne ((h leg hleg).symm.trans (of_decide_eq_true hsells))

theorem legsOf_flatten_eq_nil (h : List.Forall₂ SellsOnly groups securities)
    (hnot : securityId ∉ securities) : legsOf groups.flatten securityId = [] := by
  induction h with
  | nil => rfl
  | cons hgroup _ ih =>
    rw [List.mem_cons, not_or] at hnot
    have hhead := hgroup.legsOf_eq_nil (Ne.symm hnot.1)
    have htail := ih hnot.2
    unfold legsOf at hhead htail ⊢
    rw [List.flatten_cons, List.filter_append, hhead, htail, List.append_nil]

/-- Among groups of different securities, each one holds the legs of its security. -/
theorem legsOf_flatten (h : List.Forall₂ SellsOnly groups securities) (hnodup : securities.Nodup) :
    List.Forall₂ (fun group securityId => legsOf groups.flatten securityId = group)
      groups securities := by
  induction h with
  | nil => exact .nil
  | @cons group securityId groups securities hgroup hrest ih =>
    rw [List.nodup_cons] at hnodup
    have happend : ∀ other, legsOf (group :: groups).flatten other =
        legsOf group other ++ legsOf groups.flatten other := fun other => List.filter_append ..
    refine .cons ?_ ?_
    · rw [happend, hgroup.legsOf_eq, legsOf_flatten_eq_nil hrest hnodup.1, List.append_nil]
    · refine (List.forall₂_iff_get.mpr ⟨hrest.length_eq, fun index hgroups hsecurities => ?_⟩)
      have hne : securityId ≠ securities.get ⟨index, hsecurities⟩ := fun heq =>
        hnodup.1 (heq ▸ List.get_mem ..)
      rw [happend, hgroup.legsOf_eq_nil hne, List.nil_append]
      exact (ih hnodup.2).get hgroups hsecurities

end StockProfiler.PositionManagement
