import StockProfiler.DecisionCases.ExecutionConservation

/-!
# The legs of an allocation

Each candidate is bought on the routes of its security that nothing forbids, one
leg for each route with a quantity. No security is bought twice in an account.
-/

namespace StockProfiler.DecisionCases

open PositionManagement Portfolio

/-- A security and an account name a leg. -/
def AcquisitionRoute.key (route : AcquisitionRoute) : String × String :=
  (route.securityId, route.accountId)

/-- The securities and accounts of the legs of some rows. -/
def legKeys (rows : List CandidateAllocationRow) : List (String × String) :=
  rows.flatMap fun row => row.legs.map fun leg => (row.candidate.securityId, leg.route.accountId)

section Routes

variable (accountIds : List String) (cutoffAt : Instant) (snapshot : ReconciledPositionSnapshot)

/-- Why a route cannot be used. -/
def routeFailures (route : AcquisitionRoute) : List String :=
  (if route.accountId ∈ accountIds then [] else ["ACCOUNT_SCOPE_MISMATCH"]) ++
  (if route.permission then [] else ["ACCOUNT_PERMISSION_DENIED"]) ++
  (if route.evidence.problemCodes cutoffAt true = [] then [] else ["BUY_ROUTE_EVIDENCE_FAILED"]) ++
  (if snapshot.executionRestrictions.any fun restriction => restriction.active ∧
      restriction.accountId = route.accountId ∧
        restriction.securityId.all (· = route.securityId) then
    ["ACCOUNT_EXECUTION_RESTRICTED"] else []) ++
  (route.currentPrice.elim ["CURRENT_PRICE_UNAVAILABLE"] fun price =>
    if route.minimumPrice ≤ price ∧ price ≤ route.maximumPrice then []
    else ["CURRENT_PRICE_OUT_OF_RANGE"]) ++
  ((route.priceCap.filter fun _ => route.priceCapConfirmed).elim [] fun price =>
    (if route.minimumPrice ≤ price ∧ price ≤ route.maximumPrice then []
      else ["PRICE_CAP_OUT_OF_RANGE"]) ++
    if (price / route.priceTick).den = 1 then [] else ["PRICE_TICK_INVALID"])

/-- A route without a confirmed price cap is planned at its current price. -/
def cappedRoute (route : AcquisitionRoute) : AcquisitionRoute :=
  if route.priceCap = none ∨ !route.priceCapConfirmed then
    { route with priceCap := route.currentPrice, priceCap_pos := route.currentPrice_pos }
  else route

/-- The usable routes of a security, in the order of their accounts. -/
def buyRoutes (routes : List AcquisitionRoute) (securityId : String) : List AcquisitionRoute :=
  (((routes.insertionSort fun a b => a.securityId < b.securityId ∨
      a.securityId = b.securityId ∧ a.accountId ≤ b.accountId).filter fun route =>
    route.securityId = securityId ∧
      routeFailures accountIds cutoffAt snapshot route = []).map cappedRoute)

/-- The routes of all candidates, each with the position of its candidate. -/
def memberRoutes (routes : List AcquisitionRoute) (candidates : List CalibratedMember) :
    List (AcquisitionRoute × ℕ) :=
  candidates.zipIdx.flatMap fun p =>
    (buyRoutes accountIds cutoffAt snapshot routes p.1.securityId).map (·, p.2)

end Routes

section Legs

variable (ctx : DecimalContext)

/-- The leg of a quantity on a route, unless nothing is bought there. -/
def legOf (route : AcquisitionRoute) (quantity : ℚ) : Except Failure (Option AcquisitionLeg) := do
  if quantity = 0 then return none
  let priceCap ← known route.priceCap .raised
  let principal := ctx.mul quantity priceCap
  require (route.minimumQuantity ≤ quantity ∧
      (ctx.sub quantity route.minimumQuantity / route.quantityIncrement).den = 1)
    (.blocked ["ALLOCATION_QUANTITY_VERIFICATION_FAILED"])
  return some
    { route := route
      quantity := quantity
      principal := principal
      purchaseCost := route.cost ctx principal }

/-- The legs of all candidates, each with the position of its candidate. -/
def allocationLegs (routes : List (AcquisitionRoute × ℕ)) (quantities : List ℚ) :
    Except Failure (List (AcquisitionLeg × ℕ)) := do
  require (routes.length = quantities.length) .raised
  let legs ← (routes.zip quantities).mapM fun entry => do
    let leg ← legOf ctx entry.1.1 entry.2
    return leg.map (·, entry.1.2)
  return legs.filterMap id

/-- The legs of the candidate at a position. -/
def legsByMember (legs : List (AcquisitionLeg × ℕ)) (index : ℕ) : List AcquisitionLeg :=
  (legs.filter (·.2 = index)).map Prod.fst

end Legs

/-- Whether the rows of a plan buy the legs of their candidates. -/
def RowsBuy (rows : List CandidateAllocationRow) (candidates : List CalibratedMember)
    (legs : List (AcquisitionLeg × ℕ)) : Prop :=
  rows.map (fun row => (row.candidate, row.legs)) =
    candidates.zipIdx.map fun p => (p.1, legsByMember legs p.2)

section Nodup

variable {ctx : DecimalContext} {accountIds : List String} {cutoffAt : Instant}
  {snapshot : ReconciledPositionSnapshot} {routes : List AcquisitionRoute}
  {candidates : List CalibratedMember} {quantities : List ℚ} {legs : List (AcquisitionLeg × ℕ)}
  {rows : List CandidateAllocationRow}

theorem nodup_buyRoutes (hroutes : (routes.map AcquisitionRoute.key).Nodup) (securityId : String) :
    ((buyRoutes accountIds cutoffAt snapshot routes securityId).map (·.accountId)).Nodup := by
  have hcapped : ∀ route, (cappedRoute route).accountId = route.accountId := by
    intro route
    unfold cappedRoute
    split <;> rfl
  rw [buyRoutes, List.map_map]
  refine List.Nodup.map_on ?_ (List.Nodup.filter _ ?_)
  · intro a ha b hb hab
    obtain ⟨ha, hasecurity⟩ := List.mem_filter.mp ha
    obtain ⟨hb, hbsecurity⟩ := List.mem_filter.mp hb
    have haccount : a.accountId = b.accountId := by
      rw [← hcapped a, ← hcapped b]
      exact hab
    have hsecurity : a.securityId = b.securityId :=
      (of_decide_eq_true hasecurity).1.trans (of_decide_eq_true hbsecurity).1.symm
    exact List.inj_on_of_nodup_map hroutes ((List.mem_insertionSort _).mp ha)
      ((List.mem_insertionSort _).mp hb) (Prod.ext hsecurity haccount)
  · exact ((List.perm_insertionSort _ _).nodup_iff).mpr (List.Nodup.of_map _ hroutes)

/-- A leg is on the route that it was made for. -/
theorem route_legOf {route : AcquisitionRoute} {quantity : ℚ} {leg : AcquisitionLeg}
    (h : legOf ctx route quantity = .ok (some leg)) : leg.route = route := by
  unfold legOf at h
  split at h
  · cases Except.ok.inj h
  · simp only [bind_eq_ok, known_eq_ok] at h
    obtain ⟨priceCap, -, ⟨⟩, -, h⟩ := h
    exact Option.some.inj (Except.ok.inj h) ▸ rfl

/-- What is made on some routes comes from them, in their order. -/
theorem sublist_made {pairs : List ((AcquisitionRoute × ℕ) × ℚ)}
    {found : List (Option (AcquisitionLeg × ℕ))} (h : List.Forall₂ (fun entry leg => (do
      let made ← legOf ctx entry.1.1 entry.2
      return made.map (·, entry.1.2)) = .ok leg) pairs found) :
    ((found.filterMap id).map fun p => (p.1.route, p.2)).Sublist (pairs.map Prod.fst) := by
  induction h with
  | nil => exact List.Sublist.refl _
  | @cons entry leg pairs found hleg _ ih =>
    obtain ⟨made, hmade, hleg⟩ := bind_eq_ok.mp hleg
    obtain rfl := (Except.ok.inj hleg).symm
    cases made with
    | none => exact ih.cons _
    | some leg =>
      change List.Sublist ((leg.route, entry.1.2) :: (found.filterMap id).map _)
        (entry.1 :: pairs.map Prod.fst)
      rw [route_legOf hmade]
      exact ih.cons_cons _

/-- The legs come from the routes, in their order. -/
theorem sublist_allocationLegs {entries : List (AcquisitionRoute × ℕ)}
    (h : allocationLegs ctx entries quantities = .ok legs) :
    (legs.map fun p => (p.1.route, p.2)).Sublist entries := by
  simp only [allocationLegs, bind_eq_ok, require_eq_ok] at h
  obtain ⟨⟨⟩, hlength, found, hfound, h⟩ := h
  obtain rfl := (Except.ok.inj h).symm
  have hsublist := sublist_made (mapM_eq_ok.mp hfound)
  rwa [List.map_fst_zip hlength.le] at hsublist

/-- A member's own routes, taken back out of the routes of all members. -/
theorem filter_memberRoutes {p : CalibratedMember × ℕ} (hp : p ∈ candidates.zipIdx) :
    ((memberRoutes accountIds cutoffAt snapshot routes candidates).filter (·.2 = p.2)).map
      Prod.fst = buyRoutes accountIds cutoffAt snapshot routes p.1.securityId := by
  have hnodup : (candidates.zipIdx.map Prod.snd).Nodup := by
    rw [List.zipIdx_map_snd]
    exact List.nodup_range'
  rw [memberRoutes]
  generalize candidates.zipIdx = pairs at hp hnodup
  have hnone : ∀ q : CalibratedMember × ℕ, q.2 ≠ p.2 →
      ((buyRoutes accountIds cutoffAt snapshot routes q.1.securityId).map (·, q.2)).filter
        (·.2 = p.2) = [] := by
    intro q hne
    refine List.filter_eq_nil_iff.mpr fun entry hentry => ?_
    obtain ⟨route, -, rfl⟩ := List.mem_map.mp hentry
    simpa using hne
  have hall : ((buyRoutes accountIds cutoffAt snapshot routes p.1.securityId).map (·, p.2)).filter
      (·.2 = p.2) = (buyRoutes accountIds cutoffAt snapshot routes p.1.securityId).map
        (·, p.2) := by
    refine List.filter_eq_self.mpr fun entry hentry => ?_
    obtain ⟨route, -, rfl⟩ := List.mem_map.mp hentry
    exact decide_eq_true rfl
  induction pairs with
  | nil => exact nomatch hp
  | cons q pairs ih =>
    rw [List.map_cons, List.nodup_cons] at hnodup
    rw [List.flatMap_cons, List.filter_append, List.map_append]
    rcases List.mem_cons.mp hp with rfl | hmem
    · have hrest : (pairs.flatMap fun q =>
          (buyRoutes accountIds cutoffAt snapshot routes q.1.securityId).map (·, q.2)).filter
            (·.2 = p.2) = [] := by
        rw [List.filter_flatMap]
        refine List.flatMap_eq_nil_iff.mpr fun q hq => hnone q fun heq => ?_
        exact hnodup.1 (heq ▸ List.mem_map_of_mem hq)
      rw [hall, hrest, List.map_map, List.map_nil, List.append_nil]
      exact List.map_id _
    · rw [hnone q fun heq => hnodup.1 (heq ▸ List.mem_map_of_mem hmem), List.map_nil,
        List.nil_append]
      exact ih hmem hnodup.2

/-- The legs of a plan buy no security twice through one account and fee schedule. -/
theorem nodup_legKeys (hroutes : (routes.map AcquisitionRoute.key).Nodup)
    (hcandidates : (candidates.map (·.securityId)).Nodup)
    (hlegs : allocationLegs ctx (memberRoutes accountIds cutoffAt snapshot routes candidates)
      quantities = .ok legs) (hrows : RowsBuy rows candidates legs) : (legKeys rows).Nodup := by
  have hkeys : legKeys rows = candidates.zipIdx.flatMap fun p =>
      (legsByMember legs p.2).map fun leg => (p.1.securityId, leg.route.accountId) := by
    have hflat := congrArg (List.flatMap fun entry : CalibratedMember × List AcquisitionLeg =>
      entry.2.map fun leg => (entry.1.securityId, leg.route.accountId)) hrows
    rwa [List.flatMap_map, List.flatMap_map] at hflat
  rw [hkeys, List.nodup_flatMap]
  constructor
  · intro p hp
    -- The legs of a candidate are some of its routes, which are in different accounts.
    have hsublist : ((legsByMember legs p.2).map (·.route)).Sublist
        (buyRoutes accountIds cutoffAt snapshot routes p.1.securityId) := by
      rw [← filter_memberRoutes hp]
      have hfilter := ((sublist_allocationLegs hlegs).filter (·.2 = p.2)).map Prod.fst
      rw [List.filter_map, List.map_map] at hfilter
      rw [legsByMember, List.map_map]
      exact hfilter
    have haccounts := (nodup_buyRoutes hroutes p.1.securityId).sublist
      (hsublist.map (·.accountId))
    rw [List.map_map] at haccounts
    refine List.Nodup.of_map Prod.snd ?_
    rw [List.map_map]
    exact haccounts
  · have hsecurities : (candidates.zipIdx.map (·.1.securityId)).Nodup := by
      have hmap := congrArg (List.map (·.securityId)) (List.zipIdx_map_fst 0 candidates)
      rw [List.map_map] at hmap
      exact hmap ▸ hcandidates
    refine (List.pairwise_map.mp hsecurities).imp fun hne key hkey hkey' => hne ?_
    obtain ⟨leg, -, rfl⟩ := List.mem_map.mp hkey
    obtain ⟨leg', -, hleg'⟩ := List.mem_map.mp hkey'
    exact (congrArg Prod.fst hleg').symm

end Nodup

namespace SampleLegs

/-- The sample route in an account. -/
def route (accountId : String) : AcquisitionRoute :=
  { SampleExecution.route with
    accountId
    currentPrice := some 10
    currentPrice_pos := Literal.mem_ten_pos }

/-- A security that is bought in two accounts. -/
def legs : List (AcquisitionLeg × ℕ) :=
  [(⟨route "A", 1, 10, 1⟩, 0), (⟨route "B", 2, 20, 1⟩, 0)]

def rows : List CandidateAllocationRow :=
  SampleExecution.plan.rows.map fun row => { row with legs := legs.map Prod.fst }

end SampleLegs

open SampleLegs in
/-- A plan of two securities over two routes repeats no key. -/
theorem sample_legs : (legKeys rows).Nodup := by
  have hlegs : allocationLegs .exact (memberRoutes ["A", "B"] 0 (SampleExecution.snapshot [])
      [route "B", route "A"] (rows.map (·.candidate))) [1, 2] = .ok legs := by decide +kernel
  exact nodup_legKeys (by decide +kernel) (by decide +kernel) hlegs rfl

end StockProfiler.DecisionCases
