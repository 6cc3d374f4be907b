import StockProfiler.Portfolio.FundingSchedule

/-!
# Loads of the funding network and schedules

A load of the network is read as a schedule, and a schedule as a load: what the
one delivers, the other pays.
-/

namespace StockProfiler.Portfolio

open PositionManagement

section Loads

variable {r : CashTransferRoute} {o : DatedCashObligation} {totalCash : ℚ}
  {resources : List CashResource} {routes : List CashTransferRoute}
  {obligations : List DatedCashObligation}

theorem mem_fundingTimes {t : Instant} :
    t ∈ fundingTimes resources routes obligations ↔
      (∃ r ∈ resources, r.availableAt = t) ∨ (∃ r ∈ routes, r.departureAt = t) ∨
      (∃ r ∈ routes, r.arrivalAt = t) ∨ ∃ o ∈ obligations, o.latestUsableAt = t := by
  simp only [fundingTimes, mem_sortedSet, List.mem_append, List.mem_map, or_assoc]

theorem accountsKnown_iff :
    accountsKnown resources routes obligations = true ↔
      (∀ r ∈ routes, r.sourceAccountId ∈ resources.map (·.accountId) ∧
        r.targetAccountId ∈ resources.map (·.accountId)) ∧
      ∀ o ∈ obligations, o.targetAccountId ∈ resources.map (·.accountId) := by
  simp only [accountsKnown, Bool.and_eq_true, List.all_eq_true, decide_eq_true_iff]

theorem totalCash_nonneg (hamounts : ∀ r ∈ resources, 0 ≤ r.amount) :
    0 ≤ (resources.map (·.amount)).sum := by
  refine List.sum_nonneg fun x hx => ?_
  obtain ⟨r, hr, rfl⟩ := List.mem_map.mp hx
  exact hamounts r hr

theorem capacity_nonneg {capacity : DatedCashObligation → ℚ} (htotal : 0 ≤ totalCash)
    (hamounts : ∀ r ∈ resources, 0 ≤ r.amount) (hcapacity : ∀ o ∈ obligations, 0 ≤ capacity o) :
    ∀ a ∈ fundingArcs totalCash capacity resources routes obligations, 0 ≤ a.capacity := by
  rw [forall_mem_fundingArcs]
  refine ⟨fun a ha => ?_, fun r hr => ?_, fun r _ => ?_, fun o ho => ?_⟩
  · obtain ⟨accountId, -, between, -, rfl⟩ := (mem_holdoverArcs ..).mp ha
    exact htotal
  · have hamount := hamounts r.1 (List.fst_mem_of_mem_zipIdx hr)
    exact ⟨hamount, hamount⟩
  · exact ⟨r.capacity_nonneg, r.capacity_nonneg⟩
  · exact ⟨hcapacity o ho, hcapacity o ho⟩

section Load

variable (capacity : DatedCashObligation → ℚ) (load : Arc FundingNode → ℚ)

/-- A class without holdovers takes nothing from them. -/
theorem sumWhere_holdoverArcs_eq_zero {p : Arc FundingNode → Prop} [DecidablePred p]
    (hp : ∀ accountId, ∀ between ∈ successive (fundingTimes resources routes obligations),
      ¬p (holdoverArc totalCash accountId between)) :
    sumWhere (holdoverArcs totalCash resources routes obligations) load p = 0 := by
  refine sumWhere_eq_zero fun a ha => ?_
  obtain ⟨accountId, -, between, hbetween, rfl⟩ := (mem_holdoverArcs ..).mp ha
  exact hp accountId between hbetween

theorem net_sink :
    inflow (fundingArcs totalCash capacity resources routes obligations) load .sink -
        outflow (fundingArcs totalCash capacity resources routes obligations) load .sink =
      (obligations.map fun o => load (coverageArc capacity o)).sum := by
  rw [inflow, outflow, sumWhere_fundingArcs, sumWhere_fundingArcs,
    sumWhere_holdoverArcs_eq_zero load (fun _ _ _ h => by cases h),
    sumWhere_holdoverArcs_eq_zero load (fun _ _ _ h => by cases h)]
  simp

theorem net_route (hroutes : (routes.map (·.routeId)).Nodup) (hr : r ∈ routes) :
    inflow (fundingArcs totalCash capacity resources routes obligations) load
        (.route r.routeId) = load (departureArc r) ∧
      outflow (fundingArcs totalCash capacity resources routes obligations) load
        (.route r.routeId) = load (arrivalArc r) := by
  have hin := sumWhere_of_key hroutes hr fun r => load (departureArc r)
  have hout := sumWhere_of_key hroutes hr fun r => load (arrivalArc r)
  rw [inflow, outflow, sumWhere_fundingArcs, sumWhere_fundingArcs,
    sumWhere_holdoverArcs_eq_zero load (fun _ _ _ h => by cases h),
    sumWhere_holdoverArcs_eq_zero load (fun _ _ _ h => by cases h), ← hin, ← hout]
  constructor <;> simp

theorem net_obligation (hobligations : (obligations.map (·.obligationId)).Nodup)
    (ho : o ∈ obligations) :
    inflow (fundingArcs totalCash capacity resources routes obligations) load
        (.obligation o.obligationId) = load (deadlineArc capacity o) ∧
      outflow (fundingArcs totalCash capacity resources routes obligations) load
        (.obligation o.obligationId) = load (coverageArc capacity o) := by
  have hin := sumWhere_of_key hobligations ho fun o => load (deadlineArc capacity o)
  have hout := sumWhere_of_key hobligations ho fun o => load (coverageArc capacity o)
  rw [inflow, outflow, sumWhere_fundingArcs, sumWhere_fundingArcs,
    sumWhere_holdoverArcs_eq_zero load (fun _ _ _ h => by cases h),
    sumWhere_holdoverArcs_eq_zero load (fun _ _ _ h => by cases h), ← hin, ← hout]
  constructor <;> simp

theorem departure_eq_arrival (hroutes : (routes.map (·.routeId)).Nodup)
    (h : FeasibleLoad (fundingArcs totalCash capacity resources routes obligations)
      .source .sink load) (hr : r ∈ routes) : load (departureArc r) = load (arrivalArc r) := by
  have hnode := h.conserves (.route r.routeId) nofun nofun
  rwa [(net_route capacity load hroutes hr).1, (net_route capacity load hroutes hr).2] at hnode

/-- A load carries the same on both arcs of an obligation. -/
theorem deadline_eq_coverage (hobligations : (obligations.map (·.obligationId)).Nodup)
    (h : FeasibleLoad (fundingArcs totalCash capacity resources routes obligations)
      .source .sink load) (ho : o ∈ obligations) :
    load (deadlineArc capacity o) = load (coverageArc capacity o) := by
  have hnode := h.conserves (.obligation o.obligationId) nofun nofun
  rwa [(net_obligation capacity load hobligations ho).1,
    (net_obligation capacity load hobligations ho).2] at hnode

/-- The nodes of one account up to an instant. -/
def accountUntil (times : List Instant) (accountId : String) (instant : Instant) :
    Finset FundingNode :=
  ((times.filter (· ≤ instant)).map (FundingNode.account accountId)).toFinset

theorem mem_accountUntil {times : List Instant} {accountId : String} {instant : Instant}
    {v : FundingNode} :
    v ∈ accountUntil times accountId instant ↔
      ∃ t ∈ times, t ≤ instant ∧ FundingNode.account accountId t = v := by
  simp [accountUntil, and_assoc]

/-- Up to an instant an account gives no more than it receives. -/
theorem account_solvent
    (h : FeasibleLoad (fundingArcs totalCash capacity resources routes obligations)
      .source .sink load) (accountId : String) (instant : Instant) :
    sumWhere routes (fun r => load (departureArc r))
        (fun r => r.sourceAccountId = accountId ∧ r.departureAt ≤ instant) +
      sumWhere obligations (fun o => load (deadlineArc capacity o))
        (fun o => o.targetAccountId = accountId ∧ o.latestUsableAt ≤ instant) ≤
      sumWhere resources.zipIdx (fun r => load (creditArc r))
        (fun r => r.1.accountId = accountId ∧ r.1.availableAt ≤ instant) +
      sumWhere routes (fun r => load (arrivalArc r))
        (fun r => r.targetAccountId = accountId ∧ r.arrivalAt ≤ instant) := by
  set N := accountUntil (fundingTimes resources routes obligations) accountId instant with hN
  have hmem : ∀ {a : String} {t : Instant}, t ∈ fundingTimes resources routes obligations →
      (FundingNode.account a t ∈ N ↔ a = accountId ∧ t ≤ instant) := by
    intro a t ht
    rw [hN, mem_accountUntil]
    constructor
    · rintro ⟨t', -, hle, he⟩
      obtain ⟨rfl, rfl⟩ := FundingNode.account.inj he
      exact ⟨rfl, hle⟩
    · rintro ⟨rfl, hle⟩
      exact ⟨t, ht, hle, rfl⟩
  have hother : ∀ {v : FundingNode}, (∀ a t, FundingNode.account a t ≠ v) → v ∉ N := by
    intro v hv hmem
    obtain ⟨t, -, -, he⟩ := mem_accountUntil.mp hmem
    exact hv _ _ he
  have hzero : ∑ v ∈ N,
      (inflow (fundingArcs totalCash capacity resources routes obligations) load v -
        outflow (fundingArcs totalCash capacity resources routes obligations) load v) = 0 := by
    refine Finset.sum_eq_zero fun v hv => ?_
    obtain ⟨t, -, -, rfl⟩ := mem_accountUntil.mp hv
    rw [h.conserves (.account accountId t) nofun nofun, sub_self]
  have hsource : FundingNode.source ∉ N := hother nofun
  have hsink : FundingNode.sink ∉ N := hother nofun
  have hresource : ∀ i, FundingNode.resource i ∉ N := fun i => hother nofun
  have hroute : ∀ i, FundingNode.route i ∉ N := fun i => hother nofun
  have hobligation : ∀ i, FundingNode.obligation i ∉ N := fun i => hother nofun
  rw [sum_net_eq, sumWhere_fundingArcs, sumWhere_fundingArcs] at hzero
  -- Holdovers only lead to later instants, so none enters from outside.
  have henter : sumWhere (holdoverArcs totalCash resources routes obligations) load
      (fun a => a.head ∈ N ∧ a.tail ∉ N) = 0 := by
    refine sumWhere_holdoverArcs_eq_zero load fun a p hp he => he.2 ?_
    obtain ⟨rfl, hle⟩ := (hmem (snd_mem_of_mem_successive hp)).mp he.1
    exact (hmem (fst_mem_of_mem_successive hp)).mpr
      ⟨rfl, (successive_lt (sortedSet_pairwise_lt _) hp).le.trans hle⟩
  have hleave : 0 ≤ sumWhere (holdoverArcs totalCash resources routes obligations) load
      (fun a => a.tail ∈ N ∧ a.head ∉ N) :=
    sumWhere_nonneg fun a ha => (((forall_mem_fundingArcs ..).mp h.bounds).1 a ha).1
  simp only [resourceArc_head, resourceArc_tail, creditArc_head, creditArc_tail,
    departureArc_head, departureArc_tail, arrivalArc_head, arrivalArc_tail, deadlineArc_head,
    deadlineArc_tail, coverageArc_head, coverageArc_tail, hsource, hsink, hresource, hroute,
    hobligation, false_and, not_false_eq_true, and_true, sumWhere_false, zero_add, add_zero,
    henter] at hzero
  have hcredit : sumWhere resources.zipIdx (fun r => load (creditArc r))
      (fun r => FundingNode.account r.1.accountId r.1.availableAt ∈ N) = _ :=
    sumWhere_congr (fun r hr => hmem (mem_fundingTimes.mpr
      (.inl ⟨r.1, List.fst_mem_of_mem_zipIdx hr, rfl⟩))) fun _ _ _ => rfl
  have hdeparture : sumWhere routes (fun r => load (departureArc r))
      (fun r => FundingNode.account r.sourceAccountId r.departureAt ∈ N) = _ :=
    sumWhere_congr (fun r hr => hmem (mem_fundingTimes.mpr (.inr (.inl ⟨r, hr, rfl⟩))))
      fun _ _ _ => rfl
  have harrival : sumWhere routes (fun r => load (arrivalArc r))
      (fun r => FundingNode.account r.targetAccountId r.arrivalAt ∈ N) = _ :=
    sumWhere_congr (fun r hr => hmem (mem_fundingTimes.mpr (.inr (.inr (.inl ⟨r, hr, rfl⟩)))))
      fun _ _ _ => rfl
  have hdeadline : sumWhere obligations (fun o => load (deadlineArc capacity o))
      (fun o => FundingNode.account o.targetAccountId o.latestUsableAt ∈ N) = _ :=
    sumWhere_congr (fun o ho => hmem (mem_fundingTimes.mpr (.inr (.inr (.inr ⟨o, ho, rfl⟩)))))
      fun _ _ _ => rfl
  rw [hcredit, hdeparture, harrival, hdeadline] at hzero
  linarith

/-- The schedule that sends and pays what a load carries. -/
def loadSchedule (routes : List CashTransferRoute) (obligations : List DatedCashObligation) :
    FundingSchedule where
  transfers := routes.map fun r =>
    { route := r
      sentAt := r.departureAt
      creditedAt := r.arrivalAt
      amount := load (arrivalArc r) }
  payments := obligations.map fun o =>
    { obligation := o
      paidAt := o.latestUsableAt
      amount := load (coverageArc (·.amount) o) }

/-- Distinct records of a list are found by themselves. -/
theorem sumWhere_eq_self {β κ : Type*} [DecidableEq β] {records : List β} {key : β → κ}
    (hkeys : (records.map key).Nodup) {record : β} (hmem : record ∈ records) (f : β → ℚ) :
    sumWhere records f (fun b => b = record) = f record := by
  have hid : (records.map id).Nodup := (List.map_id records).symm ▸ hkeys.of_map
  exact sumWhere_of_key hid hmem f

/-- What a load of the network carries can be scheduled. -/
theorem loadSchedule_feasible (hroutes : (routes.map (·.routeId)).Nodup)
    (hobligations : (obligations.map (·.obligationId)).Nodup)
    (hforward : ∀ r ∈ routes, r.departureAt ≤ r.arrivalAt)
    (h : FeasibleLoad (fundingArcs totalCash (·.amount) resources routes obligations)
      .source .sink load) :
    (loadSchedule load routes obligations).Feasible resources routes obligations := by
  obtain ⟨-, hresource, hroute, hobligation⟩ := (forall_mem_fundingArcs ..).mp h.bounds
  constructor
  case transfer =>
    intro x hx
    obtain ⟨r, hr, rfl⟩ := List.mem_map.mp hx
    exact ⟨hr, (hroute r hr).2.1, le_rfl, hforward r hr, le_rfl⟩
  case capacity =>
    intro r hr
    rw [loadSchedule, sumWhere_map, sumWhere_eq_self hroutes hr]
    exact (hroute r hr).2.2
  case payment =>
    intro p hp
    obtain ⟨o, ho, rfl⟩ := List.mem_map.mp hp
    exact ⟨ho, (hobligation o ho).2.1, le_rfl⟩
  case required =>
    intro o ho
    rw [loadSchedule, sumWhere_map, sumWhere_eq_self hobligations ho]
    exact (hobligation o ho).2.2
  case solvent =>
    intro accountId instant
    have hsolvent := account_solvent (·.amount) load h accountId instant
    have hcredit : sumWhere resources.zipIdx (fun r => load (creditArc r))
        (fun r => r.1.accountId = accountId ∧ r.1.availableAt ≤ instant) ≤
        sumWhere resources CashResource.amount
          fun r => r.accountId = accountId ∧ r.availableAt ≤ instant := by
      rw [← sumWhere_zipIdx resources CashResource.amount]
      exact sumWhere_le_sumWhere (fun _ _ hr => hr) (fun r hr _ => (hresource r hr).2.2)
        fun r hr => (hresource r hr).2.1.trans (hresource r hr).2.2
    have hdeparture : sumWhere routes (fun r => load (departureArc r))
        (fun r => r.sourceAccountId = accountId ∧ r.departureAt ≤ instant) =
        sumWhere routes (fun r => load (arrivalArc r))
          fun r => r.sourceAccountId = accountId ∧ r.departureAt ≤ instant :=
      sumWhere_congr (fun _ _ => Iff.rfl) fun r hr _ => departure_eq_arrival _ _ hroutes h hr
    have hdeadline : sumWhere obligations (fun o => load (deadlineArc (·.amount) o))
        (fun o => o.targetAccountId = accountId ∧ o.latestUsableAt ≤ instant) =
        sumWhere obligations (fun o => load (coverageArc (·.amount) o))
          fun o => o.targetAccountId = accountId ∧ o.latestUsableAt ≤ instant :=
      sumWhere_congr (fun _ _ => Iff.rfl) fun o ho _ => deadline_eq_coverage _ _ hobligations h ho
    rw [FundingSchedule.balance, FundingSchedule.sumWhere_movements]
    simp only [loadSchedule, sumWhere_map]
    linarith

/-- The schedule of a load pays what reaches the sink. -/
theorem delivered_loadSchedule :
    (loadSchedule load routes obligations).delivered =
      inflow (fundingArcs totalCash (·.amount) resources routes obligations) load .sink -
        outflow (fundingArcs totalCash (·.amount) resources routes obligations) load .sink := by
  rw [net_sink, FundingSchedule.delivered, loadSchedule, List.map_map]
  rfl

end Load

section Schedule

variable {S : Finset FundingNode}

variable (s : FundingSchedule) (resources)

/-- What a schedule sends over a route. -/
def FundingSchedule.carried (routeId : String) : ℚ :=
  sumWhere s.transfers DatedTransfer.amount fun x => x.route.routeId = routeId

/-- What a schedule pays towards an obligation. -/
def FundingSchedule.paid (obligationId : String) : ℚ :=
  sumWhere s.payments DatedPayment.amount fun p => p.obligation.obligationId = obligationId

/-- The load of a schedule: resources in full, and what accounts hold, routes carry and
obligations are paid. -/
def scheduleLoad (a : Arc FundingNode) : ℚ :=
  match a.tail, a.head with
  | .account accountId instant, .account _ _ => s.deferred.balance resources accountId instant
  | .account _ _, .route routeId => s.carried routeId
  | .route routeId, .account _ _ => s.carried routeId
  | .account _ _, .obligation obligationId => s.paid obligationId
  | .obligation obligationId, .sink => s.paid obligationId
  | _, _ => a.capacity

variable {s resources}

variable (h : s.Feasible resources routes obligations)
include h

theorem mem_fundingTimes_of_mem_movements {m : CashMovement}
    (hm : m ∈ s.deferred.movements resources) :
    m.instant ∈ fundingTimes resources routes obligations := by
  rw [FundingSchedule.movements, List.mem_append, List.mem_append] at hm
  rcases hm with (hm | hm) | hm
  · obtain ⟨r, hr, rfl⟩ := List.mem_map.mp hm
    exact mem_fundingTimes.mpr (.inl ⟨r, hr, rfl⟩)
  · obtain ⟨x, hx, hm⟩ := List.mem_flatMap.mp hm
    obtain ⟨x, hgiven, rfl⟩ := List.mem_map.mp hx
    have hroute := (h.transfer x hgiven).1
    rcases List.mem_cons.mp hm with rfl | hm
    · exact mem_fundingTimes.mpr (.inr (.inl ⟨_, hroute, rfl⟩))
    · rw [List.mem_singleton.mp hm]
      exact mem_fundingTimes.mpr (.inr (.inr (.inl ⟨_, hroute, rfl⟩)))
  · obtain ⟨p, hp, rfl⟩ := List.mem_map.mp hm
    obtain ⟨p, hgiven, rfl⟩ := List.mem_map.mp hp
    exact mem_fundingTimes.mpr (.inr (.inr (.inr ⟨_, (h.payment p hgiven).1, rfl⟩)))

theorem carried_nonneg (routeId : String) : 0 ≤ s.carried routeId :=
  sumWhere_nonneg fun x hx => (h.transfer x hx).2.1

theorem paid_nonneg (obligationId : String) : 0 ≤ s.paid obligationId :=
  sumWhere_nonneg fun p hp => (h.payment p hp).2.1

theorem carried_le_capacity (hroutes : (routes.map (·.routeId)).Nodup) (hr : r ∈ routes) :
    s.carried r.routeId ≤ r.capacity := by
  refine le_of_eq_of_le ?_ (h.capacity r hr)
  refine sumWhere_congr (fun x hx => ⟨fun he => ?_, congrArg _⟩) fun _ _ _ => rfl
  exact List.inj_on_of_nodup_map hroutes (h.transfer x hx).1 hr he

theorem paid_le_amount (hobligations : (obligations.map (·.obligationId)).Nodup)
    (ho : o ∈ obligations) : s.paid o.obligationId ≤ o.amount := by
  refine le_of_eq_of_le ?_ (h.required o ho)
  refine sumWhere_congr (fun p hp => ⟨fun he => ?_, congrArg _⟩) fun _ _ _ => rfl
  exact List.inj_on_of_nodup_map hobligations (h.payment p hp).1 ho he

theorem sum_carried (hroutes : (routes.map (·.routeId)).Nodup) (p : CashTransferRoute → Prop)
    [DecidablePred p] :
    sumWhere routes (fun r => s.carried r.routeId) p =
      sumWhere s.transfers DatedTransfer.amount fun x => p x.route :=
  sumWhere_fiber hroutes p DatedTransfer.route fun x hx => (h.transfer x hx).1

theorem sum_paid (hobligations : (obligations.map (·.obligationId)).Nodup)
    (p : DatedCashObligation → Prop) [DecidablePred p] :
    sumWhere obligations (fun o => s.paid o.obligationId) p =
      sumWhere s.payments DatedPayment.amount fun x => p x.obligation :=
  sumWhere_fiber hobligations p DatedPayment.obligation fun x hx => (h.payment x hx).1

theorem deferred_balance_nonneg (accountId : String) (instant : Instant) :
    0 ≤ s.deferred.balance resources accountId instant :=
  (h.solvent accountId instant).trans (s.balance_le_deferred resources h accountId instant)

theorem scheduleLoad_nonneg (hamounts : ∀ r ∈ resources, 0 ≤ r.amount) :
    ∀ a ∈ fundingArcs totalCash (·.amount) resources routes obligations,
      0 ≤ scheduleLoad resources s a := by
  rw [forall_mem_fundingArcs]
  refine ⟨fun a ha => ?_, fun r hr => ?_, fun r _ => ?_, fun o _ => ?_⟩
  · obtain ⟨accountId, -, between, -, rfl⟩ := (mem_holdoverArcs ..).mp ha
    exact deferred_balance_nonneg h accountId between.1
  · have hamount := hamounts r.1 (List.fst_mem_of_mem_zipIdx hr)
    exact ⟨hamount, hamount⟩
  · exact ⟨carried_nonneg h r.routeId, carried_nonneg h r.routeId⟩
  · exact ⟨paid_nonneg h o.obligationId, paid_nonneg h o.obligationId⟩

variable (totalCash) in
/-- What a schedule pays is what its load brings to the sink. -/
theorem net_sink_scheduleLoad (hobligations : (obligations.map (·.obligationId)).Nodup) :
    inflow (fundingArcs totalCash (·.amount) resources routes obligations)
        (scheduleLoad resources s) .sink -
      outflow (fundingArcs totalCash (·.amount) resources routes obligations)
        (scheduleLoad resources s) .sink = s.delivered := by
  have hpaid := sum_paid h hobligations fun _ => True
  rw [sumWhere_true, sumWhere_true] at hpaid
  rw [net_sink, FundingSchedule.delivered, ← hpaid]
  rfl

omit h in
/-- The holdovers of one account join its successive instants. -/
theorem sumWhere_holdoverArcs_account {accountId : String}
    (hknown : accountId ∈ resources.map (·.accountId)) (load : Arc FundingNode → ℚ)
    {p : Arc FundingNode → Prop} [DecidablePred p] {q : Instant × Instant → Prop} [DecidablePred q]
    (hp : ∀ other between,
      p (holdoverArc totalCash other between) ↔ accountId = other ∧ q between) :
    sumWhere (holdoverArcs totalCash resources routes obligations) load p =
      sumWhere (successive (fundingTimes resources routes obligations))
        (fun between => load (holdoverArc totalCash accountId between)) q := by
  have hone : ∀ other, sumWhere ((successive (fundingTimes resources routes obligations)).map
      (holdoverArc totalCash other)) load p =
      if accountId = other then sumWhere (successive (fundingTimes resources routes obligations))
        (fun between => load (holdoverArc totalCash accountId between)) q else 0 := by
    intro other
    rw [sumWhere_map]
    by_cases he : accountId = other
    · subst he
      rw [if_pos rfl]
      exact sumWhere_congr (fun between _ => (hp _ between).trans (and_iff_right rfl))
        fun _ _ _ => rfl
    · rw [if_neg he]
      exact sumWhere_eq_zero fun between _ hbetween => he ((hp _ between).mp hbetween).1
  have hkeys : ((sortedSet (resources.map (·.accountId))).map id).Nodup := by
    rw [List.map_id]
    exact sortedSet_nodup _
  have hsum := sumWhere_key_eq hkeys (fun _ => True) ((mem_sortedSet ..).mpr hknown)
    (sumWhere (successive (fundingTimes resources routes obligations))
      (fun between => load (holdoverArc totalCash accountId between)) q)
  rw [sumWhere_true, if_pos trivial] at hsum
  rw [holdoverArcs, sumWhere_flatMap, funext hone]
  exact hsum

/-- What an account holds on to is what it held before and what moved meanwhile. -/
theorem deferred_balance_carried (accountId : String) (instant : Instant) :
    sumWhere (successive (fundingTimes resources routes obligations))
        (fun p => s.deferred.balance resources accountId p.1) (fun p => p.1 = instant) ≤
      sumWhere (successive (fundingTimes resources routes obligations))
        (fun p => s.deferred.balance resources accountId p.1) (fun p => p.2 = instant) +
      sumWhere (s.deferred.movements resources) CashMovement.amount
        fun m => m.accountId = accountId ∧ m.instant = instant := by
  have hitems : ∀ t, s.deferred.balance resources accountId t =
      sumWhere ((s.deferred.movements resources).filter (·.accountId = accountId))
        CashMovement.amount fun m => m.instant ≤ t := fun t => by
    rw [sumWhere_filter, FundingSchedule.balance]
  rw [← sumWhere_filter]
  simp only [hitems]
  refine carried_le (sortedSet_pairwise_lt _) (fun m hm => ?_) (fun t => ?_) instant
  · exact mem_fundingTimes_of_mem_movements h (List.mem_filter.mp hm).1
  · rw [← hitems]
    exact deferred_balance_nonneg h accountId t

omit h in
/-- What moves in an account at an instant under a deferred schedule. -/
theorem deferred_moved (accountId : String) (instant : Instant) :
    sumWhere (s.deferred.movements resources) CashMovement.amount
        (fun m => m.accountId = accountId ∧ m.instant = instant) =
      sumWhere resources CashResource.amount
          (fun r => r.accountId = accountId ∧ r.availableAt = instant) -
        sumWhere s.transfers DatedTransfer.amount
          (fun x => x.route.sourceAccountId = accountId ∧ x.route.departureAt = instant) +
        sumWhere s.transfers DatedTransfer.amount
          (fun x => x.route.targetAccountId = accountId ∧ x.route.arrivalAt = instant) -
        sumWhere s.payments DatedPayment.amount fun x =>
          x.obligation.targetAccountId = accountId ∧ x.obligation.latestUsableAt = instant := by
  rw [FundingSchedule.sumWhere_movements]
  simp only [FundingSchedule.deferred, sumWhere_map]

variable (hroutes : (routes.map (·.routeId)).Nodup)
  (hobligations : (obligations.map (·.obligationId)).Nodup)
  (hamounts : ∀ r ∈ resources, 0 ≤ r.amount)
  (hknown : accountsKnown resources routes obligations = true)
include hroutes hobligations hamounts hknown

/-- No node of the network gives more than it receives. -/
theorem scheduleLoad_node (v : FundingNode) (hsource : v ≠ .source) (hsink : v ≠ .sink) :
    outflow (fundingArcs totalCash (·.amount) resources routes obligations)
        (scheduleLoad resources s) v ≤
      inflow (fundingArcs totalCash (·.amount) resources routes obligations)
        (scheduleLoad resources s) v := by
  cases v with
  | source => exact absurd rfl hsource
  | sink => exact absurd rfl hsink
  | resource i | route i | obligation i =>
    rw [inflow, outflow, sumWhere_fundingArcs, sumWhere_fundingArcs,
      sumWhere_holdoverArcs_eq_zero _ (fun _ _ _ h => by cases h),
      sumWhere_holdoverArcs_eq_zero _ (fun _ _ _ h => by cases h)]
    simp [scheduleLoad]
  | account accountId instant =>
    by_cases hacc : accountId ∈ resources.map (·.accountId)
    · have hcarried := deferred_balance_carried h accountId instant
      rw [deferred_moved] at hcarried
      have hsent := sum_carried h hroutes fun r =>
        r.sourceAccountId = accountId ∧ r.departureAt = instant
      have hcredited := sum_carried h hroutes fun r =>
        r.targetAccountId = accountId ∧ r.arrivalAt = instant
      have hpaid := sum_paid h hobligations fun o =>
        o.targetAccountId = accountId ∧ o.latestUsableAt = instant
      have hcash := sumWhere_zipIdx resources CashResource.amount fun r =>
        r.accountId = accountId ∧ r.availableAt = instant
      rw [inflow, outflow, sumWhere_fundingArcs, sumWhere_fundingArcs,
        sumWhere_holdoverArcs_account hacc (q := fun between => between.1 = instant),
        sumWhere_holdoverArcs_account hacc (q := fun between => between.2 = instant)]
      · simp only [scheduleLoad, holdoverArc_tail, holdoverArc_head, resourceArc_head,
          resourceArc_tail, resourceArc_capacity, creditArc_head, creditArc_tail,
          creditArc_capacity, departureArc_head, departureArc_tail, arrivalArc_head,
          arrivalArc_tail, deadlineArc_head, deadlineArc_tail, coverageArc_head,
          coverageArc_tail, FundingNode.account.injEq, reduceCtorEq, sumWhere_false, zero_add,
          add_zero, hsent, hcredited, hpaid, hcash]
        linarith
      · intro other between
        simp [eq_comm (a := accountId)]
      · intro other between
        simp [eq_comm (a := accountId)]
    · have hzero : ∀ a ∈ fundingArcs totalCash (·.amount) resources routes obligations,
          ¬a.tail = .account accountId instant := by
        obtain ⟨hroute, hobligation⟩ := accountsKnown_iff.mp hknown
        rw [forall_mem_fundingArcs]
        refine ⟨fun a ha he => ?_, fun r _ => ⟨by simp, by simp⟩,
          fun r hr => ⟨fun he => ?_, by simp⟩, fun o ho => ⟨fun he => ?_, by simp⟩⟩
        · obtain ⟨other, hother, between, -, rfl⟩ := (mem_holdoverArcs ..).mp ha
          exact hacc ((FundingNode.account.inj he).1 ▸ hother)
        · exact hacc ((FundingNode.account.inj he).1 ▸ (hroute r hr).1)
        · exact hacc ((FundingNode.account.inj he).1 ▸ hobligation o ho)
      rw [outflow, sumWhere_eq_zero hzero]
      exact sumWhere_nonneg (scheduleLoad_nonneg h hamounts)

variable (totalCash) in
/-- A schedule delivers at most what its load takes out of a set of nodes. -/
theorem delivered_le_leaves (hsource : .source ∈ S) (hsink : .sink ∉ S) :
    s.delivered ≤ sumWhere (fundingArcs totalCash (·.amount) resources routes obligations)
      (scheduleLoad resources s) (Arc.Leaves S) := by
  have hnet := net_sink_scheduleLoad totalCash h hobligations
  set arcs := fundingArcs totalCash (·.amount) resources routes obligations
  rw [← hnet]
  refine delivered_le_leaving
    (V := (FundingNode.sink :: arcs.map Arc.tail ++ arcs.map Arc.head).toFinset)
    (fun a ha => ⟨?_, ?_⟩) ?_ hsource hsink (scheduleLoad_nonneg h hamounts)
    (scheduleLoad_node h hroutes hobligations hamounts hknown)
  · have htail : a.tail ∈ arcs.map Arc.tail := List.mem_map_of_mem ha
    simp [htail]
  · have hhead : a.head ∈ arcs.map Arc.head := List.mem_map_of_mem ha
    simp [hhead]
  · simp

/-- No schedule delivers more than a cut of the network lets through. -/
theorem delivered_le_cut (hsource : .source ∈ S) (hsink : .sink ∉ S) :
    s.delivered ≤ sumWhere
      (fundingArcs (resources.map (·.amount)).sum (·.amount) resources routes obligations)
      Arc.capacity (Arc.Leaves S) := by
  set totalCash := (resources.map (·.amount)).sum with htotal
  have hcapacities : ∀ a ∈ fundingArcs totalCash (·.amount) resources routes obligations,
      0 ≤ a.capacity :=
    capacity_nonneg (totalCash_nonneg hamounts) hamounts fun o _ => o.amount_pos.le
  by_cases hheld : ∃ a ∈ holdoverArcs totalCash resources routes obligations, a.Leaves S
  · -- A holdover in the cut lets all cash through, and no more than that is ever delivered.
    obtain ⟨a, ha, hleaves⟩ := hheld
    have hall : s.delivered ≤ totalCash := by
      refine (delivered_le_leaves totalCash h hroutes hobligations hamounts hknown
        (Finset.mem_singleton_self _) (by simp)).trans_eq ?_
      rw [sumWhere_fundingArcs, sumWhere_holdoverArcs_eq_zero _ (by simp [Arc.Leaves])]
      have hcash := sumWhere_zipIdx resources CashResource.amount fun _ => True
      simpa [Arc.Leaves, scheduleLoad] using hcash
    have hthrough : a.capacity ≤ sumWhere
        (fundingArcs totalCash (·.amount) resources routes obligations) Arc.capacity
        (Arc.Leaves S) := by
      refine le_sumWhere ?_ hleaves hcapacities
      rw [fundingArcs, List.append_assoc, List.append_assoc]
      exact List.mem_append_left _ ha
    obtain ⟨accountId, -, between, -, rfl⟩ := (mem_holdoverArcs ..).mp ha
    exact hall.trans hthrough
  · refine (delivered_le_leaves totalCash h hroutes hobligations hamounts hknown hsource
      hsink).trans ?_
    refine sumWhere_le_sumWhere (fun _ _ ha => ha) ?_ hcapacities
    rw [forall_mem_fundingArcs]
    refine ⟨fun a ha hleaves => absurd ⟨a, ha, hleaves⟩ hheld, fun r _ => ?_, fun r hr => ?_,
      fun o ho => ?_⟩
    · exact ⟨fun _ => le_rfl, fun _ => le_rfl⟩
    · have hle := carried_le_capacity h hroutes hr
      exact ⟨fun _ => hle, fun _ => hle⟩
    · have hle := paid_le_amount h hobligations ho
      exact ⟨fun _ => hle, fun _ => hle⟩

end Schedule

end Loads

end StockProfiler.Portfolio
