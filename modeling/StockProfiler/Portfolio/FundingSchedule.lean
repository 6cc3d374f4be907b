import StockProfiler.Portfolio.Funding

/-!
# Funding schedules

A schedule sends cash over routes and pays obligations by their deadlines, and no
account is ever overdrawn. The funding network is exact for schedules: what a load
of the network delivers can be scheduled, and no schedule delivers more than a cut
of the network lets through.
-/

namespace StockProfiler.Portfolio

/-- A dated change of the cash of one account. -/
structure CashMovement where
  accountId : String
  instant : Instant
  amount : ℚ

/-- Cash sent over a route. -/
structure DatedTransfer where
  route : CashTransferRoute
  sentAt : Instant
  creditedAt : Instant
  amount : ℚ

/-- Cash paid towards an obligation. -/
structure DatedPayment where
  obligation : DatedCashObligation
  paidAt : Instant
  amount : ℚ

/-- What is sent and what is paid. -/
structure FundingSchedule where
  transfers : List DatedTransfer
  payments : List DatedPayment

namespace FundingSchedule

variable {routes : List CashTransferRoute} {obligations : List DatedCashObligation}
  (s : FundingSchedule) (resources : List CashResource)

/-- Every dated change of cash under a schedule. -/
def movements : List CashMovement :=
  resources.map (fun r => ⟨r.accountId, r.availableAt, r.amount⟩) ++
  s.transfers.flatMap (fun x =>
    [⟨x.route.sourceAccountId, x.sentAt, -x.amount⟩,
      ⟨x.route.targetAccountId, x.creditedAt, x.amount⟩]) ++
  s.payments.map fun p => ⟨p.obligation.targetAccountId, p.paidAt, -p.amount⟩

/-- The cash of an account at the end of an instant. -/
def balance (accountId : String) (instant : Instant) : ℚ :=
  sumWhere (s.movements resources) CashMovement.amount fun m =>
    m.accountId = accountId ∧ m.instant ≤ instant

/-- What the schedule pays in all. -/
def delivered : ℚ := (s.payments.map (·.amount)).sum

/-- A schedule that respects time, routes, obligations and the cash there is. -/
structure Feasible (routes : List CashTransferRoute) (obligations : List DatedCashObligation) :
    Prop where
  /-- Cash leaves by the departure of a given route and is credited from its arrival on. -/
  transfer : ∀ x ∈ s.transfers, x.route ∈ routes ∧ 0 ≤ x.amount ∧
    x.sentAt ≤ x.route.departureAt ∧ x.route.departureAt ≤ x.route.arrivalAt ∧
    x.route.arrivalAt ≤ x.creditedAt
  /-- No route carries more than its capacity. -/
  capacity : ∀ r ∈ routes,
    sumWhere s.transfers DatedTransfer.amount (fun x => x.route = r) ≤ r.capacity
  /-- Obligations are paid no later than their deadline. -/
  payment : ∀ p ∈ s.payments,
    p.obligation ∈ obligations ∧ 0 ≤ p.amount ∧ p.paidAt ≤ p.obligation.latestUsableAt
  /-- No obligation is paid more than its amount. -/
  required : ∀ o ∈ obligations,
    sumWhere s.payments DatedPayment.amount (fun p => p.obligation = o) ≤ o.amount
  /-- No account is ever overdrawn. -/
  solvent : ∀ accountId instant, 0 ≤ s.balance resources accountId instant

/-- The same schedule with every date moved to the one the network knows. -/
def deferred : FundingSchedule where
  transfers := s.transfers.map fun x =>
    { x with sentAt := x.route.departureAt, creditedAt := x.route.arrivalAt }
  payments := s.payments.map fun p => { p with paidAt := p.obligation.latestUsableAt }

theorem sumWhere_movements (p : CashMovement → Prop) [DecidablePred p] :
    sumWhere (s.movements resources) CashMovement.amount p =
      sumWhere resources CashResource.amount
          (fun r => p ⟨r.accountId, r.availableAt, r.amount⟩) -
        sumWhere s.transfers DatedTransfer.amount
          (fun x => p ⟨x.route.sourceAccountId, x.sentAt, -x.amount⟩) +
        sumWhere s.transfers DatedTransfer.amount
          (fun x => p ⟨x.route.targetAccountId, x.creditedAt, x.amount⟩) -
        sumWhere s.payments DatedPayment.amount
          (fun x => p ⟨x.obligation.targetAccountId, x.paidAt, -x.amount⟩) := by
  rw [movements, sumWhere_append, sumWhere_append, sumWhere_map, sumWhere_map,
    sumWhere_flatMap_pair]
  simp only [sumWhere_neg]
  ring

theorem sent_add_paid_le (h : s.Feasible resources routes obligations) (accountId : String)
    (instant : Instant) :
    sumWhere s.transfers DatedTransfer.amount
        (fun x => x.route.sourceAccountId = accountId ∧ x.sentAt ≤ instant) +
      sumWhere s.payments DatedPayment.amount
        (fun p => p.obligation.targetAccountId = accountId ∧ p.paidAt ≤ instant) ≤
      sumWhere resources CashResource.amount
        (fun r => r.accountId = accountId ∧ r.availableAt ≤ instant) +
      sumWhere s.transfers DatedTransfer.amount
        fun x => x.route.targetAccountId = accountId ∧ x.creditedAt ≤ instant := by
  have hsolvent := h.solvent accountId instant
  rw [balance, sumWhere_movements] at hsolvent
  linarith

/-- Sending and paying later and being credited earlier never lowers a balance. -/
theorem balance_le_deferred (h : s.Feasible resources routes obligations) (accountId : String)
    (instant : Instant) :
    s.balance resources accountId instant ≤ s.deferred.balance resources accountId instant := by
  have hsent : sumWhere s.transfers DatedTransfer.amount (fun x =>
      x.route.sourceAccountId = accountId ∧ x.route.departureAt ≤ instant) ≤
      sumWhere s.transfers DatedTransfer.amount fun x =>
        x.route.sourceAccountId = accountId ∧ x.sentAt ≤ instant :=
    sumWhere_le_sumWhere (fun x hx hd => ⟨hd.1, (h.transfer x hx).2.2.1.trans hd.2⟩)
      (fun _ _ _ => le_rfl) fun x hx => (h.transfer x hx).2.1
  have hcredited : sumWhere s.transfers DatedTransfer.amount (fun x =>
      x.route.targetAccountId = accountId ∧ x.creditedAt ≤ instant) ≤
      sumWhere s.transfers DatedTransfer.amount fun x =>
        x.route.targetAccountId = accountId ∧ x.route.arrivalAt ≤ instant :=
    sumWhere_le_sumWhere (fun x hx hd => ⟨hd.1, (h.transfer x hx).2.2.2.2.trans hd.2⟩)
      (fun _ _ _ => le_rfl) fun x hx => (h.transfer x hx).2.1
  have hpaid : sumWhere s.payments DatedPayment.amount (fun p =>
      p.obligation.targetAccountId = accountId ∧ p.obligation.latestUsableAt ≤ instant) ≤
      sumWhere s.payments DatedPayment.amount fun p =>
        p.obligation.targetAccountId = accountId ∧ p.paidAt ≤ instant :=
    sumWhere_le_sumWhere (fun p hp hd => ⟨hd.1, (h.payment p hp).2.2.trans hd.2⟩)
      (fun _ _ _ => le_rfl) fun p hp => (h.payment p hp).2.1
  rw [balance, balance, sumWhere_movements, sumWhere_movements]
  simp only [deferred, sumWhere_map]
  linarith

end FundingSchedule

section Arcs

variable (totalCash : ℚ) (capacity : DatedCashObligation → ℚ) (resources : List CashResource)
  (routes : List CashTransferRoute) (obligations : List DatedCashObligation)

/-- Everything about a funding network depends on its arcs class by class. -/
theorem sumWhere_fundingArcs (load : Arc FundingNode → ℚ) (p : Arc FundingNode → Prop)
    [DecidablePred p] :
    sumWhere (fundingArcs totalCash capacity resources routes obligations) load p =
      sumWhere (holdoverArcs totalCash resources routes obligations) load p +
      (sumWhere resources.zipIdx (fun r => load (resourceArc r)) (fun r => p (resourceArc r)) +
        sumWhere resources.zipIdx (fun r => load (creditArc r)) (fun r => p (creditArc r))) +
      (sumWhere routes (fun r => load (departureArc r)) (fun r => p (departureArc r)) +
        sumWhere routes (fun r => load (arrivalArc r)) (fun r => p (arrivalArc r))) +
      (sumWhere obligations (fun o => load (deadlineArc capacity o))
          (fun o => p (deadlineArc capacity o)) +
        sumWhere obligations (fun o => load (coverageArc capacity o))
          (fun o => p (coverageArc capacity o))) := by
  rw [fundingArcs, sumWhere_append, sumWhere_append, sumWhere_append, sumWhere_flatMap_pair,
    sumWhere_flatMap_pair, sumWhere_flatMap_pair, sumWhere_perm (sortedRoutes_perm routes),
    sumWhere_perm (sortedRoutes_perm routes), sumWhere_perm (sortedObligations_perm obligations),
    sumWhere_perm (sortedObligations_perm obligations)]

/-- The arcs of the funding network, kind by kind. -/
theorem forall_mem_fundingArcs {P : Arc FundingNode → Prop} :
    (∀ a ∈ fundingArcs totalCash capacity resources routes obligations, P a) ↔
      (∀ a ∈ holdoverArcs totalCash resources routes obligations, P a) ∧
      (∀ r ∈ resources.zipIdx, P (resourceArc r) ∧ P (creditArc r)) ∧
      (∀ r ∈ routes, P (departureArc r) ∧ P (arrivalArc r)) ∧
      ∀ o ∈ obligations, P (deadlineArc capacity o) ∧ P (coverageArc capacity o) := by
  have hroutes : ∀ r, r ∈ sortedRoutes routes ↔ r ∈ routes := fun r =>
    (sortedRoutes_perm routes).mem_iff
  have hobligations : ∀ o, o ∈ sortedObligations obligations ↔ o ∈ obligations := fun o =>
    (sortedObligations_perm obligations).mem_iff
  simp only [fundingArcs, List.mem_append, List.mem_flatMap, hroutes, hobligations,
    List.mem_cons, List.not_mem_nil, or_false]
  constructor
  · intro h
    refine ⟨fun a ha => h a (.inl (.inl (.inl ha))), fun r hr => ⟨?_, ?_⟩, fun r hr => ⟨?_, ?_⟩,
      fun o ho => ⟨?_, ?_⟩⟩
    · exact h _ (.inl (.inl (.inr ⟨r, hr, .inl rfl⟩)))
    · exact h _ (.inl (.inl (.inr ⟨r, hr, .inr rfl⟩)))
    · exact h _ (.inl (.inr ⟨r, hr, .inl rfl⟩))
    · exact h _ (.inl (.inr ⟨r, hr, .inr rfl⟩))
    · exact h _ (.inr ⟨o, ho, .inl rfl⟩)
    · exact h _ (.inr ⟨o, ho, .inr rfl⟩)
  · rintro ⟨hhold, hres, hroute, hobl⟩ a (((ha | ⟨r, hr, rfl | rfl⟩) | ⟨r, hr, rfl | rfl⟩) |
      ⟨o, ho, rfl | rfl⟩)
    · exact hhold a ha
    · exact (hres r hr).1
    · exact (hres r hr).2
    · exact (hroute r hr).1
    · exact (hroute r hr).2
    · exact (hobl o ho).1
    · exact (hobl o ho).2

theorem mem_holdoverArcs {a : Arc FundingNode} :
    a ∈ holdoverArcs totalCash resources routes obligations ↔
      ∃ accountId ∈ resources.map (·.accountId),
        ∃ p ∈ successive (fundingTimes resources routes obligations),
          holdoverArc totalCash accountId p = a := by
  simp only [holdoverArcs, List.mem_flatMap, mem_sortedSet, List.mem_map]

/-- The node kinds of an arc, by which its class is recognised. -/
def endsKind : FundingNode × FundingNode → ℕ
  | (.account _ _, .account _ _) => 0
  | (.source, .resource _) => 1
  | (.resource _, .account _ _) => 2
  | (.account _ _, .route _) => 3
  | (.route _, .account _ _) => 4
  | (.account _ _, .obligation _) => 5
  | (.obligation _, .sink) => 6
  | _ => 7

theorem nodup_map_of_key {α β κ : Type*} {xs : List α} {key : α → κ} (h : (xs.map key).Nodup)
    {f : α → β} (hf : ∀ x y, f x = f y → key x = key y) : (xs.map f).Nodup := by
  rw [List.Nodup, List.pairwise_map] at h ⊢
  exact h.imp fun hne heq => hne (hf _ _ heq)

theorem nodup_append_of_kind {xs ys : List (FundingNode × FundingNode)} (k : ℕ)
    (hx : xs.Nodup ∧ ∀ e ∈ xs, endsKind e < k) (hy : ys.Nodup) (hk : ∀ e ∈ ys, endsKind e = k) :
    (xs ++ ys).Nodup ∧ ∀ e ∈ xs ++ ys, endsKind e < k + 1 := by
  constructor
  · refine List.nodup_append.mpr ⟨hx.1, hy, fun a ha b hb hab => ?_⟩
    have := hx.2 a ha
    rw [hab, hk b hb] at this
    exact lt_irrefl _ this
  · intro e he
    rcases List.mem_append.mp he with he | he
    · exact (hx.2 e he).trans (Nat.lt_succ_self k)
    · exact (hk e he).trans_lt (Nat.lt_succ_self k)

theorem flatMap_pair_perm {α β : Type*} (f g : α → β) (xs : List α) :
    (xs.flatMap fun x => [f x, g x]).Perm (xs.map f ++ xs.map g) := by
  induction xs with
  | nil => exact .nil
  | cons x xs ih => exact ((ih.cons (g x)).trans List.perm_middle.symm).cons (f x)

variable {routes obligations}

/-- With distinct identities the funding network has distinct arcs. -/
theorem distinctArcs_fundingArcs (hroutes : (routes.map (·.routeId)).Nodup)
    (hobligations : (obligations.map (·.obligationId)).Nodup) :
    DistinctArcs (fundingArcs totalCash capacity resources routes obligations) := by
  have hperm : (fundingArcs totalCash capacity resources routes obligations).Perm
      (holdoverArcs totalCash resources routes obligations ++
        (resources.zipIdx.map resourceArc ++ resources.zipIdx.map creditArc) ++
        (routes.map departureArc ++ routes.map arrivalArc) ++
        (obligations.map (deadlineArc capacity) ++ obligations.map (coverageArc capacity))) := by
    refine ((List.Perm.append_left _ ?_).append ?_).append ?_
    · exact flatMap_pair_perm _ _ _
    · exact (flatMap_pair_perm _ _ _).trans
        (((sortedRoutes_perm routes).map _).append ((sortedRoutes_perm routes).map _))
    · exact (flatMap_pair_perm _ _ _).trans
        (((sortedObligations_perm obligations).map _).append
          ((sortedObligations_perm obligations).map _))
  rw [DistinctArcs, (hperm.map _).nodup_iff]
  simp only [List.map_append, List.map_map, ← List.append_assoc]
  have hindex : ((resources.zipIdx).map Prod.snd).Nodup := by
    rw [List.zipIdx_map_snd]
    exact List.nodup_range'
  have hhold : ((holdoverArcs totalCash resources routes obligations).map
      fun a => (a.tail, a.head)).Nodup := by
    rw [holdoverArcs, List.map_flatMap, List.nodup_flatMap]
    refine ⟨fun accountId _ => ?_, ?_⟩
    · rw [List.map_map]
      refine nodup_map_of_key (successive_fst_nodup (sortedSet_nodup _)) fun x y h => ?_
      exact (FundingNode.account.inj (congrArg Prod.fst h)).2
    · refine (sortedSet_nodup _).imp fun {x y} hne e hx hy => hne ?_
      simp only [List.map_map, List.mem_map] at hx hy
      obtain ⟨p, -, rfl⟩ := hx
      obtain ⟨q, -, hq⟩ := hy
      exact (FundingNode.account.inj (congrArg Prod.fst hq)).1.symm
  have hkind : ∀ {α : Type} (f : α → Arc FundingNode) (k : ℕ) (xs : List α),
      (∀ x, endsKind ((f x).tail, (f x).head) = k) →
        ∀ e ∈ xs.map ((fun a => (a.tail, a.head)) ∘ f), endsKind e = k := by
    intro α f k xs hf e he
    obtain ⟨x, -, rfl⟩ := List.mem_map.mp he
    exact hf x
  refine (nodup_append_of_kind 6 (nodup_append_of_kind 5 (nodup_append_of_kind 4
    (nodup_append_of_kind 3 (nodup_append_of_kind 2 (nodup_append_of_kind 1
      ⟨hhold, ?_⟩ ?_ (hkind resourceArc 1 _ fun _ => rfl)) ?_ (hkind creditArc 2 _ fun _ => rfl))
      ?_ (hkind departureArc 3 _ fun _ => rfl)) ?_ (hkind arrivalArc 4 _ fun _ => rfl))
      ?_ (hkind (deadlineArc capacity) 5 _ fun _ => rfl)) ?_
      (hkind (coverageArc capacity) 6 _ fun _ => rfl)).1
  · intro e he
    obtain ⟨a, ha, rfl⟩ := List.mem_map.mp he
    obtain ⟨accountId, -, p, -, rfl⟩ := (mem_holdoverArcs ..).mp ha
    exact Nat.one_pos
  · exact nodup_map_of_key hindex fun x y h => FundingNode.resource.inj (congrArg Prod.snd h)
  · exact nodup_map_of_key hindex fun x y h => FundingNode.resource.inj (congrArg Prod.fst h)
  · exact nodup_map_of_key hroutes fun x y h => FundingNode.route.inj (congrArg Prod.snd h)
  · exact nodup_map_of_key hroutes fun x y h => FundingNode.route.inj (congrArg Prod.fst h)
  · exact nodup_map_of_key hobligations fun x y h =>
      FundingNode.obligation.inj (congrArg Prod.snd h)
  · exact nodup_map_of_key hobligations fun x y h =>
      FundingNode.obligation.inj (congrArg Prod.fst h)

end Arcs

end StockProfiler.Portfolio
