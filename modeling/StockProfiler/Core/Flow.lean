import Mathlib.Algebra.Order.Group.MinMax
import StockProfiler.Core.Sums

/-!
# Flows and cuts

A network is a list of arcs. A residual function records what an algorithm has
left of every capacity, together with what it may undo; its net flow is what it
has taken. When a set of nodes is closed under positive residuals, the net flow
out of the source is the capacity of the cut, and no load of the arcs delivers
more than crosses it.
-/

namespace StockProfiler

/-- A directed arc with its capacity. -/
structure Arc (ν : Type*) where
  tail : ν
  head : ν
  capacity : ℚ

section Duality

variable {ν : Type*} [DecidableEq ν] {arcs : List (Arc ν)} {load : Arc ν → ℚ}

/-- What a load brings into a node. -/
def inflow (arcs : List (Arc ν)) (load : Arc ν → ℚ) (v : ν) : ℚ :=
  sumWhere arcs load fun a => a.head = v

/-- What a load takes out of a node. -/
def outflow (arcs : List (Arc ν)) (load : Arc ν → ℚ) (v : ν) : ℚ :=
  sumWhere arcs load fun a => a.tail = v

/-- A load within the capacities that leaves nothing behind at an inner node. -/
structure FeasibleLoad (arcs : List (Arc ν)) (source sink : ν) (load : Arc ν → ℚ) : Prop where
  bounds : ∀ a ∈ arcs, 0 ≤ load a ∧ load a ≤ a.capacity
  conserves : ∀ v, v ≠ source → v ≠ sink → inflow arcs load v = outflow arcs load v

/-- An arc leaves a set of nodes. -/
def Arc.Leaves (S : Finset ν) (a : Arc ν) : Prop := a.tail ∈ S ∧ a.head ∉ S

instance (S : Finset ν) : DecidablePred (Arc.Leaves S) :=
  fun a => inferInstanceAs (Decidable (a.tail ∈ S ∧ a.head ∉ S))

theorem sum_net_eq (V : Finset ν) :
    ∑ v ∈ V, (inflow arcs load v - outflow arcs load v) =
      sumWhere arcs load (fun a => a.head ∈ V ∧ a.tail ∉ V) -
        sumWhere arcs load (fun a => a.tail ∈ V ∧ a.head ∉ V) := by
  simp only [Finset.sum_sub_distrib, inflow, outflow, sum_sumWhere_eq]
  rw [sumWhere_split (q := fun a : Arc ν => a.tail ∈ V),
    sumWhere_split (p := fun a : Arc ν => a.tail ∈ V) (q := fun a : Arc ν => a.head ∈ V)]
  have hboth : sumWhere arcs load (fun a => a.head ∈ V ∧ a.tail ∈ V) =
      sumWhere arcs load (fun a => a.tail ∈ V ∧ a.head ∈ V) :=
    sumWhere_congr (fun a _ => and_comm) fun _ _ _ => rfl
  rw [hboth]
  ring

/-- A load that never takes more out of a node than it brings in delivers to the sink at
most what leaves any set of nodes with the source but without the sink. -/
theorem delivered_le_leaving {source sink : ν} {V S : Finset ν}
    (hV : ∀ a ∈ arcs, a.tail ∈ V ∧ a.head ∈ V) (hsink : sink ∈ V) (hsource : source ∈ S)
    (hcut : sink ∉ S) (hnonneg : ∀ a ∈ arcs, 0 ≤ load a)
    (hnode : ∀ v, v ≠ source → v ≠ sink → outflow arcs load v ≤ inflow arcs load v) :
    inflow arcs load sink - outflow arcs load sink ≤ sumWhere arcs load (Arc.Leaves S) := by
  have hmem : sink ∈ V \ S := Finset.mem_sdiff.mpr ⟨hsink, hcut⟩
  calc inflow arcs load sink - outflow arcs load sink
      ≤ ∑ v ∈ V \ S, (inflow arcs load v - outflow arcs load v) := by
        rw [← Finset.add_sum_erase _ _ hmem]
        refine le_add_of_nonneg_right (Finset.sum_nonneg fun v hv => ?_)
        obtain ⟨hne, hv⟩ := Finset.mem_erase.mp hv
        have hvs : v ≠ source := fun h => (Finset.mem_sdiff.mp hv).2 (h ▸ hsource)
        exact sub_nonneg.mpr (hnode v hvs hne)
    _ ≤ sumWhere arcs load (fun a => a.head ∈ V \ S ∧ a.tail ∉ V \ S) := by
        rw [sum_net_eq]
        exact sub_le_self _ (sumWhere_nonneg hnonneg)
    _ ≤ sumWhere arcs load (Arc.Leaves S) := by
        refine sumWhere_le_sumWhere (fun a ha h => ?_) (fun _ _ _ => le_rfl) hnonneg
        simp only [Finset.mem_sdiff, not_and, not_not] at h
        exact ⟨h.2 (hV a ha).1, h.1.2⟩

end Duality

section Residual

variable {ν : Type*} [DecidableEq ν]

/-- A function on pairs of nodes that vanishes outside a finite set of them. -/
def SupportedOn (V : Finset ν) (r : ν → ν → ℚ) : Prop := ∀ u v, r u v ≠ 0 → u ∈ V ∧ v ∈ V

/-- The net flow a residual function has taken out of a node. -/
def netOut (V : Finset ν) (c r : ν → ν → ℚ) (u : ν) : ℚ := ∑ v ∈ V, (c u v - r u v)

/-- What an augmenting algorithm keeps true of the residuals of a capacity function. -/
structure ResidualOf (V : Finset ν) (source sink : ν) (c r : ν → ν → ℚ) : Prop where
  nonneg : ∀ u v, 0 ≤ r u v
  /-- What is taken from an arc can be given back. -/
  skew : ∀ u v, r u v + r v u = c u v + c v u
  /-- Nothing stays at an inner node. -/
  conserves : ∀ u, u ≠ source → u ≠ sink → netOut V c r u = 0

variable {V : Finset ν} {source sink : ν} {c r : ν → ν → ℚ}

omit [DecidableEq ν] in
theorem ResidualOf.refl (hc : ∀ u v, 0 ≤ c u v) : ResidualOf V source sink c c where
  nonneg := hc
  skew _ _ := rfl
  conserves u _ _ := by simp [netOut]

omit [DecidableEq ν] in
theorem ResidualOf.netOut_le (h : ResidualOf V source sink c r) (u : ν) :
    netOut V c r u ≤ ∑ v ∈ V, c u v :=
  Finset.sum_le_sum fun v _ => sub_le_self _ (h.nonneg u v)

theorem ResidualOf.sum_netOut (h : ResidualOf V source sink c r) (S : Finset ν) (hS : S ⊆ V) :
    ∑ u ∈ S, netOut V c r u = ∑ u ∈ S, ∑ v ∈ V \ S, (c u v - r u v) := by
  have hinside : ∑ u ∈ S, ∑ v ∈ S, (c u v - r u v) = 0 := by
    have hswap : ∑ u ∈ S, ∑ v ∈ S, (c u v - r u v) = ∑ u ∈ S, ∑ v ∈ S, (c v u - r v u) :=
      Finset.sum_comm
    have hneg : ∑ u ∈ S, ∑ v ∈ S, (c v u - r v u) = -∑ u ∈ S, ∑ v ∈ S, (c u v - r u v) := by
      rw [← Finset.sum_neg_distrib]
      refine Finset.sum_congr rfl fun u _ => ?_
      rw [← Finset.sum_neg_distrib]
      refine Finset.sum_congr rfl fun v _ => ?_
      linarith [h.skew u v]
    linarith
  have hsplit : ∀ u ∈ S, netOut V c r u =
      ∑ v ∈ V \ S, (c u v - r u v) + ∑ v ∈ S, (c u v - r u v) := fun u _ =>
    (Finset.sum_sdiff hS).symm
  rw [Finset.sum_congr rfl hsplit, Finset.sum_add_distrib, hinside, add_zero]

/-- When no residual leaves a set of nodes, the source gives exactly the capacity of the cut. -/
theorem ResidualOf.netOut_source_eq_cut (h : ResidualOf V source sink c r) {S : Finset ν}
    (hS : S ⊆ V) (hsource : source ∈ S) (hsink : sink ∉ S)
    (hclosed : ∀ u ∈ S, ∀ v, 0 < r u v → v ∈ S) :
    netOut V c r source = ∑ u ∈ S, ∑ v ∈ V \ S, c u v := by
  have hone : ∑ u ∈ S, netOut V c r u = netOut V c r source := by
    rw [← Finset.add_sum_erase _ _ hsource, Finset.sum_eq_zero, add_zero]
    intro u hu
    obtain ⟨hne, hu⟩ := Finset.mem_erase.mp hu
    exact h.conserves u hne fun heq => hsink (heq ▸ hu)
  rw [← hone, h.sum_netOut S hS]
  refine Finset.sum_congr rfl fun u hu => Finset.sum_congr rfl fun v hv => ?_
  have hzero : r u v = 0 := by
    refine le_antisymm (not_lt.mp fun hpos => ?_) (h.nonneg u v)
    exact (Finset.mem_sdiff.mp hv).2 (hclosed u hu v hpos)
  rw [hzero, sub_zero]

/-! ### Augmentation -/

variable (amount : ℚ)

/-- Take an amount from one arc and allow it to be undone. -/
def pushArc (r : ν → ν → ℚ) (e : ν × ν) : ν → ν → ℚ := fun x y =>
  r x y - (if (x, y) = e then amount else 0) + (if (y, x) = e then amount else 0)

/-- A path that is followed backwards from its end: every step names its tail and head. -/
inductive BackPath (step : ν → ν → Prop) (source : ν) : ν → List (ν × ν) → Prop where
  | start : BackPath step source source []
  | step {u v : ν} {path : List (ν × ν)} (h : step u v) (hpath : BackPath step source u path) :
      BackPath step source v ((u, v) :: path)

omit [DecidableEq ν] in
theorem BackPath.step_of_mem {step : ν → ν → Prop} {v : ν} {path : List (ν × ν)}
    (h : BackPath step source v path) : ∀ e ∈ path, step e.1 e.2 := by
  induction h with
  | start => exact fun e he => nomatch he
  | step hstep _ ih =>
    intro e he
    rcases List.mem_cons.mp he with rfl | he
    · exact hstep
    · exact ih e he

theorem pushArc_skew (r : ν → ν → ℚ) (e : ν × ν) (u v : ν) :
    pushArc amount r e u v + pushArc amount r e v u = r u v + r v u := by
  simp only [pushArc]
  ring

theorem netOut_pushArc {e : ν × ν} (he : e.1 ∈ V ∧ e.2 ∈ V) (u : ν) :
    netOut V c (pushArc amount r e) u =
      netOut V c r u + (if u = e.1 then amount else 0) - (if u = e.2 then amount else 0) := by
  obtain ⟨a, b⟩ := e
  have hout : ∑ v ∈ V, (if (u, v) = (a, b) then amount else 0) = if u = a then amount else 0 := by
    by_cases h : u = a <;> simp [h, he.2]
  have hin : ∑ v ∈ V, (if (v, u) = (a, b) then amount else 0) = if u = b then amount else 0 := by
    by_cases h : u = b <;> simp [h, he.1]
  have hterm : ∀ v, c u v - pushArc amount r (a, b) u v =
      c u v - r u v + (if (u, v) = (a, b) then amount else 0) -
        (if (v, u) = (a, b) then amount else 0) := by
    intro v
    simp only [pushArc]
    ring
  simp only [netOut, hterm, Finset.sum_sub_distrib, Finset.sum_add_distrib, hout, hin]

/-- Pushing along a whole path only moves the net flow of its two ends. -/
theorem netOut_foldl_pushArc {step : ν → ν → Prop} {v : ν} {path : List (ν × ν)}
    (hpath : BackPath step source v path) (hV : ∀ e ∈ path, e.1 ∈ V ∧ e.2 ∈ V) (r : ν → ν → ℚ)
    (u : ν) :
    netOut V c (path.foldl (pushArc amount) r) u =
      netOut V c r u + (if u = source then amount else 0) - (if u = v then amount else 0) := by
  induction hpath generalizing r with
  | start => simp
  | @step a b path _ _ ih =>
    rw [List.foldl_cons, ih (fun e he => hV e (List.mem_cons_of_mem _ he)),
      netOut_pushArc amount (hV _ (List.mem_cons_self ..))]
    ring

theorem skew_foldl_pushArc (path : List (ν × ν)) (r : ν → ν → ℚ) (u v : ν) :
    path.foldl (pushArc amount) r u v + path.foldl (pushArc amount) r v u = r u v + r v u := by
  induction path generalizing r with
  | nil => rfl
  | cons e path ih => rw [List.foldl_cons, ih, pushArc_skew]

theorem foldl_pushArc_apply (path : List (ν × ν)) (r : ν → ν → ℚ) (u v : ν) :
    path.foldl (pushArc amount) r u v =
      r u v - path.count (u, v) * amount + path.count (v, u) * amount := by
  induction path generalizing r with
  | nil => simp
  | cons e path ih =>
    rw [List.foldl_cons, ih]
    simp only [pushArc, List.count_cons, beq_iff_eq, eq_comm (a := e)]
    split_ifs <;> push_cast <;> ring

/-- A path that uses no arc twice, by no more than its smallest residual, keeps the invariant. -/
theorem ResidualOf.augment (h : ResidualOf V source sink c r) {path : List (ν × ν)} {amount : ℚ}
    {step : ν → ν → Prop} (hpath : BackPath step source sink path) (hnodup : path.Nodup)
    (hV : ∀ e ∈ path, e.1 ∈ V ∧ e.2 ∈ V) (hamount : 0 ≤ amount)
    (hle : ∀ e ∈ path, amount ≤ r e.1 e.2) :
    ResidualOf V source sink c (path.foldl (pushArc amount) r) where
  nonneg u v := by
    rw [foldl_pushArc_apply]
    have hback : (0 : ℚ) ≤ path.count (v, u) * amount := mul_nonneg (Nat.cast_nonneg _) hamount
    by_cases hmem : (u, v) ∈ path
    · rw [List.count_eq_one_of_mem hnodup hmem, Nat.cast_one, one_mul]
      linarith [hle _ hmem]
    · rw [List.count_eq_zero_of_not_mem hmem, Nat.cast_zero, zero_mul]
      linarith [h.nonneg u v]
  skew u v := (skew_foldl_pushArc amount path r u v).trans (h.skew u v)
  conserves u hs ht := by
    rw [netOut_foldl_pushArc amount hpath hV, h.conserves u hs ht, if_neg hs, if_neg ht]
    ring

end Residual

section DistinctArcs

variable {ν : Type*} [DecidableEq ν]

/-- The capacity between two nodes. -/
def capacityOf (arcs : List (Arc ν)) (u v : ν) : ℚ :=
  sumWhere arcs Arc.capacity fun a => a.tail = u ∧ a.head = v

/-- No two arcs lead from the same node to the same node. -/
def DistinctArcs (arcs : List (Arc ν)) : Prop := (arcs.map fun a => (a.tail, a.head)).Nodup

/-- What a residual function has taken from an arc, when it has not given more back. -/
def taken (c r : ν → ν → ℚ) (a : Arc ν) : ℚ := max (c a.tail a.head - r a.tail a.head) 0

variable {arcs : List (Arc ν)}

/-- From the tail to the head of an arc only that arc carries a load. -/
theorem DistinctArcs.sumWhere_ends (h : DistinctArcs arcs) {a : Arc ν} (ha : a ∈ arcs)
    (load : Arc ν → ℚ) :
    sumWhere arcs load (fun b => b.tail = a.tail ∧ b.head = a.head) = load a := by
  rw [← sumWhere_of_key h ha load]
  exact sumWhere_congr (fun b _ => Prod.mk_inj.symm) fun _ _ _ => rfl

theorem DistinctArcs.capacityOf_ends (h : DistinctArcs arcs) {a : Arc ν} (ha : a ∈ arcs) :
    capacityOf arcs a.tail a.head = a.capacity :=
  h.sumWhere_ends ha _

theorem capacityOf_nonneg (hcap : ∀ a ∈ arcs, 0 ≤ a.capacity) (u v : ν) : 0 ≤ capacityOf arcs u v :=
  sumWhere_nonneg hcap

variable {V : Finset ν} {source sink : ν} {r : ν → ν → ℚ}

/-- What is taken from an arc stays within its capacity. -/
theorem ResidualOf.taken_bounds (hs : DistinctArcs arcs) (hcap : ∀ a ∈ arcs, 0 ≤ a.capacity)
    (h : ResidualOf V source sink (capacityOf arcs) r) {a : Arc ν} (ha : a ∈ arcs) :
    0 ≤ taken (capacityOf arcs) r a ∧ taken (capacityOf arcs) r a ≤ a.capacity := by
  refine ⟨le_max_right _ _, max_le ?_ (hcap a ha)⟩
  rw [hs.capacityOf_ends ha]
  exact sub_le_self _ (h.nonneg _ _)

theorem ResidualOf.le_capacity (hs : DistinctArcs arcs)
    (h : ResidualOf V source sink (capacityOf arcs) r) {a : Arc ν} (ha : a ∈ arcs)
    (hback : ∀ b ∈ arcs, ¬(b.tail = a.head ∧ b.head = a.tail)) : r a.tail a.head ≤ a.capacity := by
  have hskew := h.skew a.tail a.head
  have hzero : capacityOf arcs a.head a.tail = 0 := sumWhere_eq_zero hback
  rw [hs.capacityOf_ends ha, hzero] at hskew
  linarith [h.nonneg a.head a.tail]

/-- What is taken from one node to another is the positive part of their net flow. -/
theorem ResidualOf.sumWhere_taken (hs : DistinctArcs arcs)
    (h : ResidualOf V source sink (capacityOf arcs) r) (u v : ν) :
    sumWhere arcs (taken (capacityOf arcs) r) (fun a => a.tail = u ∧ a.head = v) =
      max (capacityOf arcs u v - r u v) 0 := by
  by_cases huv : ∃ a ∈ arcs, a.tail = u ∧ a.head = v
  · obtain ⟨a, ha, rfl, rfl⟩ := huv
    rw [hs.sumWhere_ends ha, taken]
  · have hcap : capacityOf arcs u v = 0 := sumWhere_eq_zero fun a ha he => huv ⟨a, ha, he⟩
    rw [sumWhere_eq_zero fun a ha he => huv ⟨a, ha, he⟩, hcap, zero_sub,
      max_eq_right (neg_nonpos.mpr (h.nonneg u v))]

/-- The net flow between two nodes is what the arcs between them carry. -/
theorem ResidualOf.net_eq_sumWhere (hs : DistinctArcs arcs)
    (h : ResidualOf V source sink (capacityOf arcs) r) (u v : ν) :
    capacityOf arcs u v - r u v =
      sumWhere arcs (taken (capacityOf arcs) r) (fun a => a.tail = u ∧ a.head = v) -
        sumWhere arcs (taken (capacityOf arcs) r) (fun a => a.tail = v ∧ a.head = u) := by
  have hneg : capacityOf arcs v u - r v u = -(capacityOf arcs u v - r u v) := by
    linarith [h.skew u v]
  rw [h.sumWhere_taken hs, h.sumWhere_taken hs, hneg, max_zero_sub_max_neg_zero_eq_self]

/-- The net flow out of a node is what its outgoing arcs carry beyond its incoming ones. -/
theorem ResidualOf.netOut_eq (hs : DistinctArcs arcs)
    (h : ResidualOf V source sink (capacityOf arcs) r) (hV : ∀ a ∈ arcs, a.tail ∈ V ∧ a.head ∈ V)
    (u : ν) :
    netOut V (capacityOf arcs) r u = outflow arcs (taken (capacityOf arcs) r) u -
      inflow arcs (taken (capacityOf arcs) r) u := by
  simp only [netOut, h.net_eq_sumWhere hs, Finset.sum_sub_distrib, outflow, inflow]
  rw [sum_sumWhere_and_eq (fun a : Arc ν => a.head) V fun a ha => (hV a ha).2]
  have hswap : ∀ v, sumWhere arcs (taken (capacityOf arcs) r) (fun a => a.tail = v ∧ a.head = u) =
      sumWhere arcs (taken (capacityOf arcs) r) (fun a => a.head = u ∧ a.tail = v) := fun v =>
    sumWhere_congr (fun _ _ => and_comm) fun _ _ _ => rfl
  simp only [hswap]
  rw [sum_sumWhere_and_eq (fun a : Arc ν => a.tail) V fun a ha => (hV a ha).1]

theorem sum_capacityOf_eq (hV : ∀ a ∈ arcs, a.tail ∈ V ∧ a.head ∈ V) (S : Finset ν) :
    ∑ u ∈ S, ∑ v ∈ V \ S, capacityOf arcs u v = sumWhere arcs Arc.capacity (Arc.Leaves S) := by
  have hheads : ∀ u, ∑ v ∈ V \ S, capacityOf arcs u v =
      sumWhere arcs Arc.capacity (fun a => a.tail = u ∧ a.head ∈ V \ S) := by
    intro u
    induction arcs with
    | nil => simp [capacityOf]
    | cons a arcs ih =>
      have ih := ih fun b hb => hV b (List.mem_cons_of_mem _ hb)
      simp only [capacityOf, sumWhere_cons, Finset.sum_add_distrib] at ih ⊢
      rw [ih]
      by_cases h : a.tail = u <;> simp [h]
  simp only [hheads]
  clear hheads
  induction arcs with
  | nil => simp
  | cons a arcs ih =>
    have ha := hV a (List.mem_cons_self ..)
    simp only [sumWhere_cons, Finset.sum_add_distrib,
      ih fun b hb => hV b (List.mem_cons_of_mem _ hb)]
    congr 1
    by_cases ht : a.tail ∈ S <;> by_cases hh : a.head ∈ S <;>
      simp [Arc.Leaves, ht, hh, ha.2]

end DistinctArcs

end StockProfiler
