import Mathlib.Data.List.Nodup
import StockProfiler.Core.Sums

/-!
# Balances along a timeline

Dated amounts are added up to an instant. When every date is on a strictly
increasing timeline, the balance carried into an instant and the amounts dated
there make up the balance carried out of it.
-/

namespace StockProfiler

/-- Neighbouring members of a list. -/
def successive {α : Type*} (xs : List α) : List (α × α) := xs.zip xs.tail

section Successive

variable {α : Type*}

theorem fst_mem_of_mem_successive {xs : List α} {p : α × α} (h : p ∈ successive xs) : p.1 ∈ xs :=
  (List.of_mem_zip h).1

theorem snd_mem_of_mem_successive {xs : List α} {p : α × α} (h : p ∈ successive xs) : p.2 ∈ xs :=
  List.mem_of_mem_tail (List.of_mem_zip h).2

theorem successive_cons_cons (x y : α) (xs : List α) :
    successive (x :: y :: xs) = (x, y) :: successive (y :: xs) := rfl

theorem successive_fst_nodup {xs : List α} (h : xs.Nodup) :
    ((successive xs).map Prod.fst).Nodup := by
  induction xs with
  | nil => exact List.nodup_nil
  | cons x xs ih =>
    cases xs with
    | nil => exact List.nodup_nil
    | cons y xs =>
      obtain ⟨hx, hxs⟩ := List.nodup_cons.mp h
      rw [successive_cons_cons, List.map_cons, List.nodup_cons]
      refine ⟨fun hmem => ?_, ih hxs⟩
      obtain ⟨p, hp, hpx⟩ := List.mem_map.mp hmem
      have hxp : p.1 = x := hpx
      exact hx (hxp ▸ fst_mem_of_mem_successive hp)

theorem successive_lt [Preorder α] {xs : List α} (h : xs.Pairwise (· < ·)) {p : α × α}
    (hp : p ∈ successive xs) : p.1 < p.2 := by
  induction xs with
  | nil => exact nomatch hp
  | cons x xs ih =>
    cases xs with
    | nil => exact nomatch hp
    | cons y xs =>
      rw [successive_cons_cons] at hp
      rcases List.mem_cons.mp hp with rfl | hp
      · exact (List.pairwise_cons.mp h).1 y (List.mem_cons_self ..)
      · exact ih (List.pairwise_cons.mp h).2 hp

theorem pairwise_iff_successive {R : α → α → Prop} (htrans : ∀ {a b c}, R a b → R b c → R a c)
    {xs : List α} : xs.Pairwise R ↔ ∀ p ∈ successive xs, R p.1 p.2 := by
  induction xs with
  | nil => exact ⟨fun _ p hp => absurd hp List.not_mem_nil, fun _ => .nil⟩
  | cons x xs ih =>
    cases xs with
    | nil => exact ⟨fun _ p hp => absurd hp List.not_mem_nil, fun _ => List.pairwise_singleton ..⟩
    | cons y xs =>
      rw [successive_cons_cons, List.forall_mem_cons, ← ih, List.pairwise_cons]
      constructor
      · rintro ⟨hx, hxs⟩
        exact ⟨hx y (List.mem_cons_self ..), hxs⟩
      · rintro ⟨hxy, hxs⟩
        refine ⟨fun z hz => ?_, hxs⟩
        rcases List.mem_cons.mp hz with rfl | hz
        · exact hxy
        · exact htrans hxy ((List.pairwise_cons.mp hxs).1 z hz)

/-- Every member of an increasing list is its least one or follows a next smaller one. -/
theorem least_or_successor [LinearOrder α] {xs : List α} (h : xs.Pairwise (· < ·)) {t : α}
    (ht : t ∈ xs) :
    (∀ x ∈ xs, t ≤ x) ∨ ∃ x, (x, t) ∈ successive xs ∧ ∀ y ∈ xs, y ≤ t ↔ y ≤ x ∨ y = t := by
  induction xs with
  | nil => exact nomatch ht
  | cons a xs ih =>
    obtain ⟨ha, hxs⟩ := List.pairwise_cons.mp h
    rcases List.mem_cons.mp ht with rfl | hrest
    · left
      intro x hx
      rcases List.mem_cons.mp hx with rfl | hx
      · exact le_rfl
      · exact (ha x hx).le
    · right
      cases xs with
      | nil => exact nomatch hrest
      | cons b xs =>
        rw [successive_cons_cons]
        rcases ih hxs hrest with hleast | ⟨x, hmem, hbelow⟩
        · -- The least member of the rest is its head, which follows the new head.
          have hb : b = t := by
            rcases List.mem_cons.mp hrest with rfl | htail
            · rfl
            · exact absurd (hleast b (List.mem_cons_self ..))
                (not_le.mpr ((List.pairwise_cons.mp hxs).1 t htail))
          subst hb
          refine ⟨a, List.mem_cons_self .., fun y hy => ?_⟩
          rcases List.mem_cons.mp hy with rfl | hy
          · exact ⟨fun _ => .inl le_rfl, fun _ => (ha b hrest).le⟩
          · constructor
            · exact fun hle => .inr (le_antisymm hle (hleast y hy))
            · rintro (hle | rfl)
              · exact absurd hle (not_le.mpr (ha y hy))
              · exact le_rfl
        · refine ⟨x, List.mem_cons_of_mem _ hmem, fun y hy => ?_⟩
          rcases List.mem_cons.mp hy with rfl | hy
          · have hx : x ∈ b :: xs := fst_mem_of_mem_successive hmem
            exact ⟨fun _ => .inl (ha x hx).le, fun _ => (ha t hrest).le⟩
          · exact hbelow y hy

end Successive

section Balance

variable {α ι : Type*} [LinearOrder ι] {items : List α} {amount : α → ℚ} {date : α → ι}

theorem sumWhere_fst_le {pairs : List (ι × ι)} (h : (pairs.map Prod.fst).Nodup) {f : ι → ℚ} {t : ι}
    (ht : 0 ≤ f t) : sumWhere pairs (fun p => f p.1) (fun p => p.1 = t) ≤ f t := by
  induction pairs with
  | nil => simpa using ht
  | cons p pairs ih =>
    obtain ⟨hp, hpairs⟩ := List.nodup_cons.mp h
    rw [sumWhere_cons]
    by_cases heq : p.1 = t
    · rw [if_pos heq, heq, sumWhere_eq_zero, add_zero]
      intro q hq hqt
      exact hp (List.mem_map.mpr ⟨q, hq, hqt.trans heq.symm⟩)
    · rw [if_neg heq, zero_add]
      exact ih hpairs

/-- What is carried out of an instant is at most what enters it and what falls on it. -/
theorem carried_le {times : List ι} (htimes : times.Pairwise (· < ·))
    (hdate : ∀ a ∈ items, date a ∈ times)
    (hnonneg : ∀ t, 0 ≤ sumWhere items amount fun a => date a ≤ t) (t : ι) :
    sumWhere (successive times) (fun p => sumWhere items amount fun a => date a ≤ p.1)
        (fun p => p.1 = t) ≤
      sumWhere (successive times) (fun p => sumWhere items amount fun a => date a ≤ p.1)
        (fun p => p.2 = t) + sumWhere items amount fun a => date a = t := by
  have hpairs : ∀ p ∈ successive times, 0 ≤ sumWhere items amount fun a => date a ≤ p.1 :=
    fun p _ => hnonneg p.1
  by_cases ht : t ∈ times
  · have hnodup : times.Nodup := htimes.imp fun h => ne_of_lt h
    refine (sumWhere_fst_le (successive_fst_nodup hnodup)
      (f := fun x => sumWhere items amount fun a => date a ≤ x) (hnonneg t)).trans ?_
    rcases least_or_successor htimes ht with hleast | ⟨x, hmem, hbelow⟩
    · have hnow : sumWhere items amount (fun a => date a ≤ t) =
          sumWhere items amount fun a => date a = t :=
        sumWhere_congr (fun a ha => ⟨fun h => le_antisymm h (hleast _ (hdate a ha)), le_of_eq⟩)
          fun _ _ _ => rfl
      rw [hnow]
      exact le_add_of_nonneg_left (sumWhere_nonneg hpairs)
    · have hbefore : x < t := successive_lt htimes hmem
      have hsplit : sumWhere items amount (fun a => date a ≤ t) =
          sumWhere items amount (fun a => date a ≤ x) +
            sumWhere items amount fun a => date a = t := by
        rw [sumWhere_split (q := fun a => date a ≤ x)]
        congr 1
        · exact sumWhere_congr (fun a ha => ⟨fun h => h.2, fun h => ⟨h.trans hbefore.le, h⟩⟩)
            fun _ _ _ => rfl
        · refine sumWhere_congr (fun a ha => ⟨fun h => ?_, fun h => ?_⟩) fun _ _ _ => rfl
          · exact ((hbelow _ (hdate a ha)).mp h.1).resolve_left h.2
          · exact ⟨h.le, fun hle => absurd hle (h ▸ not_le.mpr hbefore)⟩
      rw [hsplit]
      have hone := le_sumWhere (p := fun p : ι × ι => p.2 = t) hmem rfl hpairs
      linarith
  · have hzero : sumWhere items amount (fun a => date a = t) = 0 :=
      sumWhere_eq_zero fun a ha h => ht (h ▸ hdate a ha)
    have hnone : sumWhere (successive times)
        (fun p => sumWhere items amount fun a => date a ≤ p.1) (fun p => p.1 = t) = 0 :=
      sumWhere_eq_zero fun p hp h => ht (h ▸ fst_mem_of_mem_successive hp)
    rw [hnone, hzero, add_zero]
    exact sumWhere_nonneg hpairs

end Balance

end StockProfiler
