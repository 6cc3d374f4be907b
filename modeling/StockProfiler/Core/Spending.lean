import Mathlib.Algebra.Order.Monoid.Prod
import Mathlib.Data.Option.Basic

/-!
# Spending within limits

A step of a known cost succeeds exactly where the limits leave room for it. Steps one after another
cost the sum of what each of them costs, so a whole run succeeds exactly where its limits leave room
for the sum.
-/

namespace StockProfiler

variable {σ α β ι : Type*} [AddCommMonoid σ] [PartialOrder σ] [CanonicallyOrderedAdd σ]

/-- There is a result exactly where the limits leave room for its cost. Its size has grown by the
cost, and it satisfies a condition. -/
structure Spends (limits : σ) (size : α → σ) (start cost : σ) (P : α → Prop)
    (result : Option α) : Prop where
  isSome_iff : result.isSome ↔ start + cost ≤ limits
  grown : ∀ a ∈ result, size a = start + cost
  holds : ∀ a ∈ result, P a

namespace Spends

variable {limits start cost cost' : σ} {size : α → σ} {size' : β → σ} {P : α → Prop}
  {Q : β → Prop} {result : Option α}

omit [CanonicallyOrderedAdd σ] in
/-- Whatever was reached is within the limits. -/
theorem size_le (h : Spends limits size start cost P result) {a : α} (ha : a ∈ result) :
    size a ≤ limits := by
  rw [h.grown a ha]
  exact h.isSome_iff.mp (Option.isSome_of_mem ha)

omit [CanonicallyOrderedAdd σ] in
/-- What a result is read as has the size of the result. -/
theorem map (h : Spends limits size start cost P result) {f : α → β}
    (hsize : ∀ a, size' (f a) = size a) (hholds : ∀ a ∈ result, P a → Q (f a)) :
    Spends limits size' start cost Q (result.map f) where
  isSome_iff := by rw [Option.isSome_map, h.isSome_iff]
  grown b hb := by
    obtain ⟨a, ha, rfl⟩ := Option.map_eq_some_iff.mp hb
    rw [hsize, h.grown a ha]
  holds b hb := by
    obtain ⟨a, ha, rfl⟩ := Option.map_eq_some_iff.mp hb
    exact hholds a ha (h.holds a ha)

/-- Two steps cost the sum of what each of them costs. -/
theorem bind (h : Spends limits size start cost P result) {next : α → Option β}
    (hnext : ∀ a, P a → size a ≤ limits → Spends limits size' (size a) cost' Q (next a)) :
    Spends limits size' start (cost + cost') Q (result.bind next) := by
  cases hresult : result with
  | none =>
    refine ⟨iff_of_false Bool.false_ne_true fun hroom => ?_, nofun, nofun⟩
    have hfirst : start + cost ≤ limits := by
      refine le_trans ?_ hroom
      rw [← add_assoc]
      exact le_self_add
    have hsome := h.isSome_iff.mpr hfirst
    rw [hresult] at hsome
    exact Bool.false_ne_true hsome
  | some a =>
    have ha : a ∈ result := hresult
    have hsize := h.grown a ha
    have hrest := hnext a (h.holds a ha) (h.size_le ha)
    rw [Option.bind_some]
    refine ⟨?_, fun b hb => ?_, hrest.holds⟩
    · rw [hrest.isSome_iff, hsize, add_assoc]
    · rw [hrest.grown b hb, hsize, add_assoc]

/-- Steps of one cost, in a run that keeps an invariant of the items so far. -/
theorem foldlM {step : α → ι → Option α} {items : List ι} (Inv : List ι → α → Prop)
    (hstep : ∀ done item rest a, items = done ++ item :: rest → Inv done a →
      Spends limits size (size a) cost (Inv (done ++ [item])) (step a item)) {a : α}
    (hstart : Inv [] a) (hroom : size a ≤ limits) :
    Spends limits size (size a) (items.length • cost) (Inv items) (items.foldlM step a) := by
  suffices hrest : ∀ rest done a, items = done ++ rest → Inv done a → size a ≤ limits →
      Spends limits size (size a) (rest.length • cost) (Inv items) (rest.foldlM step a) from
    hrest items [] a rfl hstart hroom
  intro rest
  induction rest with
  | nil =>
    intro done a hitems hdone hroom
    rw [List.append_nil] at hitems
    subst hitems
    refine ⟨?_, fun b hb => ?_, fun b hb => ?_⟩
    · rw [List.length_nil, zero_nsmul, add_zero]
      exact iff_of_true rfl hroom
    · cases hb
      rw [List.length_nil, zero_nsmul, add_zero]
    · cases hb
      exact hdone
  | cons item rest ih =>
    intro done a hitems hdone _
    rw [List.length_cons, succ_nsmul']
    refine (hstep done item rest a hitems hdone).bind fun b hb hroom => ?_
    refine ih (done ++ [item]) b ?_ hb hroom
    rw [hitems, List.append_assoc, List.singleton_append]

end Spends

end StockProfiler
