import Mathlib.Data.Finset.Max
import Mathlib.Data.Prod.Lex
import Mathlib.Order.Bounds.Basic

/-!
# Families of disjoint intervals

Intervals are ordered by their starts, and among equal starts by their ends. Taking the first
one over and over reaches a largest disjoint family of every selection exactly when no interval
spans from the start of one to the start of another one behind it.
-/

namespace StockProfiler

variable {τ : Type*} [LinearOrder τ]

/-- Two closed intervals have no point in common. -/
def Apart (p q : τ ×ₗ τ) : Prop := (ofLex p).2 < (ofLex q).1 ∨ (ofLex q).2 < (ofLex p).1

/-- An interval starts after an end, if there is one. -/
def StartsAfter (last : Option τ) (p : τ ×ₗ τ) : Prop := ∀ finish ∈ last, finish < (ofLex p).1

/-- Pairwise disjoint intervals of a list that start after an end. An interval is not apart from
itself, so none is chosen twice. -/
structure DisjointFamily (items : List (τ ×ₗ τ)) (last : Option τ) (family : List (τ ×ₗ τ)) :
    Prop where
  chosen : ∀ p ∈ family, p ∈ items
  later : ∀ p ∈ family, StartsAfter last p
  apart : family.Pairwise Apart

/-- How many disjoint intervals can be chosen from a list. -/
def familySizes (items : List (τ ×ₗ τ)) : Set ℕ :=
  {n | ∃ family, DisjointFamily items none family ∧ family.length = n}

variable {items : List (τ ×ₗ τ)} {last : Option τ} {p q : τ ×ₗ τ} {family : List (τ ×ₗ τ)}

/-- The empty family is disjoint. -/
theorem disjointFamily_nil : DisjointFamily items last [] where
  chosen := nofun
  later := nofun
  apart := List.Pairwise.nil

/-- What may be chosen from a list may be chosen from a longer one. -/
theorem DisjointFamily.mono {longer : List (τ ×ₗ τ)} (h : DisjointFamily items last family)
    (hsub : ∀ p ∈ items, p ∈ longer) : DisjointFamily longer last family :=
  ⟨fun p hp => hsub p (h.chosen p hp), h.later, h.apart⟩

/-- An interval goes before a family that starts after its end. -/
theorem DisjointFamily.cons (h : DisjointFamily items (some (ofLex p).2) family) (hp : p ∈ items)
    (hlast : StartsAfter last p) (hproper : (ofLex p).1 ≤ (ofLex p).2) :
    DisjointFamily items last (p :: family) where
  chosen := List.forall_mem_cons.mpr ⟨hp, h.chosen⟩
  later := by
    refine List.forall_mem_cons.mpr ⟨hlast, fun q hq finish hfinish => ?_⟩
    have hstart : (ofLex p).2 < (ofLex q).1 := h.later q hq _ rfl
    exact ((hlast finish hfinish).trans_le hproper).trans hstart
  apart := List.pairwise_cons.mpr ⟨fun q hq => Or.inl (h.later q hq _ rfl), h.apart⟩

/-- Of a family, the interval that ends first goes before all others. -/
theorem DisjointFamily.exists_erase (h : DisjointFamily items last family) (hne : family ≠ [])
    (hproper : ∀ p ∈ items, (ofLex p).1 ≤ (ofLex p).2) :
    ∃ q ∈ items, StartsAfter last q ∧
      ∃ rest, DisjointFamily items (some (ofLex q).2) rest ∧ family.length = rest.length + 1 := by
  obtain ⟨q, hq, hmin⟩ := Finset.exists_min_image family.toFinset (fun p => (ofLex p).2)
    (List.toFinset_nonempty_iff family |>.mpr hne)
  rw [List.mem_toFinset] at hq
  have hperm : family.Perm (q :: family.erase q) := List.perm_cons_erase hq
  have hsub : ∀ p ∈ family.erase q, p ∈ family := fun p => List.mem_of_mem_erase
  have hsymm : ∀ {p q : τ ×ₗ τ}, Apart p q → Apart q p := fun h => h.symm
  obtain ⟨hapart, hrest⟩ := List.pairwise_cons.mp (hperm.pairwise h.apart hsymm)
  refine ⟨q, h.chosen q hq, h.later q hq, family.erase q, ⟨fun p hp => h.chosen p (hsub p hp),
    fun p hp finish hfinish => ?_, hrest⟩, hperm.length_eq⟩
  cases hfinish
  rcases hapart p hp with hlater | hearlier
  · exact hlater
  · have hle : (ofLex q).2 ≤ (ofLex p).2 := hmin p (List.mem_toFinset.mpr (hsub p hp))
    exact absurd (hproper q (h.chosen q hq)) (not_le.mpr (hle.trans_lt hearlier))

/-- An interval is the first of the ones that start after an end. -/
structure FirstAfter (items : List (τ ×ₗ τ)) (last : Option τ) (p : τ ×ₗ τ) : Prop where
  mem : p ∈ items
  after : StartsAfter last p
  first : ∀ q ∈ items, StartsAfter last q → p ≤ q

/-- Where some interval starts after an end, one of them is the first. -/
theorem exists_firstAfter (hq : q ∈ items) (hlast : StartsAfter last q) :
    ∃ p, FirstAfter items last p := by
  classical
  obtain ⟨p, hp, hmin⟩ := Finset.exists_min_image (items.toFinset.filter (StartsAfter last)) id
    ⟨q, Finset.mem_filter.mpr ⟨List.mem_toFinset.mpr hq, hlast⟩⟩
  rw [Finset.mem_filter, List.mem_toFinset] at hp
  exact ⟨p, hp.1, hp.2, fun r hr hlater =>
    hmin r (Finset.mem_filter.mpr ⟨List.mem_toFinset.mpr hr, hlater⟩)⟩

/-- No interval that starts no later than another one lasts until the start of one behind it. -/
def Unspanned (items : List (τ ×ₗ τ)) : Prop :=
  ∀ p ∈ items, ∀ b ∈ items, ∀ c ∈ items, p ≤ b → (ofLex b).2 < (ofLex c).1 →
    (ofLex p).2 < (ofLex c).1

instance (items : List (τ ×ₗ τ)) : Decidable (Unspanned items) :=
  inferInstanceAs (Decidable (∀ p ∈ items, ∀ b ∈ items, ∀ c ∈ items, _ → _ → _))

/-- A selection of intervals is unspanned where all of them are. -/
theorem Unspanned.mono {fewer : List (τ ×ₗ τ)} (h : Unspanned items) (hsub : fewer ⊆ items) :
    Unspanned fewer :=
  fun p hp b hb c hc => h p (hsub hp) b (hsub hb) c (hsub hc)

/-- What starts behind an interval also starts behind the one that is the first. -/
theorem DisjointFamily.after_first (hitems : Unspanned items) (hp : FirstAfter items last p)
    (hq : q ∈ items) (hlast : StartsAfter last q)
    (h : DisjointFamily items (some (ofLex q).2) family) :
    DisjointFamily items (some (ofLex p).2) family := by
  refine ⟨h.chosen, fun c hc finish hfinish => ?_, h.apart⟩
  cases hfinish
  exact hitems p hp.mem q hq c (h.chosen c hc) (hp.first q hq hlast) (h.later c hc _ rfl)

section Count

variable (items)

/-- A count of the intervals that are taken one after another, from an end on. -/
structure TakenCount (count : Option τ → ℕ) : Prop where
  proper : ∀ p ∈ items, (ofLex p).1 ≤ (ofLex p).2
  none_after : ∀ last, (∀ q ∈ items, ¬StartsAfter last q) → count last = 0
  first_after : ∀ last p, FirstAfter items last p → count last = count (some (ofLex p).2) + 1

variable {items} {count : Option τ → ℕ}

/-- The intervals that are taken are a disjoint family. -/
theorem TakenCount.exists_family (h : TakenCount items count) (last : Option τ) :
    ∃ family, DisjointFamily items last family ∧ family.length = count last := by
  induction hn : count last generalizing last with
  | zero => exact ⟨[], disjointFamily_nil, rfl⟩
  | succ n ih =>
    obtain ⟨q, hq, hlast⟩ : ∃ q ∈ items, StartsAfter last q := by
      by_contra hnone
      have hzero := h.none_after last fun q hq hlast => hnone ⟨q, hq, hlast⟩
      omega
    obtain ⟨p, hp⟩ := exists_firstAfter hq hlast
    have hcount := h.first_after last p hp
    obtain ⟨family, hfamily, hlength⟩ := ih (some (ofLex p).2) (by omega)
    refine ⟨p :: family, hfamily.cons hp.mem hp.after (h.proper p hp.mem), ?_⟩
    rw [List.length_cons, hlength]

/-- Of unspanned intervals no disjoint family has more than are taken. -/
theorem TakenCount.length_le (h : TakenCount items count) (hitems : Unspanned items)
    (hfamily : DisjointFamily items last family) : family.length ≤ count last := by
  induction hn : count last generalizing last family with
  | zero =>
    by_contra hne
    obtain ⟨q, hq, hafter, -⟩ := hfamily.exists_erase
      (fun hnil => hne (by rw [hnil, List.length_nil])) h.proper
    obtain ⟨p, hp⟩ := exists_firstAfter hq hafter
    have hcount := h.first_after last p hp
    omega
  | succ n ih =>
    by_cases hne : family = []
    · rw [hne]
      exact Nat.zero_le _
    · obtain ⟨q, hq, hafter, rest, hrest, hlength⟩ := hfamily.exists_erase hne h.proper
      obtain ⟨p, hp⟩ := exists_firstAfter hq hafter
      have hcount := h.first_after last p hp
      have hbound := ih (hrest.after_first hitems hp hq hafter) (by omega)
      omega

/-- The unspanned intervals that are taken are a largest disjoint family. -/
theorem TakenCount.isGreatest (h : TakenCount items count) (hitems : Unspanned items) :
    IsGreatest (familySizes items) (count none) := by
  refine ⟨h.exists_family none, ?_⟩
  rintro n ⟨family, hfamily, rfl⟩
  exact h.length_le hitems hfamily

/-- Of an interval and two disjoint ones that it spans, the two are not both taken. -/
theorem TakenCount.not_isGreatest {b c : τ ×ₗ τ} (h : TakenCount [p, b, c] count) (hle : p ≤ b)
    (hbehind : (ofLex b).2 < (ofLex c).1) (hspan : (ofLex c).1 ≤ (ofLex p).2) :
    ¬IsGreatest (familySizes [p, b, c]) (count none) := by
  have hb := h.proper b (by simp)
  have hbc : b ≤ c := Prod.Lex.le_iff.mpr (.inl (hb.trans_lt hbehind))
  have hfirst : FirstAfter [p, b, c] none p := by
    refine ⟨List.mem_cons_self, nofun, fun q hq _ => ?_⟩
    simp only [List.mem_cons, List.not_mem_nil, or_false] at hq
    rcases hq with rfl | rfl | rfl
    · exact le_rfl
    · exact hle
    · exact hle.trans hbc
  -- Every start is covered by the interval that is taken, so nothing is taken behind it.
  have hcount : count (some (ofLex p).2) = 0 := by
    refine h.none_after _ fun q hq hafter => ?_
    have hlater := hafter _ rfl
    simp only [List.mem_cons, List.not_mem_nil, or_false] at hq
    rcases hq with rfl | rfl | rfl
    · exact absurd (h.proper q List.mem_cons_self) (not_le.mpr hlater)
    · exact absurd ((hlater.trans_le hb).trans hbehind) (not_lt.mpr hspan)
    · exact absurd hlater (not_lt.mpr hspan)
  have htwo : 2 ∈ familySizes [p, b, c] := by
    refine ⟨[b, c], ⟨fun q => List.mem_cons_of_mem p, nofun, ?_⟩, rfl⟩
    exact List.pairwise_pair.mpr (.inl hbehind)
  intro hgreatest
  have hbound := hgreatest.2 htwo
  rw [h.first_after none p hfirst, hcount] at hbound
  exact absurd hbound (by decide)

end Count

/-- The largest family of more intervals is no smaller than a family of fewer. -/
theorem IsGreatest.familySizes_mono {longer : List (τ ×ₗ τ)} {n m : ℕ} (hn : n ∈ familySizes items)
    (hm : IsGreatest (familySizes longer) m) (hsub : ∀ p ∈ items, p ∈ longer) : n ≤ m := by
  obtain ⟨family, hfamily, hlength⟩ := hn
  exact hm.2 ⟨family, hfamily.mono hsub, hlength⟩

end StockProfiler
