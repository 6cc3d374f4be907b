import StockProfiler.Core.Dict
import StockProfiler.Core.Sums

/-!
# Mixed integer linear models

A linear expression is a dictionary of coefficients, so naming a variable again
overwrites its coefficient. A model bounds its variables, asks some of them to be
whole, and bounds the values of linear expressions.
-/

namespace StockProfiler

/-- Coefficients of variables, in the order in which they were first named. -/
abbrev Linear (ν : Type*) := Dict ν ℚ

namespace Linear

variable {ν : Type*} [DecidableEq ν]

/-- The value of an expression. -/
def value (e : Linear ν) (x : ν → ℚ) : ℚ := (e.map fun t => t.2 * x t.1).sum

/-- The coefficient of a variable. -/
def coefficient (e : Linear ν) (v : ν) : ℚ := (Dict.get? e v).getD 0

/-- Name more variables; the later of two coefficients counts. -/
def overlay (e later : Linear ν) : Linear ν := later.foldl (fun acc t => acc.set t.1 t.2) e

/-- Add to the coefficient of a variable. -/
def addTerm (e : Linear ν) (t : ν × ℚ) : Linear ν := e.set t.1 (e.coefficient t.1 + t.2)

/-- Multiply every coefficient. -/
def scale (e : Linear ν) (factor : ℚ) : Linear ν := e.map fun t => (t.1, t.2 * factor)

variable (es : List (Linear ν))

/-- The sum of expressions, variable by variable. -/
def total : Linear ν :=
  es.foldl (fun result e => e.foldl addTerm result) []

variable {e : Linear ν} {x : ν → ℚ}

omit [DecidableEq ν] in
@[simp] theorem value_nil : value ([] : Linear ν) x = 0 := rfl

omit [DecidableEq ν] in
@[simp] theorem value_cons (t : ν × ℚ) (e : Linear ν) :
    value (t :: e) x = t.2 * x t.1 + value e x := by
  rw [value, List.map_cons, List.sum_cons]
  rfl

omit [DecidableEq ν] in
@[simp] theorem value_append (e later : Linear ν) :
    value (e ++ later) x = value e x + value later x := by
  rw [value, List.map_append, List.sum_append]
  rfl

omit [DecidableEq ν] in
@[simp] theorem value_scale (factor : ℚ) : (e.scale factor).value x = e.value x * factor := by
  induction e with
  | nil => exact (zero_mul _).symm
  | cons t e ih =>
    have htail : scale (t :: e) factor = (t.1, t.2 * factor) :: scale e factor := rfl
    rw [htail, value_cons, value_cons, ih]
    ring

theorem value_set (e : Linear ν) (v : ν) (c : ℚ) :
    value (e.set v c) x = e.value x + (c - e.coefficient v) * x v := by
  induction e with
  | nil => simp [Dict.set, coefficient]
  | cons t e ih =>
    rw [Dict.set, coefficient, Dict.get?_cons]
    by_cases h : t.1 = v
    · rw [if_pos h, if_pos h, value_cons, value_cons, Option.getD_some, h]
      ring
    · rw [if_neg h, if_neg h, value_cons, value_cons, ih, coefficient]
      ring

theorem coefficient_set (e : Linear ν) (v : ν) (c : ℚ) (w : ν) :
    coefficient (e.set v c) w = if v = w then c else e.coefficient w := by
  rw [coefficient, Dict.get?_set]
  split
  · rfl
  · rfl

theorem coefficient_scale (e : Linear ν) (factor : ℚ) (v : ν) :
    (e.scale factor).coefficient v = e.coefficient v * factor := by
  induction e with
  | nil => exact (zero_mul _).symm
  | cons t e ih =>
    have htail : scale (t :: e) factor = (t.1, t.2 * factor) :: scale e factor := rfl
    rw [htail, coefficient, Dict.get?_cons, coefficient, Dict.get?_cons]
    by_cases h : t.1 = v
    · rw [if_pos h, if_pos h, Option.getD_some, Option.getD_some]
    · rw [if_neg h, if_neg h]
      exact ih

@[simp] theorem value_addTerm (t : ν × ℚ) : (e.addTerm t).value x = e.value x + t.2 * x t.1 := by
  rw [addTerm, value_set]
  ring

theorem coefficient_addTerm (e : Linear ν) (t : ν × ℚ) (w : ν) :
    (e.addTerm t).coefficient w = e.coefficient w + if t.1 = w then t.2 else 0 := by
  rw [addTerm, coefficient_set]
  split
  · rename_i h
    rw [h]
  · rw [add_zero]

theorem value_foldl_addTerm (e later : Linear ν) :
    value (later.foldl addTerm e) x = e.value x + later.value x := by
  induction later generalizing e with
  | nil => rw [List.foldl_nil, value_nil, add_zero]
  | cons t later ih => rw [List.foldl_cons, ih, value_addTerm, value_cons, add_assoc]

theorem coefficient_foldl_addTerm (e later : Linear ν) (w : ν) :
    coefficient (later.foldl addTerm e) w =
      e.coefficient w + sumWhere later Prod.snd (·.1 = w) := by
  induction later generalizing e with
  | nil => rw [List.foldl_nil, sumWhere_nil, add_zero]
  | cons t later ih =>
    rw [List.foldl_cons, ih, coefficient_addTerm, sumWhere_cons, add_assoc]

@[simp] theorem value_total : (total es).value x = (es.map (value · x)).sum := by
  have h : ∀ start : Linear ν, value (es.foldl (fun r e => e.foldl addTerm r) start) x =
      start.value x + (es.map (value · x)).sum := by
    induction es with
    | nil => exact fun start => (add_zero _).symm
    | cons e es ih =>
      intro start
      rw [List.foldl_cons, ih, value_foldl_addTerm, List.map_cons, List.sum_cons, add_assoc]
  exact (h []).trans (zero_add _)

theorem coefficient_total (w : ν) :
    (total es).coefficient w = (es.map (sumWhere · Prod.snd (·.1 = w))).sum := by
  have h : ∀ start : Linear ν, coefficient (es.foldl (fun r e => e.foldl addTerm r) start) w =
      start.coefficient w + (es.map (sumWhere · Prod.snd (·.1 = w))).sum := by
    induction es with
    | nil => exact fun start => (add_zero _).symm
    | cons e es ih =>
      intro start
      rw [List.foldl_cons, ih, coefficient_foldl_addTerm, List.map_cons, List.sum_cons, add_assoc]
  exact (h []).trans (zero_add _)

theorem overlay_of_disjoint {later : Linear ν} (hlater : (later.map Prod.fst).Nodup)
    (h : ∀ t ∈ later, Dict.get? e t.1 = none) : e.overlay later = e ++ later := by
  induction later generalizing e with
  | nil => exact (List.append_nil e).symm
  | cons t later ih =>
    obtain ⟨ht, hlater⟩ := List.nodup_cons.mp hlater
    obtain ⟨hnew, hrest⟩ := List.forall_mem_cons.mp h
    have hset : e.set t.1 t.2 = e ++ [t] := Dict.set_of_get?_eq_none hnew t.2
    have hcons : e.overlay (t :: later) = overlay (e.set t.1 t.2) later := rfl
    rw [hcons, hset, ih hlater fun u hu => ?_, List.append_assoc]
    · rfl
    · have hne : t.1 ≠ u.1 := fun heq => ht (heq ▸ List.mem_map_of_mem hu)
      rw [Dict.get?_append, hrest u hu, Dict.get?_cons, if_neg hne]
      rfl

omit [DecidableEq ν] in
theorem value_map {β : Type*} (items : List β) (v : β → ν) (c : ℚ) :
    Linear.value (items.map fun item => (v item, c)) x =
      c * (items.map fun item => x (v item)).sum := by
  induction items with
  | nil => exact (mul_zero c).symm
  | cons item items ih =>
    rw [List.map_cons, value_cons, ih, List.map_cons, List.sum_cons]
    ring

end Linear

theorem sum_map_ite_one {β : Type*} (items : List β) (p : β → Prop) [DecidablePred p] :
    (items.map fun item => if p item then (1 : ℚ) else 0).sum = (items.filter (p ·)).length := by
  rw [sum_map_ite items (fun _ => 1) p, sumWhere, List.map_const', List.sum_replicate,
    nsmul_eq_mul, mul_one]

/-- A variable from zero on, with its upper bound. -/
structure Column (ν : Type*) where
  name : ν
  upper : Option ℚ := none
  integer : Bool := false

/-- A bounded linear expression. -/
structure Row (ν : Type*) where
  terms : Linear ν
  lower : Option ℚ := none
  upper : Option ℚ := none

/-- A mixed integer linear model. -/
structure LinearModel (ν : Type*) where
  columns : List (Column ν)
  rows : List (Row ν)

section Model

variable {ν : Type*} {x y : ν → ℚ}

/-- The value of a variable is within its bounds. -/
def Column.Admits (column : Column ν) (x : ν → ℚ) : Prop :=
  0 ≤ x column.name ∧ (∀ bound ∈ column.upper, x column.name ≤ bound) ∧
    (column.integer → (x column.name).den = 1)

/-- The value of an expression is within its bounds. -/
def Row.Holds (row : Row ν) (x : ν → ℚ) : Prop :=
  (∀ bound ∈ row.lower, bound ≤ row.terms.value x) ∧
    ∀ bound ∈ row.upper, row.terms.value x ≤ bound

/-- An assignment satisfies every bound. -/
def LinearModel.Feasible (model : LinearModel ν) (x : ν → ℚ) : Prop :=
  (∀ column ∈ model.columns, column.Admits x) ∧ ∀ row ∈ model.rows, row.Holds x

theorem Row.holds_upper (terms : Linear ν) (bound : ℚ) :
    Row.Holds { terms, upper := some bound } x ↔ terms.value x ≤ bound := by
  simp [Row.Holds]

theorem Row.holds_lower (terms : Linear ν) (bound : ℚ) :
    Row.Holds { terms, lower := some bound } x ↔ bound ≤ terms.value x := by
  simp [Row.Holds]

theorem exists_natCast {q : ℚ} (hden : q.den = 1) (h : 0 ≤ q) : ∃ k : ℕ, q = k := by
  obtain ⟨k, hk⟩ := Int.eq_ofNat_of_zero_le (Rat.num_nonneg.mpr h)
  refine ⟨k, ((Rat.den_eq_one_iff q).mp hden).symm.trans ?_⟩
  rw [hk, Int.cast_natCast]

theorem Column.binary {v : ν} (h : Column.Admits ⟨v, some 1, true⟩ x) : x v = 0 ∨ x v = 1 := by
  obtain ⟨hnonneg, hupper, hinteger⟩ := h
  obtain ⟨k, hk⟩ := exists_natCast (hinteger rfl) hnonneg
  have hle : (k : ℚ) ≤ 1 := hk ▸ hupper 1 rfl
  have hk1 : k ≤ 1 := by exact_mod_cast hle
  rcases Nat.le_one_iff_eq_zero_or_eq_one.mp hk1 with rfl | rfl
  · exact .inl (by simpa using hk)
  · exact .inr (by simpa using hk)

theorem Column.admits_binary {v : ν} : Column.Admits ⟨v, some 1, true⟩ x ↔ x v = 0 ∨ x v = 1 := by
  refine ⟨Column.binary, fun h => ?_⟩
  rcases h with h | h <;> simp [Column.Admits, h]

end Model

end StockProfiler
