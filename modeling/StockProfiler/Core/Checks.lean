import Mathlib.Data.List.Forall2

/-!
# Checks that fail with a reason

A computation that may fail is a chain of checks. What a whole chain establishes
is read off its success, check by check.
-/

namespace StockProfiler

universe u

variable {ε : Type*} {α β : Type u}

/-- Fail with a reason unless a condition holds. -/
def require (p : Prop) [Decidable p] (reason : ε) : Except ε Unit :=
  if p then .ok () else .error reason

/-- Fail with a reason when a value is missing. -/
def known (x : Option α) (reason : ε) : Except ε α := x.elim (.error reason) .ok

@[simp] theorem require_eq_ok {p : Prop} [Decidable p] {reason : ε} {u : Unit} :
    require p reason = .ok u ↔ p := by
  unfold require
  split <;> simp_all

@[simp] theorem known_eq_ok {x : Option α} {reason : ε} {a : α} :
    known x reason = .ok a ↔ x = some a := by
  cases x <;> simp [known]

/-- A chain succeeds when its first part does and the rest does with its value. -/
theorem bind_eq_ok {x : Except ε α} {f : α → Except ε β} {b : β} :
    x >>= f = .ok b ↔ ∃ a, x = .ok a ∧ f a = .ok b := by
  cases x with
  | error e => exact ⟨nofun, fun ⟨_, h, _⟩ => nomatch h⟩
  | ok a => exact ⟨fun h => ⟨a, rfl, h⟩, fun ⟨_, h, hf⟩ => Except.ok.inj h ▸ hf⟩

/-- A chain has a value when its first part does and the rest does with it. -/
theorem bind_eq_some {x : Option α} {f : α → Option β} {b : β} :
    x >>= f = some b ↔ ∃ a, x = some a ∧ f a = some b :=
  Option.bind_eq_some_iff

theorem pure_eq_some {a b : α} : (pure a : Option α) = some b ↔ a = b :=
  Option.some_inj

/-- What every step of a fold preserves holds of its result. -/
theorem foldlM_invariant {σ : Type u} {f : σ → α → Except ε σ} {P : σ → Prop}
    (hstep : ∀ s a s', P s → f s a = .ok s' → P s') {items : List α} {s s' : σ} (hs : P s)
    (h : items.foldlM f s = .ok s') : P s' := by
  induction items generalizing s with
  | nil => exact Except.ok.inj h ▸ hs
  | cons a items ih =>
    rw [List.foldlM_cons] at h
    obtain ⟨middle, hmiddle, h⟩ := bind_eq_ok.mp h
    exact ih (hstep s a middle hs hmiddle) h

/-- A check of every item succeeds when the check of each one does. -/
theorem forM_eq_ok {f : α → Except ε PUnit.{u + 1}} {items : List α} {u : PUnit.{u + 1}} :
    items.forM f = .ok u ↔ ∀ a ∈ items, f a = .ok ⟨⟩ := by
  induction items with
  | nil => exact ⟨fun _ a ha => absurd ha List.not_mem_nil, fun _ => rfl⟩
  | cons a items ih =>
    rw [List.forall_mem_cons]
    refine (bind_eq_ok (x := f a)).trans ?_
    constructor
    · rintro ⟨⟨⟩, ha, h⟩
      exact ⟨ha, ih.mp h⟩
    · rintro ⟨ha, h⟩
      exact ⟨⟨⟩, ha, ih.mpr h⟩

/-- What succeeds on every item has a result for each one, in order. -/
theorem mapM_eq_ok {f : α → Except ε β} {items : List α} {results : List β} :
    items.mapM f = .ok results ↔ List.Forall₂ (fun a b => f a = .ok b) items results := by
  induction items generalizing results with
  | nil =>
    rw [List.mapM_nil, List.forall₂_nil_left_iff]
    exact ⟨fun h => (Except.ok.inj h).symm, fun h => h ▸ rfl⟩
  | cons a items ih =>
    rw [List.mapM_cons, bind_eq_ok]
    constructor
    · rintro ⟨b, hb, h⟩
      obtain ⟨rest, hrest, h⟩ := bind_eq_ok.mp h
      exact Except.ok.inj h ▸ .cons hb (ih.mp hrest)
    · rintro (_ | ⟨hb, hrest⟩)
      exact ⟨_, hb, bind_eq_ok.mpr ⟨_, ih.mpr hrest, rfl⟩⟩

theorem forall₂_of_mapM_eq_some {f : α → Option β} {items : List α} {results : List β}
    (h : items.mapM f = some results) : List.Forall₂ (fun a b => f a = some b) items results := by
  induction items generalizing results with
  | nil =>
    cases h
    exact .nil
  | cons a items ih =>
    rw [List.mapM_cons] at h
    obtain ⟨b, hb, h⟩ := Option.bind_eq_some_iff.mp h
    obtain ⟨rest, hrest, h⟩ := Option.bind_eq_some_iff.mp h
    cases h
    exact .cons hb (ih hrest)

/-- What is related to a list item by item comes from an item of it. -/
theorem forall₂_mem_right {R : α → β → Prop} {xs : List α} {ys : List β} (h : List.Forall₂ R xs ys)
    {b : β} (hb : b ∈ ys) : ∃ a ∈ xs, R a b := by
  obtain ⟨index, hindex, rfl⟩ := List.mem_iff_getElem.mp hb
  have hlength := h.length_eq
  exact ⟨_, List.getElem_mem (hlength ▸ hindex), h.get (hlength ▸ hindex) hindex⟩

/-- Every item of a list is related to one of the items that its items are related to. -/
theorem forall₂_mem_left {R : α → β → Prop} {xs : List α} {ys : List β} (h : List.Forall₂ R xs ys)
    {a : α} (ha : a ∈ xs) : ∃ b ∈ ys, R a b := by
  obtain ⟨index, hindex, rfl⟩ := List.mem_iff_getElem.mp ha
  have hlength := h.length_eq
  exact ⟨_, List.getElem_mem (hlength ▸ hindex), h.get hindex (hlength ▸ hindex)⟩

theorem map_eq_map_of_forall₂ {γ : Type*} {f : α → γ} {g : β → γ} {xs : List α} {ys : List β}
    (h : List.Forall₂ (fun a b => f a = g b) xs ys) : xs.map f = ys.map g := by
  induction h with
  | nil => rfl
  | cons hab _ ih => rw [List.map_cons, List.map_cons, hab, ih]

/-- Every reason that a computation fails with has a property. -/
def FailsWith (P : ε → Prop) (x : Except ε α) : Prop := ∀ reason, x = .error reason → P reason

section FailsWith

variable {P : ε → Prop}

theorem failsWith_ok (a : α) : FailsWith P (.ok a) := nofun

theorem failsWith_require {p : Prop} [Decidable p] {reason : ε} (h : P reason) :
    FailsWith P (require p reason) := by
  intro e he
  unfold require at he
  split at he
  · exact nomatch he
  · exact Except.error.inj he ▸ h

theorem failsWith_known {x : Option α} {reason : ε} (h : P reason) :
    FailsWith P (known x reason) := by
  intro e he
  cases x with
  | none => exact Except.error.inj he ▸ h
  | some a => exact nomatch he

theorem FailsWith.bind {x : Except ε α} {f : α → Except ε β} (hx : FailsWith P x)
    (hf : ∀ a, x = .ok a → FailsWith P (f a)) : FailsWith P (x >>= f) := by
  intro e he
  cases x with
  | error reason => exact hx e (by cases he; rfl)
  | ok a => exact hf a rfl e he

end FailsWith

theorem step_of_foldlM {ε : Type*} {α σ : Type} {f : σ → α → Except ε σ} {items : List α} {s s' : σ}
    (h : items.foldlM f s = .ok s') {a : α} (ha : a ∈ items) :
    ∃ before after, f before a = .ok after := by
  induction items generalizing s with
  | nil => exact nomatch ha
  | cons first items ih =>
    rw [List.foldlM_cons] at h
    obtain ⟨middle, hmiddle, h⟩ := bind_eq_ok.mp h
    rcases List.mem_cons.mp ha with rfl | ha
    · exact ⟨s, middle, hmiddle⟩
    · exact ih h ha

theorem foldlM_eq_ok_congr {ε : Type*} {α σ : Type} {f g : σ → α → Except ε σ} {items : List α}
    (h : ∀ a ∈ items, ∀ s s', f s a = .ok s' ↔ g s a = .ok s') {s s' : σ} :
    items.foldlM f s = .ok s' ↔ items.foldlM g s = .ok s' := by
  induction items generalizing s with
  | nil => exact Iff.rfl
  | cons a items ih =>
    have ih := fun t => ih (fun b hb => h b (List.mem_cons_of_mem _ hb)) (s := t)
    simp only [List.foldlM_cons, bind_eq_ok, h a (List.mem_cons_self ..), ih]

/-- A fold whose steps are simulated by those of another is simulated by it. -/
theorem foldlM_simulates {ε : Type*} {α σ τ : Type} {f : σ → α → Except ε σ}
    {g : τ → α → Except ε τ} {R : σ → τ → Prop} {items : List α}
    (hstep : ∀ a ∈ items, ∀ s t s', R s t → f s a = .ok s' → ∃ t', g t a = .ok t' ∧ R s' t')
    {s s' : σ} {t : τ} (hst : R s t) (h : items.foldlM f s = .ok s') :
    ∃ t', items.foldlM g t = .ok t' ∧ R s' t' := by
  induction items generalizing s t with
  | nil => exact ⟨t, rfl, Except.ok.inj h ▸ hst⟩
  | cons a items ih =>
    rw [List.foldlM_cons] at h
    obtain ⟨middle, hmiddle, h⟩ := bind_eq_ok.mp h
    obtain ⟨middle', hmiddle', hrel⟩ := hstep a (List.mem_cons_self ..) s t middle hst hmiddle
    obtain ⟨t', ht', hrel'⟩ := ih (fun b hb => hstep b (List.mem_cons_of_mem _ hb)) hrel h
    refine ⟨t', ?_, hrel'⟩
    rw [List.foldlM_cons]
    exact bind_eq_ok.mpr ⟨middle', hmiddle', ht'⟩

theorem map_bind_ok {ε : Type*} {α β γ : Type} (x : Except ε α) (f : α → Except ε β) (g : β → γ) :
    (x >>= f).map g = x >>= fun a => (f a).map g := by
  cases x <;> rfl

/-- Chains whose rest agrees on the value of the first part agree. -/
theorem bind_congr_ok {ε : Type*} {α β : Type} {x : Except ε α} {f g : α → Except ε β}
    (h : ∀ a, x = .ok a → f a = g a) : x >>= f = x >>= g := by
  cases x with
  | error _ => rfl
  | ok a => exact h a rfl

/-- What follows every item of a list follows the list. -/
theorem mapM_map_ok {ε : Type*} {α β γ : Type} (f : α → Except ε β) (g : β → γ) (items : List α) :
    (items.mapM fun item => (f item).map g) = (items.mapM f).map (List.map g) := by
  induction items with
  | nil => rfl
  | cons item items ih =>
    rw [List.mapM_cons, List.mapM_cons, ih]
    cases f item with
    | error _ => rfl
    | ok _ => cases items.mapM f <;> rfl

theorem mapM_eq_some_map {α β : Type} {f : α → Option β} {g : α → β} {items : List α}
    (h : ∀ a ∈ items, f a = some (g a)) : items.mapM f = some (items.map g) := by
  induction items with
  | nil => rfl
  | cons a items ih =>
    rw [List.mapM_cons, h a (List.mem_cons_self ..), ih fun b hb => h b (List.mem_cons_of_mem _ hb)]
    rfl

end StockProfiler
