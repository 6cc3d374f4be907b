import Mathlib.Logic.Function.Basic
import Mathlib.Order.Defs.PartialOrder

/-!
# Parties that share a store

Any number of parties act on one store, one at a time and in any order. Each has a
progress of its own, which only its own acts change. What holds of every state that a run
reaches is proved from what one act does to the store, to its own party and to the others.
-/

namespace StockProfiler

variable {π ι σ ρ : Type*} [DecidableEq π]

/-- A store, and how far each party is. -/
@[ext] structure Shared (π σ ρ : Type*) where
  store : σ
  progress : π → ρ

namespace Shared

variable (act : ι → σ → ρ → σ × ρ) (s : Shared π σ ρ) (p q : π) (i : ι)

/-- One party acts on the store. -/
def next : Shared π σ ρ where
  store := (act i s.store (s.progress p)).1
  progress := Function.update s.progress p (act i s.store (s.progress p)).2

@[simp] theorem next_store : (s.next act p i).store = (act i s.store (s.progress p)).1 := rfl

@[simp] theorem next_progress_self :
    (s.next act p i).progress p = (act i s.store (s.progress p)).2 :=
  Function.update_self ..

@[simp] theorem next_progress_of_ne {q : π} (h : q ≠ p) :
    (s.next act p i).progress q = s.progress q :=
  Function.update_of_ne h ..

/-- A run from a state, every act of which is allowed where it happens. -/
inductive Run (allowed : Shared π σ ρ → π → ι → Prop) (start : Shared π σ ρ) :
    Shared π σ ρ → Prop where
  | refl : Run allowed start start
  | step {s : Shared π σ ρ} {p : π} {i : ι} (h : Run allowed start s) (hallowed : allowed s p i) :
      Run allowed start (s.next act p i)

namespace Run

variable {act} {s} {allowed allowed' : Shared π σ ρ → π → ι → Prop} {start last : Shared π σ ρ}

/-- What every act preserves holds of every state that is reached. -/
theorem invariant {inv : Shared π σ ρ → Prop} (h : Run act allowed start s) (hstart : inv start)
    (hstep : ∀ s p i, inv s → allowed s p i → inv (s.next act p i)) : inv s := by
  induction h with
  | refl => exact hstart
  | step _ hallowed ih => exact hstep _ _ _ ih hallowed

/-- A property of the store and one of every party hold of every state that is reached, when an act
keeps the first one, establishes the second one for its own party, and keeps it for the others. -/
theorem guarantee {inv : σ → Prop} {held : π → σ → ρ → Prop} (h : Run act allowed start s)
    (hstore : inv start.store) (hheld : ∀ p, held p start.store (start.progress p))
    (hact : ∀ s p i, allowed s p i → inv s.store → (∀ q, held q s.store (s.progress q)) →
      inv (act i s.store (s.progress p)).1 ∧
        held p (act i s.store (s.progress p)).1 (act i s.store (s.progress p)).2)
    (hrely : ∀ s p i q, q ≠ p → allowed s p i → inv s.store →
      (∀ q, held q s.store (s.progress q)) →
      held q (act i s.store (s.progress p)).1 (s.progress q)) :
    inv s.store ∧ ∀ p, held p s.store (s.progress p) := by
  have hstep : ∀ s p i, inv s.store ∧ (∀ q, held q s.store (s.progress q)) → allowed s p i →
      inv (s.next act p i).store ∧
        ∀ q, held q (s.next act p i).store ((s.next act p i).progress q) := by
    rintro s p i ⟨hinv, hheld⟩ hallowed
    obtain ⟨hinv', hheld'⟩ := hact s p i hallowed hinv hheld
    refine ⟨hinv', fun q => ?_⟩
    by_cases hq : q = p
    · subst hq
      rw [next_progress_self, next_store]
      exact hheld'
    · rw [next_progress_of_ne act s p i hq, next_store]
      exact hrely s p i q hq hallowed hinv hheld
  exact h.invariant ⟨hstore, hheld⟩ hstep

end Run

/-- What a schedule of acts reaches. -/
def play (s : Shared π σ ρ) (schedule : List (π × ι)) : Shared π σ ρ :=
  schedule.foldl (fun s entry => s.next act entry.1 entry.2) s

/-- Every act of a schedule is allowed where it happens. -/
def Allows (allowed : Shared π σ ρ → π → ι → Prop) : Shared π σ ρ → List (π × ι) → Prop
  | _, [] => True
  | s, entry :: rest => allowed s entry.1 entry.2 ∧ Allows allowed (s.next act entry.1 entry.2) rest

instance decidableAllows (allowed : Shared π σ ρ → π → ι → Prop)
    [∀ s p i, Decidable (allowed s p i)] :
    (s : Shared π σ ρ) → (schedule : List (π × ι)) → Decidable (Allows act allowed s schedule)
  | _, [] => .isTrue trivial
  | s, entry :: rest =>
    letI := decidableAllows allowed (s.next act entry.1 entry.2) rest
    inferInstanceAs (Decidable (_ ∧ _))

theorem run_play {allowed : Shared π σ ρ → π → ι → Prop} {start s : Shared π σ ρ}
    {schedule : List (π × ι)} (h : Run act allowed start s)
    (hallows : Allows act allowed s schedule) : Run act allowed start (s.play act schedule) := by
  induction schedule generalizing s with
  | nil => exact h
  | cons entry rest ih => exact ih (h.step hallows.1) hallows.2

end Shared

end StockProfiler
