import Mathlib.Algebra.Order.Ring.Int
import Mathlib.Tactic.Ring
import StockProfiler.Core.History

/-!
# Counts of consecutive marks

Some steps of a run carry a number as their mark. A streak is the end of a run
in which every step is fit and the marks are consecutive numbers.
-/

namespace StockProfiler

variable {α : Type*}

/-- The consecutive numbers that end at a last one. -/
def endingAt (last : ℤ) (count : ℕ) : List ℤ :=
  (List.range count).map fun i : ℕ => last + 1 - count + i

theorem endingAt_one (last : ℤ) : endingAt last 1 = [last] := by
  simp [endingAt]

theorem endingAt_succ (last : ℤ) (count : ℕ) :
    endingAt (last + 1) (count + 1) = endingAt last count ++ [last + 1] := by
  simp only [endingAt, List.range_succ, List.map_append, List.map_cons, List.map_nil]
  congr 1
  · refine List.map_congr_left fun i _ => ?_
    push_cast
    ring
  · congr 1
    push_cast
    ring

/-- A run ends with as many consecutive marks as counted; from the first of them on every
step is fit, and every step after it is calm. -/
def Streak (fit calm : α → Prop) (mark : α → Option ℤ) (run : List α) (count : ℕ) (last : ℤ) :
    Prop :=
  ∃ earlier first later, run = earlier ++ first :: later ∧ (mark first).isSome ∧
    (∀ e ∈ first :: later, fit e) ∧ (∀ e ∈ later, calm e) ∧
    (first :: later).filterMap mark = endingAt last count

namespace Streak

variable {fit calm : α → Prop} {mark : α → Option ℤ} {run : List α} {count : ℕ} {last : ℤ} {e : α}

theorem start (run : List α) (hfit : fit e) (hmark : mark e = some last) :
    Streak fit calm mark (run ++ [e]) 1 last := by
  refine ⟨run, e, [], rfl, ?_, ?_, ?_, ?_⟩
  · rw [hmark]
    rfl
  · exact fun x hx => List.mem_singleton.mp hx ▸ hfit
  · exact fun x hx => nomatch hx
  · rw [List.filterMap_cons_some hmark, List.filterMap_nil, endingAt_one]

variable (h : Streak fit calm mark run count last) (hfit : fit e) (hcalm : calm e)
include h hfit hcalm

theorem snoc {count' : ℕ} {last' : ℤ}
    (hmarks : endingAt last count ++ (mark e).toList = endingAt last' count') :
    Streak fit calm mark (run ++ [e]) count' last' := by
  obtain ⟨earlier, first, later, rfl, hfirst, hfits, hcalms, hcounted⟩ := h
  refine ⟨earlier, first, later ++ [e], by simp, hfirst, ?_, ?_, ?_⟩
  · rw [← List.cons_append, List.forall_mem_append]
    exact ⟨hfits, fun x hx => List.mem_singleton.mp hx ▸ hfit⟩
  · rw [List.forall_mem_append]
    exact ⟨hcalms, fun x hx => List.mem_singleton.mp hx ▸ hcalm⟩
  · rw [← List.cons_append, List.filterMap_append, hcounted, ← hmarks]
    cases h : mark e <;> simp [h]

theorem keep (hmark : mark e = none) : Streak fit calm mark (run ++ [e]) count last :=
  h.snoc hfit hcalm (by rw [hmark, Option.toList_none, List.append_nil])

theorem extend
    (hmark : mark e = some (last + 1)) : Streak fit calm mark (run ++ [e]) (count + 1) (last + 1) :=
  h.snoc hfit hcalm (by rw [hmark, Option.toList_some, endingAt_succ])

end Streak

section Counter

variable {ι ω σ : Type*}

/-- A counter of the retained facts: a count with the number counted last. -/
structure Counter (σ : Type*) where
  count : σ → ℕ
  last : σ → Option ℤ

/-- What a step with a new fact does to a counter that it does not reset. -/
inductive Counter.Counts (c : Counter σ) (fit : σ → HistoryStep ι ω → Prop)
    (calm : HistoryStep ι ω → Prop) (mark : HistoryStep ι ω → Option ℤ) (f : ω → Option σ)
    (e : HistoryStep ι ω) (next : σ) : Prop where
  | keep (prior : σ) (hprior : latest f e.before = some prior)
      (hfit : ∀ x, fit prior x → fit next x) (hcalm : calm e) (hmark : mark e = none)
      (hcount : c.count next = c.count prior) (hlast : c.last next = c.last prior)
  | start (n : ℤ) (hmark : mark e = some n) (hcount : c.count next = 1)
      (hlast : c.last next = some n)
  | extend (n : ℤ) (prior : σ) (hprior : latest f e.before = some prior)
      (hfit : ∀ x, fit prior x → fit next x) (hcalm : calm e) (hmark : mark e = some (n + 1))
      (hcount : c.count next = c.count prior + 1) (hlast : c.last next = some (n + 1))
      (hpriorLast : c.last prior = some n)

theorem Streak.mono {fit fit' calm : α → Prop} {mark : α → Option ℤ} {run : List α} {count : ℕ}
    {last : ℤ} (h : Streak fit calm mark run count last) (hfit : ∀ e, fit e → fit' e) :
    Streak fit' calm mark run count last := by
  obtain ⟨earlier, first, later, hrun, hfirst, hfits, hrest⟩ := h
  exact ⟨earlier, first, later, hrun, hfirst, fun e he => hfit e (hfits e he), hrest⟩

/-- A counter that is only raised by consecutive marks counts a streak. -/
theorem HistoryRun.streak {step : List ω → ι → ω → Prop} {run : List (HistoryStep ι ω)}
    (h : HistoryRun step run) (c : Counter σ) (fit : σ → HistoryStep ι ω → Prop)
    (calm : HistoryStep ι ω → Prop) (mark : HistoryStep ι ω → Option ℤ) (f : ω → Option σ)
    (hidle : ∀ {history input outcome}, step history input outcome → f outcome = none →
      ∀ fact, latest f history = some fact →
        fit fact ⟨history, input, outcome⟩ ∧ calm ⟨history, input, outcome⟩ ∧
          mark ⟨history, input, outcome⟩ = none)
    (hstep : ∀ {history input outcome}, step history input outcome → ∀ next,
      f outcome = some next → 0 < c.count next →
        fit next ⟨history, input, outcome⟩ ∧
          c.Counts fit calm mark f ⟨history, input, outcome⟩ next) {fact : σ}
    (hfact : latest f (outcomes run) = some fact) (hcount : 0 < c.count fact) :
    ∃ last, c.last fact = some last ∧
      Streak (fit fact) calm mark run (c.count fact) last := by
  induction h generalizing fact with
  | nil => exact nomatch hfact
  | @snoc run input outcome _ hnew ih =>
    rw [outcomes_append, outcomes_singleton, latest_append_singleton] at hfact
    cases houtcome : f outcome with
    | none =>
      rw [houtcome, Option.none_or] at hfact
      obtain ⟨last, hlast, hstreak⟩ := ih hfact hcount
      obtain ⟨hfit, hcalm, hmark⟩ := hidle hnew houtcome fact hfact
      exact ⟨last, hlast, hstreak.keep hfit hcalm hmark⟩
    | some next =>
      obtain rfl := Option.some.inj ((congrArg (Option.or · _) houtcome).symm.trans hfact)
      obtain ⟨hfit, hcounts⟩ := hstep hnew next houtcome hcount
      cases hcounts with
      | keep prior hprior hfits hcalm hmark hkept hlast =>
        obtain ⟨last, hpriorLast, hstreak⟩ := ih hprior (hkept ▸ hcount)
        rw [hkept]
        exact ⟨last, hlast.trans hpriorLast, (hstreak.mono hfits).keep hfit hcalm hmark⟩
      | start n hmark hone hlast =>
        rw [hone]
        exact ⟨n, hlast, Streak.start run hfit hmark⟩
      | extend n prior hprior hfits hcalm hmark hraised hlast hpriorLast =>
        rw [hraised]
        refine ⟨n + 1, hlast, ?_⟩
        rcases Nat.eq_zero_or_pos (c.count prior) with hzero | hpos
        · rw [hzero]
          exact Streak.start run hfit hmark
        · obtain ⟨last, hlast', hstreak⟩ := ih hprior hpos
          obtain rfl := Option.some.inj (hpriorLast.symm.trans hlast')
          exact (hstreak.mono hfits).extend hfit hcalm hmark

end Counter

end StockProfiler
