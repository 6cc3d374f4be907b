import Mathlib.Data.List.Basic

/-!
# Folds that append to a log

A fold whose steps only append to a log of its state has, after some items, the log that it has
after fewer of them, and then what the later items emit.
-/

namespace StockProfiler

variable {σ α β : Type*} {step : σ → α → σ} {log : σ → List β}

/-- A step only appends to a log. -/
def Appends (step : σ → α → σ) (log : σ → List β) (emit : σ → α → List β) : Prop :=
  ∀ s a, log (step s a) = log s ++ emit s a

theorem Appends.foldl {emit : σ → α → List β} (h : Appends step log emit) (s : σ) (items : List α) :
    ∃ later, log (items.foldl step s) = log s ++ later ∧
      ∀ b ∈ later, ∃ s, ∃ a ∈ items, b ∈ emit s a := by
  induction items generalizing s with
  | nil => exact ⟨[], (List.append_nil _).symm, nofun⟩
  | cons a items ih =>
    obtain ⟨later, hlog, hlater⟩ := ih (step s a)
    refine ⟨emit s a ++ later, ?_, fun b hb => ?_⟩
    · rw [List.foldl_cons, hlog, h s a, List.append_assoc]
    · rcases List.mem_append.mp hb with hb | hb
      · exact ⟨s, a, List.mem_cons_self .., hb⟩
      · obtain ⟨s', a', ha', hb⟩ := hlater b hb
        exact ⟨s', a', List.mem_cons_of_mem _ ha', hb⟩

theorem Appends.length_foldl {emit : σ → α → List β} (h : Appends step log emit)
    (hone : ∀ s a, (emit s a).length = 1) (s : σ) (items : List α) :
    (log (items.foldl step s)).length = (log s).length + items.length := by
  induction items generalizing s with
  | nil => rfl
  | cons a items ih =>
    rw [List.foldl_cons, ih, h s a, List.length_append, hone, List.length_cons]
    omega

theorem foldl_congr_mem {step' : σ → α → σ} {items : List α} (s : σ)
    (h : ∀ a ∈ items, ∀ s, step s a = step' s a) : items.foldl step s = items.foldl step' s := by
  induction items generalizing s with
  | nil => rfl
  | cons a items ih =>
    rw [List.foldl_cons, List.foldl_cons, h a (List.mem_cons_self ..)]
    exact ih _ fun b hb => h b (List.mem_cons_of_mem _ hb)

end StockProfiler
