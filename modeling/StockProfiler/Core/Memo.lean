import StockProfiler.Core.Dict

/-!
# Kept answers

The answer to a question is kept by its key and given again. Kept answers that agree with a
function of the key never decide anything.
-/

namespace StockProfiler.Dict

variable {κ α β : Type*} [DecidableEq κ]

/-- The answer that is kept for a key, or a new one, which is kept from now on. -/
def answered (kept : Dict κ α) (key : κ) (answer : α) : α × Dict κ α :=
  match kept.get? key with
  | some known => (known, kept)
  | none => (answer, kept.set key answer)

/-- The items whose answer is yes. -/
def recallFilter (key : β → κ) (answer : β → Bool) : Dict κ Bool → List β → List β × Dict κ Bool
  | kept, [] => ([], kept)
  | kept, item :: rest =>
    let (yes, kept) := answered kept (key item) (answer item)
    let (found, kept) := recallFilter key answer kept rest
    (if yes then item :: found else found, kept)

/-- Every kept answer is the one of its key. -/
def Recalls (f : κ → α) (kept : Dict κ α) : Prop := ∀ entry ∈ kept, entry.2 = f entry.1

variable {f : κ → α} {kept : Dict κ α}

omit [DecidableEq κ] in
theorem recalls_nil (f : κ → α) : Recalls f ([] : Dict κ α) :=
  nofun

theorem answered_spec (h : Recalls f kept) {key : κ} {answer : α} (hanswer : answer = f key) :
    (answered kept key answer).1 = f key ∧ Recalls f (answered kept key answer).2 := by
  unfold answered
  cases hget : kept.get? key with
  | some known => exact ⟨h (key, known) (mem_of_get? hget), h⟩
  | none =>
    refine ⟨hanswer, fun entry hentry => ?_⟩
    rcases mem_set hentry with rfl | hmem
    · exact hanswer
    · exact h entry hmem

theorem recallFilter_spec {f : κ → Bool} {kept : Dict κ Bool} (h : Recalls f kept) (key : β → κ)
    (answer : β → Bool) (items : List β) (hanswer : ∀ item ∈ items, answer item = f (key item)) :
    (recallFilter key answer kept items).1 = items.filter answer ∧
      Recalls f (recallFilter key answer kept items).2 := by
  induction items generalizing kept with
  | nil => exact ⟨rfl, h⟩
  | cons item items ih =>
    rw [List.forall_mem_cons] at hanswer
    obtain ⟨hyes, hkept⟩ := answered_spec h hanswer.1
    obtain ⟨hfound, hrest⟩ := ih hkept hanswer.2
    refine ⟨?_, hrest⟩
    rw [recallFilter, List.filter_cons]
    dsimp only
    rw [hyes, hfound, hanswer.1]

end StockProfiler.Dict
