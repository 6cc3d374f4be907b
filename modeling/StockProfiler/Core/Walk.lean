import Mathlib.Data.List.Nodup
import Mathlib.Data.List.Perm.Subperm
import Mathlib.Logic.Relation

/-!
# Following links with a visited set

Several procedures follow a partial link from record to record and remember
the keys they have passed. A walk ends at a record without a link, at a link
whose target is missing, or at a key seen before. The step count is explicit;
`follow_ne_spent` shows that one step per key is always enough, so the count
never decides an answer.
-/

namespace StockProfiler

/-- What a record links to. -/
inductive Link (α : Type*) where
  /-- The record has no link. -/
  | root
  /-- The link names no usable record. -/
  | missing
  /-- The linked record. -/
  | next (target : α)

/-- How a walk ended. -/
inductive WalkEnd (α : Type*) where
  | root (last : α)
  | missing
  | cycle
  | spent
  deriving DecidableEq

section Follow

variable {steps : ℕ} {α κ : Type*} [DecidableEq κ] (key : α → κ) (link : α → Link α)

/-- Follow links from a record, never passing one key twice. -/
def follow : ℕ → List κ → α → WalkEnd α
  | 0, _, _ => .spent
  | steps + 1, seen, a =>
    if key a ∈ seen then .cycle
    else match link a with
      | .root => .root a
      | .missing => .missing
      | .next b => follow steps (key a :: seen) b

/-- One record links directly to another. -/
def Linked (a b : α) : Prop := link a = .next b

variable {key link}

/-- One step for every key outside the visited set always reaches an end. -/
theorem follow_ne_spent (keys : List κ) (hlink : ∀ a b, Linked link a b → key b ∈ keys)
    {seen : List κ} {a : α} (ha : key a ∈ keys) (hseen : seen.Nodup) (hsub : seen ⊆ keys)
    (hsteps : keys.length < steps + seen.length) : follow key link steps seen a ≠ .spent := by
  induction steps generalizing seen a with
  | zero =>
    have hle := (List.subperm_of_subset hseen hsub).length_le
    omega
  | succ steps ih =>
    rw [follow]
    split
    · exact fun h => nomatch h
    · rename_i hnew
      cases hl : link a with
      | root => exact fun h => nomatch h
      | missing => exact fun h => nomatch h
      | next b =>
        exact ih (hlink a b hl) (List.nodup_cons.mpr ⟨hnew, hseen⟩)
          (List.cons_subset.mpr ⟨ha, hsub⟩) (by simp only [List.length_cons]; omega)

/-- A walk that ends at a record reached it along links, and it has none itself. -/
theorem follow_eq_root {seen : List κ} {a last : α}
    (h : follow key link steps seen a = .root last) :
    Relation.ReflTransGen (Linked link) a last ∧ link last = .root := by
  induction steps generalizing seen a with
  | zero => exact nomatch h
  | succ steps ih =>
    rw [follow] at h
    split at h
    · exact nomatch h
    · cases hl : link a with
      | root =>
        rw [hl] at h
        cases h
        exact ⟨.refl, hl⟩
      | missing => rw [hl] at h; exact nomatch h
      | next b =>
        rw [hl] at h
        obtain ⟨hreach, hroot⟩ := ih h
        exact ⟨.head hl hreach, hroot⟩

/-- A walk that meets a missing link reached a record whose link is missing. -/
theorem follow_eq_missing {seen : List κ} {a : α} (h : follow key link steps seen a = .missing) :
    ∃ last, Relation.ReflTransGen (Linked link) a last ∧ link last = .missing := by
  induction steps generalizing seen a with
  | zero => exact nomatch h
  | succ steps ih =>
    rw [follow] at h
    split at h
    · exact nomatch h
    · cases hl : link a with
      | root => rw [hl] at h; exact nomatch h
      | missing => exact ⟨a, .refl, hl⟩
      | next b =>
        rw [hl] at h
        obtain ⟨last, hreach, hlast⟩ := ih h
        exact ⟨last, .head hl hreach, hlast⟩

/-- Links are functional, so a record on a cycle only reaches records on it. -/
theorem transGen_self_of_reflTransGen {a b : α} (hcycle : Relation.TransGen (Linked link) a a)
    (hab : Relation.ReflTransGen (Linked link) a b) : Relation.TransGen (Linked link) b b := by
  induction hab with
  | refl => exact hcycle
  | @tail b c _ hbc ih =>
    obtain ⟨d, hbd, hdb⟩ := Relation.TransGen.head'_iff.mp ih
    have hdc : d = c := by
      have he : link b = .next d := hbd
      rw [hbc] at he
      cases he
      rfl
    subst hdc
    exact Relation.TransGen.tail' hdb hbc

/-- Links are functional, so a record reaches at most one record without a link. -/
theorem root_unique {a b c : α} (hab : Relation.ReflTransGen (Linked link) a b)
    (hac : Relation.ReflTransGen (Linked link) a c) (hb : link b = .root) (hc : link c = .root) :
    b = c := by
  induction hab using Relation.ReflTransGen.head_induction_on with
  | refl =>
    rcases Relation.ReflTransGen.cases_head hac with rfl | ⟨d, hbd, -⟩
    · rfl
    · exact nomatch hb.symm.trans hbd
  | @head x y hxy _ ih =>
    rcases Relation.ReflTransGen.cases_head hac with rfl | ⟨d, hxd, hdc⟩
    · exact nomatch hc.symm.trans hxy
    · have hyd : y = d := by
        have he : link x = .next d := hxd
        rw [show link x = .next y from hxy] at he
        cases he
        rfl
      exact ih (hyd ▸ hdc)

/-- Links are functional, so what a record reaches leads on to where its chain ends. -/
theorem reaches_end {a b c : α} (hab : Relation.ReflTransGen (Linked link) a b)
    (hac : Relation.ReflTransGen (Linked link) a c) (hc : ∀ d, link c ≠ .next d) :
    Relation.ReflTransGen (Linked link) b c := by
  induction hab using Relation.ReflTransGen.head_induction_on with
  | refl => exact hac
  | @head x y hxy _ ih =>
    rcases Relation.ReflTransGen.cases_head hac with rfl | ⟨d, hxd, hdc⟩
    · exact absurd hxy (hc y)
    · have hyd : y = d := by
        have he : link x = .next d := hxd
        rw [show link x = .next y from hxy] at he
        cases he
        rfl
      exact ih (hyd ▸ hdc)

theorem exists_next_of_cycle {a b : α} (hcycle : Relation.TransGen (Linked link) a a)
    (hab : Relation.ReflTransGen (Linked link) a b) : ∃ c, link b = .next c := by
  obtain ⟨c, hbc, _⟩ := Relation.TransGen.head'_iff.mp (transGen_self_of_reflTransGen hcycle hab)
  exact ⟨c, hbc⟩

theorem follow_eq_cycle_cases {seen : List κ} {a : α} (h : follow key link steps seen a = .cycle) :
    (∃ x, Relation.ReflTransGen (Linked link) a x ∧ key x ∈ seen) ∨
      ∃ x y, Relation.ReflTransGen (Linked link) a x ∧ Relation.TransGen (Linked link) x y ∧
        key x = key y := by
  induction steps generalizing seen a with
  | zero => exact nomatch h
  | succ steps ih =>
    rw [follow] at h
    split at h
    · rename_i hseen
      exact .inl ⟨a, .refl, hseen⟩
    · cases hl : link a with
      | root => rw [hl] at h; exact nomatch h
      | missing => rw [hl] at h; exact nomatch h
      | next b =>
        rw [hl] at h
        rcases ih h with ⟨x, hbx, hx⟩ | ⟨x, y, hbx, hxy, he⟩
        · rcases List.mem_cons.mp hx with hx | hx
          · exact .inr ⟨a, x, .refl, Relation.TransGen.head' hl hbx, hx.symm⟩
          · exact .inl ⟨x, .head hl hbx, hx⟩
        · exact .inr ⟨x, y, .head hl hbx, hxy, he⟩

theorem exists_cycle_of_follow {a : α} (h : follow key link steps [] a = .cycle)
    (hkey : ∀ x y, Relation.ReflTransGen (Linked link) a x →
      Relation.ReflTransGen (Linked link) a y → key x = key y → x = y) :
    ∃ x, Relation.ReflTransGen (Linked link) a x ∧ Relation.TransGen (Linked link) x x := by
  rcases follow_eq_cycle_cases h with ⟨x, -, hx⟩ | ⟨x, y, hax, hxy, he⟩
  · exact nomatch hx
  · obtain rfl := hkey x y hax (hax.trans hxy.to_reflTransGen) he
    exact ⟨x, hax, hxy⟩

/-- With distinct keys, a walk ends where the chain of links ends. -/
theorem follow_eq_root_of_reaches (keys : List κ) (hlink : ∀ a b, Linked link a b → key b ∈ keys)
    {a b : α} (ha : key a ∈ keys) (hsteps : keys.length < steps)
    (hkey : ∀ x y, Relation.ReflTransGen (Linked link) a x →
      Relation.ReflTransGen (Linked link) a y → key x = key y → x = y)
    (hab : Relation.ReflTransGen (Linked link) a b) (hb : link b = .root) :
    follow key link steps [] a = .root b := by
  have hend : ∀ d, link b ≠ .next d := by
    intro d hd
    exact nomatch hb.symm.trans hd
  cases h : follow key link steps [] a with
  | root last =>
    obtain ⟨hreach, hroot⟩ := follow_eq_root h
    rw [root_unique hreach hab hroot hb]
  | missing =>
    obtain ⟨last, hreach, hlast⟩ := follow_eq_missing h
    rcases Relation.ReflTransGen.cases_head (reaches_end hreach hab hend) with rfl | ⟨d, hd, -⟩
    · exact nomatch hb.symm.trans hlast
    · exact nomatch hlast.symm.trans hd
  | cycle =>
    obtain ⟨x, hax, hcycle⟩ := exists_cycle_of_follow h hkey
    obtain ⟨d, hd⟩ := exists_next_of_cycle hcycle (reaches_end hax hab hend)
    exact absurd hd (hend d)
  | spent =>
    exact absurd h (follow_ne_spent keys hlink ha List.nodup_nil (List.nil_subset _)
      (by simpa using hsteps))

/-- Enough steps recognise every cycle through the starting record. -/
theorem follow_eq_cycle (keys : List κ) (hlink : ∀ a b, Linked link a b → key b ∈ keys) {a : α}
    (ha : key a ∈ keys) (hsteps : keys.length < steps)
    (hcycle : Relation.TransGen (Linked link) a a) : follow key link steps [] a = .cycle := by
  have hcont : ∀ b, Relation.ReflTransGen (Linked link) a b → ∃ c, link b = .next c :=
    fun _ hab => exists_next_of_cycle hcycle hab
  cases h : follow key link steps [] a with
  | root last =>
    obtain ⟨hreach, hroot⟩ := follow_eq_root h
    obtain ⟨c, hc⟩ := hcont last hreach
    rw [hroot] at hc
    cases hc
  | missing =>
    obtain ⟨last, hreach, hlast⟩ := follow_eq_missing h
    obtain ⟨c, hc⟩ := hcont last hreach
    rw [hlast] at hc
    cases hc
  | cycle => rfl
  | spent =>
    exact absurd h (follow_ne_spent keys hlink ha List.nodup_nil (List.nil_subset _)
      (by simpa using hsteps))

end Follow

end StockProfiler
