import Mathlib.Data.List.Basic
import Mathlib.Data.List.Nodup
import StockProfiler.Core.History

/-!
# Records that supersede one another

A history of records in which each one names the record it supersedes has one
head, the last. A part of such a history has one head for each block of adjacent
records in it, so it has a single head exactly when it is contiguous.
-/

namespace StockProfiler

variable {α κ : Type*}

section Heads

variable [DecidableEq κ] (key : α → κ) (previous : α → Option κ)

/-- The records that no record of a list supersedes. -/
def heads (items : List α) : List α := items.filter fun a => some (key a) ∉ items.map previous

/-- Whether every record of a list supersedes the one before it. -/
structure Succession (items : List α) : Prop where
  distinct : (items.map key).Nodup
  linked : ∀ earlier a later, items = earlier ++ a :: later →
    previous a = earlier.getLast?.map key

end Heads

/-- The last records of the blocks of a list that satisfy a test. -/
def blockEnds (p : α → Bool) : List α → List α
  | [] => []
  | a :: rest =>
    if p a ∧ ∀ b ∈ rest.head?, ¬p b then a :: blockEnds p rest else blockEnds p rest

/-- Whether nothing between two records that satisfy a test fails it. -/
def Contiguous (p : α → Bool) (items : List α) : Prop :=
  ∀ earlier a between b later, items = earlier ++ a :: (between ++ b :: later) →
    p a → p b → ∀ x ∈ between, p x

section Blocks

variable {p : α → Bool} {items : List α}

theorem blockEnds_eq_nil_iff : blockEnds p items = [] ↔ ∀ a ∈ items, ¬p a := by
  induction items with
  | nil => exact ⟨nofun, fun _ => rfl⟩
  | cons a rest ih =>
    rw [blockEnds, List.forall_mem_cons]
    split
    · rename_i hend
      exact ⟨nofun, fun h => absurd hend.1 h.1⟩
    · rename_i hend
      rw [ih]
      refine ⟨fun hrest => ⟨fun ha => hend ⟨ha, fun b hb => ?_⟩, hrest⟩, fun h => h.2⟩
      exact hrest b (List.mem_of_mem_head? hb)

theorem contiguous_cons_of_neg {a : α} (ha : ¬p a) :
    Contiguous p (a :: items) ↔ Contiguous p items := by
  constructor
  · intro h earlier b between c later hitems
    exact h (a :: earlier) b between c later (by rw [hitems, List.cons_append])
  · intro h earlier b between c later hitems hb
    cases earlier with
    | nil =>
      obtain ⟨rfl, -⟩ := List.cons.inj hitems
      exact absurd hb ha
    | cons first earlier => exact h earlier b between c later (List.cons.inj hitems).2 hb

theorem contiguous_cons_of_pos {a b : α} (hb : p b) :
    Contiguous p (a :: b :: items) ↔ Contiguous p (b :: items) := by
  constructor
  · intro h earlier c between d later hitems
    exact h (a :: earlier) c between d later (by rw [hitems, List.cons_append])
  · intro h earlier c between d later hitems hc hd x hx
    cases earlier with
    | nil =>
      obtain ⟨-, hrest⟩ := List.cons.inj hitems
      cases between with
      | nil => exact nomatch hx
      | cons first between =>
        obtain ⟨rfl, -⟩ := List.cons.inj hrest
        rcases List.mem_cons.mp hx with rfl | hx
        · exact hb
        · exact h [] b between d later hrest hb hd x hx
    | cons first earlier =>
      exact h earlier c between d later (List.cons.inj hitems).2 hc hd x hx

/-- After the end of a block nothing may satisfy the test again. -/
theorem contiguous_cons_of_end {a b : α} (ha : p a) (hb : ¬p b) :
    Contiguous p (a :: b :: items) ↔ ∀ c ∈ b :: items, ¬p c := by
  constructor
  · intro h c hc hpc
    rcases List.mem_cons.mp hc with rfl | hc
    · exact hb hpc
    · obtain ⟨between, later, rfl⟩ := List.append_of_mem hc
      exact hb (h [] a (b :: between) c later rfl ha hpc b List.mem_cons_self)
  · intro h earlier c between d later hitems hc hd
    cases earlier with
    | nil =>
      obtain ⟨-, hrest⟩ := List.cons.inj hitems
      refine absurd hd (h d ?_)
      rw [hrest]
      exact List.mem_append_right _ List.mem_cons_self
    | cons first earlier =>
      obtain ⟨-, hrest⟩ := List.cons.inj hitems
      refine absurd hd (h d ?_)
      rw [hrest]
      exact List.mem_append_right _ (List.mem_cons_of_mem _
        (List.mem_append_right _ List.mem_cons_self))

/-- The last record that satisfies the test ends the only block exactly when there is at most
one block. -/
theorem blockEnds_eq_iff :
    blockEnds p items = (items.filter p).getLast?.toList ↔ Contiguous p items := by
  induction items with
  | nil =>
    refine ⟨fun _ earlier a between b later hitems => ?_, fun _ => rfl⟩
    simp at hitems
  | cons a rest ih =>
    by_cases ha : p a
    · cases rest with
      | nil =>
        have hleft : blockEnds p [a] = ([a].filter p).getLast?.toList := by
          simp [blockEnds, ha]
        refine ⟨fun _ earlier c between d later hitems => ?_, fun _ => hleft⟩
        have hlength := congrArg List.length hitems
        simp only [List.length_append, List.length_cons, List.length_nil] at hlength
        omega
      | cons b rest =>
        by_cases hb : p b
        · have hlast : ((a :: b :: rest).filter p).getLast? = ((b :: rest).filter p).getLast? := by
            rw [List.filter_cons_of_pos ha, List.filter_cons_of_pos hb, List.getLast?_cons_cons]
          have hends : blockEnds p (a :: b :: rest) = blockEnds p (b :: rest) := by
            rw [blockEnds, if_neg]
            exact fun h => h.2 b rfl hb
          rw [hlast, hends, ih, contiguous_cons_of_pos hb]
        · have hends : blockEnds p (a :: b :: rest) = a :: blockEnds p (b :: rest) := by
            rw [blockEnds, if_pos]
            refine ⟨ha, fun c hc => ?_⟩
            cases hc
            exact hb
          rw [hends, contiguous_cons_of_end ha hb, ← blockEnds_eq_nil_iff]
          constructor
          · intro h
            have hlength := congrArg List.length h
            have hle : (((a :: b :: rest).filter p).getLast?).toList.length ≤ 1 := by
              cases ((a :: b :: rest).filter p).getLast? <;> simp
            rw [List.length_cons] at hlength
            exact List.length_eq_zero_iff.mp (by omega)
          · intro h
            have hnone : (b :: rest).filter p = [] :=
              List.filter_eq_nil_iff.mpr (blockEnds_eq_nil_iff.mp h)
            rw [h, List.filter_cons_of_pos ha, hnone]
            rfl
    · have hends : blockEnds p (a :: rest) = blockEnds p rest := by
        rw [blockEnds, if_neg]
        exact fun h => ha h.1
      rw [List.filter_cons_of_neg ha, hends, ih, contiguous_cons_of_neg ha]

theorem mem_blockEnds {a : α} (h : a ∈ blockEnds p items) :
    ∃ earlier rest, items = earlier ++ a :: rest ∧ p a ∧ ∀ b ∈ rest.head?, ¬p b := by
  induction items with
  | nil => exact nomatch h
  | cons first rest ih =>
    rw [blockEnds] at h
    split at h
    · rename_i hend
      rcases List.mem_cons.mp h with rfl | h
      · exact ⟨[], rest, rfl, hend.1, hend.2⟩
      · obtain ⟨earlier, later, rfl, hrest⟩ := ih h
        exact ⟨first :: earlier, later, rfl, hrest⟩
    · obtain ⟨earlier, later, rfl, hrest⟩ := ih h
      exact ⟨first :: earlier, later, rfl, hrest⟩

/-- The last item of a kind ends a block of it. -/
theorem getLast?_mem_blockEnds {a : α} (h : (items.filter p).getLast? = some a) :
    a ∈ blockEnds p items := by
  induction items with
  | nil => exact nomatch h
  | cons first rest ih =>
    by_cases hsome : ∃ b ∈ rest, p b
    · have hne : rest.filter p ≠ [] := by
        obtain ⟨b, hb, hpb⟩ := hsome
        exact List.ne_nil_of_mem (List.mem_filter.mpr ⟨hb, hpb⟩)
      have hrest : (rest.filter p).getLast? = some a := by
        rw [List.filter_cons] at h
        split at h
        · rwa [List.getLast?_cons_of_ne_nil hne] at h
        · exact h
      rw [blockEnds]
      split
      · exact List.mem_cons_of_mem _ (ih hrest)
      · exact ih hrest
    · have hnone : rest.filter p = [] :=
        List.filter_eq_nil_iff.mpr fun b hb hpb => hsome ⟨b, hb, hpb⟩
      rw [List.filter_cons, hnone] at h
      split at h
      · rename_i hfirst
        cases h
        rw [blockEnds, if_pos ⟨hfirst, fun b hb hpb => hsome ⟨b, List.mem_of_mem_head? hb, hpb⟩⟩]
        exact List.mem_cons_self
      · exact nomatch h

/-- Items are contiguous when at most one of them ends a block. -/
theorem length_blockEnds_le_one_iff : (blockEnds p items).length ≤ 1 ↔ Contiguous p items := by
  rw [← blockEnds_eq_iff]
  constructor
  · intro h
    cases hlast : (items.filter p).getLast? with
    | none =>
      rw [List.getLast?_eq_none_iff, List.filter_eq_nil_iff] at hlast
      exact blockEnds_eq_nil_iff.mpr hlast
    | some a =>
      have hmem := getLast?_mem_blockEnds hlast
      match hends : blockEnds p items with
      | [b] =>
        rw [hends, List.mem_singleton] at hmem
        rw [hmem]
        rfl
      | [] =>
        rw [hends] at hmem
        exact nomatch hmem
      | b :: c :: rest =>
        rw [hends] at h
        simp only [List.length_cons] at h
        omega
  · intro h
    rw [h]
    cases (items.filter p).getLast? with
    | none => exact Nat.zero_le 1
    | some a => exact Nat.le_refl 1

instance [DecidableEq α] : Decidable (Contiguous p items) :=
  decidable_of_iff (blockEnds p items = (items.filter p).getLast?.toList) blockEnds_eq_iff

end Blocks

section Succession

variable {key : α → κ} {previous : α → Option κ} {items : List α}

theorem succession_nil : Succession key previous [] where
  distinct := List.nodup_nil
  linked earlier a later hitems := by simp at hitems

/-- A new record that supersedes the last one continues a succession. -/
theorem Succession.snoc (h : Succession key previous items) {a : α} (hnew : key a ∉ items.map key)
    (hprevious : previous a = items.getLast?.map key) : Succession key previous (items ++ [a]) where
  distinct := by
    rw [List.map_append, List.map_singleton]
    exact h.distinct.append (List.nodup_singleton _) (List.disjoint_singleton.mpr hnew)
  linked earlier b later hitems := by
    rcases split_snoc hitems with ⟨-, rfl, rfl⟩ | ⟨front, -, hitems⟩
    · exact hprevious
    · exact h.linked earlier b front hitems

/-- An item is superseded by its successor in the list and by no other. -/
theorem Succession.superseded_iff (h : Succession key previous items) {earlier rest : List α}
    {a : α} (hitems : items = earlier ++ a :: rest) (b : α) (hb : b ∈ items) :
    previous b = some (key a) ↔ b ∈ rest.head? := by
  constructor
  · intro hprevious
    obtain ⟨before, after, hsplit⟩ := List.append_of_mem hb
    have hlink := h.linked before b after hsplit
    rw [hprevious] at hlink
    obtain ⟨c, hc, hkey⟩ := Option.map_eq_some_iff.mp hlink.symm
    obtain ⟨front, rfl⟩ := List.getLast?_eq_some_iff.mp hc
    have hdistinct := h.distinct
    rw [hsplit, List.append_assoc, List.singleton_append, List.map_append,
      List.map_cons] at hdistinct
    obtain ⟨-, -, hdisjoint⟩ := List.nodup_append.mp hdistinct
    have hkeys : earlier.map key ++ key a :: rest.map key =
        front.map key ++ key c :: (b :: after).map key := by
      have hboth := hitems.symm.trans hsplit
      rw [List.append_assoc, List.singleton_append] at hboth
      simpa using congrArg (List.map key) hboth
    have hitemsDistinct := h.distinct
    rw [hitems, List.map_append, List.map_cons] at hitemsDistinct
    obtain ⟨-, hrest, hfirst⟩ := List.nodup_append.mp hitemsDistinct
    have hnot : key c ∉ earlier.map key := by
      rw [hkey]
      exact fun hmem => hfirst _ hmem _ List.mem_cons_self rfl
    have hnot' : key c ∉ rest.map key := by
      rw [hkey]
      exact (List.nodup_cons.mp hrest).1
    obtain ⟨hfront, -, hafter⟩ := (List.append_cons_inj_of_notMem hnot hnot').mp hkeys
    have hlength : earlier.length = front.length := by
      simpa using congrArg List.length hfront
    have hboth := hitems.symm.trans hsplit
    rw [List.append_assoc, List.singleton_append] at hboth
    obtain ⟨-, hcons⟩ := List.append_inj hboth hlength
    rw [(List.cons.inj hcons).2]
    rfl
  · intro hhead
    obtain ⟨later, rfl⟩ := List.head?_eq_some_iff.mp (Option.mem_def.mp hhead)
    rw [h.linked (earlier ++ [a]) b later (by rw [hitems]; simp), List.getLast?_concat]
    rfl

variable [DecidableEq κ]

/-- The heads of a part of a succession end its blocks. -/
theorem Succession.heads_filter (h : Succession key previous items) (p : α → Bool) :
    heads key previous (items.filter p) = blockEnds p items := by
  let kept : α → Bool := fun a => some (key a) ∉ (items.filter p).map previous
  have hpart : ∀ earlier rest, items = earlier ++ rest →
      (rest.filter p).filter kept = blockEnds p rest := by
    intro earlier rest hitems
    induction rest generalizing earlier with
    | nil => rfl
    | cons a rest ih =>
      have hrest := ih (earlier ++ [a]) (by rw [hitems]; simp)
      have hsuperseded : some (key a) ∈ (items.filter p).map previous ↔ ∃ b ∈ rest.head?, p b := by
        rw [List.mem_map]
        constructor
        · rintro ⟨b, hb, hprevious⟩
          obtain ⟨hmem, hpb⟩ := List.mem_filter.mp hb
          exact ⟨b, (h.superseded_iff hitems b hmem).mp hprevious, hpb⟩
        · rintro ⟨b, hb, hpb⟩
          have hmem : b ∈ items := by
            rw [hitems]
            exact List.mem_append_right _ (List.mem_cons_of_mem _ (List.mem_of_mem_head? hb))
          exact ⟨b, List.mem_filter.mpr ⟨hmem, hpb⟩, (h.superseded_iff hitems b hmem).mpr hb⟩
      rw [blockEnds]
      by_cases hpa : p a
      · rw [List.filter_cons_of_pos hpa]
        by_cases hend : ∃ b ∈ rest.head?, p b
        · have hnot : ¬kept a = true := by
            rw [decide_eq_true_iff, not_not]
            exact hsuperseded.mpr hend
          rw [List.filter_cons_of_neg hnot, hrest, if_neg]
          rintro ⟨-, hnone⟩
          obtain ⟨b, hb, hpb⟩ := hend
          exact hnone b hb hpb
        · have hkept : kept a = true :=
            decide_eq_true fun hmem => hend (hsuperseded.mp hmem)
          rw [List.filter_cons_of_pos hkept, hrest, if_pos]
          exact ⟨hpa, fun b hb hpb => hend ⟨b, hb, hpb⟩⟩
      · rw [List.filter_cons_of_neg hpa, hrest, if_neg]
        exact fun hboth => hpa hboth.1
  exact hpart [] items rfl

theorem Succession.heads_filter_eq_iff (h : Succession key previous items) (p : α → Bool) :
    heads key previous (items.filter p) = (items.filter p).getLast?.toList ↔
      Contiguous p items := by
  rw [h.heads_filter, blockEnds_eq_iff]

theorem Succession.heads_eq (h : Succession key previous items) :
    heads key previous items = items.getLast?.toList := by
  have hall : items.filter (fun _ => true) = items := List.filter_eq_self.mpr fun _ _ => rfl
  have hheads := (h.heads_filter_eq_iff (fun _ => true)).mpr fun _ _ _ _ _ _ _ _ _ _ => rfl
  rwa [hall] at hheads

end Succession

end StockProfiler
