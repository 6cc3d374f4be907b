import Mathlib.Logic.Function.Basic
import Mathlib.Logic.Relation
import StockProfiler.Core.Checks
import StockProfiler.Core.Dict

/-!
# Corrections

A store keeps one version of a fact in each slot, and a table of every version it accepted.
A version takes the place of another one only where it names it as the version that it
corrects, so versions that were corrected never return.
-/

namespace StockProfiler

universe u

/-- What identifies a version, which version it corrects and when it was available. -/
structure Versioned (ε κ τ : Type*) where
  id : ε → κ
  corrects : ε → Option κ
  availableAt : ε → τ

variable {σ ε κ τ : Type*}

/-- A version that corrects another one and is not available earlier. -/
structure Versioned.Replaces [LE τ] (v : Versioned ε κ τ) (old new : ε) : Prop where
  corrects : v.corrects new = some (v.id old)
  other : v.id new ≠ v.id old
  later : v.availableAt old ≤ v.availableAt new

/-- The version in each slot, and every accepted version by its identity. -/
structure VersionStore (σ ε κ : Type*) where
  slots : σ → Option ε
  byId : Dict κ ε

section Store

variable [DecidableEq σ] [DecidableEq κ] [LE τ] (v : Versioned ε κ τ)

/-- A store accepts a version into a slot. -/
structure Writes (slot : σ) (new : ε) (s s' : VersionStore σ ε κ) : Prop where
  same : ∀ found ∈ s.byId.get? (v.id new), found = new
  kept : ∀ old ∈ s.slots slot, new = old ∨ v.Replaces old new
  first : s.slots slot = none → s.byId.get? (v.id new) = some new ∨ v.corrects new = none
  byId_eq : s'.byId = s.byId.set (v.id new) new
  slots_eq : s'.slots = Function.update s.slots slot (some new)

/-- A store accepts some version. -/
def VersionStep (s s' : VersionStore σ ε κ) : Prop := ∃ slot new, Writes v slot new s s'

/-- Every version in a slot is in the table, and corrects one that was there before it. -/
structure VersionStore.Sound (s : VersionStore σ ε κ) : Prop where
  retained : ∀ slot e, s.slots slot = some e → s.byId.get? (v.id e) = some e
  founded : ∀ e, s.byId.get? (v.id e) = some e → ∀ c, v.corrects e = some c →
    s.byId.keys.idxOf c < s.byId.keys.idxOf (v.id e)

/-- The store that has accepted nothing. -/
def VersionStore.empty : VersionStore σ ε κ := ⟨fun _ => none, []⟩

omit [DecidableEq σ] [LE τ] in
theorem VersionStore.sound_empty : (VersionStore.empty : VersionStore σ ε κ).Sound v :=
  ⟨fun _ _ h => (nomatch h), fun _ h => (nomatch h)⟩

variable {v} {s s' s'' : VersionStore σ ε κ} {slot : σ} {new old e : ε}

theorem Writes.get?_of_get? (h : Writes v slot new s s')
    (hold : s.byId.get? (v.id e) = some e) : s'.byId.get? (v.id e) = some e := by
  rw [h.byId_eq, Dict.get?_set]
  split
  · rename_i heq
    rw [← heq] at hold
    exact congrArg some (h.same e hold).symm
  · exact hold

theorem Writes.get?_new (h : Writes v slot new s s') : s'.byId.get? (v.id new) = some new := by
  rw [h.byId_eq, Dict.get?_set, if_pos rfl]

theorem Writes.idxOf_eq (h : Writes v slot new s s') {key : κ} (hkey : key ∈ s.byId.keys) :
    s'.byId.keys.idxOf key = s.byId.keys.idxOf key := by
  rw [h.byId_eq, Dict.keys_set]
  split
  · rfl
  · exact List.idxOf_append_of_mem hkey

theorem Writes.get?_of_mem (h : Writes v slot new s s') (hmem : v.id new ∈ s.byId.keys) :
    s.byId.get? (v.id new) = some new := by
  obtain ⟨found, hfound⟩ := Option.isSome_iff_exists.mp (Dict.mem_keys_iff.mp hmem)
  rw [hfound, h.same found hfound]

theorem mem_keys_of_get? {d : Dict κ ε} {key : κ} (h : d.get? key = some e) : key ∈ d.keys := by
  rw [Dict.mem_keys_iff, h]
  rfl

theorem Writes.corrects_mem (h : Writes v slot new s s') (hs : s.Sound v)
    (hnew : v.id new ∉ s.byId.keys) {c : κ} (hc : v.corrects new = some c) : c ∈ s.byId.keys := by
  cases hslot : s.slots slot with
  | none =>
    rcases h.first hslot with hfound | hnone
    · exact absurd (mem_keys_of_get? hfound) hnew
    · exact absurd (hnone.symm.trans hc) nofun
  | some old =>
    have hold := hs.retained slot old hslot
    rcases h.kept old hslot with rfl | hreplaces
    · exact absurd (mem_keys_of_get? hold) hnew
    · rw [← Option.some.inj (hreplaces.corrects.symm.trans hc)]
      exact mem_keys_of_get? hold

/-- A write keeps the store of versions sound. -/
theorem Writes.sound (h : Writes v slot new s s') (hs : s.Sound v) : s'.Sound v := by
  constructor
  · intro slot' e he
    rw [h.slots_eq] at he
    by_cases heq : slot' = slot
    · rw [heq, Function.update_self] at he
      exact Option.some.inj he ▸ h.get?_new
    · rw [Function.update_of_ne heq] at he
      exact h.get?_of_get? (hs.retained slot' e he)
  · intro e he c hc
    by_cases hknown : v.id e ∈ s.byId.keys
    · have hold : s.byId.get? (v.id e) = some e := by
        obtain ⟨found, hfound⟩ := Option.isSome_iff_exists.mp (Dict.mem_keys_iff.mp hknown)
        rw [h.byId_eq, Dict.get?_set] at he
        split at he
        · rename_i heq
          cases he
          exact h.get?_of_mem hknown
        · exact he
      have hlt := hs.founded e hold c hc
      have hmem : c ∈ s.byId.keys :=
        List.idxOf_lt_length_iff.mp (hlt.trans (List.idxOf_lt_length_iff.mpr hknown))
      rw [h.idxOf_eq hmem, h.idxOf_eq hknown]
      exact hlt
    · have heq : v.id new = v.id e := by
        by_contra hne
        rw [h.byId_eq, Dict.get?_set, if_neg hne] at he
        exact hknown (mem_keys_of_get? he)
      have hsame := h.get?_new
      rw [heq, he] at hsame
      cases hsame
      have hmem := h.corrects_mem hs hknown hc
      rw [h.idxOf_eq hmem, h.byId_eq, Dict.keys_set, if_neg hknown,
        List.idxOf_append_of_notMem hknown, List.idxOf_cons_self, Nat.add_zero]
      exact List.idxOf_lt_length_iff.mpr hmem

theorem Writes.slots_some (h : Writes v slot new s s') {slot' : σ}
    (he : s.slots slot' = some e) : ∃ e', s'.slots slot' = some e' ∧
      (e' = e ∨ v.Replaces e e') := by
  rw [h.slots_eq]
  by_cases heq : slot' = slot
  · subst heq
    exact ⟨new, Function.update_self .., h.kept e he⟩
  · exact ⟨e, (Function.update_of_ne heq ..).trans he, .inl rfl⟩

/-- A store after some steps. -/
abbrev VersionRun (v : Versioned ε κ τ) : VersionStore σ ε κ → VersionStore σ ε κ → Prop :=
  Relation.ReflTransGen (VersionStep v)

section

variable (h : VersionRun v s s')
include h

theorem VersionRun.sound (hs : s.Sound v) : s'.Sound v := by
  induction h with
  | refl => exact hs
  | tail _ hstep ih =>
    obtain ⟨slot, new, hwrites⟩ := hstep
    exact hwrites.sound ih

theorem VersionRun.get?_of_get?
    (he : s.byId.get? (v.id e) = some e) : s'.byId.get? (v.id e) = some e := by
  induction h with
  | refl => exact he
  | tail _ hstep ih =>
    obtain ⟨slot, new, hwrites⟩ := hstep
    exact hwrites.get?_of_get? ih

theorem VersionRun.idxOf_eq {key : κ} (hkey : key ∈ s.byId.keys) :
    key ∈ s'.byId.keys ∧ s'.byId.keys.idxOf key = s.byId.keys.idxOf key := by
  induction h with
  | refl => exact ⟨hkey, rfl⟩
  | tail _ hstep ih =>
    obtain ⟨slot, new, hwrites⟩ := hstep
    refine ⟨?_, (hwrites.idxOf_eq ih.1).trans ih.2⟩
    rw [hwrites.byId_eq, Dict.keys_set]
    split
    · exact ih.1
    · exact List.mem_append_left _ ih.1

/-- What is in a slot stays there until it is corrected, again and again. -/
theorem VersionRun.slots_some (he : s.slots slot = some e) :
    ∃ e', s'.slots slot = some e' ∧ Relation.ReflTransGen v.Replaces e e' := by
  induction h with
  | refl => exact ⟨e, he, .refl⟩
  | tail _ hstep ih =>
    obtain ⟨slot', new, hwrites⟩ := hstep
    obtain ⟨middle, hmiddle, hchain⟩ := ih
    obtain ⟨e', he', rfl | hreplaces⟩ := hwrites.slots_some hmiddle
    · exact ⟨e', he', hchain⟩
    · exact ⟨e', he', hchain.tail hreplaces⟩

theorem VersionRun.idxOf_lt (hs : s.Sound v) (he : s.slots slot = some old)
    (he' : s'.slots slot = some e) :
    e = old ∨ s'.byId.keys.idxOf (v.id old) < s'.byId.keys.idxOf (v.id e) := by
  induction h generalizing e with
  | refl => exact .inl (Option.some.inj (he'.symm.trans he))
  | @tail middle last hrun hstep ih =>
    obtain ⟨slot', new, hwrites⟩ := hstep
    obtain ⟨before, hbefore, -⟩ := VersionRun.slots_some hrun he
    obtain ⟨after, hafter, hcase⟩ := hwrites.slots_some hbefore
    obtain rfl := Option.some.inj (hafter.symm.trans he')
    have hsound := VersionRun.sound hrun hs
    have hlast := hwrites.sound hsound
    have hknown := mem_keys_of_get? (hsound.retained slot before hbefore)
    have hplace : before = old ∨
        last.byId.keys.idxOf (v.id old) < last.byId.keys.idxOf (v.id before) := by
      rcases ih hbefore with heq | hlt
      · exact .inl heq
      · have hold : v.id old ∈ middle.byId.keys :=
          List.idxOf_lt_length_iff.mp (hlt.trans (List.idxOf_lt_length_iff.mpr hknown))
        rw [hwrites.idxOf_eq hold, hwrites.idxOf_eq hknown]
        exact .inr hlt
    rcases hcase with rfl | hreplaces
    · exact hplace
    · have hnext := hlast.founded after (hlast.retained slot after hafter) _ hreplaces.corrects
      rcases hplace with rfl | hlt
      · exact .inr hnext
      · exact .inr (hlt.trans hnext)

theorem VersionRun.ne_of_corrected (h' : VersionRun v s' s'') (hs : s.Sound v) {last : ε}
    (hold : s.slots slot = some old) (he : s'.slots slot = some e) (hne : e ≠ old)
    (hlast : s''.slots slot = some last) : last ≠ old := by
  rintro rfl
  have hsound := VersionRun.sound h hs
  have hlt := (VersionRun.idxOf_lt h hs hold he).resolve_left hne
  rcases VersionRun.idxOf_lt h' hsound he hlast with rfl | hback
  · exact hne rfl
  · have hknown := mem_keys_of_get? (hsound.retained slot e he)
    have hold' : v.id last ∈ s'.byId.keys :=
      List.idxOf_lt_length_iff.mp (hlt.trans (List.idxOf_lt_length_iff.mpr hknown))
    rw [(VersionRun.idxOf_eq h' hold').2, (VersionRun.idxOf_eq h' hknown).2] at hback
    exact hlt.not_gt hback

/-- A version that was corrected is never accepted again. -/
theorem VersionRun.no_replay (hs : s.Sound v) (hold : s.slots slot = some old)
    (he : s'.slots slot = some e) (hne : e ≠ old) : ¬Writes v slot old s' s'' := by
  intro hwrites
  have hsound := VersionRun.sound h hs
  have hlt := (VersionRun.idxOf_lt h hs hold he).resolve_left hne
  rcases hwrites.kept e he with heq | hreplaces
  · exact hne heq.symm
  · have hknown := VersionRun.get?_of_get? h (hs.retained slot old hold)
    have hback := hsound.founded old hknown _ hreplaces.corrects
    exact hlt.not_gt hback

end

/-- A store accepts versions one after another. -/
inductive VersionTrace (v : Versioned ε κ τ) :
    List (σ × ε) → VersionStore σ ε κ → VersionStore σ ε κ → Prop
  | nil (s : VersionStore σ ε κ) : VersionTrace v [] s s
  | cons {slot : σ} {new : ε} {writes : List (σ × ε)} {s middle s' : VersionStore σ ε κ}
      (head : Writes v slot new s middle) (tail : VersionTrace v writes middle s') :
      VersionTrace v ((slot, new) :: writes) s s'

variable {writes writes' : List (σ × ε)}

theorem VersionTrace.append (h : VersionTrace v writes s s') (h' : VersionTrace v writes' s' s'') :
    VersionTrace v (writes ++ writes') s s'' := by
  induction h with
  | nil => exact h'
  | cons head _ ih => exact .cons head (ih h')

theorem VersionTrace.single (h : Writes v slot new s s') : VersionTrace v [(slot, new)] s s' :=
  .cons h (.nil s')

section

variable (h : VersionTrace v writes s s')
include h

theorem VersionTrace.run : VersionRun v s s' := by
  induction h with
  | nil => exact .refl
  | cons head _ ih => exact .head ⟨_, _, head⟩ ih

theorem VersionTrace.writes_of_mem (hmem : (slot, new) ∈ writes) : ∃ before after,
      VersionRun v s before ∧ Writes v slot new before after ∧ VersionRun v after s' := by
  induction h with
  | nil => exact nomatch hmem
  | cons head tail ih =>
    rcases List.mem_cons.mp hmem with heq | hmem
    · obtain ⟨rfl, rfl⟩ := Prod.mk.inj heq
      exact ⟨_, _, .refl, head, tail.run⟩
    · obtain ⟨before, after, hbefore, hwrites, hafter⟩ := ih hmem
      exact ⟨before, after, .head ⟨_, _, head⟩ hbefore, hwrites, hafter⟩

theorem VersionTrace.get?_of_mem (hmem : (slot, new) ∈ writes) :
    s'.byId.get? (v.id new) = some new := by
  obtain ⟨before, after, -, hwrites, hafter⟩ := h.writes_of_mem hmem
  exact VersionRun.get?_of_get? hafter hwrites.get?_new

/-- What a trace accepts is in its slot in the end, or was corrected there. -/
theorem VersionTrace.kept_of_mem (hmem : (slot, new) ∈ writes) :
    ∃ e', s'.slots slot = some e' ∧ Relation.ReflTransGen v.Replaces new e' := by
  obtain ⟨before, after, -, hwrites, hafter⟩ := h.writes_of_mem hmem
  refine VersionRun.slots_some hafter ?_
  rw [hwrites.slots_eq, Function.update_self]

/-- A trace leaves the slots alone that it does not name. -/
theorem VersionTrace.slots_of_notMem
    (hslot : slot ∉ writes.map Prod.fst) : s'.slots slot = s.slots slot := by
  induction h with
  | nil => rfl
  | cons head _ ih =>
    rw [List.map_cons, List.mem_cons, not_or] at hslot
    rw [ih hslot.2, head.slots_eq, Function.update_of_ne hslot.1]

/-- What a trace accepts into slots of their own is there in the end. -/
theorem VersionTrace.slots_of_mem (hwrites : (writes.map Prod.fst).Nodup)
    (hmem : (slot, new) ∈ writes) : s'.slots slot = some new := by
  induction h with
  | nil => exact nomatch hmem
  | cons head tail ih =>
    rw [List.map_cons, List.nodup_cons] at hwrites
    rcases List.mem_cons.mp hmem with heq | hmem
    · obtain ⟨rfl, rfl⟩ := Prod.mk.inj heq
      rw [tail.slots_of_notMem hwrites.1, head.slots_eq, Function.update_self]
    · exact ih hwrites.2 hmem

/-- A trace with slots of their own keeps what is in a slot or corrects it once. -/
theorem VersionTrace.slots_some (hwrites : (writes.map Prod.fst).Nodup)
    (he : s.slots slot = some e) :
    s'.slots slot = some e ∨
      ∃ e', (slot, e') ∈ writes ∧ s'.slots slot = some e' ∧ v.Replaces e e' := by
  induction h with
  | nil => exact .inl he
  | @cons slot' new writes s middle s' head tail ih =>
    rw [List.map_cons, List.nodup_cons] at hwrites
    by_cases heq : slot = slot'
    · subst heq
      have hlast : s'.slots slot = some new := by
        rw [tail.slots_of_notMem hwrites.1, head.slots_eq, Function.update_self]
      rcases head.kept e he with rfl | hreplaces
      · exact .inl hlast
      · exact .inr ⟨new, List.mem_cons_self, hlast, hreplaces⟩
    · have hmiddle : middle.slots slot = some e := by
        rw [head.slots_eq, Function.update_of_ne heq]
        exact he
      rcases ih hwrites.2 hmiddle with hkept | ⟨e', hmem, he', hreplaces⟩
      · exact .inl hkept
      · exact .inr ⟨e', List.mem_cons_of_mem _ hmem, he', hreplaces⟩

end

/-- A trace that names a version which was corrected before is not one. -/
theorem VersionTrace.no_replay (h : VersionTrace v writes s' s'') (hrun : VersionRun v s s')
    (hs : s.Sound v) (hold : s.slots slot = some old) (he : s'.slots slot = some e)
    (hne : e ≠ old) : (slot, old) ∉ writes := by
  intro hmem
  obtain ⟨before, after, hbefore, hwrites, -⟩ := h.writes_of_mem hmem
  obtain ⟨last, hlast, -⟩ := VersionRun.slots_some hbefore he
  have hcorrected := VersionRun.ne_of_corrected hrun hbefore hs hold he hne hlast
  exact VersionRun.no_replay (hrun.trans hbefore) hs hold hlast hcorrected hwrites

/-- Steps of a fold that accept versions make a trace. -/
theorem VersionTrace.of_foldlM {α β : Type u} {error : Type*} {f : α → β → Except error α}
    {store : α → VersionStore σ ε κ} {written : β → List (σ × ε)}
    (hstep : ∀ a b a', f a b = .ok a' → VersionTrace v (written b) (store a) (store a'))
    {items : List β} {a a' : α} (h : items.foldlM f a = .ok a') :
    VersionTrace v (items.flatMap written) (store a) (store a') := by
  induction items generalizing a with
  | nil =>
    cases h
    exact .nil _
  | cons b items ih =>
    rw [List.foldlM_cons] at h
    obtain ⟨middle, hmiddle, h⟩ := bind_eq_ok.mp h
    exact (hstep a b middle hmiddle).append (ih h)

end Store

end StockProfiler
