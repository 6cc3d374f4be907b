import StockProfiler.Core.Dict

/-!
# Snapshots that are accumulated by key

Each of a series of snapshots belongs to a source and lists entries by key. Filing the entries of
all of them, with later ones replacing earlier ones, yields what the last snapshot of every source
lists, exactly when no snapshot drops a key that an earlier one of its source had.
-/

namespace StockProfiler

section Snapshots

variable {α β κ σ : Type*} [DecidableEq α] [DecidableEq κ] [DecidableEq σ] (source : α → σ)
  (entries : α → List β) (key : β → κ)

/-- The last snapshot of a source. -/
def lastOf (snapshots : List α) (s : σ) : Option α := (snapshots.filter (source · = s)).getLast?

/-- The snapshots that are the last of their sources. -/
def lastSnapshots (snapshots : List α) : List α :=
  snapshots.filter fun a => lastOf source snapshots (source a) = some a

/-- The entries of all snapshots by key; later ones replace earlier ones. -/
def accumulated (snapshots : List α) : Dict κ β :=
  Dict.ofLast ((snapshots.flatMap entries).map fun b => (key b, b))

/-- Snapshots are distinct, list a key once, and share keys with their own source only. -/
structure KeyedBySource (snapshots : List α) : Prop where
  nodup : snapshots.Nodup
  keys : ∀ a ∈ snapshots, ((entries a).map key).Nodup
  own : ∀ a ∈ snapshots, ∀ a' ∈ snapshots, ∀ b ∈ entries a, ∀ b' ∈ entries a', key b = key b' →
    source a = source a'

/-- The last snapshot of every source still lists all keys of the source. -/
def DropsNone (snapshots : List α) : Prop :=
  ∀ a ∈ snapshots, ∀ b ∈ entries a,
    ∃ last ∈ lastOf source snapshots (source a), key b ∈ (entries last).map key

variable {source entries key} {snapshots : List α} {a : α} {b : β}

omit [DecidableEq α] in
theorem mem_of_lastOf {s : σ} (h : lastOf source snapshots s = some a) :
    a ∈ snapshots ∧ source a = s := by
  obtain ⟨ha, hs⟩ := List.mem_filter.mp (List.mem_of_getLast? h)
  exact ⟨ha, of_decide_eq_true hs⟩

theorem mem_lastSnapshots : a ∈ lastSnapshots source snapshots ↔
    lastOf source snapshots (source a) = some a := by
  rw [lastSnapshots, List.mem_filter, decide_eq_true_eq]
  exact and_iff_right_of_imp fun h => (mem_of_lastOf h).1

omit [DecidableEq α] in
/-- The last snapshot of a source comes no earlier than any of its snapshots. -/
theorem lastOf_of_split {earlier later : List α} {last : α}
    (h : lastOf source (earlier ++ a :: later) (source a) = some last) :
    last = a ∨ last ∈ later := by
  unfold lastOf at h
  rw [List.filter_append, List.filter_cons, if_pos (decide_eq_true rfl),
    List.getLast?_append_of_ne_nil _ (List.cons_ne_nil _ _)] at h
  exact (List.mem_cons.mp (List.mem_of_getLast? h)).imp_right List.mem_of_mem_filter

omit [DecidableEq α] [DecidableEq σ]

theorem get?_accumulated_append_singleton (k : κ) :
    (accumulated entries key (snapshots ++ [a])).get? k =
      ((Dict.ofLast ((entries a).map fun b => (key b, b))).get? k).or
        ((accumulated entries key snapshots).get? k) := by
  unfold accumulated
  rw [List.flatMap_append, List.flatMap_singleton, List.map_append, Dict.get?_ofLast,
    List.reverse_append, Dict.get?_append, ← Dict.get?_ofLast, ← Dict.get?_ofLast]

/-- What is accumulated under a key was listed by a snapshot, and no later one lists the key. -/
theorem split_of_accumulated {k : κ} (h : (accumulated entries key snapshots).get? k = some b) :
    ∃ earlier a later, snapshots = earlier ++ a :: later ∧ b ∈ entries a ∧ key b = k ∧
      ∀ other ∈ later, k ∉ (entries other).map key := by
  induction snapshots using List.reverseRecOn with
  | nil => exact nomatch h
  | append_singleton snapshots a ih =>
    rw [get?_accumulated_append_singleton] at h
    rcases Option.or_eq_some_iff.mp h with hlast | ⟨hnone, hbefore⟩
    · obtain ⟨found, hfound, heq⟩ := List.mem_map.mp (Dict.mem_ofLast (Dict.mem_of_get? hlast))
      obtain ⟨rfl, rfl⟩ := Prod.mk.inj heq
      exact ⟨snapshots, a, [], rfl, hfound, rfl, nofun⟩
    · obtain ⟨earlier, found, later, rfl, hb, hk, hlater⟩ := ih hbefore
      refine ⟨earlier, found, later ++ [a], List.append_assoc .., hb, hk, fun other hother => ?_⟩
      rcases List.mem_append.mp hother with hother | hother
      · exact hlater other hother
      · intro hlisted
        obtain ⟨listed, hmem, rfl⟩ := List.mem_map.mp (List.mem_singleton.mp hother ▸ hlisted)
        have hfiled : (key listed, listed) ∈ ((entries a).map fun b => (key b, b)).reverse :=
          List.mem_reverse.mpr (List.mem_map_of_mem hmem)
        have hsome := Dict.isSome_get?_of_mem hfiled
        rw [← Dict.get?_ofLast, hnone] at hsome
        exact nomatch hsome

variable (key) in
theorem exists_accumulated (ha : a ∈ snapshots) (hb : b ∈ entries a) :
    ∃ kept, (accumulated entries key snapshots).get? (key b) = some kept := by
  rw [accumulated, Dict.get?_ofLast, ← Option.isSome_iff_exists]
  exact Dict.isSome_get?_of_mem (List.mem_reverse.mpr (List.mem_map_of_mem
    (List.mem_flatMap.mpr ⟨a, ha, hb⟩)))

theorem key_of_mem_accumulated {k : κ} (h : (k, b) ∈ accumulated entries key snapshots) :
    key b = k := by
  obtain ⟨_, -, heq⟩ := List.mem_map.mp (Dict.mem_ofLast h)
  obtain ⟨rfl, rfl⟩ := Prod.mk.inj heq
  rfl

theorem mem_accumulated : b ∈ (accumulated entries key snapshots).map Prod.snd ↔
    (accumulated entries key snapshots).get? (key b) = some b := by
  constructor
  · intro h
    obtain ⟨⟨k, _⟩, hmem, rfl⟩ := List.mem_map.mp h
    obtain rfl := key_of_mem_accumulated hmem
    exact Dict.get?_of_mem (Dict.keys_ofLast_nodup _) hmem
  · exact fun h => List.mem_map.mpr ⟨_, Dict.mem_of_get? h, rfl⟩

theorem keys_accumulated_nodup :
    (((accumulated entries key snapshots).map Prod.snd).map key).Nodup := by
  have hkeys : ((accumulated entries key snapshots).map Prod.snd).map key =
      (accumulated entries key snapshots).keys := by
    rw [List.map_map, Dict.keys]
    refine List.map_congr_left ?_
    rintro ⟨k, b⟩ hmem
    change key b = k
    exact key_of_mem_accumulated hmem
  rw [hkeys]
  exact Dict.keys_ofLast_nodup _

variable [DecidableEq α] [DecidableEq σ]

omit [DecidableEq κ] in
theorem KeyedBySource.keys_last (h : KeyedBySource source entries key snapshots) :
    (((lastSnapshots source snapshots).flatMap entries).map key).Nodup := by
  rw [List.map_flatMap, List.nodup_flatMap]
  constructor
  · exact fun a ha => h.keys a (mem_of_lastOf (mem_lastSnapshots.mp ha)).1
  · refine (h.nodup.filter _).pairwise_of_forall_ne fun a ha a' ha' hne => ?_
    have hlast := mem_lastSnapshots.mp ha
    have hlast' := mem_lastSnapshots.mp ha'
    refine List.disjoint_left.mpr fun k hk hk' => hne ?_
    obtain ⟨b, hb, rfl⟩ := List.mem_map.mp hk
    obtain ⟨b', hb', hsame⟩ := List.mem_map.mp hk'
    have hsource := h.own a (mem_of_lastOf hlast).1 a' (mem_of_lastOf hlast').1 b hb b' hb'
      hsame.symm
    rw [hsource, hlast'] at hlast
    exact (Option.some.inj hlast).symm

/-- Without drops the accumulated entries are those of the last snapshots. -/
theorem KeyedBySource.accumulated_perm (h : KeyedBySource source entries key snapshots)
    (hdrops : DropsNone source entries key snapshots) :
    ((accumulated entries key snapshots).map Prod.snd).Perm
      ((lastSnapshots source snapshots).flatMap entries) := by
  have hkept : ∀ {b}, (accumulated entries key snapshots).get? (key b) = some b →
      ∃ a ∈ lastSnapshots source snapshots, b ∈ entries a := by
    intro b hb
    obtain ⟨earlier, a, later, rfl, hmem, -, hlater⟩ := split_of_accumulated hb
    obtain ⟨last, hlast, hlisted⟩ :=
      hdrops a (List.mem_append_right _ (List.mem_cons_self ..)) b hmem
    rcases lastOf_of_split hlast with rfl | hin
    · exact ⟨last, mem_lastSnapshots.mpr hlast, hmem⟩
    · exact absurd hlisted (hlater last hin)
  refine (List.perm_ext_iff_of_nodup (.of_map _ keys_accumulated_nodup)
    (.of_map _ h.keys_last)).mpr fun b => ?_
  rw [mem_accumulated, List.mem_flatMap]
  refine ⟨hkept, ?_⟩
  rintro ⟨a, ha, hb⟩
  have hmem := (mem_of_lastOf (mem_lastSnapshots.mp ha)).1
  obtain ⟨kept, hfiled⟩ := exists_accumulated key hmem hb
  obtain ⟨-, found, -, -, -, hkey, -⟩ := split_of_accumulated hfiled
  obtain ⟨last, hlast, hlisted⟩ := hkept (hkey ▸ hfiled)
  have hsame := List.inj_on_of_nodup_map h.keys_last (List.mem_flatMap.mpr ⟨last, hlast, hlisted⟩)
    (List.mem_flatMap.mpr ⟨a, ha, hb⟩) hkey
  exact hsame ▸ hfiled

/-- When every accumulated key is listed by a last snapshot, no key was dropped. -/
theorem KeyedBySource.dropsNone (h : KeyedBySource source entries key snapshots)
    (hlisted : ∀ b ∈ (accumulated entries key snapshots).map Prod.snd,
      key b ∈ ((lastSnapshots source snapshots).flatMap entries).map key) :
    DropsNone source entries key snapshots := by
  intro a ha b hb
  obtain ⟨kept, hfiled⟩ := exists_accumulated key ha hb
  obtain ⟨-, found, -, -, -, hkey, -⟩ := split_of_accumulated hfiled
  obtain ⟨other, hother, hsame⟩ := List.mem_map.mp
    (hlisted kept (mem_accumulated.mpr (hkey ▸ hfiled)))
  obtain ⟨last, hlast, hmem⟩ := List.mem_flatMap.mp hother
  have hlast := mem_lastSnapshots.mp hlast
  have hkeys : key b = key other := (hsame.trans hkey).symm
  have hsource := h.own a ha last (mem_of_lastOf hlast).1 b hb other hmem hkeys
  exact ⟨last, hsource ▸ hlast, hkeys ▸ List.mem_map_of_mem hmem⟩

end Snapshots

end StockProfiler
