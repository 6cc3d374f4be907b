import Mathlib.Data.List.Induction
import Mathlib.Data.List.Sort
import Mathlib.Data.List.Nodup

/-!
# Insertion-ordered dictionaries

A dictionary is the list of its entries in insertion order. Lookup reads the
first entry of a key; assignment overwrites an entry in place or appends a new
one; `setDefault` only ever appends. A set is any list of its members, and
`sortedSet` is its one ordered enumeration.
-/

namespace StockProfiler

/-- The entries of a dictionary in insertion order. -/
abbrev Dict (κ α : Type*) := List (κ × α)

namespace Dict

variable {κ α : Type*} [DecidableEq κ]

/-- The value stored under a key. -/
def get? : Dict κ α → κ → Option α
  | [], _ => none
  | (k, v) :: d, key => if k = key then some v else get? d key

/-- Assignment: overwrite in place, or append a new entry. -/
def set : Dict κ α → κ → α → Dict κ α
  | [], key, value => [(key, value)]
  | (k, v) :: d, key, value => if k = key then (k, value) :: d else (k, v) :: set d key value

variable (entries : List (κ × α)) (d : Dict κ α) (key : κ)

/-- Keep an existing entry, or append a new one. -/
def setDefault (value : α) : Dict κ α :=
  if (d.get? key).isSome then d else d ++ [(key, value)]

/-- Successive `setDefault`: the first occurrence of a key decides its value. -/
def ofFirst : Dict κ α :=
  entries.foldl (fun d e => d.setDefault e.1 e.2) []

/-- Successive assignment: the last occurrence of a key decides its value. -/
def ofLast : Dict κ α :=
  entries.foldl (fun d e => d.set e.1 e.2) []

/-- Append an entry of a new key; an existing one is refused. -/
def insertNew (value : α) : Option (Dict κ α) :=
  if (d.get? key).isSome then none else some (d ++ [(key, value)])

/-- Change the value of a key in place, if there is one. -/
def modify (f : α → α) : Dict κ α :=
  d.map fun e => if e.1 = key then (e.1, f e.2) else e

/-- Delete the entries of a key. -/
def erase : Dict κ α := d.filter (·.1 ≠ key)

/-- The keys in insertion order. -/
def keys : List κ := d.map Prod.fst

/-- Apply a function to every stored value. -/
def mapValues {β : Type*} (f : α → β) (d : Dict κ α) : Dict κ β := d.map fun e => (e.1, f e.2)

/-- Apply a partial function to every stored value and drop the entries it rejects. -/
def filterMapValues {β : Type*} (f : α → Option β) (d : Dict κ α) : Dict κ β :=
  d.filterMap fun e => (f e.2).map (e.1, ·)

/-- Append one value to the list stored under a key. -/
def push (d : Dict κ (List α)) (key : κ) (value : α) : Dict κ (List α) :=
  d.set key ((d.get? key).getD [] ++ [value])

/-- Collect the values of equal keys, each list in order of arrival. -/
def group : Dict κ (List α) :=
  entries.foldl (fun d e => d.push e.1 e.2) []

/-- The values of one key among a list of entries. -/
def valuesOf : List α :=
  entries.filterMap fun e => if e.1 = key then some e.2 else none

@[simp] theorem get?_nil : get? ([] : Dict κ α) key = none := rfl

variable (k : κ)

theorem get?_cons (v : α) (d : Dict κ α) (key : κ) :
    get? ((k, v) :: d) key = if k = key then some v else get? d key := rfl

theorem mem_of_get? {d : Dict κ α} {key : κ} {value : α} (h : d.get? key = some value) :
    (key, value) ∈ d := by
  induction d with
  | nil => simp at h
  | cons e d ih =>
    obtain ⟨k, v⟩ := e
    rw [get?_cons] at h
    split at h
    · rename_i hk
      rw [hk, Option.some.inj h]
      exact List.mem_cons_self ..
    · exact List.mem_cons_of_mem _ (ih h)

theorem isSome_get?_of_mem {d : Dict κ α} {key : κ} {value : α} (h : (key, value) ∈ d) :
    (d.get? key).isSome := by
  induction d with
  | nil => simp at h
  | cons e d ih =>
    obtain ⟨k, v⟩ := e
    rw [get?_cons]
    split
    · rfl
    · rename_i hk
      rcases List.mem_cons.mp h with he | he
      · exact absurd (congrArg Prod.fst he).symm hk
      · exact ih he

theorem get?_append (e : Dict κ α) (key : κ) :
    get? (d ++ e) key = (get? d key).or (get? e key) := by
  induction d with
  | nil => rfl
  | cons x d ih =>
    obtain ⟨k, v⟩ := x
    rw [List.cons_append, get?_cons, get?_cons, ih]
    split <;> rfl

/-- Two different keys are looked up in either order. -/
theorem ite_ite_of_ne {k k' key : κ} (h : k' ≠ k) (a b c : α) :
    (if k' = key then a else if k = key then b else c) =
      if k = key then b else if k' = key then a else c := by
  by_cases hk : k' = key
  · rw [if_pos hk, if_neg fun hk' => h (hk.trans hk'.symm), if_pos hk]
  · rw [if_neg hk, if_neg hk]

theorem get?_set (v : α) (key : κ) :
    get? (set d k v) key = if k = key then some v else get? d key := by
  induction d with
  | nil => rfl
  | cons e d ih =>
    obtain ⟨k', v'⟩ := e
    rw [set]
    by_cases h : k' = k
    · subst h
      rw [if_pos rfl, get?_cons, get?_cons]
      split <;> rfl
    · rw [if_neg h, get?_cons, get?_cons, ih, ite_ite_of_ne h]

theorem set_of_get?_eq_none {d : Dict κ α} {k : κ} (h : d.get? k = none) (v : α) :
    d.set k v = d ++ [(k, v)] := by
  induction d with
  | nil => rfl
  | cons e d ih =>
    obtain ⟨k', v'⟩ := e
    rw [get?_cons] at h
    split at h
    · exact nomatch h
    · rename_i hk
      rw [set, if_neg hk, ih h, List.cons_append]

theorem get?_setDefault (v : α) (key : κ) :
    get? (setDefault d k v) key = (get? d key).or (if k = key then some v else none) := by
  rw [setDefault]
  split
  · rename_i h
    by_cases hk : k = key
    · subst hk
      obtain ⟨w, hw⟩ := Option.isSome_iff_exists.mp h
      simp [hw]
    · simp [hk]
  · rw [get?_append]
    rfl

theorem get?_of_insertNew {d d' : Dict κ α} {k : κ} {v : α} (h : d.insertNew k v = some d') :
    d.get? k = none ∧ ∀ key, d'.get? key = if k = key then some v else d.get? key := by
  rw [insertNew] at h
  split at h
  · exact nomatch h
  · rename_i habsent
    cases h
    rw [Option.not_isSome_iff_eq_none] at habsent
    refine ⟨habsent, fun key => ?_⟩
    rw [get?_append, get?_cons, get?_nil]
    by_cases hk : k = key
    · subst hk
      rw [habsent, if_pos rfl, Option.none_or]
    · rw [if_neg hk, Option.or_none, if_neg hk]

theorem get?_modify (f : α → α) (key : κ) :
    get? (modify d k f) key = if k = key then (get? d key).map f else get? d key := by
  induction d with
  | nil => split <;> rfl
  | cons e d ih =>
    obtain ⟨k', v⟩ := e
    rw [modify, List.map_cons, ← modify]
    by_cases h : k' = k
    · subst h
      rw [if_pos rfl, get?_cons, get?_cons, ih]
      split <;> rfl
    · rw [if_neg h, get?_cons, get?_cons, ih, ite_ite_of_ne h]
      refine ite_congr rfl (fun hk => ?_) fun _ => rfl
      rw [if_neg fun hk' => h (hk'.trans hk.symm)]

theorem get?_erase (key : κ) : get? (erase d k) key = if k = key then none else get? d key := by
  induction d with
  | nil => split <;> rfl
  | cons e d ih =>
    obtain ⟨k', v⟩ := e
    rw [erase, List.filter_cons, ← erase, get?_cons]
    by_cases h : k' = k
    · subst h
      rw [if_neg (by simp), ih]
      by_cases hk : k' = key
      · rw [if_pos hk, if_pos hk]
      · rw [if_neg hk, if_neg hk, if_neg hk]
    · rw [if_pos (decide_eq_true h), get?_cons, ih, ite_ite_of_ne h]

theorem get?_ofFirst : get? (ofFirst entries) key = get? entries key := by
  have h : ∀ d : Dict κ α, get? (entries.foldl (fun d e => d.setDefault e.1 e.2) d) key =
      (get? d key).or (get? entries key) := by
    induction entries with
    | nil => intro d; simp
    | cons e entries ih =>
      intro d
      obtain ⟨k, v⟩ := e
      rw [List.foldl_cons, ih, get?_setDefault, get?_cons]
      cases hd : get? d key with
      | some w => simp
      | none => by_cases hk : k = key <;> simp [hk]
  exact (h []).trans (by simp)

theorem get?_ofLast : get? (ofLast entries) key = get? entries.reverse key := by
  have h : ∀ d : Dict κ α, get? (entries.foldl (fun d e => d.set e.1 e.2) d) key =
      (get? entries.reverse key).or (get? d key) := by
    induction entries with
    | nil => intro d; simp
    | cons e entries ih =>
      intro d
      obtain ⟨k, v⟩ := e
      rw [List.foldl_cons, ih, get?_set, List.reverse_cons, get?_append, get?_cons, get?_nil]
      cases get? entries.reverse key with
      | some w => simp
      | none => by_cases hk : k = key <;> simp [hk]
  exact (h []).trans (by simp)

theorem ofLast_of_nodup {entries : List (κ × α)} (h : (entries.map Prod.fst).Nodup) :
    ofLast entries = entries := by
  induction entries using List.reverseRecOn with
  | nil => rfl
  | append_singleton entries e ih =>
    rw [List.map_append, List.nodup_append] at h
    have hentries : ofLast entries = entries := ih h.1
    rw [ofLast, List.foldl_append, ← ofLast, hentries, List.foldl_cons, List.foldl_nil]
    refine set_of_get?_eq_none (Option.eq_none_iff_forall_not_mem.mpr fun v hv => ?_) e.2
    have hmem : e.1 ∈ entries.map Prod.fst := List.mem_map.mpr ⟨(e.1, v), mem_of_get? hv, rfl⟩
    exact h.2.2 e.1 hmem e.1 (List.mem_singleton_self _) rfl

theorem get?_eq_head? : get? entries key = (valuesOf entries key).head? := by
  induction entries with
  | nil => rfl
  | cons e entries ih =>
    obtain ⟨k, v⟩ := e
    rw [get?_cons, valuesOf, List.filterMap_cons]
    by_cases hk : k = key
    · simp only [hk, if_true, List.head?_cons]
    · simp only [hk, if_false]
      exact ih

theorem get?_ofLast_eq_getLast? : get? (ofLast entries) key = (valuesOf entries key).getLast? := by
  rw [get?_ofLast, get?_eq_head?, valuesOf, List.filterMap_reverse, List.head?_reverse, valuesOf]

theorem mem_keys_iff {d : Dict κ α} {key : κ} : key ∈ d.keys ↔ (d.get? key).isSome := by
  constructor
  · intro h
    obtain ⟨e, he, rfl⟩ := List.mem_map.mp h
    exact isSome_get?_of_mem he
  · intro h
    obtain ⟨v, hv⟩ := Option.isSome_iff_exists.mp h
    exact List.mem_map.mpr ⟨_, mem_of_get? hv, rfl⟩

theorem mem_ofFirst {entries : List (κ × α)} {e : κ × α} (h : e ∈ ofFirst entries) :
    e ∈ entries := by
  induction entries using List.reverseRecOn with
  | nil => exact h
  | append_singleton entries last ih =>
    rw [ofFirst, List.foldl_append, ← ofFirst, List.foldl_cons, List.foldl_nil, setDefault] at h
    split at h
    · exact List.mem_append_left _ (ih h)
    · rcases List.mem_append.mp h with h | h
      · exact List.mem_append_left _ (ih h)
      · exact List.mem_append_right _ h

theorem keys_ofFirst_nodup : (ofFirst entries).keys.Nodup := by
  induction entries using List.reverseRecOn with
  | nil => exact List.nodup_nil
  | append_singleton entries last ih =>
    rw [ofFirst, List.foldl_append, ← ofFirst, List.foldl_cons, List.foldl_nil, setDefault]
    split
    · exact ih
    · rename_i hnone
      rw [keys, List.map_append, List.map_singleton]
      refine List.nodup_append.mpr ⟨ih, List.nodup_singleton _, fun key hkey other hother heq => ?_⟩
      obtain rfl := List.mem_singleton.mp hother
      exact hnone (heq ▸ mem_keys_iff.mp hkey)

theorem get?_of_mem {d : Dict κ α} (hd : d.keys.Nodup) {key : κ} {value : α}
    (h : (key, value) ∈ d) : d.get? key = some value := by
  induction d with
  | nil => simp at h
  | cons e d ih =>
    obtain ⟨k, v⟩ := e
    obtain ⟨hk, hd⟩ := List.nodup_cons.mp hd
    rw [get?_cons]
    rcases List.mem_cons.mp h with he | he
    · cases he
      exact if_pos rfl
    · have hne : k ≠ key := fun heq => hk (heq ▸ List.mem_map.mpr ⟨_, he, rfl⟩)
      rw [if_neg hne, ih hd he]

omit [DecidableEq κ] in
theorem map_filterMap_sublist {β γ : Type*} {g : β → Option γ} {key : β → κ} {key' : γ → κ}
    {values : List β} (hg : ∀ b ∈ values, ∀ c, g b = some c → key' c = key b) :
    List.Sublist ((values.filterMap g).map key') (values.map key) := by
  induction values with
  | nil => exact List.Sublist.refl _
  | cons b values ih =>
    have ih := ih fun b hb => hg b (List.mem_cons_of_mem _ hb)
    rw [List.filterMap_cons, List.map_cons]
    cases hb : g b with
    | none => exact ih.cons _
    | some c =>
      rw [List.map_cons, hg b List.mem_cons_self c hb]
      exact ih.cons_cons _

omit [DecidableEq κ] in
theorem keys_filterMap_sublist {β : Type*} {g : κ × β → Option (κ × α)}
    (hg : ∀ e e', g e = some e' → e'.1 = e.1) (entries : List (κ × β)) :
    List.Sublist (keys (entries.filterMap g)) (entries.map Prod.fst) :=
  map_filterMap_sublist fun e _ e' => hg e e'

theorem map_get?_zip {keys : List κ} {values : List α} (hkeys : keys.Nodup)
    (hlength : values.length = keys.length) :
    keys.map (get? (keys.zip values)) = values.map some := by
  have hnodup : (Dict.keys (keys.zip values)).Nodup := by
    rw [Dict.keys, List.map_fst_zip hlength.ge]
    exact hkeys
  apply List.ext_getElem
  · rw [List.length_map, List.length_map, hlength]
  · intro index hindex hindex'
    rw [List.getElem_map, List.getElem_map]
    refine get?_of_mem hnodup (List.mem_iff_getElem.mpr ⟨index, ?_, List.getElem_zip⟩)
    rw [List.length_map] at hindex hindex'
    rw [List.length_zip]
    exact lt_min hindex hindex'

theorem mem_set {d : Dict κ α} {key : κ} {value : α} {e : κ × α} (h : e ∈ d.set key value) :
    e = (key, value) ∨ e ∈ d := by
  induction d with
  | nil => exact .inl (List.mem_singleton.mp h)
  | cons entry d ih =>
    rw [set] at h
    split at h
    · rename_i hkey
      rcases List.mem_cons.mp h with rfl | h
      · exact .inl (hkey ▸ rfl)
      · exact .inr (List.mem_cons_of_mem _ h)
    · rcases List.mem_cons.mp h with rfl | h
      · exact .inr (List.mem_cons_self ..)
      · exact (ih h).imp_right (List.mem_cons_of_mem _)

theorem mem_ofLast {entries : List (κ × α)} {e : κ × α} (h : e ∈ ofLast entries) : e ∈ entries := by
  induction entries using List.reverseRecOn with
  | nil => exact h
  | append_singleton entries last ih =>
    rw [ofLast, List.foldl_append, ← ofLast, List.foldl_cons, List.foldl_nil] at h
    rcases mem_set h with rfl | h
    · exact List.mem_append_right _ (List.mem_singleton_self _)
    · exact List.mem_append_left _ (ih h)

theorem get?_ofLast_of_mem {entries : List (κ × α)} {key : κ} {value : α}
    (hmem : (key, value) ∈ entries) (hagree : ∀ other, (key, other) ∈ entries → other = value) :
    (ofLast entries).get? key = some value := by
  rw [get?_ofLast]
  obtain ⟨found, hfound⟩ := Option.isSome_iff_exists.mp
    (isSome_get?_of_mem (List.mem_reverse.mpr hmem))
  rw [hfound, hagree found (List.mem_reverse.mp (mem_of_get? hfound))]

theorem keys_set (v : α) : (d.set k v).keys = if k ∈ d.keys then d.keys else d.keys ++ [k] := by
  induction d with
  | nil => rfl
  | cons e d ih =>
    obtain ⟨k', v'⟩ := e
    simp only [set, keys, List.map_cons] at ih ⊢
    by_cases h : k' = k
    · simp [h]
    · rw [if_neg h, List.map_cons, ih]
      by_cases hm : k ∈ d.map Prod.fst <;> simp [hm, Ne.symm h]

theorem keys_set_nodup {d : Dict κ α} (hd : d.keys.Nodup) (k : κ) (v : α) :
    (d.set k v).keys.Nodup := by
  rw [keys_set]
  split
  · exact hd
  · rename_i h
    exact List.nodup_append.mpr ⟨hd, List.nodup_singleton k, by
      intro a ha b hb hab
      exact h (List.mem_singleton.mp hb ▸ hab ▸ ha)⟩

theorem keys_ofLast_nodup : (ofLast entries).keys.Nodup := by
  induction entries using List.reverseRecOn with
  | nil => exact List.nodup_nil
  | append_singleton entries last ih =>
    rw [ofLast, List.foldl_append, ← ofLast, List.foldl_cons, List.foldl_nil]
    exact keys_set_nodup ih last.1 last.2

@[simp] theorem get?_mapValues {β : Type*} (f : α → β) (d : Dict κ α) (key : κ) :
    (d.mapValues f).get? key = (d.get? key).map f := by
  induction d with
  | nil => rfl
  | cons e d ih =>
    obtain ⟨k, v⟩ := e
    simp only [mapValues, List.map_cons, get?_cons] at ih ⊢
    split
    · rfl
    · exact ih

omit [DecidableEq κ] in
@[simp] theorem keys_mapValues {β : Type*} (f : α → β) (d : Dict κ α) :
    (d.mapValues f).keys = d.keys := by
  simp [keys, mapValues, Function.comp_def]

theorem get?_filterMapValues {β : Type*} (f : α → Option β) {d : Dict κ α} (hd : d.keys.Nodup)
    (key : κ) : (d.filterMapValues f).get? key = (d.get? key).bind f := by
  induction d with
  | nil => rfl
  | cons e d ih =>
    obtain ⟨k, v⟩ := e
    obtain ⟨hk, hd⟩ := List.nodup_cons.mp hd
    have ih := ih hd
    rw [filterMapValues] at ih ⊢
    rw [List.filterMap_cons, get?_cons]
    by_cases heq : k = key
    · subst heq
      have habsent : get? d k = none :=
        Option.not_isSome_iff_eq_none.mp fun hs => hk (mem_keys_iff.mpr hs)
      cases hf : f v with
      | none => simp [hf, ih, habsent]
      | some w => simp [hf, get?_cons]
    · cases hf : f v with
      | none => simp [ih, heq]
      | some w => simp [ih, get?_cons, heq]

theorem keys_group_nodup : (group entries).keys.Nodup := by
  have h : ∀ d : Dict κ (List α), d.keys.Nodup →
      (entries.foldl (fun d e => d.push e.1 e.2) d).keys.Nodup := by
    induction entries with
    | nil => exact fun d hd => hd
    | cons e entries ih => exact fun d hd => ih _ (keys_set_nodup hd _ _)
  exact h [] List.nodup_nil

theorem getD_group : ((group entries).get? key).getD [] = valuesOf entries key := by
  have h : ∀ d : Dict κ (List α),
      ((entries.foldl (fun d e => d.push e.1 e.2) d).get? key).getD [] =
        (d.get? key).getD [] ++ valuesOf entries key := by
    induction entries with
    | nil => intro d; simp [valuesOf]
    | cons e entries ih =>
      intro d
      obtain ⟨k, v⟩ := e
      rw [List.foldl_cons, ih, push, get?_set]
      by_cases hk : k = key
      · subst hk
        simp [valuesOf]
      · simp [hk, valuesOf]
  exact (h []).trans (by simp)

theorem mem_keys_group {entries : List (κ × α)} {key : κ} :
    key ∈ (group entries).keys ↔ key ∈ entries.map Prod.fst := by
  have h : ∀ d : Dict κ (List α),
      key ∈ (entries.foldl (fun d e => d.push e.1 e.2) d).keys ↔
        key ∈ d.keys ∨ key ∈ entries.map Prod.fst := by
    induction entries with
    | nil => intro d; simp
    | cons e entries ih =>
      intro d
      obtain ⟨k, v⟩ := e
      rw [List.foldl_cons, ih, push, keys_set, List.map_cons, List.mem_cons]
      by_cases hk : k ∈ d.keys
      · rw [if_pos hk]
        constructor
        · rintro (h | h)
          · exact .inl h
          · exact .inr (.inr h)
        · rintro (h | rfl | h)
          · exact .inl h
          · exact .inl hk
          · exact .inr h
      · rw [if_neg hk, List.mem_append, List.mem_singleton, or_assoc]
  exact (h []).trans (by simp [keys])

theorem get?_group :
    (group entries).get? key =
      if key ∈ entries.map Prod.fst then some (valuesOf entries key) else none := by
  have hval := getD_group entries key
  by_cases h : key ∈ entries.map Prod.fst
  · obtain ⟨vs, hvs⟩ := Option.isSome_iff_exists.mp (mem_keys_iff.mp (mem_keys_group.mpr h))
    rw [hvs, Option.getD_some] at hval
    rw [if_pos h, hvs, hval]
  · rw [if_neg h, ← Option.not_isSome_iff_eq_none]
    exact fun hs => h (mem_keys_group.mp (mem_keys_iff.mpr hs))

theorem mem_valuesOf {entries : List (κ × α)} {key : κ} {value : α} :
    value ∈ valuesOf entries key ↔ (key, value) ∈ entries := by
  simp only [valuesOf, List.mem_filterMap]
  constructor
  · rintro ⟨⟨k, v⟩, hmem, hv⟩
    by_cases hk : k = key
    · subst hk
      rw [if_pos rfl] at hv
      cases hv
      exact hmem
    · rw [if_neg hk] at hv
      cases hv
  · exact fun h => ⟨_, h, if_pos rfl⟩

theorem get?_map_key (key : α → κ) (values : List α) (k : κ) :
    get? (values.map fun v => (key v, v)) k = values.find? fun v => key v = k := by
  induction values with
  | nil => rfl
  | cons v values ih =>
    rw [List.map_cons, get?_cons, List.find?_cons, ih]
    by_cases h : key v = k <;> simp [h]

theorem valuesOf_map {β : Type*} (key : β → κ) (value : β → α) (records : List β) (k : κ) :
    valuesOf (records.map fun r => (key r, value r)) k =
      (records.filter fun r => key r = k).map value := by
  induction records with
  | nil => rfl
  | cons r records ih =>
    rw [valuesOf] at ih ⊢
    rw [List.map_cons, List.filterMap_cons, List.filter_cons, ih]
    by_cases h : key r = k <;> simp [h]

omit [DecidableEq κ] in
/-- Records filed under a partial key, when all have one: every record has a key, and every
entry is a record with its key. -/
theorem mem_of_mapM {key : α → Option κ} {records : List α} {entries : List (κ × α)}
    (h : records.mapM (fun r => (key r).map (·, r)) = some entries) :
    (∀ r ∈ records, (key r).isSome) ∧ ∀ e ∈ entries, e.2 ∈ records ∧ key e.2 = some e.1 := by
  induction records generalizing entries with
  | nil =>
    cases h
    exact ⟨nofun, nofun⟩
  | cons r records ih =>
    rw [List.mapM_cons] at h
    obtain ⟨entry, hentry, h⟩ := Option.bind_eq_some_iff.mp h
    obtain ⟨rest, hrest, h⟩ := Option.bind_eq_some_iff.mp h
    obtain ⟨k, hk, rfl⟩ := Option.map_eq_some_iff.mp hentry
    cases h
    obtain ⟨hkeys, hmem⟩ := ih hrest
    constructor
    · refine List.forall_mem_cons.mpr ⟨?_, hkeys⟩
      rw [hk]
      rfl
    · refine List.forall_mem_cons.mpr ⟨⟨List.mem_cons_self .., hk⟩, fun e he => ?_⟩
      exact ⟨List.mem_cons_of_mem _ (hmem e he).1, (hmem e he).2⟩

omit [DecidableEq κ] in
theorem exists_of_mapM {κ α : Type} {key : α → Option κ} {records : List α}
    (h : ∀ r ∈ records, (key r).isSome) :
    ∃ entries, records.mapM (fun r => (key r).map (·, r)) = some entries ∧
      ∀ r ∈ records, ∀ k, key r = some k → (k, r) ∈ entries := by
  induction records with
  | nil => exact ⟨[], rfl, nofun⟩
  | cons r records ih =>
    obtain ⟨hr, hrecords⟩ := List.forall_mem_cons.mp h
    obtain ⟨k, hk⟩ := Option.isSome_iff_exists.mp hr
    obtain ⟨entries, hentries, hmem⟩ := ih hrecords
    refine ⟨(k, r) :: entries, ?_, List.forall_mem_cons.mpr ⟨?_, fun x hx k' hk' => ?_⟩⟩
    · rw [List.mapM_cons, hk, hentries]
      rfl
    · rintro k' hk'
      obtain rfl := Option.some.inj (hk.symm.trans hk')
      exact List.mem_cons_self
    · exact List.mem_cons_of_mem _ (hmem x hx k' hk')

/-- The values of a key are then the records that have it. -/
theorem valuesOf_of_mapM {key : α → Option κ} {records : List α} {entries : List (κ × α)}
    (h : records.mapM (fun r => (key r).map (·, r)) = some entries) (k : κ) :
    valuesOf entries k = records.filter fun r => key r = some k := by
  induction records generalizing entries with
  | nil =>
    cases h
    rfl
  | cons r records ih =>
    rw [List.mapM_cons] at h
    obtain ⟨entry, hentry, h⟩ := Option.bind_eq_some_iff.mp h
    obtain ⟨rest, hrest, h⟩ := Option.bind_eq_some_iff.mp h
    obtain ⟨k', hk', rfl⟩ := Option.map_eq_some_iff.mp hentry
    cases h
    have ih := ih hrest
    rw [valuesOf] at ih ⊢
    rw [List.filterMap_cons, List.filter_cons, ih, hk']
    by_cases hk : k' = k <;> simp [hk]

/-- Every stored group is the list of values of its key. -/
theorem eq_valuesOf_of_mem_group {entries : List (κ × α)} {key : κ} {values : List α}
    (h : (key, values) ∈ group entries) : values = valuesOf entries key := by
  rw [← getD_group, get?_of_mem (keys_group_nodup entries) h, Option.getD_some]

theorem get?_rel_of_forall₂ {κ α β : Type*} [DecidableEq κ] {R : κ → α → β → Prop} {d : Dict κ α}
    {e : Dict κ β} (h : List.Forall₂ (fun a b => b.1 = a.1 ∧ R a.1 a.2 b.2) d e) (key : κ) :
    Option.Rel (R key) (d.get? key) (e.get? key) := by
  induction h with
  | nil => exact .none
  | @cons a b d e hab _ ih =>
    obtain ⟨k, value⟩ := a
    obtain ⟨k', value'⟩ := b
    obtain ⟨rfl, hvalue⟩ := hab
    rw [Dict.get?_cons, Dict.get?_cons]
    split
    · rename_i heq
      exact heq ▸ .some hvalue
    · exact ih

/-- Keys do not repeat when the last of each keeps the length. -/
theorem keys_nodup_of_length_ofLast {entries : List (κ × α)}
    (h : (Dict.ofLast entries).length = entries.length) : (entries.map Prod.fst).Nodup := by
  have hset : ∀ (d : Dict κ α) (k : κ) (v : α),
      (d.set k v).length = if k ∈ d.keys then d.length else d.length + 1 := by
    intro d k v
    have hkeys := congrArg List.length (Dict.keys_set d k v)
    rw [Dict.keys, List.length_map] at hkeys
    rw [hkeys]
    split <;> simp [Dict.keys]
  have hle : ∀ entries : List (κ × α), (Dict.ofLast entries).length ≤ entries.length := by
    intro entries
    induction entries using List.reverseRecOn with
    | nil => exact le_rfl
    | append_singleton entries e ih =>
      have hset := hset (Dict.ofLast entries) e.1 e.2
      rw [Dict.ofLast, List.foldl_append, ← Dict.ofLast, List.foldl_cons, List.foldl_nil,
        List.length_append, List.length_singleton]
      split at hset <;> omega
  induction entries using List.reverseRecOn with
  | nil => exact List.nodup_nil
  | append_singleton entries e ih =>
    have hset := hset (Dict.ofLast entries) e.1 e.2
    have hle := hle entries
    rw [Dict.ofLast, List.foldl_append, ← Dict.ofLast, List.foldl_cons, List.foldl_nil,
      List.length_append, List.length_singleton] at h
    by_cases hmem : e.1 ∈ (Dict.ofLast entries).keys
    · rw [if_pos hmem] at hset
      omega
    · rw [if_neg hmem] at hset
      have hnodup := ih (by omega)
      rw [Dict.ofLast_of_nodup hnodup] at hmem
      rw [List.map_append, List.nodup_append]
      refine ⟨hnodup, List.nodup_singleton _, ?_⟩
      rintro key hkey _ hlast rfl
      exact hmem (List.mem_singleton.mp hlast ▸ hkey)

theorem ids_nodup {α : Type*} {items : List α} {identity : α → String}
    (h : (Dict.ofLast (items.map fun item => (identity item, item))).length = items.length) :
    (items.map identity).Nodup := by
  rw [← List.length_map (fun item => (identity item, item))] at h
  have hnodup := keys_nodup_of_length_ofLast h
  rw [List.map_map] at hnodup
  exact hnodup

theorem set_of_get?_eq_some {d : Dict κ α} {key : κ} {value : α} (h : d.get? key = some value) :
    d.set key value = d := by
  induction d with
  | nil => exact absurd h nofun
  | cons e d ih =>
    obtain ⟨k, v⟩ := e
    rw [get?_cons] at h
    rw [set]
    by_cases hk : k = key
    · rw [if_pos hk] at h
      rw [if_pos hk, Option.some.inj h]
    · rw [if_neg hk] at h
      rw [if_neg hk, ih h]

end Dict

/-- The members of a set in increasing order, each once. -/
def sortedSet {α : Type*} [LinearOrder α] (members : List α) : List α :=
  members.eraseDups.insertionSort (· ≤ ·)

@[simp] theorem mem_sortedSet {α : Type*} [LinearOrder α] {members : List α} {a : α} :
    a ∈ sortedSet members ↔ a ∈ members := by
  rw [sortedSet, List.mem_insertionSort, List.mem_eraseDups]

theorem eraseDups_nodup {α : Type*} [DecidableEq α] (xs : List α) : xs.eraseDups.Nodup := by
  induction hn : xs.length using Nat.strong_induction_on generalizing xs with
  | _ n ih =>
    cases xs with
    | nil => exact List.nodup_nil
    | cons a xs =>
      rw [List.eraseDups_cons, List.nodup_cons]
      have hlen := List.length_filter_le (fun b => !b == a) xs
      rw [List.length_cons] at hn
      refine ⟨fun hmem => ?_, ih _ (by omega) _ rfl⟩
      rw [List.mem_eraseDups] at hmem
      simpa using (List.mem_filter.mp hmem).2

theorem sortedSet_pairwise_lt {α : Type*} [LinearOrder α] (members : List α) :
    (sortedSet members).Pairwise (· < ·) := by
  have hle : (sortedSet members).Pairwise (· ≤ ·) := List.pairwise_insertionSort _ _
  have hne : (sortedSet members).Nodup :=
    (List.perm_insertionSort _ _).nodup_iff.mpr (eraseDups_nodup members)
  exact hle.imp₂ (fun _ _ h h' => lt_of_le_of_ne h h') hne

theorem sortedSet_nodup {α : Type*} [LinearOrder α] (members : List α) :
    (sortedSet members).Nodup :=
  (sortedSet_pairwise_lt members).imp fun h => ne_of_lt h

theorem sortedSet_congr {α : Type*} [LinearOrder α] {xs ys : List α} (h : ∀ a, a ∈ xs ↔ a ∈ ys) :
    sortedSet xs = sortedSet ys :=
  (sortedSet_pairwise_lt xs).eq_of_mem_iff (sortedSet_pairwise_lt ys) fun a => by
    rw [mem_sortedSet, mem_sortedSet]
    exact h a

theorem filter_eraseDups {α : Type*} [DecidableEq α] (p : α → Bool) (xs : List α) :
    xs.eraseDups.filter p = (xs.filter p).eraseDups := by
  induction hn : xs.length using Nat.strong_induction_on generalizing xs with
  | _ n ih =>
    cases xs with
    | nil => rfl
    | cons a xs =>
      have hlen := List.length_filter_le (fun b => !b == a) xs
      rw [List.length_cons] at hn
      have hrest := ih _ (by omega) (xs.filter fun b => !b == a) rfl
      rw [List.eraseDups_cons, List.filter_cons, List.filter_cons, hrest, List.filter_filter]
      by_cases hp : p a
      · rw [if_pos hp, if_pos hp, List.eraseDups_cons, List.filter_filter]
        simp only [Bool.and_comm]
      · rw [if_neg hp, if_neg hp]
        congr 1
        refine List.filter_congr fun b _ => ?_
        by_cases hb : b = a
        · simp [hb, hp]
        · simp [hb]

theorem eraseDups_of_nodup {α : Type*} [DecidableEq α] {xs : List α} (h : xs.Nodup) :
    xs.eraseDups = xs := by
  induction xs with
  | nil => rfl
  | cons a xs ih =>
    rw [List.nodup_cons] at h
    rw [List.eraseDups_cons, List.filter_eq_self.mpr, ih h.2]
    intro b hb
    have hne : b ≠ a := fun heq => h.1 (heq ▸ hb)
    simpa using hne

theorem pairwise_lt_insertionSort {α β : Type*} [LinearOrder β] (key : α → β) {items : List α}
    (h : (items.map key).Nodup) :
    (items.insertionSort fun first later => key first ≤ key later).Pairwise
      fun first later => key first < key later := by
  have hmap : (items.insertionSort fun first later => key first ≤ key later).map key =
      (items.map key).insertionSort (· ≤ ·) := List.map_insertionSort _ _ _ _ fun _ _ _ _ => Iff.rfl
  have hle : ((items.map key).insertionSort (· ≤ ·)).Pairwise (· ≤ ·) :=
    List.pairwise_insertionSort _ _
  have hne : ((items.map key).insertionSort (· ≤ ·)).Nodup :=
    (List.perm_insertionSort _ _).nodup_iff.mpr h
  rw [← hmap] at hle hne
  exact ((List.pairwise_map.mp hle).and (List.pairwise_map.mp hne)).imp
    fun hboth => lt_of_le_of_ne hboth.1 hboth.2

theorem filter_eq_singleton {β κ : Type*} [DecidableEq κ] (key : β → κ) {items : List β} {b : β}
    (h : items.Pairwise fun a b => key a ≠ key b) (hmem : b ∈ items) :
    items.filter (fun a => key a = key b) = [b] := by
  obtain ⟨front, back, rfl⟩ := List.append_of_mem hmem
  obtain ⟨-, hback, hfront⟩ := List.pairwise_append.mp h
  have hbefore : front.filter (fun a => key a = key b) = [] :=
    List.filter_eq_nil_iff.mpr fun a ha heq =>
      hfront a ha b (List.mem_cons_self ..) (of_decide_eq_true heq)
  have hafter : back.filter (fun a => key a = key b) = [] :=
    List.filter_eq_nil_iff.mpr fun a ha heq =>
      (List.pairwise_cons.mp hback).1 a ha (of_decide_eq_true heq).symm
  rw [List.filter_append, hbefore, List.nil_append, List.filter_cons, if_pos (decide_eq_true rfl),
    hafter]

end StockProfiler
