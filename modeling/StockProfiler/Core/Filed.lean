import StockProfiler.Core.Checks
import StockProfiler.Core.Dict

/-!
# Filed values

A dictionary files each value under the key that the value itself names. Filing further
values in the places of the earlier ones keeps it so, and doing it twice changes nothing.
-/

namespace StockProfiler.Dict

variable {κ α : Type*} [DecidableEq κ]

/-- Every value is stored once, under its own key. -/
structure Filed (key : α → κ) (d : Dict κ α) : Prop where
  nodup : d.keys.Nodup
  key_eq : ∀ e ∈ d, key e.2 = e.1

variable {key : α → κ} {d : Dict κ α}

omit [DecidableEq κ] in
theorem filed_nil : Filed key ([] : Dict κ α) :=
  ⟨List.nodup_nil, nofun⟩

theorem Filed.key_of_get? (h : d.Filed key) {k : κ} {v : α} (hv : d.get? k = some v) :
    key v = k := h.key_eq _ (mem_of_get? hv)

theorem Filed.set (h : d.Filed key) {k : κ} {v : α} (hv : key v = k) : (d.set k v).Filed key := by
  refine ⟨keys_set_nodup h.nodup _ _, fun e he => ?_⟩
  rcases mem_set he with rfl | he
  · exact hv
  · exact h.key_eq e he

theorem filed_ofLast (values : List α) : (ofLast (values.map fun v => (key v, v))).Filed key := by
  induction values using List.reverseRecOn with
  | nil => exact filed_nil
  | append_singleton values last ih =>
    rw [List.map_append, ofLast, List.foldl_append]
    exact ih.set rfl

theorem Filed.ofLast_values (h : d.Filed key) :
    ofLast ((d.map (·.2)).map fun v => (key v, v)) = d := by
  have hentries : (d.map (·.2)).map (fun v => (key v, v)) = d := by
    rw [List.map_map]
    conv_rhs => rw [← List.map_id d]
    refine List.map_congr_left fun e he => ?_
    exact Prod.ext (h.key_eq e he) rfl
  rw [hentries]
  exact ofLast_of_nodup h.nodup

section Refile

variable {β : Type*} {place : β → κ} {change : β → Option α → α} {values : List β}

/-- File values in turn, each changed by what is filed in its place. -/
def refile (place : β → κ) (change : β → Option α → α) (d : Dict κ α) (values : List β) :
    Dict κ α :=
  values.foldl (fun d v => d.set (place v) (change v (d.get? (place v)))) d

@[simp] theorem refile_nil : d.refile place change [] = d := rfl

@[simp] theorem refile_cons (v : β) (values : List β) : d.refile place change (v :: values) =
    (d.set (place v) (change v (d.get? (place v)))).refile place change values := rfl

theorem Filed.refile (h : d.Filed key) (hchange : ∀ v old, key (change v old) = place v)
    (values : List β) : (d.refile place change values).Filed key := by
  induction values generalizing d with
  | nil => exact h
  | cons v values ih => exact ih (h.set (hchange v _))

theorem get?_refile_of_notMem {k : κ} (h : k ∉ values.map place) :
    (d.refile place change values).get? k = d.get? k := by
  induction values generalizing d with
  | nil => rfl
  | cons v values ih =>
    rw [List.map_cons, List.mem_cons, not_or] at h
    rw [refile_cons, ih h.2, get?_set, if_neg fun heq => h.1 heq.symm]

theorem get?_refile_of_mem (hvalues : (values.map place).Nodup) {v : β} (hv : v ∈ values) :
    (d.refile place change values).get? (place v) = some (change v (d.get? (place v))) := by
  induction values generalizing d with
  | nil => exact nomatch hv
  | cons first values ih =>
    rw [List.map_cons, List.nodup_cons] at hvalues
    rw [refile_cons]
    rcases List.mem_cons.mp hv with rfl | hmem
    · rw [get?_refile_of_notMem hvalues.1, get?_set, if_pos rfl]
    · have hne : place first ≠ place v := fun heq => hvalues.1 (heq ▸ List.mem_map_of_mem hmem)
      rw [ih hvalues.2 hmem, get?_set, if_neg hne]

theorem refile_of_foldlM {error σ : Type*} {f : Dict κ α × σ → β → Except error (Dict κ α × σ)}
    (hstep : ∀ s v s', f s v = .ok s' → s'.1 = s.1.set (place v) (change v (s.1.get? (place v))))
    {s s' : Dict κ α × σ} (h : values.foldlM f s = .ok s') :
    s'.1 = s.1.refile place change values := by
  induction values generalizing s with
  | nil =>
    cases h
    rfl
  | cons v values ih =>
    rw [List.foldlM_cons] at h
    obtain ⟨middle, hmiddle, h⟩ := bind_eq_ok.mp h
    rw [ih h, refile_cons, hstep s v middle hmiddle]

end Refile

end StockProfiler.Dict
