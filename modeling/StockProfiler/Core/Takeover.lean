import Mathlib.Data.Finset.Card
import Mathlib.Data.List.Find
import Mathlib.Data.List.Nodup
import Mathlib.Order.Interval.Finset.Nat

/-!
# Taking over

Requests come one after another. Each takes over the first of the earlier holders that shares
something with it and that no request has taken over before. Holders are those that there are
in the beginning and the requests themselves; a place counts holders in this order.
-/

namespace StockProfiler

/-- Erasing the first element that satisfies a condition. -/
theorem erase_of_find? {γ : Type*} [DecidableEq γ] {p : γ → Bool} {xs : List γ} {a : γ}
    (h : xs.find? p = some a) : xs.erase a = xs.eraseP p := by
  induction xs with
  | nil => exact absurd h nofun
  | cons x xs ih =>
    rw [List.find?_cons] at h
    split at h
    · rename_i hp
      cases h
      rw [List.erase_cons_head, List.eraseP_cons_of_pos hp]
    · rename_i hp
      have hne : x ≠ a := by
        rintro rfl
        have ha := List.find?_some h
        rw [hp] at ha
        exact Bool.false_ne_true ha
      rw [List.erase_cons_tail (by simpa using hne), ih h,
        List.eraseP_cons_of_neg (by rw [hp]; exact Bool.false_ne_true)]

theorem eraseP_congr {γ : Type*} {p q : γ → Bool} {xs : List γ} (h : ∀ a ∈ xs, p a = q a) :
    xs.eraseP p = xs.eraseP q := by
  induction xs with
  | nil => rfl
  | cons x xs ih =>
    rw [List.forall_mem_cons] at h
    rw [List.eraseP_cons, List.eraseP_cons, h.1, ih h.2]

/-- Erasing the first element of a condition, where there is one. -/
theorem elim_erase_eq_eraseP {γ : Type*} [DecidableEq γ] (p : γ → Bool) (xs : List γ) :
    (xs.find? p).elim xs xs.erase = xs.eraseP p := by
  cases h : xs.find? p with
  | none =>
    have hnone := List.find?_eq_none.mp h
    exact (List.eraseP_of_forall_not hnone).symm
  | some a => exact erase_of_find? h

section Places

variable {η : Type*} (shares : η → η → Prop) [DecidableRel shares] (held requests : List η)

/-- A request shares something with the holder at a place. -/
def SharesAt (request place : ℕ) : Prop :=
  ∃ asked ∈ requests[request]?, ∃ holder ∈ (held ++ requests)[place]?, shares asked holder

instance (request place : ℕ) : Decidable (SharesAt shares held requests request place) :=
  match hasked : requests[request]?, hholder : (held ++ requests)[place]? with
  | some asked, some holder => decidable_of_iff (shares asked holder)
      ⟨fun h => ⟨asked, hasked, holder, hholder, h⟩, fun ⟨a, ha, b, hb, h⟩ => by
        rw [hasked] at ha
        rw [hholder] at hb
        exact Option.some.inj ha ▸ Option.some.inj hb ▸ h⟩
  | none, _ => isFalse fun ⟨_, ha, _⟩ => by
      rw [hasked] at ha
      exact Option.not_mem_none _ ha
  | _, none => isFalse fun ⟨_, _, _, hb, _⟩ => by
      rw [hholder] at hb
      exact Option.not_mem_none _ hb

/-- The places that the first requests take over, request by request. -/
def takeovers : ℕ → List (Option ℕ)
  | 0 => []
  | n + 1 => takeovers n ++ [((List.range (held.length + n)).filter
      (some · ∉ takeovers n)).find? (SharesAt shares held requests n)]

/-- The places that the first requests leave. -/
def keptPlaces (n : ℕ) : List ℕ :=
  (List.range (held.length + n)).filter (some · ∉ takeovers shares held requests n)

/-- A request takes over a place. -/
def TakesOver (request place : ℕ) : Prop :=
  (takeovers shares held requests requests.length)[request]? = some (some place)

/-- A place that no request takes over. -/
def Kept (place : ℕ) : Prop := place ∈ keptPlaces shares held requests requests.length

variable {shares held requests} {n request place : ℕ}

theorem length_takeovers (n : ℕ) : (takeovers shares held requests n).length = n := by
  induction n with
  | zero => rfl
  | succ n ih => rw [takeovers, List.length_append, ih, List.length_singleton]

theorem takeovers_succ (n : ℕ) : takeovers shares held requests (n + 1) =
    takeovers shares held requests n ++
      [(keptPlaces shares held requests n).find? (SharesAt shares held requests n)] := rfl

/-- What a request takes over is decided by the earlier ones. -/
theorem getElem?_takeovers (h : request < n) : (takeovers shares held requests n)[request]? =
    some ((keptPlaces shares held requests request).find?
      (SharesAt shares held requests request)) := by
  induction n with
  | zero => exact absurd h (Nat.not_lt_zero _)
  | succ n ih =>
    rw [takeovers_succ]
    by_cases hlt : request < n
    · rw [List.getElem?_append_left (by rwa [length_takeovers]), ih hlt]
    · obtain rfl : request = n := by omega
      rw [List.getElem?_append_right (by rw [length_takeovers]), length_takeovers, Nat.sub_self]
      rfl

theorem mem_keptPlaces : place ∈ keptPlaces shares held requests n ↔
    place < held.length + n ∧ some place ∉ takeovers shares held requests n := by
  rw [keptPlaces, List.mem_filter, List.mem_range, decide_eq_true_eq]

theorem nodup_keptPlaces : (keptPlaces shares held requests n).Nodup := List.nodup_range.filter _

theorem lt_of_mem_takeovers (h : (takeovers shares held requests n)[request]? = some (some place)) :
    place < held.length + request := by
  induction n with
  | zero => exact absurd h nofun
  | succ n ih =>
    rw [takeovers_succ, List.getElem?_append, length_takeovers] at h
    split at h
    · exact ih h
    · rename_i hle
      obtain ⟨hlt, hfind⟩ := List.getElem?_eq_some_iff.mp h
      rw [List.length_singleton] at hlt
      rw [List.getElem_singleton] at hfind
      have hplace := (mem_keptPlaces.mp (List.mem_of_find?_eq_some hfind)).1
      omega

variable (h : TakesOver shares held requests request place)

include h in
theorem lt_of_takesOver : request < requests.length ∧ place < held.length + request := by
  unfold TakesOver at h
  have hlt := (List.getElem?_eq_some_iff.mp h).1
  have hlength := @length_takeovers η shares _ held requests requests.length
  exact ⟨by omega, lt_of_mem_takeovers h⟩

theorem kept_or_takesOver (h : place < held.length + requests.length) :
    Kept shares held requests place ∨ ∃ request, TakesOver shares held requests request place := by
  by_cases hmem : some place ∈ takeovers shares held requests requests.length
  · exact .inr (List.mem_iff_getElem?.mp hmem)
  · exact .inl (mem_keptPlaces.mpr ⟨h, hmem⟩)

/-- A request adds its place and leaves the others but the one that it takes over. -/
theorem keptPlaces_succ (n : ℕ) : keptPlaces shares held requests (n + 1) =
    (keptPlaces shares held requests n).eraseP (SharesAt shares held requests n) ++
      [held.length + n] := by
  generalize hfind : (keptPlaces shares held requests n).find?
    (SharesAt shares held requests n) = found
  have hlast : some (held.length + n) ∉ takeovers shares held requests (n + 1) := by
    intro hmem
    obtain ⟨request, hrequest⟩ := List.mem_iff_getElem?.mp hmem
    have hlt := (List.getElem?_eq_some_iff.mp hrequest).1
    have hlength := @length_takeovers η shares _ held requests (n + 1)
    have hplace := lt_of_mem_takeovers hrequest
    omega
  have hrest : (List.range (held.length + n)).filter
      (some · ∉ takeovers shares held requests (n + 1)) =
      (keptPlaces shares held requests n).filter (some · ≠ found) := by
    rw [keptPlaces, List.filter_filter, takeovers_succ, hfind]
    refine List.filter_congr fun place _ => ?_
    simp [and_comm]
  rw [keptPlaces, ← Nat.add_assoc, List.range_succ, List.filter_append, hrest,
    List.filter_cons, if_pos (decide_eq_true hlast), List.filter_nil,
    ← elim_erase_eq_eraseP, hfind]
  congr 1
  cases found with
  | none => exact List.filter_eq_self.mpr fun _ _ => rfl
  | some place =>
    rw [Option.elim_some, nodup_keptPlaces.erase_eq_filter]
    refine List.filter_congr fun other _ => ?_
    by_cases heq : other = place <;> simp [heq]

/-- What holds of kept places, and of a place where it holds of the one that takes it over,
holds of all places. -/
theorem forall_of_takesOver {P : ℕ → Prop}
    (hkept : ∀ place, Kept shares held requests place → P place)
    (htaken : ∀ request place, TakesOver shares held requests request place →
      P (held.length + request) → P place) : ∀ place < held.length + requests.length, P place := by
  intro place hplace
  induction hd : held.length + requests.length - place using Nat.strongRecOn
    generalizing place with
  | ind d ih =>
    have hcases : Kept shares held requests place ∨
        ∃ request, TakesOver shares held requests request place := kept_or_takesOver hplace
    rcases hcases with hkeeps | ⟨request, htakes⟩
    · exact hkept place hkeeps
    · obtain ⟨hrequest, hlt⟩ := lt_of_takesOver htakes
      exact htaken request place htakes (ih _ (by omega) _ (by omega) rfl)

/-! ## What sharing decides

Which place a request takes over depends on the requests before it. Sharing alone bounds it from
both sides.
-/

variable (shares held requests) in
/-- A request shares something with an earlier holder. -/
def MeetsAt (request place : ℕ) : Prop :=
  place < held.length + request ∧ SharesAt shares held requests request place

instance (request place : ℕ) : Decidable (MeetsAt shares held requests request place) :=
  inferInstanceAs (Decidable (_ ∧ _))

variable (shares held requests) in
/-- The places before one that a request meets as well. -/
def preferredPlaces (request place : ℕ) : Finset ℕ :=
  (Finset.range place).filter (MeetsAt shares held requests request)

variable (shares held requests) in
/-- The earlier requests that meet a place which a request meets before the given one. -/
def preferredRivals (request place : ℕ) : Finset ℕ :=
  (Finset.range request).filter fun rival => ∃ preferred ∈ preferredPlaces shares held requests
    request place, MeetsAt shares held requests rival preferred

variable (shares held requests) in
/-- A request meets a place, and there are enough earlier requests to take over all the places
that it meets before. -/
def MayTakeOver (request place : ℕ) : Prop :=
  MeetsAt shares held requests request place ∧
    (preferredPlaces shares held requests request place).card ≤
      (preferredRivals shares held requests request place).card

variable (shares held requests) in
/-- A place is the first one that a request meets, and no earlier request meets it. -/
def SurelyTakesOver (request place : ℕ) : Prop :=
  MeetsAt shares held requests request place ∧
    (∀ preferred < place, ¬ MeetsAt shares held requests request preferred) ∧
    ∀ rival < request, ¬ MeetsAt shares held requests rival place

variable (shares held requests) in
/-- A place that no request meets. -/
def SurelyKept (place : ℕ) : Prop :=
  place < held.length + requests.length ∧
    ∀ request < requests.length, ¬ MeetsAt shares held requests request place

variable (shares held requests) in
/-- A place that no request surely takes over. -/
def MayBeKept (place : ℕ) : Prop :=
  place < held.length + requests.length ∧
    ∀ request < requests.length, ¬ SurelyTakesOver shares held requests request place

instance (request place : ℕ) : Decidable (MayTakeOver shares held requests request place) :=
  inferInstanceAs (Decidable (_ ∧ _))

instance (place : ℕ) : Decidable (SurelyKept shares held requests place) :=
  inferInstanceAs (Decidable (_ ∧ _))

/-- A request takes over the first place that it shares something with among those left to it. -/
theorem takesOver_iff : TakesOver shares held requests request place ↔
    request < requests.length ∧ (keptPlaces shares held requests request).find?
      (SharesAt shares held requests request) = some place := by
  constructor
  · intro h
    have hlt := (lt_of_takesOver h).1
    rw [TakesOver, getElem?_takeovers hlt] at h
    exact ⟨hlt, Option.some.inj h⟩
  · rintro ⟨hlt, hfind⟩
    rw [TakesOver, getElem?_takeovers hlt, hfind]

include h in
theorem TakesOver.meetsAt : MeetsAt shares held requests request place := by
  obtain ⟨-, hfind⟩ := takesOver_iff.mp h
  have hshares := List.find?_some hfind
  exact ⟨(lt_of_takesOver h).2, of_decide_eq_true hshares⟩

/-- A place that is not left to a request was taken over by an earlier one. -/
theorem exists_takesOver_of_not_mem_keptPlaces (hrequest : request ≤ requests.length)
    (hplace : place < held.length + request) (h : place ∉ keptPlaces shares held requests request) :
    ∃ rival < request, TakesOver shares held requests rival place := by
  have htaken : some place ∈ takeovers shares held requests request := by
    by_contra hmem
    exact h (mem_keptPlaces.mpr ⟨hplace, hmem⟩)
  obtain ⟨rival, hrival⟩ := List.mem_iff_getElem?.mp htaken
  have hlt : rival < request := by
    have hbound := (List.getElem?_eq_some_iff.mp hrival).1
    rwa [length_takeovers] at hbound
  rw [getElem?_takeovers hlt] at hrival
  exact ⟨rival, hlt, takesOver_iff.mpr ⟨by omega, Option.some.inj hrival⟩⟩

include h in
/-- What a request meets before the place that it takes over, earlier requests have taken over. -/
theorem TakesOver.exists_rival {preferred : ℕ} (hlt : preferred < place)
    (hmeets : MeetsAt shares held requests request preferred) :
    ∃ rival < request, TakesOver shares held requests rival preferred := by
  obtain ⟨hrequest, hfind⟩ := takesOver_iff.mp h
  refine exists_takesOver_of_not_mem_keptPlaces hrequest.le hmeets.1 fun hkept => ?_
  obtain ⟨-, before, after, hsplit, hbefore⟩ := List.find?_eq_some_iff_append.mp hfind
  have hsorted : (keptPlaces shares held requests request).Pairwise (· < ·) :=
    List.pairwise_lt_range.filter _
  rw [hsplit] at hkept hsorted
  have hafter := (List.pairwise_cons.mp (List.pairwise_append.mp hsorted).2.1).1
  rcases List.mem_append.mp hkept with hmem | hmem
  · have hshares := hbefore preferred hmem
    rw [Bool.not_eq_true', decide_eq_false_iff_not] at hshares
    exact hshares hmeets.2
  · rcases List.mem_cons.mp hmem with rfl | hmem
    · exact lt_irrefl _ hlt
    · exact lt_asymm hlt (hafter preferred hmem)

include h in
/-- A request that takes over a place may: distinct earlier requests took the places before. -/
theorem TakesOver.mayTakeOver : MayTakeOver shares held requests request place := by
  refine ⟨h.meetsAt, ?_⟩
  have hrivals : ∀ preferred ∈ preferredPlaces shares held requests request place,
      ∃ rival < request, TakesOver shares held requests rival preferred := by
    intro preferred hpreferred
    obtain ⟨hlt, hmeets⟩ := Finset.mem_filter.mp hpreferred
    exact h.exists_rival (Finset.mem_range.mp hlt) hmeets
  choose! rival hrival htakes using hrivals
  refine Finset.card_le_card_of_injOn rival (fun preferred hpreferred => ?_) ?_
  · refine Finset.mem_filter.mpr ⟨Finset.mem_range.mpr (hrival preferred hpreferred), ?_⟩
    exact ⟨preferred, hpreferred, (htakes preferred hpreferred).meetsAt⟩
  · -- One request takes over one place.
    intro first hfirst second hsecond heq
    have hone := htakes first hfirst
    have htwo := htakes second hsecond
    rw [← heq] at htwo
    exact Option.some.inj (Option.some.inj (hone.symm.trans htwo))

/-- A request surely takes over the first place that it meets where no earlier one meets it. -/
theorem SurelyTakesOver.takesOver (h : SurelyTakesOver shares held requests request place) :
    TakesOver shares held requests request place := by
  obtain ⟨hmeets, hfirst, hrivals⟩ := h
  have hrequest : request < requests.length := by
    obtain ⟨asked, hasked, -⟩ := hmeets.2
    exact (List.getElem?_eq_some_iff.mp hasked).1
  have hkept : place ∈ keptPlaces shares held requests request := by
    by_contra hmem
    obtain ⟨rival, hlt, htakes⟩ :=
      exists_takesOver_of_not_mem_keptPlaces hrequest.le hmeets.1 hmem
    exact hrivals rival hlt htakes.meetsAt
  cases hfind : (keptPlaces shares held requests request).find?
      (SharesAt shares held requests request) with
  | none =>
    have hnone := List.find?_eq_none.mp hfind place hkept
    exact absurd (decide_eq_true hmeets.2) hnone
  | some found =>
    have htakes : TakesOver shares held requests request found :=
      takesOver_iff.mpr ⟨hrequest, hfind⟩
    rcases lt_trichotomy found place with hlt | rfl | hlt
    · exact absurd htakes.meetsAt (hfirst found hlt)
    · exact htakes
    · obtain ⟨rival, hrival, hrivalTakes⟩ := htakes.exists_rival hlt hmeets
      exact absurd hrivalTakes.meetsAt (hrivals rival hrival)

theorem Kept.lt (h : Kept shares held requests place) : place < held.length + requests.length :=
  (mem_keptPlaces.mp h).1

/-- A place that no request takes over is one that none surely takes over. -/
theorem Kept.mayBeKept (h : Kept shares held requests place) :
    MayBeKept shares held requests place := by
  refine ⟨h.lt, fun request _ hsurely => ?_⟩
  exact (mem_keptPlaces.mp h).2 (List.mem_iff_getElem?.mpr ⟨request, hsurely.takesOver⟩)

/-- A place that no request meets is one that none takes over. -/
theorem SurelyKept.kept (h : SurelyKept shares held requests place) :
    Kept shares held requests place := by
  have hcases : Kept shares held requests place ∨
      ∃ request, TakesOver shares held requests request place := kept_or_takesOver h.1
  rcases hcases with hkept | ⟨request, htakes⟩
  · exact hkept
  · exact absurd htakes.meetsAt (h.2 request (lt_of_takesOver htakes).1)

end Places

section Runs

variable {β γ η : Type*} [DecidableEq γ] (meets : β → γ → Prop) [∀ b, DecidablePred (meets b)]
  (make : β → Option γ → γ)

/-- A request puts a new item in the place of the first one that it meets. -/
def takeOver (items : List γ) (request : β) : List γ :=
  let previous := items.find? (meets request)
  previous.elim items items.erase ++ [make request previous]

/-- Items and requests as holders. -/
structure TakeoverView (shares : η → η → Prop) (view : γ → η) (ask : β → η) : Prop where
  meets_iff : ∀ request item, meets request item ↔ shares (ask request) (view item)
  view_make : ∀ request previous, view (make request previous) = ask request

/-- The item of a place: one from the beginning, or one that was made for a request. -/
def IsItem (items : List γ) (requests : List β) (place : ℕ) (item : γ) : Prop :=
  items[place]? = some item ∨ ∃ number request previous, place = items.length + number ∧
    requests[number]? = some request ∧ item = make request previous

variable {meets make} {shares : η → η → Prop} [DecidableRel shares] {view : γ → η} {ask : β → η}
  {items : List γ} {requests : List β} {n : ℕ}

variable (shares meets make view ask items requests n) in
/-- The items after some requests, each with its place. -/
structure LabelledItems (labelled : List (ℕ × γ)) : Prop where
  contents : labelled.map Prod.snd = (requests.take n).foldl (takeOver meets make) items
  places : labelled.map Prod.fst = keptPlaces shares (items.map view) (requests.map ask) n
  isItem : ∀ entry ∈ labelled, IsItem make items requests entry.1 entry.2

omit [DecidableEq γ] [∀ b, DecidablePred (meets b)] in
theorem IsItem.holder {ρ : Type*} {see : γ → ρ} {want : β → ρ}
    (hsee : ∀ request previous, see (make request previous) = want request) {place : ℕ} {item : γ}
    (h : IsItem make items requests place item) :
    (items.map see ++ requests.map want)[place]? = some (see item) := by
  rcases h with h | ⟨number, request, previous, rfl, hrequest, rfl⟩
  · have hlt := (List.getElem?_eq_some_iff.mp h).1
    rw [List.getElem?_append_left (by rwa [List.length_map]), List.getElem?_map, h]
    rfl
  · rw [List.getElem?_append_right (by rw [List.length_map]; exact Nat.le_add_right _ _),
      List.length_map, Nat.add_sub_cancel_left, List.getElem?_map, hrequest, hsee]
    rfl

variable (hview : TakeoverView meets make shares view ask)

include hview in
omit [DecidableEq γ] [∀ b, DecidablePred (meets b)] [DecidableRel shares] in
theorem IsItem.meets_iff {place : ℕ} {item : γ} (h : IsItem make items requests place item)
    {request : β} (hn : requests[n]? = some request) :
    meets request item ↔
      SharesAt shares (items.map view) (requests.map ask) n place := by
  have hask : (requests.map ask)[n]? = some (ask request) := by
    rw [List.getElem?_map, hn]
    rfl
  rw [hview.meets_iff, SharesAt]
  constructor
  · exact fun hshares => ⟨_, hask, _, h.holder hview.view_make, hshares⟩
  · rintro ⟨asked, hasked, holder, hholder, hshares⟩
    rw [Option.mem_def, hask] at hasked
    rw [Option.mem_def, h.holder hview.view_make] at hholder
    exact Option.some.inj hasked ▸ Option.some.inj hholder ▸ hshares

theorem labelledItems_zero : ∃ labelled,
    LabelledItems meets make shares view ask items requests 0 labelled := by
  refine ⟨items.zipIdx.map Prod.swap, ?_, ?_, ?_⟩
  · rw [List.map_map]
    exact List.zipIdx_map_fst 0 items
  · have hplaces : keptPlaces shares (items.map view) (requests.map ask) 0 =
        List.range items.length := by
      rw [keptPlaces, List.length_map, Nat.add_zero]
      exact List.filter_eq_self.mpr fun _ _ => rfl
    rw [hplaces, List.map_map]
    exact (List.zipIdx_map_snd 0 items).trans List.range_eq_range'.symm
  · intro entry hentry
    obtain ⟨⟨item, place⟩, hmem, rfl⟩ := List.mem_map.mp hentry
    exact .inl (List.mem_zipIdx_iff_getElem?.mp hmem)

include hview in
/-- One more request keeps the labels and answers at the place it shares. -/
theorem LabelledItems.succ {labelled : List (ℕ × γ)}
    (h : LabelledItems meets make shares view ask items requests n labelled) {request : β}
    (hn : requests[n]? = some request) :
    ∃ labelled', LabelledItems meets make shares view ask items requests (n + 1) labelled' ∧
      ∃ found : Option (ℕ × γ),
        ((requests.take n).foldl (takeOver meets make) items).find? (meets request) =
          found.map Prod.snd ∧
        (keptPlaces shares (items.map view) (requests.map ask) n).find?
          (SharesAt shares (items.map view) (requests.map ask) n) = found.map Prod.fst ∧
        ∀ entry ∈ found, IsItem make items requests entry.1 entry.2 := by
  have htaken : ∀ entry ∈ labelled, (decide (meets request entry.2) : Bool) =
      decide (SharesAt shares (items.map view) (requests.map ask) n entry.1) :=
    fun entry hentry => decide_eq_decide.mpr ((h.isItem entry hentry).meets_iff hview hn)
  have hnew : IsItem make items requests (items.length + n) (make request
      (((requests.take n).foldl (takeOver meets make) items).find? (meets request))) :=
    .inr ⟨n, request, _, rfl, hn, rfl⟩
  have hfold : (requests.take (n + 1)).foldl (takeOver meets make) items =
      takeOver meets make ((requests.take n).foldl (takeOver meets make) items) request := by
    rw [List.take_add_one, hn, Option.toList_some, List.foldl_append]
    rfl
  generalize hitems : (requests.take n).foldl (takeOver meets make) items = before at *
  have hplaces : (labelled.map Prod.fst).eraseP
      (SharesAt shares (items.map view) (requests.map ask) n) =
      (labelled.eraseP fun entry => meets request entry.2).map Prod.fst := by
    rw [List.eraseP_map, eraseP_congr htaken]
    rfl
  refine ⟨(labelled.eraseP fun entry => meets request entry.2) ++
    [(items.length + n, make request (before.find? (meets request)))], ⟨?_, ?_, ?_⟩, ?_⟩
  · rw [hfold, takeOver, elim_erase_eq_eraseP, ← hitems, ← h.contents, List.map_append,
      List.eraseP_map]
    rfl
  · rw [keptPlaces_succ, ← h.places, hplaces, List.map_append, List.length_map]
    rfl
  · intro entry hentry
    rcases List.mem_append.mp hentry with hmem | hmem
    · exact h.isItem entry (List.mem_of_mem_eraseP hmem)
    · obtain rfl := List.mem_singleton.mp hmem
      exact hnew
  · refine ⟨labelled.find? fun entry => meets request entry.2, ?_, ?_, fun entry hentry =>
      h.isItem entry (List.mem_of_find?_eq_some hentry)⟩
    · rw [← hitems, ← h.contents, List.find?_map]
      rfl
    · rw [← h.places, List.find?_map, List.find?_congr htaken]
      rfl

include hview in
variable (items) in
theorem exists_labelledItems (hn : n ≤ requests.length) :
    ∃ labelled, LabelledItems meets make shares view ask items requests n labelled := by
  induction n with
  | zero => exact labelledItems_zero
  | succ n ih =>
    obtain ⟨labelled, hlabelled⟩ := ih (by omega)
    obtain ⟨labelled', hlabelled', -⟩ := hlabelled.succ hview (List.getElem?_eq_getElem hn)
    exact ⟨labelled', hlabelled'⟩

variable (meets make shares view ask items requests) in
/-- What a run of requests leaves and replaces. -/
structure TakeoverRun : Prop where
  kept : ∀ place, Kept shares (items.map view) (requests.map ask) place →
    ∃ item ∈ requests.foldl (takeOver meets make) items, IsItem make items requests place item
  item : ∀ item ∈ requests.foldl (takeOver meets make) items, ∃ place,
    Kept shares (items.map view) (requests.map ask) place ∧
      IsItem make items requests place item
  /-- A request replaces the item of the place that it takes over. -/
  replaced : ∀ number request, requests[number]? = some request →
    ∃ found : Option (ℕ × γ),
      ((requests.take number).foldl (takeOver meets make) items).find? (meets request) =
        found.map Prod.snd ∧
      (∀ place, TakesOver shares (items.map view) (requests.map ask) number place ↔
        found.map Prod.fst = some place) ∧
      ∀ entry ∈ found, IsItem make items requests entry.1 entry.2

include hview in
theorem takeoverRun : TakeoverRun meets make shares view ask items requests := by
  obtain ⟨labelled, hlabelled⟩ := exists_labelledItems items hview (le_refl requests.length)
  have hcontents := hlabelled.contents
  have hplaces := hlabelled.places
  rw [List.take_length] at hcontents
  refine ⟨fun place hplace => ?_, fun item hitem => ?_, fun number request hrequest => ?_⟩
  · rw [Kept, List.length_map, ← hplaces] at hplace
    obtain ⟨entry, hentry, rfl⟩ := List.mem_map.mp hplace
    exact ⟨entry.2, hcontents ▸ List.mem_map_of_mem hentry, hlabelled.isItem entry hentry⟩
  · rw [← hcontents] at hitem
    obtain ⟨entry, hentry, rfl⟩ := List.mem_map.mp hitem
    refine ⟨entry.1, ?_, hlabelled.isItem entry hentry⟩
    rw [Kept, List.length_map, ← hplaces]
    exact List.mem_map_of_mem hentry
  · have hlt := (List.getElem?_eq_some_iff.mp hrequest).1
    obtain ⟨before, hbefore⟩ := exists_labelledItems items hview hlt.le
    obtain ⟨-, -, found, hfind, hplace, hitem⟩ := hbefore.succ hview hrequest
    refine ⟨found, hfind, fun place => ?_, hitem⟩
    rw [TakesOver, List.length_map, getElem?_takeovers hlt, hplace, Option.some.injEq]

variable (meets make) in
/-- The items that a run of requests replaces. -/
def replacedItems : List γ → List β → List γ
  | _, [] => []
  | items, request :: rest =>
    (items.find? (meets request)).toList ++ replacedItems (takeOver meets make items request) rest

theorem mem_replacedItems {item : γ} : item ∈ replacedItems meets make items requests ↔
    ∃ number request, requests[number]? = some request ∧
      ((requests.take number).foldl (takeOver meets make) items).find? (meets request) =
        some item := by
  induction requests generalizing items with
  | nil => simp [replacedItems]
  | cons first rest ih =>
    rw [replacedItems, List.mem_append, Option.mem_toList, ih]
    constructor
    · rintro (h | ⟨number, request, hrequest, hfind⟩)
      · exact ⟨0, first, rfl, h⟩
      · exact ⟨number + 1, request, hrequest, hfind⟩
    · rintro ⟨number, request, hrequest, hfind⟩
      cases number with
      | zero =>
        cases hrequest
        exact .inl hfind
      | succ number => exact .inr ⟨number, request, hrequest, hfind⟩

namespace TakeoverRun

variable {ρ : Type*} (see : γ → ρ) (want : β → ρ) (Q : ρ → Prop)

theorem exists_item_iff (h : TakeoverRun meets make shares view ask items requests)
    (hsee : ∀ request previous, see (make request previous) = want request) :
    (∃ item ∈ requests.foldl (takeOver meets make) items, Q (see item)) ↔
      ∃ place, Kept shares (items.map view) (requests.map ask) place ∧
        ∃ holder ∈ (items.map see ++ requests.map want)[place]?, Q holder := by
  constructor
  · rintro ⟨item, hmem, hQ⟩
    obtain ⟨place, hkept, hitem⟩ := h.item item hmem
    exact ⟨place, hkept, see item, hitem.holder hsee, hQ⟩
  · rintro ⟨place, hkept, holder, hholder, hQ⟩
    obtain ⟨item, hmem, hitem⟩ := h.kept place hkept
    rw [Option.mem_def, hitem.holder hsee] at hholder
    cases hholder
    exact ⟨item, hmem, hQ⟩

theorem forall_replaced_iff (h : TakeoverRun meets make shares view ask items requests)
    (hsee : ∀ request previous, see (make request previous) = want request) :
    (∀ item ∈ replacedItems meets make items requests, Q (see item)) ↔
      ∀ number place, TakesOver shares (items.map view) (requests.map ask) number place →
        ∀ holder ∈ (items.map see ++ requests.map want)[place]?, Q holder := by
  constructor
  · intro hall number place htakes holder hholder
    have hlt := (lt_of_takesOver htakes).1
    rw [List.length_map] at hlt
    obtain ⟨found, hfind, hplace, hitem⟩ :=
      h.replaced number _ (List.getElem?_eq_getElem hlt)
    obtain ⟨entry, rfl, rfl⟩ := Option.map_eq_some_iff.mp ((hplace place).mp htakes)
    have hread := (hitem entry rfl).holder hsee
    rw [Option.mem_def, hread] at hholder
    cases hholder
    exact hall entry.2 (mem_replacedItems.mpr ⟨number, _, List.getElem?_eq_getElem hlt, hfind⟩)
  · intro hall item hmem
    obtain ⟨number, request, hrequest, hfind⟩ := mem_replacedItems.mp hmem
    obtain ⟨found, hfound, hplace, hitem⟩ := h.replaced number request hrequest
    rw [hfind] at hfound
    obtain ⟨entry, rfl, rfl⟩ := Option.map_eq_some_iff.mp hfound.symm
    exact hall number entry.1 ((hplace entry.1).mpr rfl) _ ((hitem entry rfl).holder hsee)

end TakeoverRun

end Runs

end StockProfiler
