import StockProfiler.Core.Dict

/-!
# Folds that are kept per key

A list of items grows by items that the fold over it, at some key, admits. The
folds that were asked for are kept, and an accepted item goes into every kept
fold. What is kept never decides an answer: `query_eq` and `accepted_accept`
read it back to the plain fold.
-/

namespace StockProfiler

/-- The items accepted so far, and the folds over them that were asked for. -/
structure CachedFold (σ τ δ : Type*) where
  accepted : List σ := []
  cached : Dict τ δ := []

namespace CachedFold

variable {σ τ δ : Type*} (add : τ → δ → σ → δ) (empty : δ)

/-- The fold at a key over a list of items. -/
def foldAt (items : List σ) (key : τ) : δ := items.foldl (add key) empty

@[simp] theorem foldAt_append_singleton (items : List σ) (item : σ) (key : τ) :
    foldAt add empty (items ++ [item]) key = add key (foldAt add empty items key) item :=
  List.foldl_concat ..

/-- Accept an item without keeping any fold. -/
def acceptPlain (admits : δ → σ → Bool) (items : List σ) (key : τ) (item : σ) : List σ :=
  if admits (foldAt add empty items key) item then items ++ [item] else items

/-- Every kept fold is the fold over the accepted items. -/
def Coherent (c : CachedFold σ τ δ) : Prop :=
  ∀ kept ∈ c.cached, kept.2 = foldAt add empty c.accepted kept.1

theorem coherent_empty : Coherent add empty ({} : CachedFold σ τ δ) :=
  nofun

/-- What is asked of a cached fold. -/
inductive Request (σ τ : Type*) where
  | query (key : τ)
  | accept (key : τ) (item : σ)

/-- Whether a request is an acceptance. -/
def Request.isAccept : Request σ τ → Bool
  | .query _ => false
  | .accept _ _ => true

/-- The items that a request leaves accepted, without keeping any fold. -/
def servePlain (admits : δ → σ → Bool) (items : List σ) : Request σ τ → List σ
  | .query _ => items
  | .accept key item => acceptPlain add empty admits items key item

variable [DecidableEq τ]

/-- Answer with a kept fold, or compute it and keep it. -/
def query (c : CachedFold σ τ δ) (key : τ) : δ × CachedFold σ τ δ :=
  match c.cached.get? key with
  | some kept => (kept, c)
  | none =>
    let computed := foldAt add empty c.accepted key
    (computed, { c with cached := c.cached.set key computed })

/-- Accept an item that the fold at a key admits, into every kept fold. -/
def accept (admits : δ → σ → Bool) (c : CachedFold σ τ δ) (key : τ) (item : σ) :
    CachedFold σ τ δ :=
  let (current, c) := c.query add empty key
  if admits current item then
    { accepted := c.accepted ++ [item]
      cached := c.cached.map fun kept => (kept.1, add kept.1 kept.2 item) }
  else c

/-- Serve one request. -/
def serve (admits : δ → σ → Bool) (c : CachedFold σ τ δ) : Request σ τ → CachedFold σ τ δ
  | .query key => (c.query add empty key).2
  | .accept key item => c.accept add empty admits key item

variable {add empty} {admits : δ → σ → Bool} {c : CachedFold σ τ δ}

theorem query_eq (h : Coherent add empty c) (key : τ) :
    (c.query add empty key).1 = foldAt add empty c.accepted key := by
  unfold query
  split
  · rename_i kept hkept
    exact h _ (Dict.mem_of_get? hkept)
  · rfl

@[simp] theorem accepted_query (c : CachedFold σ τ δ) (key : τ) :
    (c.query add empty key).2.accepted = c.accepted := by
  unfold query
  split <;> rfl

theorem coherent_query (h : Coherent add empty c) (key : τ) :
    Coherent add empty (c.query add empty key).2 := by
  unfold query
  split
  · exact h
  · intro kept hkept
    rcases Dict.mem_set hkept with rfl | hkept
    · rfl
    · exact h kept hkept

/-- A coherent cache accepts what the plain fold admits. -/
theorem accepted_accept (h : Coherent add empty c) (key : τ) (item : σ) :
    (c.accept add empty admits key item).accepted =
      acceptPlain add empty admits c.accepted key item := by
  have hcurrent := query_eq h key
  unfold accept acceptPlain
  dsimp only
  rw [hcurrent]
  split
  · exact congrArg (· ++ [item]) (accepted_query c key)
  · exact accepted_query c key

theorem coherent_accept (h : Coherent add empty c) (key : τ) (item : σ) :
    Coherent add empty (c.accept add empty admits key item) := by
  have hcoherent := coherent_query h key
  unfold accept
  dsimp only
  split
  · intro kept hkept
    obtain ⟨before, hbefore, rfl⟩ := List.mem_map.mp hkept
    dsimp only
    rw [foldAt_append_singleton, ← hcoherent before hbefore]
  · exact hcoherent

theorem foldl_serve (h : Coherent add empty c) (requests : List (Request σ τ)) :
    Coherent add empty (requests.foldl (serve add empty admits) c) ∧
      (requests.foldl (serve add empty admits) c).accepted =
        requests.foldl (servePlain add empty admits) c.accepted := by
  induction requests generalizing c with
  | nil => exact ⟨h, rfl⟩
  | cons request requests ih =>
    cases request with
    | query key =>
      have hrest := ih (coherent_query h key)
      rw [accepted_query] at hrest
      exact hrest
    | accept key item =>
      have haccept : Coherent add empty (c.accept add empty admits key item) :=
        coherent_accept h key item
      have hrest := ih haccept
      rw [accepted_accept h] at hrest
      exact hrest

variable (requests : List (Request σ τ))

/-- Whatever was asked before, the answer is the plain fold over what was accepted. -/
theorem query_foldl_serve (key : τ) :
    ((requests.foldl (serve add empty admits) {}).query add empty key).1 =
      foldAt add empty (requests.foldl (servePlain add empty admits) []) key := by
  obtain ⟨hcoherent, haccepted⟩ := foldl_serve (coherent_empty add empty) requests
  rw [query_eq hcoherent, haccepted]

omit [DecidableEq τ] in
theorem foldl_servePlain_filter (items : List σ) :
    (requests.filter (·.isAccept)).foldl (servePlain add empty admits) items =
      requests.foldl (servePlain add empty admits) items := by
  induction requests generalizing items with
  | nil => rfl
  | cons request requests ih =>
    cases request with
    | query key => exact ih items
    | accept key item => exact ih _

/-- What was queried before does not decide an answer. -/
theorem query_foldl_serve_filter (key : τ) :
    (((requests.filter (·.isAccept)).foldl (serve add empty admits) {}).query add empty key).1 =
      ((requests.foldl (serve add empty admits) {}).query add empty key).1 := by
  rw [query_foldl_serve, query_foldl_serve, foldl_servePlain_filter]

end CachedFold

end StockProfiler
