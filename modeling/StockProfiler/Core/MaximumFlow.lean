import Mathlib.Algebra.Order.Archimedean.Basic
import Mathlib.Data.Finset.Card
import StockProfiler.Core.Decimal
import StockProfiler.Core.Dict
import StockProfiler.Core.Flow

/-!
# Augmenting shortest residual paths

A network keeps the residual of every arc in a dictionary of dictionaries. The
loop searches breadth-first for a path of positive residuals from source to
sink, takes the smallest residual along it, and repeats until the sink is not
found. Its step count is explicit; in exact arithmetic the residuals keep one
common denominator, so finitely many steps are always enough.
-/

namespace StockProfiler

/-- The residual capacities of a graph, node by node. -/
abbrev Network (ν : Type*) := Dict ν (Dict ν ℚ)

namespace Network

variable {steps : ℕ} {ν : Type*} [DecidableEq ν]

/-- The entries of one node. -/
def arcsFrom (g : Network ν) (u : ν) : Dict ν ℚ := (g.get? u).getD []

/-- The residual between two nodes, zero where there is no entry. -/
def residual (g : Network ν) (u v : ν) : ℚ := ((g.arcsFrom u).get? v).getD 0

/-- Overwrite one residual. -/
def setResidual (g : Network ν) (u v : ν) (x : ℚ) : Network ν := g.set u ((g.arcsFrom u).set v x)

variable (ctx : DecimalContext)

/-- Add the capacity of an arc, and an entry for undoing it. -/
def addEdge (g : Network ν) (a : Arc ν) : Network ν :=
  let g := g.setResidual a.tail a.head (ctx.add (g.residual a.tail a.head) a.capacity)
  g.set a.head ((g.arcsFrom a.head).setDefault a.tail 0)

/-- The network of a list of arcs over some first nodes. -/
def ofArcs (nodes : List ν) (arcs : List (Arc ν)) : Network ν :=
  arcs.foldl (addEdge ctx) (nodes.map (·, []))

/-- The state of a breadth-first search. -/
structure Search (ν : Type*) where
  parents : Dict ν ν
  queue : List ν
  visited : List ν

/-- Visit a node over a positive residual unless it was visited before. -/
def discover (g : Network ν) (u : ν) (s : Search ν) (v : ν) : Search ν :=
  if 0 < g.residual u v ∧ v ∉ s.visited then
    { parents := s.parents.set v u
      queue := s.queue ++ [v]
      visited := s.visited ++ [v] }
  else s

/-- Visit the neighbours of one node. -/
def expand (g : Network ν) (u : ν) (s : Search ν) : Search ν :=
  (g.arcsFrom u).keys.foldl (discover g u) s

/-- Take nodes from the queue until it is empty or the sink was visited. -/
def searchFrom (g : Network ν) (sink : ν) : ℕ → Search ν → Search ν
  | 0, s => s
  | steps + 1, s =>
    match s.queue with
    | [] => s
    | u :: rest =>
      if sink ∈ s.visited then s
      else searchFrom g sink steps (g.expand u { s with queue := rest })

/-- Search from the source with one step for every node. -/
def search (g : Network ν) (source sink : ν) : Search ν :=
  searchFrom g sink g.length ⟨[], [source], [source]⟩

/-- Follow parents from a node back to the source. -/
def pathTo (parents : Dict ν ν) (source : ν) : ℕ → ν → Option (List (ν × ν))
  | 0, target => if target = source then some [] else none
  | steps + 1, target =>
    if target = source then some []
    else (parents.get? target).bind fun u =>
      (pathTo parents source steps u).map ((u, target) :: ·)

variable (amount : ℚ)

/-- Take an amount from one arc and allow it to be undone. -/
def push (g : Network ν) (e : ν × ν) : Network ν :=
  let g := g.setResidual e.1 e.2 (ctx.sub (g.residual e.1 e.2) amount)
  g.setResidual e.2 e.1 (ctx.add (g.residual e.2 e.1) amount)

/-- Augment shortest residual paths until the sink is out of reach. -/
def maximumFlow (ctx : DecimalContext) (source sink : ν) :
    ℕ → ℚ → Network ν → Option (ℚ × Network ν)
  | 0, _, _ => none
  | steps + 1, total, g =>
    let found := g.search source sink
    if sink ∉ found.visited then some (total, g)
    else
      (pathTo found.parents source found.visited.length sink).bind fun path =>
        (path.map fun e => g.residual e.1 e.2).min?.bind fun amount =>
          maximumFlow ctx source sink steps (ctx.add total amount)
            (path.foldl (push ctx amount) g)

theorem arcsFrom_set (g : Network ν) (u : ν) (d : Dict ν ℚ) (x : ν) :
    arcsFrom (g.set u d) x = if u = x then d else g.arcsFrom x := by
  rw [arcsFrom, Dict.get?_set]
  split <;> rfl

theorem residual_setResidual (g : Network ν) (u v : ν) (x : ℚ) (a b : ν) :
    residual (g.setResidual u v x) a b = if (a, b) = (u, v) then x else g.residual a b := by
  rw [residual, setResidual, arcsFrom_set]
  by_cases h : u = a
  · subst h
    rw [if_pos rfl, Dict.get?_set]
    by_cases hv : v = b
    · subst hv
      simp
    · simp [hv, Ne.symm hv, residual]
  · simp [h, Ne.symm h, residual]

theorem residual_addEdge (g : Network ν) (a : Arc ν) (x y : ν) :
    residual (addEdge .exact g a) x y =
      g.residual x y + if a.tail = x ∧ a.head = y then a.capacity else 0 := by
  have hdefault : ∀ h : Network ν, residual (h.set a.head ((h.arcsFrom a.head).setDefault a.tail 0))
      x y = h.residual x y := by
    intro h
    rw [residual, arcsFrom_set, residual]
    by_cases hx : a.head = x
    · subst hx
      rw [if_pos rfl, Dict.get?_setDefault]
      cases hget : (h.arcsFrom a.head).get? y with
      | some z => simp
      | none => by_cases hy : a.tail = y <;> simp [hy]
    · rw [if_neg hx]
  rw [addEdge, hdefault, residual_setResidual, DecimalContext.exact_add]
  by_cases h : a.tail = x ∧ a.head = y
  · rw [if_pos h, if_pos (Prod.ext h.1.symm h.2.symm), h.1, h.2]
  · rw [if_neg h, if_neg fun he => h ⟨(congrArg Prod.fst he).symm, (congrArg Prod.snd he).symm⟩,
      add_zero]

theorem residual_ofArcs (nodes : List ν) (arcs : List (Arc ν)) (x y : ν) :
    residual (ofArcs .exact nodes arcs) x y = capacityOf arcs x y := by
  have hfold : ∀ g : Network ν, residual (arcs.foldl (addEdge .exact) g) x y =
      g.residual x y + capacityOf arcs x y := by
    induction arcs with
    | nil => intro g; simp [capacityOf]
    | cons a arcs ih =>
      intro g
      rw [List.foldl_cons, ih, residual_addEdge, capacityOf, capacityOf, sumWhere_cons, add_assoc]
  have hnil : residual (nodes.map (·, ([] : Dict ν ℚ))) x y = 0 := by
    rw [residual, arcsFrom]
    cases hget : Dict.get? (nodes.map (·, ([] : Dict ν ℚ))) x with
    | none => rfl
    | some d =>
      obtain ⟨n, -, hn⟩ := List.mem_map.mp (Dict.mem_of_get? hget)
      cases hn
      rfl
  rw [ofArcs, hfold, hnil, zero_add]

theorem residual_push (g : Network ν) {e : ν × ν} (he : e.1 ≠ e.2) :
    residual (push .exact amount g e) = pushArc amount g.residual e := by
  obtain ⟨u, v⟩ := e
  funext x y
  have hne : ¬(v = u ∧ u = v) := fun h => he h.2
  simp only [push, residual_setResidual, pushArc, DecimalContext.exact_add,
    DecimalContext.exact_sub, Prod.mk.injEq, hne, if_false]
  by_cases hback : x = v ∧ y = u
  · obtain ⟨rfl, rfl⟩ := hback
    simp [Ne.symm he]
  · have hback' : ¬(y = u ∧ x = v) := fun h => hback ⟨h.2, h.1⟩
    rw [if_neg hback, if_neg hback', add_zero]
    split
    · rename_i h
      rw [h.1, h.2]
    · ring

theorem residual_foldl_push {path : List (ν × ν)} (hpath : ∀ e ∈ path, e.1 ≠ e.2) (g : Network ν) :
    residual (path.foldl (push .exact amount) g) = path.foldl (pushArc amount) g.residual := by
  induction path generalizing g with
  | nil => rfl
  | cons e path ih =>
    rw [List.foldl_cons, List.foldl_cons, ih (fun e he => hpath e (List.mem_cons_of_mem _ he)),
      residual_push amount g (hpath e (List.mem_cons_self ..))]

theorem mem_keys_of_residual_pos {g : Network ν} {u v : ν} (h : 0 < g.residual u v) :
    v ∈ (g.arcsFrom u).keys := by
  rw [Dict.mem_keys_iff]
  by_contra hnone
  rw [Option.not_isSome_iff_eq_none] at hnone
  rw [residual, hnone] at h
  exact lt_irrefl _ h

/-- What the search keeps true: it remembers an earlier parent for every node it visits. -/
structure SearchInv (g : Network ν) (source : ν) (V : Finset ν) (s : Search ν) : Prop where
  source_mem : source ∈ s.visited
  nodup : s.visited.Nodup
  subset : ∀ v ∈ s.visited, v ∈ V
  queue_subset : ∀ u ∈ s.queue, u ∈ s.visited
  parent : ∀ v ∈ s.visited, v ≠ source → ∃ u ∈ s.visited, s.parents.get? v = some u ∧
    0 < g.residual u v ∧ s.visited.idxOf u < s.visited.idxOf v

/-- All neighbours of a node were visited. -/
def Settled (g : Network ν) (s : Search ν) (u : ν) : Prop :=
  ∀ v, 0 < g.residual u v → v ∈ s.visited

variable {g : Network ν} {source sink : ν} {V : Finset ν} {s : Search ν}

theorem discover_visited_mono (u v : ν) {w : ν} (hw : w ∈ s.visited) :
    w ∈ (discover g u s v).visited := by
  rw [discover]
  split
  · exact List.mem_append_left _ hw
  · exact hw

/-- Discovering one node keeps the search invariant. -/
theorem SearchInv.discover (hV : SupportedOn V g.residual) (h : SearchInv g source V s) {u : ν}
    (hu : u ∈ s.visited) (v : ν) : SearchInv g source V (discover g u s v) := by
  rw [Network.discover]
  split
  case isFalse => exact h
  rename_i hnew
  obtain ⟨hpos, hnew⟩ := hnew
  refine ⟨List.mem_append_left _ h.source_mem, ?_, ?_, ?_, ?_⟩
  · refine List.nodup_append.mpr ⟨h.nodup, List.nodup_singleton v, fun a ha b hb hab => ?_⟩
    exact hnew (List.mem_singleton.mp hb ▸ hab ▸ ha)
  · intro w hw
    rcases List.mem_append.mp hw with hw | hw
    · exact h.subset w hw
    · exact List.mem_singleton.mp hw ▸ (hV u v hpos.ne').2
  · intro w hw
    rcases List.mem_append.mp hw with hw | hw
    · exact List.mem_append_left _ (h.queue_subset w hw)
    · exact List.mem_append_right _ hw
  · intro w hw hws
    rcases List.mem_append.mp hw with hw | hw
    · obtain ⟨p, hp, hget, hres, hlt⟩ := h.parent w hw hws
      have hne : v ≠ w := fun heq => hnew (heq ▸ hw)
      refine ⟨p, List.mem_append_left _ hp, ?_, hres, ?_⟩
      · rw [Dict.get?_set, if_neg hne, hget]
      · rw [List.idxOf_append_of_mem hp, List.idxOf_append_of_mem hw]
        exact hlt
    · cases List.mem_singleton.mp hw
      refine ⟨u, List.mem_append_left _ hu, ?_, hpos, ?_⟩
      · rw [Dict.get?_set, if_pos rfl]
      · rw [List.idxOf_append_of_mem hu, List.idxOf_append_of_notMem hnew]
        exact lt_of_lt_of_le (List.idxOf_lt_length_iff.mpr hu) (Nat.le_add_right _ _)

/-- What visiting the neighbours of one node does to the search. -/
structure Expanded (g : Network ν) (source : ν) (V : Finset ν) (u : ν) (s s' : Search ν) :
    Prop where
  inv : SearchInv g source V s'
  mono : ∀ w ∈ s.visited, w ∈ s'.visited
  queue_mono : ∀ w ∈ s.queue, w ∈ s'.queue
  fresh : ∀ w ∈ s'.visited, w ∈ s.visited ∨ w ∈ s'.queue
  settled : Settled g s' u
  balance : s'.queue.length + s.visited.length = s.queue.length + s'.visited.length

/-- Expanding a visited node keeps the search invariant and visits its neighbours. -/
theorem expand_spec (hV : SupportedOn V g.residual) (h : SearchInv g source V s) {u : ν}
    (hu : u ∈ s.visited) : Expanded g source V u s (g.expand u s) := by
  have hfold : ∀ (keys : List ν) (s : Search ν), SearchInv g source V s → u ∈ s.visited →
      let s' := keys.foldl (Network.discover g u) s
      SearchInv g source V s' ∧ (∀ w ∈ s.visited, w ∈ s'.visited) ∧
        (∀ w ∈ s.queue, w ∈ s'.queue) ∧ (∀ w ∈ s'.visited, w ∈ s.visited ∨ w ∈ s'.queue) ∧
        (∀ v ∈ keys, 0 < g.residual u v → v ∈ s'.visited) ∧
        s'.queue.length + s.visited.length = s.queue.length + s'.visited.length := by
    intro keys
    induction keys with
    | nil => exact fun s hs _ => ⟨hs, fun _ h => h, fun _ h => h, fun _ h => .inl h,
        nofun, rfl⟩
    | cons v keys ih =>
      intro s hs hu
      obtain ⟨hinv, hmono, hqueue, hfresh, hkeys, hbal⟩ :=
        ih _ (hs.discover hV hu v) (discover_visited_mono u v hu)
      refine ⟨hinv, fun w hw => hmono w (discover_visited_mono u v hw), ?_, ?_, ?_, ?_⟩
      · intro w hw
        refine hqueue w ?_
        rw [Network.discover]
        split
        · exact List.mem_append_left _ hw
        · exact hw
      · intro w hw
        rcases hfresh w hw with hw | hw
        · rw [Network.discover] at hw
          split at hw
          · rename_i hnew
            rcases List.mem_append.mp hw with hw | hw
            · exact .inl hw
            · refine .inr (hqueue w ?_)
              rw [Network.discover, if_pos hnew]
              exact List.mem_append_right _ hw
          · exact .inl hw
        · exact .inr hw
      · intro x hx hpos
        rcases List.mem_cons.mp hx with rfl | hx
        · refine hmono x ?_
          by_cases hvis : x ∈ s.visited
          · exact discover_visited_mono u x hvis
          · rw [Network.discover, if_pos ⟨hpos, hvis⟩]
            exact List.mem_append_right _ (List.mem_singleton_self x)
        · exact hkeys x hx hpos
      · have hone : (Network.discover g u s v).queue.length + s.visited.length =
            s.queue.length + (Network.discover g u s v).visited.length := by
          rw [Network.discover]
          split
          · simp only [List.length_append, List.length_singleton]
            omega
          · rfl
        rw [List.foldl_cons]
        omega
  obtain ⟨hinv, hmono, hqueue, hfresh, hkeys, hbal⟩ := hfold (g.arcsFrom u).keys s h hu
  exact ⟨hinv, hmono, hqueue, hfresh, fun v hpos => hkeys v (mem_keys_of_residual_pos hpos) hpos,
    hbal⟩

/-- Enough steps end the search with the sink visited or with every visited node settled. -/
theorem searchFrom_spec (hV : SupportedOn V g.residual) (h : SearchInv g source V s)
    (hsettled : ∀ u ∈ s.visited, u ∉ s.queue → Settled g s u)
    (hsteps : s.queue.length + V.card ≤ steps + s.visited.length) :
    SearchInv g source V (searchFrom g sink steps s) ∧
      (sink ∈ (searchFrom g sink steps s).visited ∨
        ∀ u ∈ (searchFrom g sink steps s).visited,
          Settled g (searchFrom g sink steps s) u) := by
  induction steps generalizing s with
  | zero =>
    have hle : s.visited.length ≤ V.card := by
      rw [← List.toFinset_card_of_nodup h.nodup]
      exact Finset.card_le_card fun v hv => h.subset v (List.mem_toFinset.mp hv)
    have hnil : s.queue = [] := List.length_eq_zero_iff.mp (by omega)
    refine ⟨h, .inr fun u hu => hsettled u hu ?_⟩
    rw [hnil]
    exact List.not_mem_nil
  | succ steps ih =>
    rw [searchFrom]
    cases hqueue : s.queue with
    | nil =>
      refine ⟨h, .inr fun u hu => hsettled u hu ?_⟩
      rw [hqueue]
      exact List.not_mem_nil
    | cons u rest =>
      simp only
      split
      · rename_i hsink
        exact ⟨h, .inl hsink⟩
      · have hrest : SearchInv g source V { s with queue := rest } :=
          { h with queue_subset := fun w hw =>
              h.queue_subset w (hqueue ▸ List.mem_cons_of_mem _ hw) }
        have hu : u ∈ s.visited := h.queue_subset u (hqueue ▸ List.mem_cons_self ..)
        have hexp := expand_spec hV hrest hu
        refine ih hexp.inv (fun w hw hnot => ?_) ?_
        · rcases hexp.fresh w hw with hold | hin
          · by_cases hwu : w = u
            · exact hwu ▸ hexp.settled
            · have hout : w ∉ s.queue := by
                rw [hqueue]
                intro hmem
                rcases List.mem_cons.mp hmem with heq | hmem
                · exact hwu heq
                · exact hnot (hexp.queue_mono w hmem)
              exact fun v hpos => hexp.mono v (hsettled w hold hout v hpos)
          · exact absurd hin hnot
        · have hbal := hexp.balance
          rw [hqueue, List.length_cons] at hsteps
          simp only at hbal
          omega

/-- Following parents from a visited node reaches the source along distinct arcs. -/
theorem SearchInv.pathTo (h : SearchInv g source V s) {target : ν} (htarget : target ∈ s.visited)
    (hsteps : s.visited.idxOf target ≤ steps) :
    ∃ path, Network.pathTo s.parents source steps target = some path ∧
      BackPath (fun u v => 0 < g.residual u v) source target path ∧ path.Nodup ∧
      ∀ e ∈ path, e.1 ∈ V ∧ e.2 ∈ V ∧ e.1 ≠ e.2 ∧
        s.visited.idxOf e.2 ≤ s.visited.idxOf target := by
  induction steps generalizing target with
  | zero =>
    have hsource : target = source := by
      by_contra hne
      obtain ⟨u, -, -, -, hlt⟩ := h.parent target htarget hne
      omega
    subst hsource
    exact ⟨[], if_pos rfl, .start, List.nodup_nil, fun e he => nomatch he⟩
  | succ steps ih =>
    by_cases hne : target = source
    · subst hne
      exact ⟨[], if_pos rfl, .start, List.nodup_nil, fun e he => nomatch he⟩
    · obtain ⟨u, hu, hget, hpos, hlt⟩ := h.parent target htarget hne
      obtain ⟨path, hpath, hback, hnodup, hrank⟩ := ih hu (by omega)
      refine ⟨(u, target) :: path, ?_, .step hpos hback, ?_, ?_⟩
      · rw [Network.pathTo, if_neg hne, hget, Option.bind_some, hpath, Option.map_some]
      · refine List.nodup_cons.mpr ⟨fun hmem => ?_, hnodup⟩
        exact absurd ((hrank _ hmem).2.2.2.trans_lt hlt) (lt_irrefl _)
      · intro e he
        rcases List.mem_cons.mp he with rfl | he
        · have hdiff : u ≠ target := by
            rintro rfl
            exact lt_irrefl _ hlt
          exact ⟨h.subset u hu, h.subset target htarget, hdiff, le_rfl⟩
        · obtain ⟨h₁, h₂, h₃, h₄⟩ := hrank e he
          exact ⟨h₁, h₂, h₃, h₄.trans hlt.le⟩

/-- Every residual is a whole number of parts of one denominator. -/
def DividedBy (denominator : ℕ) (r : ν → ν → ℚ) : Prop :=
  ∀ u v, ∃ n : ℤ, r u v * denominator = n

theorem DividedBy.foldl_pushArc {denominator : ℕ} {r : ν → ν → ℚ} (h : DividedBy denominator r)
    {amount : ℚ} {m : ℤ} (hamount : amount * denominator = m) (path : List (ν × ν)) :
    DividedBy denominator (path.foldl (pushArc amount) r) := by
  intro u v
  obtain ⟨n, hn⟩ := h u v
  refine ⟨n - path.count (u, v) * m + path.count (v, u) * m, ?_⟩
  rw [foldl_pushArc_apply]
  push_cast
  rw [← hn, ← hamount]
  ring

theorem supportedOn_foldl_pushArc {r : ν → ν → ℚ} (h : SupportedOn V r) {amount : ℚ}
    {path : List (ν × ν)} (hpath : ∀ e ∈ path, e.1 ∈ V ∧ e.2 ∈ V) :
    SupportedOn V (path.foldl (pushArc amount) r) := by
  intro u v hne
  by_contra hout
  refine hne ?_
  have hzero : r u v = 0 := by_contra fun hr => hout (h u v hr)
  have hforth : (u, v) ∉ path := fun hmem => hout (hpath _ hmem)
  have hback : (v, u) ∉ path := fun hmem => hout (hpath _ hmem).symm
  rw [foldl_pushArc_apply, hzero, List.count_eq_zero_of_not_mem hforth,
    List.count_eq_zero_of_not_mem hback]
  simp

theorem length_foldl_push {path : List (ν × ν)} (hpath : ∀ e ∈ path, e.1 ∈ g.keys ∧ e.2 ∈ g.keys) :
    (path.foldl (push ctx amount) g).keys = g.keys := by
  induction path generalizing g with
  | nil => rfl
  | cons e path ih =>
    obtain ⟨h₁, h₂⟩ := hpath e (List.mem_cons_self ..)
    have hone : (push ctx amount g e).keys = g.keys := by
      rw [push, setResidual, Dict.keys_set, setResidual, Dict.keys_set, if_pos h₁, if_pos h₂]
    rw [List.foldl_cons, ih, hone]
    intro e he
    rw [hone]
    exact hpath e (List.mem_cons_of_mem _ he)

/-- The state between two augmentations. -/
structure FlowInv (source sink : ν) (c : ν → ν → ℚ) (V : Finset ν) (denominator : ℕ)
    (total : ℚ) (g : Network ν) : Prop where
  residual : ResidualOf V source sink c g.residual
  supported : SupportedOn V g.residual
  denominator_pos : 0 < denominator
  divided : DividedBy denominator g.residual
  total_eq : total = netOut V c g.residual source
  nodes : g.keys.toFinset = V

/-- What the loop returns: residuals of the capacities, and a cut they do not leave. -/
structure FlowResult (source sink : ν) (c : ν → ν → ℚ) (V : Finset ν) (total : ℚ)
    (g : Network ν) : Prop where
  residual : ResidualOf V source sink c g.residual
  total_eq : total = netOut V c g.residual source
  cut : ∃ S ⊆ V, source ∈ S ∧ sink ∉ S ∧ ∀ u ∈ S, ∀ v, 0 < g.residual u v → v ∈ S

section Loop

variable {c : ν → ν → ℚ} {denominator : ℕ} {total : ℚ}
  (h : FlowInv source sink c V denominator total g) (hsource : source ∈ V)
include h hsource

theorem FlowInv.search :
    SearchInv g source V (g.search source sink) ∧
      (sink ∈ (g.search source sink).visited ∨
        ∀ u ∈ (g.search source sink).visited, Settled g (g.search source sink) u) := by
  refine searchFrom_spec h.supported ⟨List.mem_singleton_self _, List.nodup_singleton _, ?_, ?_, ?_⟩
    ?_ ?_
  · exact fun v hv => List.mem_singleton.mp hv ▸ hsource
  · exact fun u hu => hu
  · exact fun v hv hne => absurd (List.mem_singleton.mp hv) hne
  · exact fun u hu hnot => absurd hu hnot
  · have hcard : V.card ≤ g.length := by
      have hkeys : g.keys.length = g.length := List.length_map _
      rw [← h.nodes, ← hkeys]
      exact List.toFinset_card_le _
    simp only [List.length_singleton]
    omega

/-- One round: it ends with a cut, or takes a positive amount along a residual path. -/
theorem FlowInv.round (hne : source ≠ sink) (steps : ℕ) :
    (maximumFlow .exact source sink (steps + 1) total g = some (total, g) ∧
      FlowResult source sink c V total g) ∨
    ∃ amount g', maximumFlow .exact source sink (steps + 1) total g =
        maximumFlow .exact source sink steps (total + amount) g' ∧
      0 < amount ∧ (∃ m : ℤ, amount * denominator = m) ∧
      FlowInv source sink c V denominator (total + amount) g' := by
  obtain ⟨hinv, hend⟩ := h.search hsource
  rw [maximumFlow]
  by_cases hsink : sink ∈ (g.search source sink).visited
  · right
    obtain ⟨path, hpath, hback, hnodup, hrank⟩ := hinv.pathTo hsink
      (List.idxOf_lt_length_iff.mpr hsink).le
    have hcons : path ≠ [] := by
      rintro rfl
      cases hback
      exact hne rfl
    obtain ⟨amount, hamount⟩ : ∃ amount, (path.map fun e => g.residual e.1 e.2).min? =
        some amount :=
      Option.isSome_iff_exists.mp (by
        rw [List.isSome_min?_iff]
        exact fun hnil => hcons (List.map_eq_nil_iff.mp hnil))
    obtain ⟨hmem, hmin⟩ := List.min?_eq_some_iff.mp hamount
    obtain ⟨e, he, heq⟩ := List.mem_map.mp hmem
    have hpos : 0 < amount := heq ▸ hback.step_of_mem e he
    have hle : ∀ e ∈ path, amount ≤ g.residual e.1 e.2 := fun e he =>
      hmin _ (List.mem_map.mpr ⟨e, he, rfl⟩)
    have hV : ∀ e ∈ path, e.1 ∈ V ∧ e.2 ∈ V := fun e he => ⟨(hrank e he).1, (hrank e he).2.1⟩
    have hres : Network.residual (path.foldl (push .exact amount) g) =
        path.foldl (pushArc amount) g.residual :=
      residual_foldl_push amount (fun e he => (hrank e he).2.2.1) g
    obtain ⟨m, hm⟩ := h.divided e.1 e.2
    have hdiv : amount * denominator = m := heq ▸ hm
    refine ⟨amount, path.foldl (push .exact amount) g, ?_, hpos, ⟨m, hdiv⟩, ?_⟩
    · simp only [hsink, not_true_eq_false, if_false, hpath, Option.bind_some, hamount,
        DecimalContext.exact_add]
    · refine ⟨?_, ?_, h.denominator_pos, ?_, ?_, ?_⟩
      · rw [hres]
        exact h.residual.augment hback hnodup hV hpos.le hle
      · rw [hres]
        exact supportedOn_foldl_pushArc h.supported hV
      · rw [hres]
        exact h.divided.foldl_pushArc hdiv path
      · rw [hres, netOut_foldl_pushArc amount hback hV, if_pos rfl, if_neg hne,
          h.total_eq, sub_zero]
      · rw [length_foldl_push, h.nodes]
        intro e he
        have hmemV := hV e he
        rw [← h.nodes, List.mem_toFinset, List.mem_toFinset] at hmemV
        exact hmemV
  · left
    refine ⟨if_pos hsink, h.residual, h.total_eq, ?_⟩
    refine ⟨(g.search source sink).visited.toFinset, ?_, ?_, ?_, ?_⟩
    · exact fun v hv => hinv.subset v (List.mem_toFinset.mp hv)
    · exact List.mem_toFinset.mpr hinv.source_mem
    · exact fun hmem => hsink (List.mem_toFinset.mp hmem)
    · intro u hu v hpos
      exact List.mem_toFinset.mpr ((hend.resolve_left hsink) u (List.mem_toFinset.mp hu) v hpos)

/-- Each round takes at least one part, so as many rounds as there are parts left suffice. -/
theorem FlowInv.maximumFlow (hne : source ≠ sink)
    (hsteps : (∑ v ∈ V, c source v - total) * denominator < steps) :
    ∃ total' g', maximumFlow .exact source sink steps total g = some (total', g') ∧
      FlowResult source sink c V total' g' := by
  induction steps generalizing total g with
  | zero =>
    have hle : total ≤ ∑ v ∈ V, c source v := h.total_eq ▸ h.residual.netOut_le source
    have hpos : 0 ≤ (∑ v ∈ V, c source v - total) * denominator :=
      mul_nonneg (sub_nonneg.mpr hle) (Nat.cast_nonneg _)
    rw [Nat.cast_zero] at hsteps
    exact absurd hsteps (not_lt.mpr hpos)
  | succ steps ih =>
    rcases h.round hsource hne steps with ⟨hdone, hresult⟩ | ⟨amount, g', heq, hpos, ⟨m, hm⟩, hinv⟩
    · exact ⟨total, g, hdone, hresult⟩
    · rw [heq]
      refine ih hinv ?_
      have hone : (1 : ℚ) ≤ amount * denominator := by
        have hmpos : (0 : ℚ) < m := hm ▸ mul_pos hpos (Nat.cast_pos.mpr h.denominator_pos)
        rw [hm]
        exact_mod_cast Int.add_one_le_iff.mpr (Int.cast_pos.mp hmpos)
      push_cast at hsteps
      linarith

end Loop

theorem maximumFlow_mono {steps' : ℕ} (hle : steps ≤ steps') {total : ℚ} {result : ℚ × Network ν}
    (h : maximumFlow ctx source sink steps total g = some result) :
    maximumFlow ctx source sink steps' total g = some result := by
  induction steps generalizing steps' total g with
  | zero => exact nomatch h
  | succ steps ih =>
    obtain ⟨steps', rfl⟩ := Nat.exists_eq_add_of_lt (Nat.lt_of_succ_le hle)
    rw [maximumFlow] at h ⊢
    by_cases hsink : sink ∈ (g.search source sink).visited
    · simp only [hsink, not_true_eq_false, if_false] at h ⊢
      obtain ⟨path, hpath, h⟩ := Option.bind_eq_some_iff.mp h
      obtain ⟨amount, hamount, h⟩ := Option.bind_eq_some_iff.mp h
      rw [hpath, Option.bind_some, hamount, Option.bind_some]
      exact ih (by omega) h
    · simp only [hsink, not_false_eq_true, if_true] at h ⊢
      exact h

section Arcs

variable {nodes : List ν} {arcs : List (Arc ν)}

theorem mem_keys_ofArcs (ctx : DecimalContext) :
    (∀ n ∈ nodes, n ∈ (ofArcs ctx nodes arcs).keys) ∧
      ∀ a ∈ arcs, a.tail ∈ (ofArcs ctx nodes arcs).keys ∧
        a.head ∈ (ofArcs ctx nodes arcs).keys := by
  have hset : ∀ (d : Network ν) (k : ν) (v : Dict ν ℚ) (x : ν),
      x ∈ (Dict.set d k v).keys ↔ x ∈ d.keys ∨ x = k := by
    intro d k v x
    rw [Dict.keys_set]
    split
    · rename_i hk
      exact ⟨.inl, fun h => h.elim id fun h => h ▸ hk⟩
    · rw [List.mem_append, List.mem_singleton]
  have hedge : ∀ (g : Network ν) (a : Arc ν) (x : ν),
      x ∈ (addEdge ctx g a).keys ↔ x ∈ g.keys ∨ x = a.tail ∨ x = a.head := by
    intro g a x
    rw [addEdge, hset, setResidual, hset, or_assoc]
  have hfold : ∀ g : Network ν, (∀ x ∈ g.keys, x ∈ (arcs.foldl (addEdge ctx) g).keys) ∧
      ∀ a ∈ arcs, a.tail ∈ (arcs.foldl (addEdge ctx) g).keys ∧
        a.head ∈ (arcs.foldl (addEdge ctx) g).keys := by
    induction arcs with
    | nil => exact fun g => ⟨fun _ h => h, nofun⟩
    | cons b arcs ih =>
      intro g
      obtain ⟨hmono, harcs⟩ := ih (addEdge ctx g b)
      refine ⟨fun x hx => hmono x ((hedge g b x).mpr (.inl hx)), fun a ha => ?_⟩
      rcases List.mem_cons.mp ha with rfl | ha
      · exact ⟨hmono _ ((hedge g a _).mpr (.inr (.inl rfl))),
          hmono _ ((hedge g a _).mpr (.inr (.inr rfl)))⟩
      · exact harcs a ha
  obtain ⟨hmono, harcs⟩ := hfold (nodes.map (·, []))
  refine ⟨fun n hn => hmono n ?_, harcs⟩
  exact List.mem_map.mpr ⟨_, List.mem_map.mpr ⟨n, hn, rfl⟩, rfl⟩

theorem exists_dividedBy (arcs : List (Arc ν)) :
    ∃ denominator : ℕ, 0 < denominator ∧ DividedBy denominator (capacityOf arcs) := by
  induction arcs with
  | nil => exact ⟨1, Nat.one_pos, fun u v => ⟨0, by simp [capacityOf]⟩⟩
  | cons a arcs ih =>
    obtain ⟨d, hd, hdiv⟩ := ih
    refine ⟨a.capacity.den * d, Nat.mul_pos a.capacity.den_pos hd, fun u v => ?_⟩
    obtain ⟨n, hn⟩ := hdiv u v
    have hnum : a.capacity * a.capacity.den = a.capacity.num := Rat.mul_den_eq_num a.capacity
    rw [capacityOf] at hn ⊢
    rw [sumWhere_cons, add_mul]
    push_cast
    by_cases h : a.tail = u ∧ a.head = v
    · refine ⟨a.capacity.num * d + n * a.capacity.den, ?_⟩
      rw [if_pos h]
      push_cast
      rw [← hnum, ← hn]
      ring
    · refine ⟨n * a.capacity.den, ?_⟩
      rw [if_neg h]
      push_cast
      rw [← hn]
      ring

/-- What a residual network has taken from an arc, when it has not given more back. -/
def loadIn (g : Network ν) (a : Arc ν) : ℚ := max (a.capacity - g.residual a.tail a.head) 0

/-- A load of greatest value: feasible, conserved, and as large as some cut. -/
structure MaximumLoad (arcs : List (Arc ν)) (source sink : ν) (total : ℚ) (load : Arc ν → ℚ) :
    Prop extends FeasibleLoad arcs source sink load where
  total_eq : total = inflow arcs load sink - outflow arcs load sink
  cut : ∃ S : Finset ν, source ∈ S ∧ sink ∉ S ∧
    total = sumWhere arcs Arc.capacity (Arc.Leaves S)

/-- A finished search leaves a load of the greatest total. -/
theorem FlowResult.maximumLoad (hs : DistinctArcs arcs) (hcap : ∀ a ∈ arcs, 0 ≤ a.capacity)
    {total : ℚ} {g : Network ν} (hV : ∀ a ∈ arcs, a.tail ∈ V ∧ a.head ∈ V) (hsource : source ∈ V)
    (hsink : sink ∈ V)
    (hne : source ≠ sink) (h : FlowResult source sink (capacityOf arcs) V total g) :
    MaximumLoad arcs source sink total g.loadIn := by
  have hload : ∀ a ∈ arcs, g.loadIn a = taken (capacityOf arcs) g.residual a := fun a ha => by
    rw [loadIn, taken, hs.capacityOf_ends ha]
  have hin : ∀ v, inflow arcs g.loadIn v = inflow arcs (taken (capacityOf arcs) g.residual) v :=
    fun v => sumWhere_congr (fun _ _ => Iff.rfl) fun a ha _ => hload a ha
  have hout : ∀ v, outflow arcs g.loadIn v = outflow arcs (taken (capacityOf arcs) g.residual) v :=
    fun v => sumWhere_congr (fun _ _ => Iff.rfl) fun a ha _ => hload a ha
  have hnet : ∀ v, netOut V (capacityOf arcs) g.residual v =
      outflow arcs g.loadIn v - inflow arcs g.loadIn v := fun v => by
    rw [hin, hout, h.residual.netOut_eq hs hV]
  have hconserves : ∀ v, v ≠ source → v ≠ sink →
      inflow arcs g.loadIn v = outflow arcs g.loadIn v := fun v hvs hvt => by
    have hzero := h.residual.conserves v hvs hvt
    rw [hnet] at hzero
    linarith
  refine ⟨⟨fun a ha => ?_, hconserves⟩, ?_, ?_⟩
  · rw [hload a ha]
    exact h.residual.taken_bounds hs hcap ha
  · -- Nothing is created inside the network, so the source gives what the sink gets.
    have hzero : ∑ v ∈ V, (inflow arcs g.loadIn v - outflow arcs g.loadIn v) = 0 := by
      rw [sum_net_eq, sumWhere_eq_zero fun a ha he => he.2 (hV a ha).1,
        sumWhere_eq_zero fun a ha he => he.2 (hV a ha).2, sub_zero]
    have hsinkErase : sink ∈ V.erase source := Finset.mem_erase.mpr ⟨hne.symm, hsink⟩
    rw [← Finset.add_sum_erase _ _ hsource, ← Finset.add_sum_erase _ _ hsinkErase,
      Finset.sum_eq_zero (s := (V.erase source).erase sink), add_zero] at hzero
    · rw [h.total_eq, hnet]
      linarith
    · intro v hv
      obtain ⟨hvt, hv⟩ := Finset.mem_erase.mp hv
      rw [hconserves v (Finset.mem_erase.mp hv).1 hvt, sub_self]
  · obtain ⟨S, hS, hsourceS, hsinkS, hclosed⟩ := h.cut
    refine ⟨S, hsourceS, hsinkS, ?_⟩
    rw [h.total_eq, h.residual.netOut_source_eq_cut hS hsourceS hsinkS hclosed,
      sum_capacityOf_eq hV]

/-- On a network of distinct arcs the loop ends, whatever the capacities, and what it has
taken is a load of greatest value. -/
theorem exists_maximumFlow_ofArcs (hs : DistinctArcs arcs) (hcap : ∀ a ∈ arcs, 0 ≤ a.capacity)
    (hsource : source ∈ nodes) (hsink : sink ∈ nodes) (hne : source ≠ sink) :
    ∃ bound total g, (∀ steps, bound ≤ steps →
        maximumFlow .exact source sink steps 0 (ofArcs .exact nodes arcs) = some (total, g)) ∧
      MaximumLoad arcs source sink total g.loadIn ∧
      ∀ a ∈ arcs, (∀ b ∈ arcs, ¬(b.tail = a.head ∧ b.head = a.tail)) →
        g.residual a.tail a.head ≤ a.capacity := by
  obtain ⟨hnodes, harcs⟩ : (∀ n ∈ nodes, n ∈ (ofArcs .exact nodes arcs).keys) ∧
      ∀ a ∈ arcs, a.tail ∈ (ofArcs .exact nodes arcs).keys ∧
        a.head ∈ (ofArcs .exact nodes arcs).keys := mem_keys_ofArcs .exact
  have hV : ∀ a ∈ arcs, a.tail ∈ (ofArcs .exact nodes arcs).keys.toFinset ∧
      a.head ∈ (ofArcs .exact nodes arcs).keys.toFinset := fun a ha =>
    ⟨List.mem_toFinset.mpr (harcs a ha).1, List.mem_toFinset.mpr (harcs a ha).2⟩
  have hres : residual (ofArcs .exact nodes arcs) = capacityOf arcs :=
    funext fun x => funext fun y => residual_ofArcs nodes arcs x y
  obtain ⟨d, hd, hdiv⟩ := exists_dividedBy arcs
  have hinv : FlowInv source sink (capacityOf arcs) (ofArcs .exact nodes arcs).keys.toFinset d 0
      (ofArcs .exact nodes arcs) := by
    refine ⟨?_, ?_, hd, ?_, ?_, rfl⟩
    · rw [hres]
      exact ResidualOf.refl (capacityOf_nonneg hcap)
    · rw [hres]
      intro u v hne
      by_contra hout
      refine hne (sumWhere_eq_zero fun a ha he => hout ?_)
      exact ⟨he.1 ▸ (hV a ha).1, he.2 ▸ (hV a ha).2⟩
    · rw [hres]
      exact hdiv
    · simp [hres, netOut]
  have hsourceV := List.mem_toFinset.mpr (hnodes source hsource)
  have hsinkV := List.mem_toFinset.mpr (hnodes sink hsink)
  obtain ⟨bound, hbound⟩ := exists_nat_gt
    ((∑ v ∈ (ofArcs .exact nodes arcs).keys.toFinset, capacityOf arcs source v - 0) * d)
  obtain ⟨total, g, hrun, hresult⟩ := hinv.maximumFlow hsourceV hne hbound
  exact ⟨bound, total, g, fun steps hle => maximumFlow_mono .exact hle hrun,
    hresult.maximumLoad hs hcap hV hsourceV hsinkV hne,
    fun a ha hback => hresult.residual.le_capacity hs ha hback⟩

end Arcs

end Network

end StockProfiler
