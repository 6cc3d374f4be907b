import Mathlib.Data.List.Induction
import Mathlib.Order.Basic

/-!
# Runs that append to their own history

A step reads the outcomes before it and an input, and its outcome is appended to
the history that the next step sees. A fact about runs is proved once for the
empty run and once for one more step.
-/

namespace StockProfiler

variable {ι ω : Type*}

theorem split_snoc {α : Type*} {items earlier later : List α} {last a : α}
    (h : items ++ [last] = earlier ++ a :: later) :
    (later = [] ∧ earlier = items ∧ a = last) ∨
      ∃ front, later = front ++ [last] ∧ items = earlier ++ a :: front := by
  rcases List.eq_nil_or_concat later with rfl | ⟨front, final, rfl⟩
  · obtain ⟨rfl, hlast⟩ := List.append_inj' h rfl
    exact .inl ⟨rfl, rfl, (List.singleton_inj.mp hlast).symm⟩
  · rw [List.concat_eq_append, ← List.cons_append, ← List.append_assoc] at h
    obtain ⟨hitems, hlast⟩ := List.append_inj' h rfl
    rw [List.concat_eq_append, List.singleton_inj.mp hlast]
    exact .inr ⟨front, rfl, hitems⟩

/-- Every item of a list is explained by the items before it. -/
def Explained {α : Type*} (P : List α → α → Prop) (items : List α) : Prop :=
  ∀ earlier a later, items = earlier ++ a :: later → P earlier a

section Explained

variable {α : Type*} {P Q : List α → α → Prop} {items : List α} {last : α}

theorem explained_nil : Explained P [] :=
  fun _ _ _ h => absurd (congrArg List.length h) (by simp)

theorem explained_snoc : Explained P (items ++ [last]) ↔ Explained P items ∧ P items last := by
  refine ⟨fun h => ⟨fun earlier a later heq => ?_, h items last [] rfl⟩, fun h => ?_⟩
  · exact h earlier a (later ++ [last]) (by rw [heq, List.append_assoc, List.cons_append])
  · intro earlier a later heq
    rcases split_snoc heq with ⟨-, rfl, rfl⟩ | ⟨front, -, heq⟩
    · exact h.2
    · exact h.1 earlier a front heq

theorem Explained.of_mem (h : Explained P items) {a : α} (ha : a ∈ items) :
    ∃ earlier, earlier <+: items ∧ P earlier a := by
  obtain ⟨earlier, later, heq⟩ := List.append_of_mem ha
  exact ⟨earlier, ⟨a :: later, heq.symm⟩, h earlier a later heq⟩

end Explained

/-- One step of a run: the outcomes before it, its input and its own outcome. -/
structure HistoryStep (ι ω : Type*) where
  before : List ω
  input : ι
  outcome : ω

/-- The outcomes of the steps, in order. -/
def outcomes (run : List (HistoryStep ι ω)) : List ω := run.map (·.outcome)

@[simp] theorem outcomes_nil : outcomes ([] : List (HistoryStep ι ω)) = [] := rfl

@[simp] theorem outcomes_append (run rest : List (HistoryStep ι ω)) :
    outcomes (run ++ rest) = outcomes run ++ outcomes rest :=
  List.map_append

@[simp] theorem outcomes_singleton (step : HistoryStep ι ω) : outcomes [step] = [step.outcome] :=
  rfl

/-- A run in which every outcome is appended to the history of the next step. -/
inductive HistoryRun (step : List ω → ι → ω → Prop) : List (HistoryStep ι ω) → Prop where
  | nil : HistoryRun step []
  | snoc {run : List (HistoryStep ι ω)} {input : ι} {outcome : ω} (h : HistoryRun step run)
      (hstep : step (outcomes run) input outcome) :
      HistoryRun step (run ++ [⟨outcomes run, input, outcome⟩])

namespace HistoryRun

variable {step : List ω → ι → ω → Prop} {run : List (HistoryStep ι ω)}

/-- Every step of a run sees the outcomes of the steps before it. -/
theorem before_eq (h : HistoryRun step run) {earlier later : List (HistoryStep ι ω)}
    {e : HistoryStep ι ω} (hrun : run = earlier ++ e :: later) : e.before = outcomes earlier := by
  induction h generalizing later with
  | nil => exact absurd hrun (by simp)
  | @snoc run input outcome _ _ ih =>
    rcases split_snoc hrun with ⟨-, rfl, rfl⟩ | ⟨front, -, hrun⟩
    · rfl
    · exact ih hrun

/-- A fact that every step establishes, given that the steps before it have it, holds of
every step of a run. -/
theorem forall_mem {P : HistoryStep ι ω → Prop} (h : HistoryRun step run)
    (hP : ∀ {run input outcome}, HistoryRun step run → (∀ e ∈ run, P e) →
      step (outcomes run) input outcome → P ⟨outcomes run, input, outcome⟩) : ∀ e ∈ run, P e := by
  induction h with
  | nil => exact fun e he => nomatch he
  | snoc h hstep ih =>
    intro e he
    rcases List.mem_append.mp he with he | he
    · exact ih e he
    · exact List.mem_singleton.mp he ▸ hP h ih hstep

theorem step_of_mem (h : HistoryRun step run) {e : HistoryStep ι ω} (he : e ∈ run) :
    step e.before e.input e.outcome :=
  h.forall_mem (P := fun e => step e.before e.input e.outcome) (fun _ _ hstep => hstep) e he

/-- A relation from every earlier step to a new one, given that it holds so far, holds along
a run. -/
theorem pairwise {R : HistoryStep ι ω → HistoryStep ι ω → Prop} (h : HistoryRun step run)
    (hR : ∀ {run input outcome}, HistoryRun step run → run.Pairwise R →
      step (outcomes run) input outcome → ∀ e ∈ run, R e ⟨outcomes run, input, outcome⟩) :
    run.Pairwise R := by
  induction h with
  | nil => exact List.Pairwise.nil
  | snoc h hstep ih =>
    refine List.pairwise_append.mpr ⟨ih, List.pairwise_singleton .., fun e he last hlast => ?_⟩
    exact List.mem_singleton.mp hlast ▸ hR h ih hstep e he

theorem of_append {later : List (HistoryStep ι ω)} (h : HistoryRun step (run ++ later)) :
    HistoryRun step run := by
  generalize hall : run ++ later = all at h
  induction h generalizing later with
  | nil => exact (List.append_eq_nil_iff.mp hall).1 ▸ .nil
  | @snoc all input outcome h hstep ih =>
    rcases List.eq_nil_or_concat later with rfl | ⟨later, last, rfl⟩
    · rw [List.append_nil] at hall
      exact hall ▸ h.snoc hstep
    · rw [List.concat_eq_append, ← List.append_assoc] at hall
      exact ih (List.append_inj' hall rfl).1

theorem exists_split (h : HistoryRun step run) {e : HistoryStep ι ω} (he : e ∈ run) :
    ∃ earlier later, run = earlier ++ e :: later ∧ HistoryRun step earlier ∧
      e.before = outcomes earlier := by
  obtain ⟨earlier, later, hrun⟩ := List.append_of_mem he
  exact ⟨earlier, later, hrun, (hrun ▸ h).of_append, h.before_eq hrun⟩

/-- A relation holds along a run when it holds from every step to each later one, which continues
the run before it. -/
theorem pairwise_of_split {R : HistoryStep ι ω → HistoryStep ι ω → Prop} (h : HistoryRun step run)
    (hR : ∀ {earlier later e}, run = earlier ++ e :: later → HistoryRun step earlier → e.before =
      outcomes earlier → step e.before e.input e.outcome → ∀ first ∈ earlier, R first e) :
    run.Pairwise R := by
  induction h with
  | nil => exact List.Pairwise.nil
  | @snoc run input outcome h hstep ih =>
    refine List.pairwise_append.mpr ⟨ih ?_, List.pairwise_singleton .., fun first hfirst e he => ?_⟩
    · intro earlier later e hrun
      refine @hR earlier (later ++ [⟨outcomes run, input, outcome⟩]) e ?_
      rw [hrun, List.append_assoc, List.cons_append]
    · obtain rfl := List.mem_singleton.mp he
      exact hR rfl h rfl hstep first hfirst

end HistoryRun

/-- The latest value that a partial reading of the outcomes yields. -/
def latest {σ : Type*} (f : ω → Option σ) (history : List ω) : Option σ :=
  history.reverse.findSome? f

section Latest

variable {σ : Type*} {f : ω → Option σ}

@[simp] theorem latest_nil : latest f [] = none := rfl

@[simp] theorem latest_append_singleton (history : List ω) (o : ω) :
    latest f (history ++ [o]) = (f o).or (latest f history) := by
  rw [latest, List.reverse_append, List.reverse_singleton, List.singleton_append,
    List.findSome?_cons]
  cases f o <;> rfl

theorem latest_append (history later : List ω) :
    latest f (history ++ later) = (latest f later).or (latest f history) := by
  rw [latest, List.reverse_append, List.findSome?_append]
  rfl

theorem latest_eq_none {history : List ω} :
    latest f history = none ↔ ∀ o ∈ history, f o = none := by
  simp only [latest, List.findSome?_eq_none_iff, List.mem_reverse]

theorem latest_eq_some {history : List ω} {value : σ} (h : latest f history = some value) :
    ∃ earlier o later, history = earlier ++ o :: later ∧ f o = some value ∧
      ∀ x ∈ later, f x = none := by
  induction history using List.reverseRecOn with
  | nil => exact nomatch h
  | append_singleton history o ih =>
    rw [latest_append_singleton] at h
    cases ho : f o with
    | some x =>
      rw [ho, Option.some_or] at h
      exact ⟨history, o, [], rfl, ho.trans h, fun x hx => nomatch hx⟩
    | none =>
      rw [ho, Option.none_or] at h
      obtain ⟨earlier, o', later, rfl, ho', hlater⟩ := ih h
      refine ⟨earlier, o', later ++ [o], by simp, ho', fun x hx => ?_⟩
      rcases List.mem_append.mp hx with hx | hx
      · exact hlater x hx
      · exact List.mem_singleton.mp hx ▸ ho

theorem latest_eq_getLast? (history : List ω) :
    latest f history = (history.filterMap f).getLast? := by
  induction history using List.reverseRecOn with
  | nil => rfl
  | append_singleton history o ih =>
    rw [latest_append_singleton, ih, List.filterMap_append, List.getLast?_append]
    cases ho : f o with
    | none => rw [List.filterMap_cons_none ho]; rfl
    | some value => rw [List.filterMap_cons_some ho]; rfl

/-- The latest item that satisfies a test is read like the latest value of all items. -/
theorem bind_find?_reverse {P : ω → Bool} {g : ω → Option σ} {history : List ω}
    (h : ∀ o ∈ history, f o = if P o then g o else none) (hg : ∀ o ∈ history, P o → (g o).isSome) :
    (history.reverse.find? P).bind g = latest f history := by
  induction history using List.reverseRecOn with
  | nil => rfl
  | append_singleton history o ih =>
    have ih := ih (fun x hx => h x (List.mem_append_left _ hx))
      fun x hx => hg x (List.mem_append_left _ hx)
    have ho := h o (by simp)
    rw [latest_append_singleton, List.reverse_append, List.reverse_singleton,
      List.singleton_append, List.find?_cons, ho]
    cases hP : P o with
    | true =>
      obtain ⟨value, hvalue⟩ := Option.isSome_iff_exists.mp (hg o (by simp) hP)
      rw [Option.bind_some, hvalue]
      rfl
    | false => exact ih

theorem mem_of_latest {history : List ω} {value : σ} (h : latest f history = some value) :
    ∃ o ∈ history, f o = some value := by
  obtain ⟨earlier, o, later, rfl, ho, -⟩ := latest_eq_some h
  exact ⟨o, List.mem_append_right _ (List.mem_cons_self ..), ho⟩

namespace HistoryRun

variable {ι κ : Type*} {step : List ω → ι → ω → Prop} {run : List (HistoryStep ι ω)}

/-- A new fact continues the latest one, or has a key that no earlier fact has. -/
def Continues (f : ω → Option σ) (key : σ → κ) (R : σ → σ → Prop) (history : List ω) (next : σ) :
    Prop :=
  (∃ prior, latest f history = some prior ∧ key prior = key next ∧ R prior next) ∨
    ∀ o ∈ history, ∀ fact, f o = some fact → key fact ≠ key next

theorem Continues.of_append {f : ω → Option σ} {key : σ → κ} {R : σ → σ → Prop}
    {history later : List ω} {next : σ} (h : Continues f key R (history ++ later) next) :
    Continues f key R later next := by
  rcases h with ⟨prior, hprior, hkey, hrel⟩ | hunused
  · rw [latest_append] at hprior
    cases hlater : latest f later with
    | some last =>
      rw [hlater, Option.some_or] at hprior
      exact .inl ⟨prior, hlater.trans hprior, hkey, hrel⟩
    | none =>
      right
      intro o ho fact hfact
      exact nomatch hfact.symm.trans (latest_eq_none.mp hlater o ho)
  · exact .inr fun o ho => hunused o (List.mem_append_right _ ho)

variable (h : HistoryRun step run) (f : ω → Option σ) (key : σ → κ) (R : σ → σ → Prop)
  (hrefl : ∀ a, R a a) (htrans : ∀ {a b c}, R a b → R b c → R a c)
  (hstep : ∀ {history input outcome}, step history input outcome →
    ∀ next, f outcome = some next → Continues f key R history next)
include h hrefl htrans hstep

/-- When every fact continues the latest one or has a new key, all facts of one key lead to
the latest one. -/
theorem related_latest {e : HistoryStep ι ω} (he : e ∈ run) {fact last : σ}
    (hfact : f e.outcome = some fact) (hlast : latest f (outcomes run) = some last)
    (hkey : key fact = key last) : R fact last := by
  induction h generalizing last with
  | nil => exact nomatch he
  | @snoc run input outcome _ hnew ih =>
    rw [outcomes_append, outcomes_singleton, latest_append_singleton] at hlast
    rcases List.mem_append.mp he with he | he
    · cases houtcome : f outcome with
      | none =>
        rw [houtcome, Option.none_or] at hlast
        exact ih he hlast hkey
      | some next =>
        obtain rfl := Option.some.inj ((congrArg (Option.or · _) houtcome).symm.trans hlast)
        rcases hstep hnew next houtcome with ⟨prior, hprior, hpriorKey, hrel⟩ | hunused
        · exact htrans (ih he hprior (hkey.trans hpriorKey.symm)) hrel
        · exact absurd hkey (hunused _ (List.mem_map_of_mem he) fact hfact)
    · obtain rfl := List.mem_singleton.mp he
      rw [hfact, Option.some_or] at hlast
      exact Option.some.inj hlast ▸ hrefl fact

theorem pairwise_latest :
    run.Pairwise fun e e' => ∀ fact next, f e.outcome = some fact → f e'.outcome = some next →
      key fact = key next → R fact next := by
  refine h.pairwise fun {run input outcome} h _ hlast e he fact next hfact hnext hkey => ?_
  rcases hstep hlast next hnext with ⟨prior, hprior, hpriorKey, hrel⟩ | hunused
  · have hkeys := hkey.trans hpriorKey.symm
    exact htrans (h.related_latest f key R hrefl htrans hstep he hfact hprior hkeys) hrel
  · exact absurd hkey (hunused e.outcome (List.mem_map_of_mem he) fact hfact)

end HistoryRun

end Latest

/-- The run of a function over its inputs. -/
def trace (step : List ω → ι → ω) (inputs : List ι) : List (HistoryStep ι ω) :=
  inputs.foldl (fun run input => run ++ [⟨outcomes run, input, step (outcomes run) input⟩]) []

section Trace

variable (step : List ω → ι → ω)

theorem trace_append_singleton (inputs : List ι) (input : ι) :
    trace step (inputs ++ [input]) = trace step inputs ++
      [⟨outcomes (trace step inputs), input, step (outcomes (trace step inputs)) input⟩] := by
  rw [trace, List.foldl_append]
  rfl

theorem historyRun_trace (inputs : List ι) :
    HistoryRun (fun history input outcome => step history input = outcome) (trace step inputs) := by
  induction inputs using List.reverseRecOn with
  | nil => exact .nil
  | append_singleton inputs input ih =>
    rw [trace_append_singleton]
    exact ih.snoc rfl

end Trace

/-- The run of a function that may fail; an input without an outcome leaves no step. -/
def traceSome (step : List ω → ι → Option ω) (inputs : List ι) : List (HistoryStep ι ω) :=
  inputs.foldl (fun run input =>
    match step (outcomes run) input with
    | some outcome => run ++ [⟨outcomes run, input, outcome⟩]
    | none => run) []

theorem historyRun_traceSome (step : List ω → ι → Option ω) (inputs : List ι) :
    HistoryRun (fun history input outcome => step history input = some outcome)
      (traceSome step inputs) := by
  induction inputs using List.reverseRecOn with
  | nil => exact .nil
  | append_singleton inputs input ih =>
    rw [traceSome, List.foldl_append, ← traceSome, List.foldl_cons, List.foldl_nil]
    split
    · rename_i outcome houtcome
      exact ih.snoc houtcome
    · exact ih

/-- The last item whose key is greatest. -/
def lastMax {α κ : Type*} [LE κ] [DecidableLE κ] (key : α → κ) (items : List α) : Option α :=
  items.foldl (fun best item =>
    if best.all (fun b => key b ≤ key item) then some item else best) none

/-- In a list of increasing keys the last item is the one of the greatest key. -/
theorem lastMax_eq_getLast? {α κ : Type*} [Preorder κ] [DecidableLE κ] {key : α → κ}
    {items : List α} (h : items.Pairwise fun a b => key a ≤ key b) :
    lastMax key items = items.getLast? := by
  induction items using List.reverseRecOn with
  | nil => rfl
  | append_singleton items item ih =>
    obtain ⟨hitems, -, hlast⟩ := List.pairwise_append.mp h
    rw [lastMax, List.foldl_append, ← lastMax, ih hitems, List.getLast?_concat, List.foldl_cons,
      List.foldl_nil]
    refine if_pos ((Option.all_eq_true _ _).mpr fun b hb => decide_eq_true ?_)
    exact hlast b (List.mem_of_getLast? hb) item (List.mem_singleton_self item)

theorem mem_of_lastMax {α κ : Type*} [LE κ] [DecidableLE κ] {key : α → κ} {items : List α}
    {item : α} (h : lastMax key items = some item) : item ∈ items := by
  induction items using List.reverseRecOn with
  | nil => exact nomatch h
  | append_singleton items last ih =>
    rw [lastMax, List.foldl_append, ← lastMax, List.foldl_cons, List.foldl_nil] at h
    split at h
    · exact List.mem_append_right _ (List.mem_singleton.mpr (Option.some.inj h).symm)
    · exact List.mem_append_left _ (ih h)

/-- The inputs of a run are some of the inputs given, in order. -/
theorem inputs_traceSome_sublist {ι ω : Type*} (step : List ω → ι → Option ω) (inputs : List ι) :
    ((traceSome step inputs).map (·.input)).Sublist inputs := by
  induction inputs using List.reverseRecOn with
  | nil => exact List.Sublist.refl _
  | append_singleton inputs input ih =>
    rw [traceSome, List.foldl_append, ← traceSome, List.foldl_cons, List.foldl_nil]
    split
    · rw [List.map_append]
      exact ih.append (List.Sublist.refl _)
    · exact ih.trans (List.sublist_append_left _ _)

end StockProfiler
