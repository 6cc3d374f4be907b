import Mathlib.Tactic.FieldSimp
import StockProfiler.Core.History
import StockProfiler.Prospective.FormalNodes

/-!
# Formal looks never overspend alpha

The ordinal of a look counts the executed ones, so the shares of the executed
looks telescope. Skipped nodes are consumed in order and spend nothing.
-/

namespace StockProfiler.Prospective

variable {watermark : CycleWatermark}

/-- One step of a registered cycle. -/
abbrev LookStep := HistoryStep CycleInput CycleFormalLook

variable {registration : CycleRegistration} {policy : FormalPolicy}
  {prior : List CycleFormalLook} {input : CycleInput} {look : CycleFormalLook}

/-- The last executed look. -/
def lastExecuted (prior : List CycleFormalLook) : Option CycleFormalLook :=
  ((nodeLooks prior).filter (·.executed)).getLast?

/-- The ordinal of the last executed look. -/
def lastOrdinal (prior : List CycleFormalLook) : ℕ :=
  (lastExecuted prior).elim 0 (·.actualOrdinal)

/-- The share of alpha that a number of executed looks spends. -/
def spentAlpha (policy : FormalPolicy) (executed : ℕ) : ℚ :=
  policy.totalAlpha * executed / (executed + 1)

/-- A look consumes the next registered node. -/
structure ConsumesNode (policy : FormalPolicy) (prior : List CycleFormalLook)
    (look : CycleFormalLook) : Prop where
  prefixed : (nodeLooks prior).map (·.nodeMonth) =
    (policy.nodeMonths.take (nodeLooks prior).length).map some
  next : ∃ nodeMonth, look.nodeMonth = some nodeMonth ∧
    policy.nodeMonths[(nodeLooks prior).length]? = some nodeMonth

/-- The ways in which the assessment of a look can end. -/
inductive LookCase (registration : CycleRegistration) (policy : FormalPolicy)
    (prior : List CycleFormalLook) (input : CycleInput) (look : CycleFormalLook) : Prop where
  /-- No node was checked. -/
  | waiting (hlook : look = waitingLook prior input.watermark)
  /-- The node was consumed without a look at the evidence. -/
  | skipped (hnode : ConsumesNode policy prior look) (hdisposition : look.disposition = .skipped)
      (hordinal : look.actualOrdinal = lastOrdinal prior) (hthis : look.alphaThis = 0)
      (hspent : look.alphaSpent = spentAlpha policy look.actualOrdinal)
  /-- The evidence was looked at. -/
  | executed (hnode : ConsumesNode policy prior look) (verdict : FormalVerdict)
      (hdisposition : look.disposition = verdict.disposition)
      (hinference : look.inference = some verdict)
      (hordinal : look.actualOrdinal = lastOrdinal prior + 1)
      (hthis : look.alphaThis = inferenceAlpha policy look)
      (hspent : look.alphaSpent = spentAlpha policy look.actualOrdinal)
      (hinfer : input.infer (inferenceAlpha policy look)
        (registration.seed + look.actualOrdinal) = .ok verdict)
      (hincrements : ∀ last ∈ lastExecuted prior,
        last.matureBatches + policy.incrementBatches ≤ look.matureBatches ∧
        last.nonoverlappingWindows + policy.incrementWindows ≤ look.nonoverlappingWindows)

/-- Nothing to wait for means that the evidence has grown by the increments. -/
theorem grown_of_waitingFor {last : Option CycleFormalLook} {missed : Bool}
    (h : waitingFor policy last watermark missed = []) :
    ∀ l ∈ last, l.matureBatches + policy.incrementBatches ≤ watermark.matureBatches ∧
      l.nonoverlappingWindows + policy.incrementWindows ≤ watermark.nonoverlappingWindows := by
  rintro l rfl
  unfold waitingFor at h
  simp only [List.append_eq_nil_iff, Option.elim_some] at h
  obtain ⟨⟨⟨hbatches, hwindows⟩, -⟩, -⟩ := h
  have hof : ∀ {p : Prop} [Decidable p] {name : String},
      (if p then [name] else []) = [] → ¬p := fun h hp => by
    rw [if_pos hp] at h
    exact nomatch h
  exact ⟨not_lt.mp (hof hbatches), not_lt.mp (hof hwindows)⟩

/-- What preparing a look guarantees. -/
structure Prepared (policy : FormalPolicy) (prior : List CycleFormalLook)
    (look : CycleFormalLook) : Prop where
  node : ConsumesNode policy prior look
  spent : look.alphaSpent = spentAlpha policy look.actualOrdinal
  ready : look.disposition ≠ .skipped → look.actualOrdinal = lastOrdinal prior + 1 ∧
    look.alphaThis = inferenceAlpha policy look ∧
    ∀ last ∈ lastExecuted prior,
      last.matureBatches + policy.incrementBatches ≤ look.matureBatches ∧
      last.nonoverlappingWindows + policy.incrementWindows ≤ look.nonoverlappingWindows
  skipped : look.disposition = .skipped → look.actualOrdinal = lastOrdinal prior ∧
    look.alphaThis = 0

/-- A prepared look consumes the next node and is ready or skipped. -/
theorem prepared_of_prepareFormalLook {nodeMonth : String} {missed : Bool}
    (h : prepareFormalLook .exact policy (nodeLooks prior) nodeMonth watermark missed = .ok look) :
    Prepared policy prior look := by
  unfold prepareFormalLook at h
  simp only [bind_eq_ok, require_eq_ok] at h
  obtain ⟨-, -, -, -, -, ⟨hconsumed, hnext⟩, h⟩ := h
  cases h
  rw [List.length_map] at hconsumed hnext
  have hgrown : waitingFor policy (lastExecuted prior) watermark missed = [] → _ :=
    grown_of_waitingFor
  rw [← lastExecuted]
  generalize waitingFor policy (lastExecuted prior) watermark missed = waiting at hgrown ⊢
  constructor
  case node => exact ⟨hconsumed, nodeMonth, rfl, hnext⟩
  case spent => rfl
  case ready =>
    intro hready
    cases waiting with
    | nil => exact ⟨rfl, rfl, hgrown rfl⟩
    | cons => exact absurd rfl hready
  case skipped =>
    intro hskipped
    cases waiting with
    | nil => cases hskipped
    | cons => exact ⟨rfl, rfl⟩

@[simp] theorem inferenceAlpha_verdict (verdict : FormalVerdict) :
    inferenceAlpha policy { look with
      disposition := verdict.disposition
      inference := some verdict } = inferenceAlpha policy look := rfl

/-- Every assessment of a registered policy ends in one of these ways. -/
theorem lookCase_of_assess (hpolicy : registration.formalPolicy = some policy)
    (h : assessFormalLook .exact registration prior input = .ok look) :
    LookCase registration policy prior input look := by
  unfold assessFormalLook at h
  split at h
  · exact .waiting (Except.ok.inj h).symm
  · simp only [bind_eq_ok, known_eq_ok, require_eq_ok, hpolicy] at h
    obtain ⟨_, hsome, node, -, -, -, prepared, hprepare, h⟩ := h
    cases hsome
    have hprepared := prepared_of_prepareFormalLook hprepare
    split at h
    · rename_i hskipped
      cases h
      obtain ⟨hordinal, hthis⟩ := hprepared.skipped hskipped
      exact .skipped hprepared.node hskipped hordinal hthis hprepared.spent
    · rename_i hready
      obtain ⟨verdict, hinfer, h⟩ := bind_eq_ok.mp h
      cases h
      obtain ⟨hordinal, hthis, hincrements⟩ := hprepared.ready hready
      exact .executed ⟨hprepared.node.prefixed, hprepared.node.next⟩ verdict rfl rfl hordinal hthis
        hprepared.spent hinfer hincrements

/-- The number of executed looks. -/
def executedCount (history : List CycleFormalLook) : ℕ := history.countP (·.executed)

/-- The alpha that the inferences of a history used. -/
def usedAlpha (policy : FormalPolicy) (history : List CycleFormalLook) : ℚ :=
  ((history.filter (·.executed)).map (inferenceAlpha policy)).sum

/-- The alpha that the looks of a history report for themselves. -/
def reportedAlpha (history : List CycleFormalLook) : ℚ := (history.map (·.alphaThis)).sum

/-- The looks of a history are accounted for. -/
structure Accounted (policy : FormalPolicy) (history : List CycleFormalLook) : Prop where
  /-- The registered nodes are consumed in order. -/
  consumed : (nodeLooks history).map (·.nodeMonth) =
    (policy.nodeMonths.take (nodeLooks history).length).map some
  /-- Every executed look is one at a node. -/
  atNode : ∀ look ∈ history, look.executed = true → look.nodeMonth.isSome = true
  ordinal : lastOrdinal history = executedCount history
  /-- The last look at a node has the count and the share of the executed looks. -/
  last : ∀ look ∈ (nodeLooks history).getLast?, look.actualOrdinal = executedCount history ∧
    look.alphaSpent = spentAlpha policy (executedCount history)
  none : nodeLooks history = [] → executedCount history = 0
  used : usedAlpha policy history = spentAlpha policy (executedCount history)
  reported : reportedAlpha history = spentAlpha policy (executedCount history)

theorem spentAlpha_succ (policy : FormalPolicy) (k : ℕ) :
    spentAlpha policy k + policy.totalAlpha / ((k + 1 : ℕ) * ((k + 1 : ℕ) + 1)) =
      spentAlpha policy (k + 1) := by
  simp only [spentAlpha, Nat.cast_add, Nat.cast_one]
  have hk : (k : ℚ) + 1 ≠ 0 := by positivity
  have hk' : (k : ℚ) + 1 + 1 ≠ 0 := by positivity
  field_simp
  ring

theorem spentAlpha_lt (policy : FormalPolicy) (k : ℕ) :
    spentAlpha policy k < policy.totalAlpha := by
  have hpos := policy.totalAlpha_pos
  have hk : (0 : ℚ) < k + 1 := by positivity
  rw [spentAlpha, div_lt_iff₀ hk]
  linarith

theorem spentAlpha_zero (policy : FormalPolicy) : spentAlpha policy 0 = 0 := by
  rw [spentAlpha, Nat.cast_zero, mul_zero, zero_div]

theorem accounted_nil : Accounted policy [] where
  consumed := rfl
  atNode := fun _ h => absurd h List.not_mem_nil
  ordinal := rfl
  last := fun _ h => nomatch h
  none := fun _ => rfl
  used := (spentAlpha_zero policy).symm
  reported := (spentAlpha_zero policy).symm

section Snoc

variable (history : List CycleFormalLook) (look)

@[simp] theorem nodeLooks_append_singleton :
    nodeLooks (history ++ [look]) =
      if look.nodeMonth.isSome then nodeLooks history ++ [look] else nodeLooks history := by
  cases h : look.nodeMonth.isSome <;> simp [nodeLooks, h]

@[simp] theorem executedCount_append_singleton :
    executedCount (history ++ [look]) = executedCount history + if look.executed then 1 else 0 := by
  rw [executedCount, List.countP_append, List.countP_singleton]
  rfl

@[simp] theorem usedAlpha_append_singleton :
    usedAlpha policy (history ++ [look]) =
      usedAlpha policy history + if look.executed then inferenceAlpha policy look else 0 := by
  cases h : look.executed <;> simp [usedAlpha, h]

@[simp] theorem reportedAlpha_append_singleton :
    reportedAlpha (history ++ [look]) = reportedAlpha history + look.alphaThis := by
  rw [reportedAlpha, List.map_append, List.sum_append, List.map_singleton, List.sum_singleton,
    ← reportedAlpha]

theorem lastExecuted_append_singleton :
    lastExecuted (history ++ [look]) =
      if look.nodeMonth.isSome ∧ look.executed then some look else lastExecuted history := by
  rw [lastExecuted, nodeLooks_append_singleton]
  cases hmonth : look.nodeMonth.isSome with
  | false => simp [lastExecuted]
  | true => cases hexecuted : look.executed <;> simp [lastExecuted, hexecuted]

end Snoc

/-- The consumed nodes with the next one are a longer prefix of the registered ones. -/
theorem ConsumesNode.consumed (h : ConsumesNode policy prior look) :
    (nodeLooks (prior ++ [look])).map (·.nodeMonth) =
      (policy.nodeMonths.take (nodeLooks (prior ++ [look])).length).map some := by
  obtain ⟨nodeMonth, hmonth, hnext⟩ := h.next
  rw [nodeLooks_append_singleton, hmonth, Option.isSome_some, if_pos rfl, List.map_append,
    List.map_singleton, hmonth, h.prefixed, List.length_append, List.length_singleton,
    List.take_add_one, hnext, Option.toList_some, List.map_append, List.map_singleton]

theorem ConsumesNode.isSome (h : ConsumesNode policy prior look) :
    look.nodeMonth.isSome = true := by
  obtain ⟨nodeMonth, hmonth, -⟩ := h.next
  rw [hmonth, Option.isSome_some]

theorem executed_waitingLook (watermark : CycleWatermark) :
    (waitingLook prior watermark).executed = false := by
  rw [waitingLook, CycleFormalLook.executed]
  split <;> rfl

/-- A look that is not executed spends no alpha. -/
theorem Accounted.not_executed (h : Accounted policy prior) (hexecuted : look.executed = false)
    (hthis : look.alphaThis = 0) (hconsumed : (nodeLooks (prior ++ [look])).map (·.nodeMonth) =
      (policy.nodeMonths.take (nodeLooks (prior ++ [look])).length).map some)
    (hlast : look.nodeMonth.isSome = true → look.actualOrdinal = executedCount prior ∧
      look.alphaSpent = spentAlpha policy (executedCount prior)) :
    Accounted policy (prior ++ [look]) := by
  have hcount : executedCount (prior ++ [look]) = executedCount prior := by
    simp [hexecuted]
  constructor
  case consumed => exact hconsumed
  case atNode =>
    intro other hother hexecuted'
    rcases List.mem_append.mp hother with hother | hother
    · exact h.atNode other hother hexecuted'
    · rw [List.mem_singleton.mp hother, hexecuted] at hexecuted'
      exact nomatch hexecuted'
  case ordinal =>
    rw [hcount, lastOrdinal, lastExecuted_append_singleton, if_neg fun hboth => by simp_all,
      ← lastOrdinal, h.ordinal]
  case last =>
    intro last hmem
    rw [hcount]
    rw [nodeLooks_append_singleton] at hmem
    split at hmem
    · rename_i hmonth
      rw [List.getLast?_concat, Option.mem_some] at hmem
      exact hmem ▸ hlast hmonth
    · exact h.last last hmem
  case none =>
    intro hnone
    rw [hcount]
    rw [nodeLooks_append_singleton] at hnone
    split at hnone
    · exact absurd hnone (List.concat_ne_nil look _)
    · exact h.none hnone
  case used => rw [hcount, usedAlpha_append_singleton, hexecuted, h.used]; simp
  case reported => rw [hcount, reportedAlpha_append_singleton, hthis, h.reported, add_zero]

/-- A look that the policy accepts keeps the account of the alpha spent. -/
theorem Accounted.snoc (h : Accounted policy prior)
    (hcase : LookCase registration policy prior input look) :
    Accounted policy (prior ++ [look]) := by
  cases hcase with
  | waiting hlook =>
    subst hlook
    have hmonth : (waitingLook prior input.watermark).nodeMonth.isSome = false := rfl
    refine h.not_executed (executed_waitingLook _) rfl ?_
      fun hsome => nomatch hmonth.symm.trans hsome
    rw [nodeLooks_append_singleton, hmonth]
    exact h.consumed
  | skipped hnode hdisposition hordinal hthis hspent =>
    have hexecuted : look.executed = false := by
      rw [CycleFormalLook.executed, hdisposition]
      rfl
    have hcount := hordinal.trans h.ordinal
    exact h.not_executed hexecuted hthis hnode.consumed fun _ => ⟨hcount, hcount ▸ hspent⟩
  | executed hnode verdict hdisposition hinference hordinal hthis hspent hinfer hincrements =>
    have hexecuted : look.executed = true := by
      rw [CycleFormalLook.executed, hdisposition]
      cases verdict <;> rfl
    have hcount : executedCount (prior ++ [look]) = executedCount prior + 1 := by
      simp [hexecuted]
    have hnext : look.actualOrdinal = executedCount prior + 1 := by rw [hordinal, h.ordinal]
    have hshare : spentAlpha policy (executedCount prior) + inferenceAlpha policy look =
        spentAlpha policy (executedCount prior + 1) := by
      rw [inferenceAlpha, hnext, spentAlpha_succ]
    constructor
    case consumed => exact hnode.consumed
    case atNode =>
      intro other hother hexecuted'
      rcases List.mem_append.mp hother with hother | hother
      · exact h.atNode other hother hexecuted'
      · exact List.mem_singleton.mp hother ▸ hnode.isSome
    case ordinal =>
      rw [hcount, lastOrdinal, lastExecuted_append_singleton, if_pos ⟨hnode.isSome, hexecuted⟩]
      exact hnext
    case last =>
      intro last hmem
      rw [nodeLooks_append_singleton, if_pos hnode.isSome, List.getLast?_concat,
        Option.mem_some] at hmem
      rw [hcount, ← hmem, hspent, hnext]
      exact ⟨rfl, rfl⟩
    case none =>
      intro hnone
      rw [nodeLooks_append_singleton, if_pos hnode.isSome] at hnone
      exact absurd hnone (List.concat_ne_nil look _)
    case used =>
      rw [hcount, usedAlpha_append_singleton, hexecuted, if_pos rfl, h.used, hshare]
    case reported => rw [hcount, reportedAlpha_append_singleton, hthis, h.reported, hshare]

/-- The share that a look reports as spent is that of the executed looks. -/
theorem Accounted.alphaSpent (h : Accounted policy prior)
    (hcase : LookCase registration policy prior input look) :
    look.alphaSpent = spentAlpha policy (executedCount (prior ++ [look])) := by
  have hlast : look.nodeMonth.isSome = true →
      look.alphaSpent = spentAlpha policy (executedCount (prior ++ [look])) := fun hmonth => by
    have hmem : (nodeLooks (prior ++ [look])).getLast? = some look := by
      rw [nodeLooks_append_singleton, if_pos hmonth, List.getLast?_concat]
    exact ((h.snoc hcase).last look hmem).2
  cases hcase with
  | waiting hlook =>
    have hcount : executedCount (prior ++ [look]) = executedCount prior := by
      rw [executedCount_append_singleton, hlook, executed_waitingLook]
      rfl
    rw [hcount, hlook, waitingLook]
    cases hnode : (nodeLooks prior).getLast? with
    | none => rw [h.none (List.getLast?_eq_none_iff.mp hnode), spentAlpha_zero]; rfl
    | some last => exact (h.last last hnode).2
  | skipped hnode => exact hlast hnode.isSome
  | executed hnode => exact hlast hnode.isSome

/-- The run of a registered cycle over its requests; a request that fails saves no look. -/
def formalRun (registration : CycleRegistration) (inputs : List CycleInput) : List LookStep :=
  traceSome (fun prior input => (assessFormalLook .exact registration prior input).toOption) inputs

/-- What a run of a formal plan guarantees of its looks. -/
structure SpendsAlpha (registration : CycleRegistration) (policy : FormalPolicy)
    (run : List LookStep) : Prop where
  /-- The registered nodes are consumed in order, each at most once. -/
  inOrder : (nodeLooks (outcomes run)).map (·.nodeMonth) =
    (policy.nodeMonths.take (nodeLooks (outcomes run)).length).map some
  once : ((nodeLooks (outcomes run)).map (·.nodeMonth)).Nodup
  /-- The evidence of an executed look has grown by the increments since the last one. -/
  grows : ∀ earlier e between e' later, run = earlier ++ e :: between ++ e' :: later →
    e.outcome.executed = true → (∀ x ∈ between, x.outcome.executed = false) →
    e'.outcome.executed = true →
    e.outcome.matureBatches + policy.incrementBatches ≤ e'.outcome.matureBatches ∧
    e.outcome.nonoverlappingWindows + policy.incrementWindows ≤ e'.outcome.nonoverlappingWindows
  /-- A skipped look spends nothing. -/
  skipped : ∀ earlier e later, run = earlier ++ e :: later → e.outcome.disposition = .skipped →
    e.outcome.alphaThis = 0 ∧
    e.outcome.alphaSpent = spentAlpha policy (executedCount (outcomes earlier))
  /-- The inference of an executed look uses its alpha. -/
  inferred : ∀ e ∈ run, e.outcome.executed = true → ∃ verdict,
    e.input.infer (inferenceAlpha policy e.outcome)
      (registration.seed + e.outcome.actualOrdinal) = .ok verdict ∧
    e.outcome.inference = some verdict ∧ e.outcome.disposition = verdict.disposition
  /-- With every look, the alpha used, the alpha reported and the alpha spent are the share of
  the executed looks so far, less than the whole. -/
  spent : ∀ earlier e later, run = earlier ++ e :: later →
    let looks := outcomes (earlier ++ [e])
    let share := policy.totalAlpha * executedCount looks / (executedCount looks + 1)
    usedAlpha policy looks = share ∧ reportedAlpha looks = share ∧
      e.outcome.alphaSpent = share ∧ share < policy.totalAlpha

section Run

variable {run : List LookStep} (hpolicy : registration.formalPolicy = some policy)
  (hrun : HistoryRun (fun prior input look =>
    (assessFormalLook .exact registration prior input).toOption = some look) run)
include hpolicy hrun

theorem lookCase_of_mem {e : LookStep} (he : e ∈ run) :
    LookCase registration policy e.before e.input e.outcome := by
  have hstep := hrun.step_of_mem he
  cases hassess : assessFormalLook .exact registration e.before e.input with
  | error => rw [hassess] at hstep; exact nomatch hstep
  | ok look =>
    rw [hassess] at hstep
    cases hstep
    exact lookCase_of_assess hpolicy hassess

theorem accounted_of_run : Accounted policy (outcomes run) := by
  induction hrun with
  | nil => exact accounted_nil
  | @snoc run input look hrun hstep ih =>
    rw [outcomes_append, outcomes_singleton]
    have hmem : (⟨outcomes run, input, look⟩ : LookStep) ∈ run ++ [⟨outcomes run, input, look⟩] :=
      List.mem_append_right _ (List.mem_singleton_self _)
    exact ih.snoc (lookCase_of_mem hpolicy (hrun.snoc hstep) hmem)

/-- The looks before any step of a run are accounted for. -/
theorem accounted_before {earlier later : List LookStep} {e : LookStep}
    (hsplit : run = earlier ++ e :: later) :
    Accounted policy (outcomes earlier) ∧
      LookCase registration policy (outcomes earlier) e.input e.outcome := by
  subst hsplit
  have hcase := lookCase_of_mem hpolicy hrun (List.mem_append_right earlier (List.mem_cons_self ..))
  rw [hrun.before_eq rfl] at hcase
  exact ⟨accounted_of_run hpolicy hrun.of_append, hcase⟩

end Run

theorem LookCase.of_executed (h : LookCase registration policy prior input look)
    (hexecuted : look.executed = true) :
    look.nodeMonth.isSome = true ∧
      (∃ verdict, input.infer (inferenceAlpha policy look)
        (registration.seed + look.actualOrdinal) = .ok verdict ∧
        look.inference = some verdict ∧ look.disposition = verdict.disposition) ∧
      ∀ last ∈ lastExecuted prior,
        last.matureBatches + policy.incrementBatches ≤ look.matureBatches ∧
        last.nonoverlappingWindows + policy.incrementWindows ≤ look.nonoverlappingWindows := by
  cases h with
  | waiting hlook =>
    rw [hlook, executed_waitingLook] at hexecuted
    exact nomatch hexecuted
  | skipped _ hdisposition =>
    rw [CycleFormalLook.executed, hdisposition] at hexecuted
    exact nomatch hexecuted
  | executed hnode verdict hdisposition hinference _ _ _ hinfer hincrements =>
    exact ⟨hnode.isSome, ⟨verdict, hinfer, hinference, hdisposition⟩, hincrements⟩

theorem lastExecuted_append {history between : List CycleFormalLook}
    (hexecuted : look.executed = true) (hmonth : look.nodeMonth.isSome = true)
    (hbetween : ∀ x ∈ between, x.executed = false) :
    lastExecuted (history ++ look :: between) = some look := by
  induction between using List.reverseRecOn with
  | nil => rw [lastExecuted_append_singleton, if_pos ⟨hmonth, hexecuted⟩]
  | append_singleton between x ih =>
    have hx := hbetween x (List.mem_append_right _ (List.mem_singleton_self x))
    rw [← List.cons_append, ← List.append_assoc, lastExecuted_append_singleton, if_neg]
    · exact ih fun y hy => hbetween y (List.mem_append_left _ hy)
    · rw [hx]
      exact fun h => nomatch h.2

/-- No run of a registered formal plan overspends its alpha. -/
theorem formalRun_spendsAlpha (policy : FormalPolicy) (planNodes : List PlanNode) (seed : ℤ)
    (inputs : List CycleInput) :
    SpendsAlpha ⟨planNodes, some policy, seed⟩ policy
      (formalRun ⟨planNodes, some policy, seed⟩ inputs) := by
  have hpolicy : (⟨planNodes, some policy, seed⟩ : CycleRegistration).formalPolicy = some policy :=
    rfl
  have hrun := historyRun_traceSome (fun prior input =>
    (assessFormalLook .exact ⟨planNodes, some policy, seed⟩ prior input).toOption) inputs
  have haccounted := accounted_of_run hpolicy hrun
  constructor
  case inOrder => exact haccounted.consumed
  case once =>
    have hnodup : policy.nodeMonths.Nodup := policy.nodeMonths_sorted.imp ne_of_lt
    rw [formalRun, haccounted.consumed]
    exact (hnodup.sublist (List.take_sublist ..)).map (Option.some_injective _)
  case grows =>
    intro earlier e between e' later hsplit hexecuted hbetween hexecuted'
    have hsplit' : formalRun ⟨planNodes, some policy, seed⟩ inputs =
        earlier ++ e :: (between ++ e' :: later) := by rw [hsplit]; simp
    obtain ⟨-, hcase⟩ := accounted_before hpolicy hrun hsplit'
    obtain ⟨-, hcase'⟩ := accounted_before hpolicy hrun hsplit
    obtain ⟨hmonth, -, -⟩ := hcase.of_executed hexecuted
    obtain ⟨-, -, hincrements⟩ := hcase'.of_executed hexecuted'
    have hlast : lastExecuted (outcomes (earlier ++ e :: between)) = some e.outcome := by
      rw [outcomes_append]
      refine lastExecuted_append hexecuted hmonth fun x hx => ?_
      obtain ⟨step, hstep, rfl⟩ := List.mem_map.mp hx
      exact hbetween step hstep
    exact hincrements e.outcome hlast
  case skipped =>
    intro earlier e later hsplit hskipped
    obtain ⟨hbefore, hcase⟩ := accounted_before hpolicy hrun hsplit
    cases hcase with
    | waiting hlook =>
      rw [hlook, waitingLook] at hskipped
      dsimp only at hskipped
      split at hskipped <;> exact nomatch hskipped
    | skipped _ _ hordinal hthis hspent =>
      rw [hspent, hordinal, hbefore.ordinal]
      exact ⟨hthis, rfl⟩
    | executed _ verdict hdisposition =>
      rw [hdisposition] at hskipped
      cases verdict <;> exact nomatch hskipped
  case inferred =>
    intro e he hexecuted
    exact ((lookCase_of_mem hpolicy hrun he).of_executed hexecuted).2.1
  case spent =>
    intro earlier e later hsplit
    obtain ⟨hbefore, hcase⟩ := accounted_before hpolicy hrun hsplit
    have hafter := hbefore.snoc hcase
    dsimp only
    rw [outcomes_append, outcomes_singleton]
    exact ⟨hafter.used, hafter.reported, hbefore.alphaSpent hcase, spentAlpha_lt policy _⟩

end StockProfiler.Prospective
