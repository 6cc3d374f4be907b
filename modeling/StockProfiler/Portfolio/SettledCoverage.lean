import StockProfiler.Core.DecimalGrid
import StockProfiler.Portfolio.LiquidityLatch

/-!
# Settled coverage

Receipts are sent again and retained by every assessment. Each identity denotes one
receipt, and what is left of an obligation is its amount without the distinct receipts.
-/

namespace StockProfiler.Portfolio

variable {command : LiquidityCommand}

/-- The receipts of a history and of a command, repetitions included. -/
def recordedReceipts (command : LiquidityCommand) (history : List LiquidityOutcome) :
    List SettledObligationCoverage :=
  history.flatMap (·.settledCoverage) ++ command.settledCoverage

/-- Every identity denotes one receipt. -/
def ReceiptsImmutable (receipts : List SettledObligationCoverage) : Prop :=
  ∀ r ∈ receipts, ∀ r' ∈ receipts, r.receiptId = r'.receiptId → r = r'

/-- What the distinct receipts paid of an obligation. -/
def settledAmount (receipts : List SettledObligationCoverage) (obligationId : String) : ℚ :=
  sumWhere receipts.eraseDups (·.amount) (·.obligationId = obligationId)

/-- What distinct receipts leave of an obligation, unless nothing is left. -/
def unsettled (receipts : List SettledObligationCoverage) (item : DatedCashObligation) :
    Option DatedCashObligation :=
  if h : settledAmount receipts item.obligationId < item.amount then
    some { item with
      amount := item.amount - settledAmount receipts item.obligationId
      amount_pos := sub_pos.mpr h }
  else none

/-- Each of the receipts is retained under its own identity, and no other. -/
structure Retains (retained : Dict String SettledObligationCoverage)
    (receipts : List SettledObligationCoverage) : Prop where
  keys_nodup : retained.keys.Nodup
  key_eq : ∀ e ∈ retained, e.1 = e.2.receiptId
  get?_eq : ∀ r : SettledObligationCoverage,
    retained.get? r.receiptId = some r ↔ r ∈ receipts

section Retention

variable {retained retained' : Dict String SettledObligationCoverage}
  {receipts : List SettledObligationCoverage}

theorem retains_nil : Retains [] [] where
  keys_nodup := List.nodup_nil
  key_eq e he := nomatch he
  get?_eq r := by simp only [Dict.get?_nil, reduceCtorEq, List.not_mem_nil]

section

variable (h : Retains retained receipts)
include h

/-- Retained receipts of one identity are one receipt. -/
theorem Retains.immutable : ReceiptsImmutable receipts := by
  intro r hr r' hr' hid
  have hget := (h.get?_eq r).mpr hr
  rw [hid] at hget
  exact Option.some.inj (hget.symm.trans ((h.get?_eq r').mpr hr'))

/-- One more receipt is retained, unless its identity has other content. -/
theorem Retains.retainReceipt {receipt : SettledObligationCoverage}
    (hretained : retainReceipt retained receipt = some retained') :
    Retains retained' (receipts ++ [receipt]) := by
  unfold Portfolio.retainReceipt at hretained
  split at hretained
  · cases hretained
  rename_i hsame
  cases hretained
  constructor
  case keys_nodup => exact Dict.keys_set_nodup h.keys_nodup _ _
  case key_eq =>
    intro e he
    rcases Dict.mem_set he with rfl | he
    · rfl
    · exact h.key_eq e he
  case get?_eq =>
    intro r
    rw [Dict.get?_set, List.mem_append, List.mem_singleton]
    by_cases hid : receipt.receiptId = r.receiptId
    · rw [if_pos hid]
      constructor
      · intro heq
        exact .inr (Option.some.inj heq).symm
      · rintro (hr | rfl)
        · have hget := (h.get?_eq r).mpr hr
          rw [← hid] at hget
          have hne : ¬r ≠ receipt := fun hne => hsame (by rw [hget]; simpa using hne)
          rw [not_not.mp hne]
        · rfl
    · rw [if_neg hid, h.get?_eq r]
      exact ⟨.inl, fun hr => hr.resolve_right fun heq => hid (heq ▸ rfl)⟩

theorem Retains.foldlM {step : Dict String SettledObligationCoverage → SettledObligationCoverage →
      Option (Dict String SettledObligationCoverage)}
    (hstep : ∀ d r d', step d r = some d' → Portfolio.retainReceipt d r = some d')
    {later : List SettledObligationCoverage}
    (hlater : later.foldlM step retained = some retained') :
    Retains retained' (receipts ++ later) := by
  induction later generalizing retained receipts with
  | nil =>
    cases hlater
    rwa [List.append_nil]
  | cons r later ih =>
    rw [List.foldlM_cons] at hlater
    obtain ⟨middle, hmiddle, hlater⟩ := bind_eq_some.mp hlater
    have hrest := ih (h.retainReceipt (hstep _ _ _ hmiddle)) hlater
    rwa [List.append_assoc, List.singleton_append] at hrest

theorem Retains.values_perm : (retained.map Prod.snd).Perm receipts.eraseDups := by
  have hkeys : (retained.map Prod.snd).map (·.receiptId) = retained.keys := by
    rw [List.map_map]
    exact List.map_congr_left fun e he => (h.key_eq e he).symm
  have hnodup : (retained.map Prod.snd).Nodup := List.Nodup.of_map _ (hkeys ▸ h.keys_nodup)
  refine (List.perm_ext_iff_of_nodup hnodup (eraseDups_nodup receipts)).mpr fun r => ?_
  rw [List.mem_eraseDups, ← h.get?_eq r]
  constructor
  · intro hr
    obtain ⟨e, he, rfl⟩ := List.mem_map.mp hr
    exact Dict.get?_of_mem h.keys_nodup (h.key_eq e he ▸ he)
  · intro hget
    exact List.mem_map.mpr ⟨_, Dict.mem_of_get? hget, rfl⟩

theorem Retains.sorted_perm :
    ((sortedSet retained.keys).filterMap retained.get?).Perm receipts.eraseDups := by
  have hid : ∀ key r, retained.get? key = some r → key = r.receiptId := fun key r hget =>
    h.key_eq _ (Dict.mem_of_get? hget)
  have hnodup : ((sortedSet retained.keys).filterMap retained.get?).Nodup := by
    refine (sortedSet_nodup _).filterMap fun key key' r hr hr' => ?_
    rw [hid key r hr, hid key' r hr']
  refine (List.perm_ext_iff_of_nodup hnodup (eraseDups_nodup receipts)).mpr fun r => ?_
  rw [List.mem_eraseDups, ← h.get?_eq r, List.mem_filterMap]
  constructor
  · rintro ⟨key, -, hget⟩
    rwa [hid key r hget] at hget
  · intro hget
    exact ⟨r.receiptId, mem_sortedSet.mpr (Dict.mem_keys_iff.mpr (by rw [hget]; rfl)), hget⟩

end

theorem retains_of_retainedReceipts {history : List LiquidityOutcome}
    (h : retainedReceipts command history = some retained) :
    Retains retained (recordedReceipts command history) := by
  obtain ⟨earlier, hearlier, h⟩ := bind_eq_some.mp h
  obtain ⟨-, -, h⟩ := bind_eq_some.mp h
  have hhistory := retains_nil.foldlM (fun _ _ _ hr => hr) hearlier
  refine hhistory.foldlM (fun d r d' hr => ?_) h
  obtain ⟨-, -, hr⟩ := bind_eq_some.mp hr
  exact hr

end Retention

section Remaining

variable {obligations : List DatedCashObligation} {digits : ℕ} {mode : Rounding} {hd : 0 < digits}
  {unit : ℤ}

/-- Applied receipts lower each remaining amount by exactly what they cover. -/
theorem get?_foldlM_applyReceipt {receipts : List SettledObligationCoverage}
    (hreceipts : ∀ r ∈ receipts, OnGrid digits unit r.amount) {remaining remaining' : Dict String ℚ}
    (h : receipts.foldlM (applyReceipt (.ofPrecision digits mode hd)) remaining = some remaining')
    {id : String} {amount : ℚ} (hget : remaining.get? id = some amount)
    (hamounts : ∀ key value, remaining.get? key = some value →
      OnGrid digits unit value ∧ 0 ≤ value) :
    remaining'.get? id =
        some (amount - sumWhere receipts (·.amount) (·.obligationId = id)) ∧
      sumWhere receipts (·.amount) (·.obligationId = id) ≤ amount := by
  induction receipts generalizing remaining amount with
  | nil =>
    cases h
    rw [sumWhere_nil, sub_zero]
    exact ⟨hget, (hamounts id amount hget).2⟩
  | cons r receipts ih =>
    obtain ⟨hr, hrest⟩ := List.forall_mem_cons.mp hreceipts
    rw [List.foldlM_cons] at h
    obtain ⟨middle, hmiddle, h⟩ := bind_eq_some.mp h
    obtain ⟨before, hbefore, hmiddle⟩ := bind_eq_some.mp hmiddle
    obtain ⟨_, hleft, hmiddle⟩ := bind_eq_some.mp hmiddle
    obtain ⟨hgrid, hnonneg⟩ := hamounts _ _ hbefore
    have hsub : (DecimalContext.ofPrecision digits mode hd).sub before r.amount =
        before - r.amount := sub_onGrid hgrid hr hnonneg r.amount_pos.le
    rw [hsub] at hleft hmiddle
    have hle : 0 ≤ before - r.amount := by simpa using hleft
    cases hmiddle
    have hnext : ∀ key value, (remaining.set r.obligationId (before - r.amount)).get? key =
        some value → OnGrid digits unit value ∧ 0 ≤ value := by
      intro key value hvalue
      rw [Dict.get?_set] at hvalue
      split at hvalue
      · cases hvalue
        exact ⟨hgrid.sub hr hnonneg r.amount_pos.le, hle⟩
      · exact hamounts key value hvalue
    rw [sumWhere_cons]
    by_cases hid : r.obligationId = id
    · have hset : (remaining.set r.obligationId (before - r.amount)).get? id =
          some (before - r.amount) := by rw [Dict.get?_set, if_pos hid]
      rw [hid] at hbefore
      obtain rfl := Option.some.inj (hbefore.symm.trans hget)
      obtain ⟨hfinal, hsum⟩ := ih hrest h hset hnext
      rw [if_pos hid, ← sub_sub]
      exact ⟨hfinal, by linarith⟩
    · have hset : (remaining.set r.obligationId (before - r.amount)).get? id = some amount := by
        rw [Dict.get?_set, if_neg hid]
        exact hget
      rw [if_neg hid, zero_add]
      exact ih hrest h hset hnext

/-- The obligations are listed once each, and all amounts are on one grid. -/
structure AmountsFit (digits : ℕ) (unit : ℤ) (obligations : List DatedCashObligation)
    (receipts : List SettledObligationCoverage) : Prop where
  ids_nodup : (obligations.map (·.obligationId)).Nodup
  obligations : ∀ item ∈ obligations, OnGrid digits unit item.amount
  receipts : ∀ r ∈ receipts, OnGrid digits unit r.amount

/-- What an accepted coverage means: every identity denotes one receipt, the coverage are the
distinct receipts, they never exceed an obligation, and what they leave is outstanding. -/
structure SettledOnce (obligations : List DatedCashObligation)
    (receipts : List SettledObligationCoverage) (outstanding : List DatedCashObligation)
    (coverage : List SettledObligationCoverage) : Prop where
  immutable : ReceiptsImmutable receipts
  coverage_perm : coverage.Perm receipts.eraseDups
  settled_le : ∀ item ∈ obligations, settledAmount receipts item.obligationId ≤ item.amount
  outstanding_eq : outstanding = obligations.filterMap (unsettled receipts)

theorem get?_obligation (hnodup : (obligations.map (·.obligationId)).Nodup)
    {item : DatedCashObligation} (hitem : item ∈ obligations) :
    (Dict.ofLast (obligations.map fun o => (o.obligationId, o.amount))).get? item.obligationId =
      some item.amount := by
  refine Dict.get?_ofLast_of_mem (List.mem_map.mpr ⟨item, hitem, rfl⟩) fun other hother => ?_
  obtain ⟨o, ho, heq⟩ := List.mem_map.mp hother
  obtain ⟨hid, rfl⟩ := Prod.mk.inj heq
  rw [List.inj_on_of_nodup_map hnodup ho hitem hid]

/-- Every settled amount lowers its obligation exactly once. -/
theorem settledOnce_of_outstandingObligations {history : List LiquidityOutcome}
    (hfit : AmountsFit digits unit obligations (recordedReceipts command history))
    {outstanding : List DatedCashObligation} {coverage : List SettledObligationCoverage}
    (h : outstandingObligations (.ofPrecision digits mode hd) obligations command history =
      some (outstanding, coverage)) :
    SettledOnce obligations (recordedReceipts command history) outstanding coverage := by
  obtain ⟨retained, hretained, h⟩ := bind_eq_some.mp h
  obtain ⟨remaining, hremaining, h⟩ := bind_eq_some.mp h
  obtain ⟨rfl, rfl⟩ := Prod.mk.inj (Option.some.inj h)
  have hretains := retains_of_retainedReceipts hretained
  have hperm := hretains.values_perm
  have hget : ∀ item ∈ obligations,
      remaining.get? item.obligationId = some (item.amount -
        settledAmount (recordedReceipts command history) item.obligationId) ∧
      settledAmount (recordedReceipts command history) item.obligationId ≤ item.amount := by
    intro item hitem
    have hvalues : ∀ r ∈ retained.map Prod.snd, OnGrid digits unit r.amount := fun r hr =>
      hfit.receipts r (List.mem_eraseDups.mp (hperm.mem_iff.mp hr))
    have hresult := get?_foldlM_applyReceipt hvalues hremaining
      (get?_obligation hfit.ids_nodup hitem) fun key value hvalue => ?_
    · rwa [sumWhere_perm hperm] at hresult
    · obtain ⟨o, ho, heq⟩ := List.mem_map.mp (Dict.mem_ofLast (Dict.mem_of_get? hvalue))
      obtain ⟨-, rfl⟩ := Prod.mk.inj heq
      exact ⟨hfit.obligations o ho, o.amount_pos.le⟩
  constructor
  case immutable => exact hretains.immutable
  case coverage_perm => exact hretains.sorted_perm
  case settled_le => exact fun item hitem => (hget item hitem).2
  case outstanding_eq =>
    refine List.filterMap_congr fun item hitem => ?_
    simp only [outstandingObligation, (hget item hitem).1, unsettled, sub_pos]

end Remaining

section Runs

variable {ctx : DecimalContext} {steps : ℕ} {history : List LiquidityOutcome}
  {input : LiquidityInput} {outcome : LiquidityOutcome}

/-- What an assessment retains are the recorded receipts, or nothing. -/
theorem coverage_of_assess (h : assessLiquidity ctx steps history input = some outcome) :
    outcome.settledCoverage = [] ∨ ∃ obligations outstanding,
      outstandingObligations ctx obligations input.command history =
        some (outstanding, outcome.settledCoverage) := by
  unfold assessLiquidity at h
  dsimp only at h
  split at h
  case isTrue =>
    cases h
    exact .inl rfl
  case isFalse =>
    unfold assessInScope at h
    dsimp only at h
    split at h
    case h_1 =>
      cases h
      exact .inl rfl
    case h_2 usage husage =>
      split at h
      · cases h
        exact .inl rfl
      · split at h
        · cases h
          exact .inl rfl
        · rename_i outstanding coverage houtstanding
          right
          split at h
          · cases h
            exact ⟨_, _, houtstanding⟩
          · split at h
            · obtain ⟨funding, -, rfl⟩ := Option.map_eq_some_iff.mp h
              exact ⟨_, _, houtstanding⟩
            · cases h
              exact ⟨_, _, houtstanding⟩

theorem receiptsImmutable_snoc (hhistory : ReceiptsImmutable (history.flatMap (·.settledCoverage)))
    (h : assessLiquidity ctx steps history input = some outcome) :
    ReceiptsImmutable ((history ++ [outcome]).flatMap (·.settledCoverage)) := by
  rw [List.flatMap_append, List.flatMap_singleton]
  rcases coverage_of_assess h with hnone | ⟨obligations, outstanding, hsome⟩
  · rw [hnone, List.append_nil]
    exact hhistory
  · obtain ⟨retained, hretained, hsome⟩ := bind_eq_some.mp hsome
    obtain ⟨remaining, -, hsome⟩ := bind_eq_some.mp hsome
    have hcoverage := (Prod.mk.inj (Option.some.inj hsome)).2
    have hretains := retains_of_retainedReceipts hretained
    have hmem : ∀ r ∈ history.flatMap (·.settledCoverage) ++ outcome.settledCoverage,
        r ∈ recordedReceipts input.command history := by
      intro r hr
      rcases List.mem_append.mp hr with hr | hr
      · exact List.mem_append_left _ hr
      · rw [← hcoverage] at hr
        exact List.mem_eraseDups.mp (hretains.sorted_perm.mem_iff.mp hr)
    exact fun r hr r' hr' => hretains.immutable r (hmem r hr) r' (hmem r' hr')

/-- In every run, whatever the context, each identity denotes one receipt. -/
theorem receiptsImmutable_liquidityRun (ctx : DecimalContext) (steps : ℕ)
    (inputs : List LiquidityInput) :
    ReceiptsImmutable ((outcomes (liquidityRun ctx steps inputs)).flatMap (·.settledCoverage)) := by
  have hrun := historyRun_traceSome (assessLiquidity ctx steps) inputs
  unfold liquidityRun
  generalize traceSome (assessLiquidity ctx steps) inputs = run at hrun
  induction hrun with
  | nil => exact fun r hr => nomatch hr
  | snoc _ hstep ih =>
    rw [outcomes_append, outcomes_singleton]
    exact receiptsImmutable_snoc ih hstep

end Runs

end StockProfiler.Portfolio
