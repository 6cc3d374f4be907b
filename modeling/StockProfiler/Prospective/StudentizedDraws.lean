import StockProfiler.Core.Filed
import StockProfiler.Prospective.Studentized

/-!
# The resamples of studentized bounds

What is drawn for a block length depends on the rows alone, and each metric has the values
that it has on these resamples, whatever other metrics are measured on them.
-/

namespace StockProfiler.Prospective

/-- A resample of rows and the further resamples of it. -/
structure Resample (Row : Type) where
  sample : List Row
  inner : List (List Row)

section Draws

variable {values : Dict String (List (Option ℚ))} {ρ Row : Type} (source : RandomSource ρ)

/-- Further resamples of rows. -/
def innerDraws (rows : List Row) (length : ℕ) : ℕ → Sampler ρ → List (List Row) × Sampler ρ
  | 0, sampler => ([], sampler)
  | repetitions + 1, sampler =>
    let drawn := drawIndices source rows.length length ";" sampler
    let rest := innerDraws rows length repetitions drawn.2
    (sampleOf rows drawn.1 :: rest.1, rest.2)

/-- Resamples of rows. -/
def outerDraws (rows : List Row) (length innerRepetitions : ℕ) :
    ℕ → Sampler ρ → List (Resample Row) × Sampler ρ
  | 0, sampler => ([], sampler)
  | repetitions + 1, sampler =>
    let drawn := drawIndices source rows.length length "|" sampler
    let inner := innerDraws source (sampleOf rows drawn.1) length innerRepetitions drawn.2
    let rest := outerDraws rows length innerRepetitions repetitions inner.2
    (⟨sampleOf rows drawn.1, inner.1⟩ :: rest.1, rest.2)

theorem mem_indicesLoop {size length : ℕ} (hlength : length ≤ size) {fuel : ℕ} {result : List ℕ}
    {random : ρ} (hresult : ∀ index ∈ result, index < size) :
    ∀ index ∈ (indicesLoop source size length fuel result random).1, index < size := by
  induction fuel generalizing result random with
  | zero => exact hresult
  | succ fuel ih =>
    rw [indicesLoop]
    split
    · refine ih fun index hindex => ?_
      rcases List.mem_append.mp hindex with hindex | hindex
      · exact hresult index hindex
      · have hstart := source.randrange_lt random (size - length + 1) (Nat.succ_pos _)
        rw [List.mem_range'_1] at hindex
        omega
    · exact hresult

theorem length_indicesLoop {size length : ℕ} (hlength : 1 ≤ length) {fuel : ℕ} {result : List ℕ}
    {random : ρ} (hfuel : size ≤ result.length + fuel) :
    size ≤ (indicesLoop source size length fuel result random).1.length := by
  induction fuel generalizing result random with
  | zero => exact hfuel
  | succ fuel ih =>
    rw [indicesLoop]
    split
    · refine ih ?_
      rw [List.length_append, List.length_range']
      omega
    · rename_i hnot
      exact not_lt.mp hnot

theorem length_sampleOf {rows : List Row} {length : ℕ} (hpos : 1 ≤ length)
    (hlength : length ≤ rows.length) (mark : String) (sampler : Sampler ρ) :
    (sampleOf rows (drawIndices source rows.length length mark sampler).1).length =
      rows.length := by
  have hdrawn : (drawIndices source rows.length length mark sampler).1.length = rows.length := by
    rw [drawIndices, indices, List.length_take]
    exact Nat.min_eq_left (length_indicesLoop source hpos (Nat.le_add_left _ _))
  have hmem : ∀ index ∈ (drawIndices source rows.length length mark sampler).1,
      index < rows.length := by
    intro index hindex
    exact mem_indicesLoop source hlength (fun _ h => absurd h List.not_mem_nil) index
      (List.mem_of_mem_take hindex)
  rw [sampleOf]
  conv_rhs => rw [← hdrawn]
  generalize (drawIndices source rows.length length mark sampler).1 = drawn at hmem
  induction drawn with
  | nil => rfl
  | cons index drawn ih =>
    rw [List.forall_mem_cons] at hmem
    rw [List.filterMap_cons, List.getElem?_eq_getElem hmem.1, List.length_cons, List.length_cons,
      ih hmem.2]

variable (rows : List Row) (length : ℕ)

theorem length_innerDraws (repetitions : ℕ) (sampler : Sampler ρ) :
    (innerDraws source rows length repetitions sampler).1.length = repetitions := by
  induction repetitions generalizing sampler with
  | zero => rfl
  | succ repetitions ih => rw [innerDraws, List.length_cons, ih]

theorem length_outerDraws (innerRepetitions repetitions : ℕ) (sampler : Sampler ρ) :
    (outerDraws source rows length innerRepetitions repetitions sampler).1.length =
      repetitions := by
  induction repetitions generalizing sampler with
  | zero => rfl
  | succ repetitions ih => rw [outerDraws, List.length_cons, ih]

variable {metrics : Dict String (MetricDefinition Row)} {key : String}
  {metric : MetricDefinition Row}

theorem get?_measureAll (hmetrics : metrics.keys.Nodup) (hmetric : (key, metric) ∈ metrics)
    {known : List (Option ℚ)} (hknown : values.get? key = some known) (sample : List Row) :
    (measureAll metrics values sample).get? key = some (known ++ [metric.measure sample]) := by
  have h : (values.refile (·.1) (fun entry old => old.getD [] ++ [entry.2.measure sample])
      metrics).get? key = some ((values.get? key).getD [] ++ [metric.measure sample]) :=
    Dict.get?_refile_of_mem hmetrics hmetric
  rw [hknown, Option.getD_some] at h
  exact h

theorem variancesLoop_spec (hmetrics : metrics.keys.Nodup) (hmetric : (key, metric) ∈ metrics)
    (rows : List Row) (length repetitions : ℕ) {known : List (Option ℚ)}
    (hknown : values.get? key = some known) (sampler : Sampler ρ) :
    (variancesLoop source rows metrics length repetitions values sampler).1.get? key =
      some (known ++
      (innerDraws source rows length repetitions sampler).1.map metric.measure) := by
  induction repetitions generalizing values known sampler with
  | zero => rw [variancesLoop, innerDraws, List.map_nil, List.append_nil, hknown]
  | succ repetitions ih =>
    rw [variancesLoop, innerDraws]
    dsimp only
    rw [ih (get?_measureAll hmetrics hmetric hknown _), List.map_cons, List.append_assoc,
      List.singleton_append]

theorem variancesLoop_snd (repetitions : ℕ) (values : Dict String (List (Option ℚ)))
    (sampler : Sampler ρ) :
    (variancesLoop source rows metrics length repetitions values sampler).2 =
      (innerDraws source rows length repetitions sampler).2 := by
  induction repetitions generalizing values sampler with
  | zero => rfl
  | succ repetitions ih =>
    rw [variancesLoop, innerDraws]
    exact ih _ _

theorem variances_snd (repetitions : ℕ) (sampler : Sampler ρ) :
    (variances source rows metrics length repetitions sampler).2 =
      (innerDraws source rows length repetitions sampler).2 :=
  variancesLoop_snd source rows length repetitions _ sampler

/-- The variance of a metric is the one of its values on the further resamples. -/
theorem variances_spec (hmetrics : metrics.keys.Nodup) (hmetric : (key, metric) ∈ metrics)
    (rows : List Row) (length repetitions : ℕ) (sampler : Sampler ρ) :
    (variances source rows metrics length repetitions sampler).1.get? key = some (variance
      ((innerDraws source rows length repetitions sampler).1.map metric.measure)) := by
  have hempty : (metrics.mapValues fun _ => ([] : List (Option ℚ))).get? key = some [] := by
    rw [Dict.get?_mapValues, Dict.get?_of_mem hmetrics hmetric]
    rfl
  rw [variances, Dict.get?_mapValues,
    variancesLoop_spec source hmetrics hmetric rows length repetitions hempty sampler]
  rfl

end Draws

/-- What is recorded of a metric. -/
def Pivots.read (state : Pivots) (key : String) : Option (List ℚ) × Option ℕ :=
  (state.pivots.get? key, state.undefined.get? key)

section Record

variable {state : Pivots} {key : String} {pivots : List ℚ} {undefined : ℕ}

theorem Pivots.read_record_of_ne {other : String} (h : other ≠ key) (pivot : Option ℚ) :
    (state.record other pivot).read key = state.read key := by
  cases pivot with
  | none => rw [Pivots.record, Pivots.read, Pivots.read, Dict.get?_modify, if_neg h]
  | some value => rw [Pivots.record, Pivots.read, Pivots.read, Dict.push, Dict.get?_set, if_neg h]

theorem Pivots.read_record (h : state.read key = (some pivots, some undefined))
    (pivot : Option ℚ) : (state.record key pivot).read key =
      (some (pivots ++ pivot.toList), some (undefined + if pivot.isNone then 1 else 0)) := by
  obtain ⟨hpivots, hundefined⟩ := Prod.mk.inj h
  cases pivot with
  | none =>
    rw [Pivots.record, Pivots.read, Dict.get?_modify, if_pos rfl, hundefined, hpivots]
    simp
  | some value =>
    rw [Pivots.record, Pivots.read, Dict.push, Dict.get?_set, if_pos rfl, hundefined, hpivots]
    simp

theorem Pivots.read_foldl_of_notMem {keys : List String} (h : key ∉ keys)
    (pivot : String → Option ℚ) :
    (keys.foldl (fun state key => state.record key (pivot key)) state).read key =
      state.read key := by
  induction keys generalizing state with
  | nil => rfl
  | cons other keys ih =>
    rw [List.mem_cons, not_or] at h
    rw [List.foldl_cons, ih h.2, Pivots.read_record_of_ne (Ne.symm h.1)]

theorem Pivots.read_foldl {keys : List String} (hkeys : keys.Nodup) (hkey : key ∈ keys)
    (pivot : String → Option ℚ) (h : state.read key = (some pivots, some undefined)) :
    (keys.foldl (fun state key => state.record key (pivot key)) state).read key =
      (some (pivots ++ (pivot key).toList),
        some (undefined + if (pivot key).isNone then 1 else 0)) := by
  induction keys generalizing state with
  | nil => exact nomatch hkey
  | cons other keys ih =>
    rw [List.nodup_cons] at hkeys
    rw [List.foldl_cons]
    rcases List.mem_cons.mp hkey with rfl | hmem
    · rw [Pivots.read_foldl_of_notMem hkeys.1, Pivots.read_record h]
    · have hne : other ≠ key := fun heq => hkeys.1 (heq ▸ hmem)
      exact ih hkeys.2 hmem ((Pivots.read_record_of_ne hne _).trans h)

end Record

section Resampling

variable {ρ Row : Type} (source : RandomSource ρ) (ctx : DecimalContext) (sqrt : ℚ → ℚ)
  {active : Dict String (MetricDefinition Row)} {estimates : Dict String (Option ℚ)} {key : String}
  {metric : MetricDefinition Row} {estimate : Option ℚ}

/-- The pivot of a metric on one resample. -/
def MetricDefinition.pivot (metric : MetricDefinition Row) (estimate : Option ℚ)
    (resample : Resample Row) : Option ℚ :=
  pivotOf ctx sqrt estimate (metric.measure resample.sample)
    (variance (resample.inner.map metric.measure))

/-- How many values are undefined. -/
def undefinedCount (values : List (Option ℚ)) : ℕ := values.countP (·.isNone)

/-- Each active metric has its pivots on the resamples. -/
theorem resampleLoop_spec (hactive : active.keys.Nodup) (hmetric : (key, metric) ∈ active)
    (hestimate : estimates.get? key = some estimate) (rows : List Row)
    (length innerRepetitions repetitions : ℕ) {state : Pivots} {pivots : List ℚ} {undefined : ℕ}
    (hstate : state.read key = (some pivots, some undefined)) (sampler : Sampler ρ) :
    (resampleLoop source ctx sqrt rows active estimates length innerRepetitions repetitions state
        sampler).1.read key =
      (some (pivots ++ ((outerDraws source rows length innerRepetitions repetitions sampler).1.map
          (metric.pivot ctx sqrt estimate)).reduceOption),
        some (undefined + undefinedCount
          ((outerDraws source rows length innerRepetitions repetitions sampler).1.map
            (metric.pivot ctx sqrt estimate)))) := by
  induction repetitions generalizing state pivots undefined sampler with
  | zero =>
    rw [resampleLoop, outerDraws, hstate]
    simp [undefinedCount]
  | succ repetitions ih =>
    have hkey : key ∈ active.keys := List.mem_map_of_mem hmetric
    rw [resampleLoop, outerDraws]
    dsimp only
    generalize hdrawn : drawIndices source rows.length length "|" sampler = drawn
    have hpivot : pivotOf ctx sqrt (estimates.get? key).join
        ((active.mapValues (·.measure (sampleOf rows drawn.1))).get? key).join
        ((variances source (sampleOf rows drawn.1) active length innerRepetitions
          drawn.2).1.get? key).join =
        metric.pivot ctx sqrt estimate ⟨sampleOf rows drawn.1,
          (innerDraws source (sampleOf rows drawn.1) length innerRepetitions drawn.2).1⟩ := by
      rw [hestimate, Dict.get?_mapValues, Dict.get?_of_mem hactive hmetric,
        variances_spec source hactive hmetric]
      rfl
    have hrecord := Pivots.read_foldl hactive hkey (fun key => pivotOf ctx sqrt
      (estimates.get? key).join
      ((active.mapValues (·.measure (sampleOf rows drawn.1))).get? key).join
      ((variances source (sampleOf rows drawn.1) active length innerRepetitions
        drawn.2).1.get? key).join) hstate
    rw [hpivot] at hrecord
    rw [ih hrecord, variances_snd, List.map_cons, undefinedCount, undefinedCount, List.countP_cons]
    generalize metric.pivot ctx sqrt estimate ⟨sampleOf rows drawn.1, _⟩ = pivot
    cases pivot with
    | none =>
      rw [List.reduceOption_cons_of_none, Option.toList_none, List.append_nil, Option.isNone_none]
      refine Prod.ext rfl (congrArg some ?_)
      rw [if_pos rfl]
      omega
    | some value =>
      rw [List.reduceOption_cons_of_some, Option.toList_some, List.append_assoc,
        List.singleton_append, Option.isNone_some]
      simp

/-- What is drawn does not depend on the active metrics. -/
theorem resampleLoop_snd (rows : List Row) (length innerRepetitions repetitions : ℕ)
    (state : Pivots) (sampler : Sampler ρ) :
    (resampleLoop source ctx sqrt rows active estimates length innerRepetitions repetitions state
        sampler).2 =
      (outerDraws source rows length innerRepetitions repetitions sampler).2 := by
  induction repetitions generalizing state sampler with
  | zero => rfl
  | succ repetitions ih =>
    rw [resampleLoop, outerDraws]
    dsimp only
    rw [ih, variances_snd]

/-- Nothing is recorded of metrics that are not active. -/
theorem resampleLoop_of_notMem (hkey : key ∉ active.keys) (rows : List Row)
    (length innerRepetitions repetitions : ℕ) (state : Pivots) (sampler : Sampler ρ) :
    (resampleLoop source ctx sqrt rows active estimates length innerRepetitions repetitions state
        sampler).1.read key = state.read key := by
  induction repetitions generalizing state sampler with
  | zero => rfl
  | succ repetitions ih =>
    rw [resampleLoop]
    exact (ih _ _).trans (Pivots.read_foldl_of_notMem hkey _)

end Resampling

/-- What is drawn for one block length, and the text of its indices. -/
structure BlockDraws (Row : Type) where
  original : List (List Row)
  outer : List (Resample Row)
  text : String

section Blocks

variable {ρ Row : Type} (source : RandomSource ρ) (ctx : DecimalContext) (sqrt : ℚ → ℚ)
  (hexdigest : String → String) (request : BoundRequest Row)

/-- What is drawn for one block length. -/
def blockDraws (length : ℕ) : BlockDraws Row :=
  if request.rows.length < length then ⟨[], [], ""⟩
  else
    let original := innerDraws source request.rows length request.innerRepetitions
      ⟨source.seeded (toString request.seed ++ ":" ++ toString length), ""⟩
    let outer := outerDraws source request.rows length request.innerRepetitions
      request.repetitions original.2
    ⟨original.1, outer.1, outer.2.emitted⟩

variable (metric : MetricDefinition Row) (length : ℕ)

/-- The variance of a metric on the rows. -/
def MetricDefinition.originalVariance : Option ℚ :=
  variance ((blockDraws source request length).original.map metric.measure)

/-- The pivots of a metric on the resamples. -/
def MetricDefinition.pivots : List (Option ℚ) :=
  (blockDraws source request length).outer.map
    (metric.pivot ctx sqrt (metric.measure request.rows))

/-- A metric that has an estimate and a positive variance. -/
def MetricDefinition.IsActive : Prop :=
  (metric.measure request.rows).isSome ∧ IsPositive (metric.originalVariance source request length)

instance : Decidable (metric.IsActive source request length) :=
  inferInstanceAs (Decidable (_ ∧ _))

/-- How many resamples are undefined for a metric. -/
def MetricDefinition.undefinedOn : ℕ :=
  if length ≤ request.rows.length ∧ metric.IsActive source request length then
    undefinedCount (metric.pivots source ctx sqrt request length)
  else request.repetitions

/-- The order statistic that decides the bound of a metric. -/
def MetricDefinition.orderStatistic : Option ℚ :=
  ((metric.pivots source ctx sqrt request length).reduceOption.insertionSort
    (· ≤ ·))[(metric.direction.position request.repetitions request.alpha).toNat]?

/-- The bound of a metric for one block length. -/
def MetricDefinition.boundOn : Option ℚ :=
  if UnreliableTail request.repetitions request.alpha ∨
      metric.undefinedOn source ctx sqrt request length ≠ 0 then none
  else do
    let estimate ← metric.measure request.rows
    let variance ← metric.originalVariance source request length
    let pivot ← metric.orderStatistic source ctx sqrt request length
    return estimate - ctx.mul pivot (sqrt (decimalFraction ctx variance))

/-- The bound of a metric. -/
def MetricDefinition.studentized : StudentizedBound :=
  let blockBounds := Dict.ofLast (request.blockLengths.map fun length =>
    (toString length, metric.boundOn source ctx sqrt request length))
  { estimate := metric.measure request.rows
    bound := overallBound metric.direction (blockBounds.map (·.2))
    blockBounds
    undefinedResamples := Dict.ofLast (request.blockLengths.map fun length =>
      (toString length, metric.undefinedOn source ctx sqrt request length))
    unreliableTail := decide (UnreliableTail request.repetitions request.alpha)
    samplingDigests := Dict.ofLast (request.blockLengths.map fun length =>
      (toString length, hexdigest (blockDraws source request length).text)) }

end Blocks

end StockProfiler.Prospective
