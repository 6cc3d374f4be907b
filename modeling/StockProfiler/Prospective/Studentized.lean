import Mathlib.Data.List.ReduceOption
import StockProfiler.Core.Checks
import StockProfiler.Core.Decimal
import StockProfiler.Core.Dict

/-!
# Studentized bounds

All metrics are measured on the same moving-block resamples of the rows, and each pivot is
scaled by a variance that is estimated from further resamples. A metric whose value or
variance is undefined on one of them has no bound.
-/

namespace StockProfiler.Prospective

/-- A pseudorandom generator. -/
structure RandomSource (ρ : Type) where
  /-- The generator that is seeded with the digest of a text. -/
  seeded : String → ρ
  /-- A number below a positive bound. -/
  randrange : ρ → ℕ → ℕ × ρ
  randrange_lt : ∀ random n, 0 < n → (randrange random n).1 < n

/-- A generator and the text of all indices that it drew. -/
structure Sampler (ρ : Type) where
  random : ρ
  emitted : String

section Sampling

variable {ρ : Type} (source : RandomSource ρ)

/-- Draw blocks of indices until there are enough of them. Each block has an index at least, so
that as many blocks as indices are enough. -/
def indicesLoop (size length : ℕ) : ℕ → List ℕ → ρ → List ℕ × ρ
  | 0, result, random => (result, random)
  | fuel + 1, result, random =>
    if result.length < size then
      let start := source.randrange random (size - length + 1)
      indicesLoop size length fuel (result ++ List.range' start.1 length) start.2
    else (result, random)

/-- Draw the indices of one resample. -/
def indices (size length : ℕ) (random : ρ) : List ℕ × ρ :=
  let drawn := indicesLoop source size length size [] random
  (drawn.1.take size, drawn.2)

/-- Draw the indices of one resample and add them to the text. -/
def drawIndices (size length : ℕ) (mark : String) (sampler : Sampler ρ) : List ℕ × Sampler ρ :=
  let drawn := indices source size length sampler.random
  (drawn.1, ⟨drawn.2, sampler.emitted ++ (",".intercalate (drawn.1.map toString) ++ mark)⟩)

end Sampling

/-- The side on which a bound is. -/
inductive BoundDirection where
  | lower
  | upper

/-- A metric that may be undefined on some rows. -/
structure MetricDefinition (Row : Type) where
  measure : List Row → Option ℚ
  direction : BoundDirection

/-- Metrics by name. -/
structure Metrics (Row : Type) where
  entries : Dict String (MetricDefinition Row)
  nodup : entries.keys.Nodup

/-- The rows of some indices. -/
def sampleOf {Row : Type} (rows : List Row) (drawn : List ℕ) : List Row :=
  drawn.filterMap fun index => rows[index]?

/-- The variance of values that are all defined. -/
def variance (values : List (Option ℚ)) : Option ℚ :=
  if values.any (·.isNone) then none
  else
    let known := values.reduceOption
    let mean := known.sum / known.length
    some ((known.map fun value => (value - mean) ^ 2).sum / (known.length - 1))

section Variances

variable {ρ Row : Type} (source : RandomSource ρ)

/-- Measure all metrics on a sample. -/
def measureAll (metrics : Dict String (MetricDefinition Row))
    (values : Dict String (List (Option ℚ))) (sample : List Row) :
    Dict String (List (Option ℚ)) :=
  metrics.foldl (fun values entry => values.push entry.1 (entry.2.measure sample)) values

/-- Measure all metrics on further resamples. -/
def variancesLoop (rows : List Row) (metrics : Dict String (MetricDefinition Row)) (length : ℕ) :
    ℕ → Dict String (List (Option ℚ)) → Sampler ρ → Dict String (List (Option ℚ)) × Sampler ρ
  | 0, values, sampler => (values, sampler)
  | repetitions + 1, values, sampler =>
    let drawn := drawIndices source rows.length length ";" sampler
    variancesLoop rows metrics length repetitions
      (measureAll metrics values (sampleOf rows drawn.1)) drawn.2

/-- The variance of each metric over resamples of the rows. -/
def variances (rows : List Row) (metrics : Dict String (MetricDefinition Row))
    (length repetitions : ℕ) (sampler : Sampler ρ) : Dict String (Option ℚ) × Sampler ρ :=
  let measured := variancesLoop source rows metrics length repetitions
    (metrics.mapValues fun _ => []) sampler
  (measured.1.mapValues variance, measured.2)

end Variances

/-- A positive variance. -/
def IsPositive (value : Option ℚ) : Prop := ∃ v ∈ value, 0 < v

instance (value : Option ℚ) : Decidable (IsPositive value) :=
  match value with
  | none => isFalse fun ⟨_, h, _⟩ => Option.not_mem_none _ h
  | some v =>
    decidable_of_iff (0 < v) ⟨fun h => ⟨v, rfl, h⟩, fun ⟨_, hv, h⟩ => by cases hv; exact h⟩

/-- The pivots of each metric, and how many of its resamples were undefined. -/
structure Pivots where
  pivots : Dict String (List ℚ)
  undefined : Dict String ℕ

/-- Record the pivot of a metric on one resample, or that it is undefined. -/
def Pivots.record (state : Pivots) (key : String) (pivot : Option ℚ) : Pivots :=
  match pivot with
  | none => { state with undefined := state.undefined.modify key (· + 1) }
  | some value => { state with pivots := state.pivots.push key value }

section Pivots

variable {ρ Row : Type} (source : RandomSource ρ) (ctx : DecimalContext) (sqrt : ℚ → ℚ)

/-- A fraction in decimal digits. -/
def decimalFraction (value : ℚ) : ℚ := ctx.div value.num value.den

/-- The deviation of a resample in units of its standard error. -/
def pivotOf (original value variance : Option ℚ) : Option ℚ := do
  let original ← original
  let value ← value
  let variance ← variance
  if variance ≤ 0 then none
  else some (ctx.div (decimalFraction ctx (value - original)) (sqrt (decimalFraction ctx variance)))

/-- Resample the rows, and each resample again for its variances. -/
def resampleLoop (rows : List Row) (active : Dict String (MetricDefinition Row))
    (estimates : Dict String (Option ℚ)) (length innerRepetitions : ℕ) :
    ℕ → Pivots → Sampler ρ → Pivots × Sampler ρ
  | 0, state, sampler => (state, sampler)
  | repetitions + 1, state, sampler =>
    let drawn := drawIndices source rows.length length "|" sampler
    let sample := sampleOf rows drawn.1
    let values := active.mapValues (·.measure sample)
    let inner := variances source sample active length innerRepetitions drawn.2
    let recorded := active.keys.foldl (fun state key => state.record key (pivotOf ctx sqrt
      (estimates.get? key).join (values.get? key).join (inner.1.get? key).join)) state
    resampleLoop rows active estimates length innerRepetitions repetitions recorded inner.2

end Pivots

/-- The place of the order statistic of a bound among the pivots. -/
def BoundDirection.position (direction : BoundDirection) (repetitions : ℕ) (alpha : ℚ) : ℤ :=
  match direction with
  | .lower => ⌈(repetitions + 1) * (1 - alpha)⌉ - 1
  | .upper => ⌊(repetitions + 1) * alpha⌋ - 1

/-- Some order statistic is at an end of the pivots or beyond it. -/
def UnreliableTail (repetitions : ℕ) (alpha : ℚ) : Prop :=
  ∃ position ∈ [BoundDirection.lower, .upper].map (·.position repetitions alpha),
    position ≤ 0 ∨ (repetitions : ℤ) - 1 ≤ position

instance (repetitions : ℕ) (alpha : ℚ) : Decidable (UnreliableTail repetitions alpha) :=
  inferInstanceAs (Decidable (∃ position ∈ _, _))

/-- The request for bounds. -/
structure BoundRequest (Row : Type) where
  rows : List Row
  blockLengths : List ℕ
  repetitions : ℕ
  innerRepetitions : ℕ
  alpha : ℚ
  seed : ℤ

/-- What the resamples of one block length say about each metric. -/
structure BlockResult where
  bounds : Dict String (Option ℚ)
  undefined : Dict String ℕ
  digest : String

/-- The bound of one metric. -/
structure StudentizedBound where
  estimate : Option ℚ
  bound : Option ℚ
  blockBounds : Dict String (Option ℚ)
  undefinedResamples : Dict String ℕ
  unreliableTail : Bool
  samplingDigests : Dict String String

section Bounds

variable {ρ Row : Type} (source : RandomSource ρ) (ctx : DecimalContext) (sqrt : ℚ → ℚ)
  (hexdigest : String → String) (request : BoundRequest Row)

/-- The bound of a metric for one block length. -/
def blockBound (unreliable : Prop) [Decidable unreliable] (position : ℤ) (undefined : ℕ)
    (original variance : Option ℚ) (pivots : List ℚ) : Except String (Option ℚ) :=
  if unreliable ∨ undefined ≠ 0 ∨ ¬IsPositive variance then .ok none
  else match original, variance with
  | some original, some variance => do
    let pivot ← known ((pivots.insertionSort (· ≤ ·))[position.toNat]?) "list index out of range"
    return some (original - ctx.mul pivot (sqrt (decimalFraction ctx variance)))
  | _, _ => .ok none

variable (metrics : Dict String (MetricDefinition Row))

/-- The metrics that have an estimate and a positive variance. -/
def activeMetrics (estimates originals : Dict String (Option ℚ)) :
    Dict String (MetricDefinition Row) :=
  metrics.filter fun entry =>
    (estimates.get? entry.1).join.isSome ∧ IsPositive (originals.get? entry.1).join

variable (length : ℕ)

/-- The variances of all metrics on the rows, with a generator of the block length. -/
def originalVariances : Dict String (Option ℚ) × Sampler ρ :=
  variances source request.rows metrics length request.innerRepetitions
    ⟨source.seeded (toString request.seed ++ ":" ++ toString length), ""⟩

/-- The metrics that are measured on the resamples of a block length. -/
def blockActive : Dict String (MetricDefinition Row) :=
  activeMetrics metrics (metrics.mapValues (·.measure request.rows))
    (originalVariances source request metrics length).1

/-- The pivots of all metrics on the resamples of a block length. -/
def blockPivots : Pivots × Sampler ρ :=
  let active := blockActive source request metrics length
  resampleLoop source ctx sqrt request.rows active (metrics.mapValues (·.measure request.rows))
    length request.innerRepetitions request.repetitions
    ⟨metrics.mapValues fun _ => [], metrics.map fun entry =>
      (entry.1, if entry.1 ∈ active.keys then 0 else request.repetitions)⟩
    (originalVariances source request metrics length).2

/-- The bounds of all metrics for one block length. -/
def blockResult : Except String BlockResult := do
  if request.rows.length < length then
    return ⟨metrics.mapValues fun _ => none, metrics.mapValues fun _ => request.repetitions,
      hexdigest ""⟩
  let originals := (originalVariances source request metrics length).1
  let resampled := blockPivots source ctx sqrt request metrics length
  let bounds ← metrics.mapM fun entry => do
    let bound ← blockBound ctx sqrt (UnreliableTail request.repetitions request.alpha)
      (entry.2.direction.position request.repetitions request.alpha)
      ((resampled.1.undefined.get? entry.1).getD 0) (entry.2.measure request.rows)
      (originals.get? entry.1).join ((resampled.1.pivots.get? entry.1).getD [])
    return (entry.1, bound)
  return ⟨bounds, resampled.1.undefined, hexdigest resampled.2.emitted⟩

/-- The least favourable of the bounds of all block lengths, if each has one. -/
def overallBound (direction : BoundDirection) (bounds : List (Option ℚ)) : Option ℚ :=
  if bounds.all (·.isSome) then
    match direction with
    | .lower => bounds.reduceOption.min?
    | .upper => bounds.reduceOption.max?
  else none

/-- The bounds of all metrics on the same resamples. -/
def studentizedBounds (metrics : Metrics Row) : Except String (Dict String StudentizedBound) := do
  require (0 < request.alpha ∧ request.alpha < 1 ∧ 2 ≤ request.repetitions ∧
    2 ≤ request.innerRepetitions) "PROSPECTIVE_STUDENTIZATION_PARAMETERS_INVALID"
  require (request.blockLengths ≠ [] ∧ ∀ length ∈ request.blockLengths, 1 ≤ length)
    "PROSPECTIVE_BLOCK_LENGTHS_INVALID"
  let results ← request.blockLengths.mapM fun length => do
    let result ← blockResult source ctx sqrt hexdigest request metrics.entries length
    return (toString length, result)
  return metrics.entries.map fun entry =>
    let blockBounds := Dict.ofLast (results.map fun row =>
      (row.1, (row.2.bounds.get? entry.1).join))
    (entry.1, {
      estimate := entry.2.measure request.rows
      bound := overallBound entry.2.direction (blockBounds.map (·.2))
      blockBounds
      undefinedResamples := Dict.ofLast (results.map fun row =>
        (row.1, (row.2.undefined.get? entry.1).getD 0))
      unreliableTail := decide (UnreliableTail request.repetitions request.alpha)
      samplingDigests := Dict.ofLast (results.map fun row => (row.1, row.2.digest)) })

end Bounds

end StockProfiler.Prospective
