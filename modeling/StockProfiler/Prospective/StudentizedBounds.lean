import Mathlib.Order.Bounds.Basic
import StockProfiler.Prospective.StudentizedDraws

/-!
# Joint bounds that do not depend on each other

The bounds of each metric are those of the metric alone, so that they are the same among any
other metrics. A block bound is an order statistic of pivots that are all defined, and the
bound of a metric is the least favourable of them.
-/

namespace StockProfiler.Prospective

section Bounds

variable {values : List (Option ℚ)} {ρ Row : Type} {source : RandomSource ρ} {ctx : DecimalContext}
  {sqrt : ℚ → ℚ} {hexdigest : String → String} {request : BoundRequest Row}
  {metric : MetricDefinition Row} {length : ℕ}

theorem variance_isSome : (variance values).isSome ↔ ∀ value ∈ values, value.isSome := by
  rw [variance]
  split
  · rename_i hany
    obtain ⟨value, hmem, hnone⟩ := List.any_eq_true.mp hany
    refine ⟨fun h => absurd h Bool.false_ne_true, fun h => ?_⟩
    rw [Option.isNone_iff_eq_none] at hnone
    exact absurd (h value hmem) (by rw [hnone]; exact Bool.false_ne_true)
  · rename_i hany
    refine ⟨fun _ value hmem => ?_, fun _ => rfl⟩
    by_contra hnone
    exact hany (List.any_eq_true.mpr ⟨value, hmem, by simpa using hnone⟩)

theorem isSome_of_isPositive {value : Option ℚ} (h : IsPositive value) : value.isSome := by
  obtain ⟨v, hv, -⟩ := h
  exact Option.isSome_iff_exists.mpr ⟨v, hv⟩

/-- A pivot is defined where its values are and its variance is positive. -/
theorem pivotOf_isSome {original value variance : Option ℚ} :
    (pivotOf ctx sqrt original value variance).isSome ↔
      original.isSome ∧ value.isSome ∧ IsPositive variance := by
  cases original with
  | none => exact ⟨fun h => absurd h Bool.false_ne_true, fun h => absurd h.1 Bool.false_ne_true⟩
  | some original =>
    cases value with
    | none => exact ⟨fun h => absurd h Bool.false_ne_true, fun h => absurd h.2.1 Bool.false_ne_true⟩
    | some value =>
      cases variance with
      | none =>
        refine ⟨fun h => absurd h Bool.false_ne_true, fun h => ?_⟩
        exact absurd (isSome_of_isPositive h.2.2) Bool.false_ne_true
      | some v =>
        have hpivot : pivotOf ctx sqrt (some original) (some value) (some v) = if v ≤ 0 then none
            else some (ctx.div (decimalFraction ctx (value - original))
              (sqrt (decimalFraction ctx v))) := rfl
        rw [hpivot]
        by_cases hv : v ≤ 0
        · rw [if_pos hv]
          refine ⟨fun h => absurd h Bool.false_ne_true, fun h => ?_⟩
          obtain ⟨w, hw, hpos⟩ := h.2.2
          cases hw
          exact absurd hv (not_le.mpr hpos)
        · rw [if_neg hv]
          exact ⟨fun _ => ⟨rfl, rfl, v, rfl, not_le.mp hv⟩, fun _ => rfl⟩

variable (source request metric length) in
/-- A metric that is defined on all resamples and varies on each of them. -/
structure MetricDefinition.DefinedOn : Prop where
  estimate : (metric.measure request.rows).isSome
  original : ∀ sample ∈ (blockDraws source request length).original, (metric.measure sample).isSome
  original_pos : IsPositive (metric.originalVariance source request length)
  outer : ∀ resample ∈ (blockDraws source request length).outer,
    (metric.measure resample.sample).isSome
  inner : ∀ resample ∈ (blockDraws source request length).outer, ∀ sample ∈ resample.inner,
    (metric.measure sample).isSome
  inner_pos : ∀ resample ∈ (blockDraws source request length).outer,
    IsPositive (variance (resample.inner.map metric.measure))

theorem undefinedCount_eq_zero : undefinedCount values = 0 ↔ ∀ value ∈ values, value.isSome := by
  rw [undefinedCount, List.countP_eq_zero]
  refine forall₂_congr fun value _ => ?_
  cases value <;> simp

/-- No resample is undefined for a metric that is defined on all of them, -/
theorem undefinedOn_eq_zero (hrepetitions : request.repetitions ≠ 0) :
    metric.undefinedOn source ctx sqrt request length = 0 ↔
      length ≤ request.rows.length ∧ metric.DefinedOn source request length := by
  rw [MetricDefinition.undefinedOn]
  split
  · rename_i hactive
    obtain ⟨hlength, hestimate, hpositive⟩ := hactive
    rw [undefinedCount_eq_zero, MetricDefinition.pivots, List.forall_mem_map]
    constructor
    · intro hpivots
      have hparts := fun resample hresample => pivotOf_isSome.mp (hpivots resample hresample)
      refine ⟨hlength, hestimate, ?_, hpositive, fun resample hresample => (hparts _ hresample).2.1,
        fun resample hresample => ?_, fun resample hresample => (hparts _ hresample).2.2⟩
      · have hsome := variance_isSome.mp (isSome_of_isPositive hpositive)
        exact fun sample hsample => hsome _ (List.mem_map_of_mem hsample)
      · have hsome := variance_isSome.mp (isSome_of_isPositive (hparts _ hresample).2.2)
        exact fun sample hsample => hsome _ (List.mem_map_of_mem hsample)
    · rintro ⟨-, hdefined⟩ resample hresample
      exact pivotOf_isSome.mpr ⟨hestimate, hdefined.outer _ hresample,
        hdefined.inner_pos _ hresample⟩
  · rename_i hinactive
    refine ⟨fun h => absurd h hrepetitions, fun h => absurd ⟨h.1, h.2.estimate, ?_⟩ hinactive⟩
    exact h.2.original_pos

variable (request) in
/-- As many resamples as requested, of as many rows as there are. -/
structure BlockDraws.Complete (draws : BlockDraws Row) : Prop where
  original : draws.original.length = request.innerRepetitions
  original_rows : ∀ sample ∈ draws.original, sample.length = request.rows.length
  outer : draws.outer.length = request.repetitions
  outer_rows : ∀ resample ∈ draws.outer, resample.sample.length = request.rows.length
  inner : ∀ resample ∈ draws.outer, resample.inner.length = request.innerRepetitions
  inner_rows : ∀ resample ∈ draws.outer, ∀ sample ∈ resample.inner,
    sample.length = request.rows.length

theorem length_of_mem_innerDraws {rows : List Row} (hpos : 1 ≤ length)
    (hlength : length ≤ rows.length) {repetitions : ℕ} {sampler : Sampler ρ} :
    ∀ sample ∈ (innerDraws source rows length repetitions sampler).1,
      sample.length = rows.length := by
  induction repetitions generalizing sampler with
  | zero => exact nofun
  | succ repetitions ih =>
    rw [innerDraws]
    exact List.forall_mem_cons.mpr ⟨length_sampleOf source hpos hlength _ _, ih⟩

theorem complete_outerDraws {rows : List Row} (hpos : 1 ≤ length) (hlength : length ≤ rows.length)
    {innerRepetitions repetitions : ℕ} {sampler : Sampler ρ} :
    ∀ resample ∈ (outerDraws source rows length innerRepetitions repetitions sampler).1,
      resample.sample.length = rows.length ∧ resample.inner.length = innerRepetitions ∧
        ∀ sample ∈ resample.inner, sample.length = rows.length := by
  induction repetitions generalizing sampler with
  | zero => exact nofun
  | succ repetitions ih =>
    have hsample := length_sampleOf source hpos hlength "|" sampler
    rw [outerDraws]
    refine List.forall_mem_cons.mpr ⟨⟨hsample, length_innerDraws .., fun sample hmem => ?_⟩, ih⟩
    exact (length_of_mem_innerDraws hpos (hlength.trans_eq hsample.symm) sample hmem).trans hsample

theorem complete_blockDraws (hpos : 1 ≤ length) (hlength : length ≤ request.rows.length) :
    (blockDraws source request length).Complete request := by
  rw [blockDraws, if_neg (not_lt.mpr hlength)]
  have houter := @complete_outerDraws ρ Row source length request.rows hpos hlength
    request.innerRepetitions request.repetitions
  exact ⟨length_innerDraws .., length_of_mem_innerDraws hpos hlength, length_outerDraws ..,
    fun resample h => (houter resample h).1, fun resample h => (houter resample h).2.1,
    fun resample h => (houter resample h).2.2⟩

theorem length_reduceOption_of_isSome (h : ∀ value ∈ values, value.isSome) :
    values.reduceOption.length = values.length := by
  induction values with
  | nil => rfl
  | cons value values ih =>
    rw [List.forall_mem_cons] at h
    obtain ⟨v, rfl⟩ := Option.isSome_iff_exists.mp h.1
    rw [List.reduceOption_cons_of_some, List.length_cons, List.length_cons, ih h.2]

theorem length_pivots (h : length ≤ request.rows.length) :
    (metric.pivots source ctx sqrt request length).length = request.repetitions := by
  rw [MetricDefinition.pivots, List.length_map, blockDraws, if_neg (not_lt.mpr h)]
  exact length_outerDraws ..

/-- The places of reliable order statistics are inside. -/
theorem position_of_reliable {repetitions : ℕ} {alpha : ℚ} (h : ¬UnreliableTail repetitions alpha)
    (direction : BoundDirection) : 0 < direction.position repetitions alpha ∧
      direction.position repetitions alpha < (repetitions : ℤ) - 1 := by
  have hposition : ∀ position ∈ [BoundDirection.lower, .upper].map (·.position repetitions alpha),
      0 < position ∧ position < (repetitions : ℤ) - 1 := by
    intro position hmem
    by_contra hnot
    refine h ⟨position, hmem, ?_⟩
    rw [not_and_or, not_lt, not_lt] at hnot
    exact hnot
  refine hposition _ (List.mem_map_of_mem ?_)
  cases direction
  · exact List.mem_cons_self
  · exact List.mem_cons_of_mem _ List.mem_cons_self

theorem exists_orderStatistic (hreliable : ¬UnreliableTail request.repetitions request.alpha)
    (hlength : length ≤ request.rows.length)
    (hdefined : ∀ pivot ∈ metric.pivots source ctx sqrt request length, pivot.isSome) :
    ∃ pivot, metric.orderStatistic source ctx sqrt request length = some pivot := by
  obtain ⟨hpos, hlt⟩ := position_of_reliable hreliable metric.direction
  refine ⟨_, List.getElem?_eq_getElem (h := ?_) ..⟩
  rw [List.length_insertionSort, length_reduceOption_of_isSome hdefined, length_pivots hlength]
  omega

/-- The bound that the code computes is the abstract bound of the request. -/
theorem blockBound_eq (hrepetitions : request.repetitions ≠ 0)
    (hlength : length ≤ request.rows.length)
    {pivots : List ℚ} (hpivots : metric.IsActive source request length →
      pivots = (metric.pivots source ctx sqrt request length).reduceOption) :
    blockBound ctx sqrt (UnreliableTail request.repetitions request.alpha)
        (metric.direction.position request.repetitions request.alpha)
        (metric.undefinedOn source ctx sqrt request length) (metric.measure request.rows)
        (metric.originalVariance source request length) pivots =
      .ok (metric.boundOn source ctx sqrt request length) := by
  unfold blockBound MetricDefinition.boundOn
  by_cases hunreliable : UnreliableTail request.repetitions request.alpha
  · rw [if_pos (.inl hunreliable), if_pos (.inl hunreliable)]
  by_cases hundefined : metric.undefinedOn source ctx sqrt request length ≠ 0
  · rw [if_pos (.inr (.inl hundefined)), if_pos (.inr hundefined)]
  obtain ⟨-, hdefined⟩ := (undefinedOn_eq_zero hrepetitions).mp (not_not.mp hundefined)
  have hactive : metric.IsActive source request length := ⟨hdefined.estimate, hdefined.original_pos⟩
  have hsome : ∀ pivot ∈ metric.pivots source ctx sqrt request length, pivot.isSome := by
    have hzero := not_not.mp hundefined
    rw [MetricDefinition.undefinedOn, if_pos ⟨hlength, hactive⟩] at hzero
    exact undefinedCount_eq_zero.mp hzero
  obtain ⟨pivot, hpivot⟩ := exists_orderStatistic hunreliable hlength hsome
  obtain ⟨estimate, hestimate⟩ := Option.isSome_iff_exists.mp hdefined.estimate
  obtain ⟨v, hv, hpos⟩ := hdefined.original_pos
  have hvariance := Option.mem_def.mp hv
  have hnone : ¬(UnreliableTail request.repetitions request.alpha ∨
      metric.undefinedOn source ctx sqrt request length ≠ 0 ∨
      ¬IsPositive (metric.originalVariance source request length)) :=
    not_or.mpr ⟨hunreliable, not_or.mpr ⟨hundefined, not_not.mpr hdefined.original_pos⟩⟩
  rw [if_neg hnone, if_neg (not_or.mpr ⟨hunreliable, hundefined⟩), hestimate, hvariance, hpivot,
    hpivots hactive]
  rw [MetricDefinition.orderStatistic] at hpivot
  dsimp only
  rw [hpivot]
  rfl

variable {metrics : Dict String (MetricDefinition Row)} {key : String}

/-- What a metric reads of the parts of a block. -/
structure ReadsBlock (source : RandomSource ρ) (ctx : DecimalContext) (sqrt : ℚ → ℚ)
    (hexdigest : String → String) (request : BoundRequest Row)
    (metrics : Dict String (MetricDefinition Row)) (length : ℕ) (result : BlockResult) : Prop where
  bounds : result.bounds = metrics.mapValues (·.boundOn source ctx sqrt request length)
  undefined : ∀ key metric, (key, metric) ∈ metrics → (result.undefined.get? key).getD 0 =
    metric.undefinedOn source ctx sqrt request length
  digest : result.digest = hexdigest (blockDraws source request length).text

theorem boundOn_of_short (hrepetitions : request.repetitions ≠ 0)
    (h : request.rows.length < length) :
    metric.boundOn source ctx sqrt request length = none ∧
      metric.undefinedOn source ctx sqrt request length = request.repetitions := by
  have hundefined : metric.undefinedOn source ctx sqrt request length = request.repetitions := by
    rw [MetricDefinition.undefinedOn, if_neg fun hle => absurd h (not_lt.mpr hle.1)]
  refine ⟨?_, hundefined⟩
  rw [MetricDefinition.boundOn, hundefined, if_pos (.inr hrepetitions)]

theorem mem_activeMetrics (hmetric : (key, metric) ∈ metrics)
    {estimates originals : Dict String (Option ℚ)} {estimate original : Option ℚ}
    (hestimate : estimates.get? key = some estimate)
    (horiginal : originals.get? key = some original) :
    (key, metric) ∈ activeMetrics metrics estimates originals ↔
      estimate.isSome ∧ IsPositive original := by
  rw [activeMetrics, List.mem_filter, decide_eq_true_eq, hestimate, horiginal]
  exact ⟨fun h => h.2, fun h => ⟨hmetric, h⟩⟩

theorem mem_keys_activeMetrics (hmetrics : metrics.keys.Nodup) (hmetric : (key, metric) ∈ metrics)
    {estimates originals : Dict String (Option ℚ)} :
    key ∈ (activeMetrics metrics estimates originals).keys ↔
      (key, metric) ∈ activeMetrics metrics estimates originals := by
  refine ⟨fun hkey => ?_, fun h => List.mem_map_of_mem h⟩
  obtain ⟨⟨other, found⟩, hfound, rfl⟩ := List.mem_map.mp hkey
  have hsame := Dict.get?_of_mem hmetrics (List.mem_filter.mp hfound).1
  rw [Dict.get?_of_mem hmetrics hmetric] at hsame
  exact Option.some.inj hsame ▸ hfound

theorem nodup_activeMetrics (hmetrics : metrics.keys.Nodup)
    (estimates originals : Dict String (Option ℚ)) :
    (activeMetrics metrics estimates originals).keys.Nodup :=
  hmetrics.sublist (List.filter_sublist.map _)

theorem mapM_eq_ok_map {ε : Type*} {α β : Type} {f : α → Except ε β} {g : α → β} {items : List α}
    (h : ∀ a ∈ items, f a = .ok (g a)) : items.mapM f = .ok (items.map g) := by
  rw [mapM_eq_ok, List.forall₂_map_right_iff, List.forall₂_same]
  exact h

theorem get?_originalVariances (hmetrics : metrics.keys.Nodup) (hmetric : (key, metric) ∈ metrics)
    (hlength : length ≤ request.rows.length) :
    (originalVariances source request metrics length).1.get? key =
      some (metric.originalVariance source request length) := by
  rw [originalVariances, variances_spec source hmetrics hmetric,
    MetricDefinition.originalVariance, blockDraws, if_neg (not_lt.mpr hlength)]

variable (source ctx sqrt request) in
/-- The pivots and the undefined resamples of a metric are those of the metric alone. -/
theorem read_blockPivots (hmetrics : metrics.keys.Nodup) (hmetric : (key, metric) ∈ metrics)
    (hlength : length ≤ request.rows.length) :
    ∃ pivots, (blockPivots source ctx sqrt request metrics length).1.read key =
        (some pivots, some (metric.undefinedOn source ctx sqrt request length)) ∧
      (metric.IsActive source request length →
        pivots = (metric.pivots source ctx sqrt request length).reduceOption) := by
  have hestimate : (metrics.mapValues (·.measure request.rows)).get? key =
      some (metric.measure request.rows) := by
    rw [Dict.get?_mapValues, Dict.get?_of_mem hmetrics hmetric]
    rfl
  have horiginal : (originalVariances source request metrics length).1.get? key =
      some (metric.originalVariance source request length) :=
    get?_originalVariances hmetrics hmetric hlength
  have hempty : (metrics.mapValues fun _ => ([] : List ℚ)).get? key = some [] := by
    rw [Dict.get?_mapValues, Dict.get?_of_mem hmetrics hmetric]
    rfl
  have hmem : (key, metric) ∈ blockActive source request metrics length ↔
      metric.IsActive source request length := mem_activeMetrics hmetric hestimate horiginal
  have hkey : key ∈ (blockActive source request metrics length).keys ↔
      metric.IsActive source request length :=
    (mem_keys_activeMetrics hmetrics hmetric).trans hmem
  let start : Pivots := ⟨metrics.mapValues fun _ => [], metrics.map fun entry => (entry.1,
    if entry.1 ∈ (blockActive source request metrics length).keys then 0
    else request.repetitions)⟩
  have hstart : start.read key = (some [],
      some (if metric.IsActive source request length then 0 else request.repetitions)) := by
    refine Prod.ext ?_ ?_
    · exact hempty
    · have hnodup : Dict.keys start.undefined = Dict.keys metrics := by
        simp only [start, Dict.keys, List.map_map, Function.comp_def]
      refine Dict.get?_of_mem (hnodup ▸ hmetrics) (List.mem_map.mpr ⟨(key, metric), hmetric, ?_⟩)
      simp only [hkey]
  rw [blockPivots]
  by_cases hactive : metric.IsActive source request length
  · rw [if_pos hactive] at hstart
    have hread := resampleLoop_spec source ctx sqrt (nodup_activeMetrics hmetrics _ _)
      (hmem.mpr hactive) hestimate request.rows length request.innerRepetitions
      request.repetitions hstart (originalVariances source request metrics length).2
    refine ⟨_, hread.trans (Prod.ext rfl (congrArg some ?_)), fun _ => ?_⟩
    · rw [MetricDefinition.undefinedOn, if_pos ⟨hlength, hactive⟩, MetricDefinition.pivots,
        blockDraws, if_neg (not_lt.mpr hlength), originalVariances, variances_snd, Nat.zero_add]
    · rw [List.nil_append, MetricDefinition.pivots, blockDraws, if_neg (not_lt.mpr hlength),
        originalVariances, variances_snd]
  · rw [if_neg hactive] at hstart
    refine ⟨[], ?_, fun h => absurd h hactive⟩
    rw [resampleLoop_of_notMem source ctx sqrt (mt hkey.mp hactive), MetricDefinition.undefinedOn,
      if_neg fun h => hactive h.2]
    exact hstart

variable (source ctx sqrt hexdigest request length) in
/-- The result of a block length reads as each metric alone. -/
theorem blockResult_reads (hmetrics : metrics.keys.Nodup) (hrepetitions : request.repetitions ≠ 0) :
    ∃ result, blockResult source ctx sqrt hexdigest request metrics length = .ok result ∧
      ReadsBlock source ctx sqrt hexdigest request metrics length result := by
  unfold blockResult
  by_cases hshort : request.rows.length < length
  · rw [if_pos hshort]
    refine ⟨_, rfl, ?_, ?_, ?_⟩
    · refine List.map_congr_left fun entry _ => ?_
      dsimp only
      rw [(boundOn_of_short hrepetitions hshort).1]
    · intro key metric hmetric
      rw [Dict.get?_mapValues, Dict.get?_of_mem hmetrics hmetric,
        (boundOn_of_short hrepetitions hshort).2]
      rfl
    · rw [blockDraws, if_pos hshort]
  · have hlength := not_lt.mp hshort
    rw [if_neg hshort]
    dsimp only
    have hbounds : ∀ entry ∈ metrics, (do
        let bound ← blockBound ctx sqrt (UnreliableTail request.repetitions request.alpha)
          (entry.2.direction.position request.repetitions request.alpha)
          (((blockPivots source ctx sqrt request metrics length).1.undefined.get? entry.1).getD 0)
          (entry.2.measure request.rows)
          ((originalVariances source request metrics length).1.get? entry.1).join
          (((blockPivots source ctx sqrt request metrics length).1.pivots.get? entry.1).getD [])
        return (entry.1, bound) : Except String (String × Option ℚ)) =
        .ok (entry.1, entry.2.boundOn source ctx sqrt request length) := by
      rintro ⟨key, metric⟩ hmetric
      obtain ⟨pivots, hread, hpivots⟩ :=
        read_blockPivots source ctx sqrt request hmetrics hmetric hlength
      obtain ⟨hpivot, hundefined⟩ := Prod.mk.inj hread
      dsimp only
      rw [hpivot, hundefined, get?_originalVariances hmetrics hmetric hlength, Option.getD_some,
        Option.getD_some, Option.join_some, blockBound_eq hrepetitions hlength hpivots]
      rfl
    rw [mapM_eq_ok_map hbounds]
    refine ⟨_, rfl, rfl, ?_, ?_⟩
    · intro key metric hmetric
      obtain ⟨pivots, hread, -⟩ :=
        read_blockPivots source ctx sqrt request hmetrics hmetric hlength
      rw [(Prod.mk.inj hread).2, Option.getD_some]
    · rw [blockPivots, resampleLoop_snd, originalVariances, variances_snd, blockDraws,
        if_neg hshort]

/-- What the parameters of accepted bounds satisfy. -/
structure BoundRequest.Valid (request : BoundRequest Row) : Prop where
  alpha_pos : 0 < request.alpha
  alpha_lt : request.alpha < 1
  repetitions : 2 ≤ request.repetitions
  innerRepetitions : 2 ≤ request.innerRepetitions
  blockLengths_ne : request.blockLengths ≠ []
  blockLengths_pos : ∀ length ∈ request.blockLengths, 1 ≤ length

theorem BoundRequest.Valid.repetitions_ne (h : request.Valid) : request.repetitions ≠ 0 := by
  have := h.repetitions
  omega

variable {all other : Metrics Row} {results results' : Dict String StudentizedBound}

theorem valid_of_studentizedBounds
    (h : studentizedBounds source ctx sqrt hexdigest request all = .ok results) :
    request.Valid := by
  unfold studentizedBounds at h
  obtain ⟨_, hparameters, h⟩ := bind_eq_ok.mp h
  obtain ⟨_, hlengths, -⟩ := bind_eq_ok.mp h
  obtain ⟨hpos, hlt, hrepetitions, hinner⟩ := require_eq_ok.mp hparameters
  obtain ⟨hne, hlengths⟩ := require_eq_ok.mp hlengths
  exact ⟨hpos, hlt, hrepetitions, hinner, hne, hlengths⟩

/-- The bounds of metrics are those of each metric alone. -/
theorem studentizedBounds_eq (h : request.Valid) :
    studentizedBounds source ctx sqrt hexdigest request all = .ok (all.entries.map fun entry =>
      (entry.1, entry.2.studentized source ctx sqrt hexdigest request)) := by
  have hrepetitions := h.repetitions_ne
  choose result hresult hreads using fun length =>
    blockResult_reads source ctx sqrt hexdigest request length all.nodup hrepetitions
  have hresults : (request.blockLengths.mapM fun length => do
      let result ← blockResult source ctx sqrt hexdigest request all.entries length
      return (toString length, result) : Except String (List (String × BlockResult))) =
      .ok (request.blockLengths.map fun length => (toString length, result length)) := by
    refine mapM_eq_ok_map fun length _ => ?_
    rw [hresult]
    rfl
  unfold studentizedBounds
  refine bind_eq_ok.mpr ⟨(), require_eq_ok.mpr ⟨h.alpha_pos, h.alpha_lt, h.repetitions,
    h.innerRepetitions⟩, bind_eq_ok.mpr ⟨(), require_eq_ok.mpr ⟨h.blockLengths_ne,
    h.blockLengths_pos⟩, bind_eq_ok.mpr ⟨_, hresults, congrArg Except.ok ?_⟩⟩⟩
  refine List.map_congr_left fun entry hentry => ?_
  have hbound : ∀ length, ((result length).bounds.get? entry.1).join =
      entry.2.boundOn source ctx sqrt request length := by
    intro length
    rw [(hreads length).bounds, Dict.get?_mapValues, Dict.get?_of_mem all.nodup hentry]
    rfl
  have hundefined : ∀ length, ((result length).undefined.get? entry.1).getD 0 =
      entry.2.undefinedOn source ctx sqrt request length :=
    fun length => (hreads length).undefined _ _ hentry
  have hdigest : ∀ length, (result length).digest =
      hexdigest (blockDraws source request length).text := fun length => (hreads length).digest
  simp only [List.map_map, Function.comp_def, hbound, hundefined, hdigest]
  rfl

variable (source ctx sqrt request metric length) in
/-- A block bound and the order statistic that decides it. -/
structure MetricDefinition.BoundedOn (bound : ℚ) : Prop where
  enough : length ≤ request.rows.length
  reliable : ¬UnreliableTail request.repetitions request.alpha
  drawn : (blockDraws source request length).Complete request
  defined : metric.DefinedOn source request length
  pivots : (metric.pivots source ctx sqrt request length).reduceOption.length =
    request.repetitions
  orderStatistic : ∃ estimate variance pivot, metric.measure request.rows = some estimate ∧
    metric.originalVariance source request length = some variance ∧
    metric.orderStatistic source ctx sqrt request length = some pivot ∧
    bound = estimate - ctx.mul pivot (sqrt (decimalFraction ctx variance))

/-- A bound of a block length is what its definition asks for. -/
theorem boundOn_eq_some (hrepetitions : request.repetitions ≠ 0) (hpos : 1 ≤ length) {bound : ℚ} :
    metric.boundOn source ctx sqrt request length = some bound ↔
      metric.BoundedOn source ctx sqrt request length bound := by
  rw [MetricDefinition.boundOn]
  constructor
  · intro h
    split at h
    · exact absurd h nofun
    · rename_i hnot
      obtain ⟨hreliable, hundefined⟩ := not_or.mp hnot
      have hzero := not_not.mp hundefined
      obtain ⟨hlength, hdefined⟩ := (undefinedOn_eq_zero hrepetitions).mp hzero
      obtain ⟨estimate, hestimate, h⟩ := bind_eq_some.mp h
      obtain ⟨variance, hvariance, h⟩ := bind_eq_some.mp h
      obtain ⟨pivot, hpivot, h⟩ := bind_eq_some.mp h
      rw [MetricDefinition.undefinedOn, if_pos ⟨hlength, hdefined.estimate, hdefined.original_pos⟩]
        at hzero
      refine ⟨hlength, hreliable, complete_blockDraws hpos hlength, hdefined, ?_, estimate,
        variance, pivot, hestimate, hvariance,
        hpivot, (Option.some.inj h).symm⟩
      rw [length_reduceOption_of_isSome (undefinedCount_eq_zero.mp hzero), length_pivots hlength]
  · intro h
    obtain ⟨estimate, variance, pivot, hestimate, hvariance, hpivot, rfl⟩ := h.orderStatistic
    have hzero : metric.undefinedOn source ctx sqrt request length = 0 :=
      (undefinedOn_eq_zero hrepetitions).mpr ⟨h.enough, h.defined⟩
    rw [if_neg (not_or.mpr ⟨h.reliable, not_not.mpr hzero⟩), hestimate, hvariance, hpivot]
    rfl

/-- The extreme value of a direction. -/
def BoundDirection.IsExtreme (direction : BoundDirection) (values : Set ℚ) (value : ℚ) : Prop :=
  match direction with
  | .lower => IsLeast values value
  | .upper => IsGreatest values value

theorem overallBound_eq_some {direction : BoundDirection} {bounds : List (Option ℚ)} {bound : ℚ} :
    overallBound direction bounds = some bound ↔
      (∀ value ∈ bounds, value.isSome) ∧
        direction.IsExtreme {value | some value ∈ bounds} bound := by
  unfold overallBound
  split
  · rename_i hall
    have hall := List.all_eq_true.mp hall
    cases direction with
    | lower =>
      dsimp only [BoundDirection.IsExtreme]
      rw [List.min?_eq_some_iff, and_iff_right hall]
      simp only [List.reduceOption_mem_iff]
      rfl
    | upper =>
      dsimp only [BoundDirection.IsExtreme]
      rw [List.max?_eq_some_iff, and_iff_right hall]
      simp only [List.reduceOption_mem_iff]
      rfl
  · rename_i hall
    exact ⟨fun h => absurd h nofun, fun h => absurd (List.all_eq_true.mpr h.1) hall⟩

theorem toString_nat_injective : Function.Injective (toString : ℕ → String) := by
  intro m n h
  have hdigits := congrArg String.toList (show m.repr = n.repr from h)
  rw [Nat.toList_repr, Nat.toList_repr] at hdigits
  have hvalue := congrArg (Nat.ofDigitChars 10 · 0) hdigits
  simpa only [Nat.ofDigitChars_ten_toDigits] using hvalue

section Labels

variable {α : Type} {lengths : List ℕ} {f : ℕ → α}

theorem get?_labels (h : length ∈ lengths) :
    (Dict.ofLast (lengths.map fun length => (toString length, f length))).get? (toString length) =
      some (f length) := by
  refine Dict.get?_ofLast_of_mem (List.mem_map_of_mem h) fun found hfound => ?_
  obtain ⟨other, -, heq⟩ := List.mem_map.mp hfound
  obtain ⟨hlabel, rfl⟩ := Prod.mk.inj heq
  rw [toString_nat_injective hlabel]

theorem mem_labels {value : α} :
    value ∈ (Dict.ofLast (lengths.map fun length => (toString length, f length))).map (·.2) ↔
      ∃ length ∈ lengths, f length = value := by
  constructor
  · intro h
    obtain ⟨entry, hentry, rfl⟩ := List.mem_map.mp h
    obtain ⟨length, hlength, rfl⟩ := List.mem_map.mp (Dict.mem_ofLast hentry)
    exact ⟨length, hlength, rfl⟩
  · rintro ⟨length, hlength, rfl⟩
    exact List.mem_map_of_mem (Dict.mem_of_get? (get?_labels hlength))

end Labels

variable (source ctx sqrt request metric) in
/-- What the bound of a metric says. -/
structure MetricDefinition.SoundBound (bound : StudentizedBound) : Prop where
  estimate : bound.estimate = metric.measure request.rows
  /-- A block bound is an order statistic of resamples that are all defined. -/
  block : ∀ length ∈ request.blockLengths, ∃ value,
    bound.blockBounds.get? (toString length) = some value ∧
      ∀ b, value = some b ↔ metric.BoundedOn source ctx sqrt request length b
  /-- The overall bound is the least favourable block bound, if there are all of them. -/
  overall : ∀ b, bound.bound = some b ↔
    (∀ length ∈ request.blockLengths, ∃ c,
      bound.blockBounds.get? (toString length) = some (some c)) ∧
    metric.direction.IsExtreme {c | ∃ length ∈ request.blockLengths,
      bound.blockBounds.get? (toString length) = some (some c)} b

/-- The studentized bound of a valid request is sound. -/
theorem sound_studentized (hvalid : request.Valid) :
    metric.SoundBound source ctx sqrt request
      (metric.studentized source ctx sqrt hexdigest request) := by
  have hrepetitions := hvalid.repetitions_ne
  have hget : ∀ length ∈ request.blockLengths,
      (metric.studentized source ctx sqrt hexdigest request).blockBounds.get? (toString length) =
        some (metric.boundOn source ctx sqrt request length) := fun length => get?_labels
  refine ⟨rfl, fun length hlength => ⟨_, hget length hlength, fun b =>
    boundOn_eq_some hrepetitions (hvalid.blockLengths_pos length hlength)⟩, fun b => ?_⟩
  have hset : {c | some c ∈ (metric.studentized source ctx sqrt hexdigest request).blockBounds.map
      (·.2)} = {c | ∃ length ∈ request.blockLengths, (metric.studentized source ctx sqrt hexdigest
        request).blockBounds.get? (toString length) = some (some c)} := by
    ext c
    refine mem_labels.trans (exists_congr fun length => and_congr_right fun hlength => ?_)
    rw [hget length hlength, Option.some.injEq]
  rw [← hset]
  refine overallBound_eq_some.trans (and_congr_left' ?_)
  constructor
  · intro h length hlength
    obtain ⟨c, hc⟩ := Option.isSome_iff_exists.mp (h _ (mem_labels.mpr ⟨length, hlength, rfl⟩))
    exact ⟨c, (hget length hlength).trans (congrArg some hc)⟩
  · intro h value hvalue
    obtain ⟨length, hlength, rfl⟩ := mem_labels.mp hvalue
    obtain ⟨c, hc⟩ := h length hlength
    rw [hget length hlength] at hc
    exact Option.isSome_iff_exists.mpr ⟨c, Option.some.inj hc⟩

variable (source ctx sqrt hexdigest request) in
/-- Bounds that are joint but do not depend on each other. -/
structure JointBounds (all : Metrics Row) (results : Dict String StudentizedBound) : Prop where
  sound : ∀ key metric, all.entries.get? key = some metric → ∃ bound,
    results.get? key = some bound ∧ metric.SoundBound source ctx sqrt request bound
  /-- A metric has the same bounds among any other metrics. -/
  independent : ∀ other results',
    studentizedBounds source ctx sqrt hexdigest request other = .ok results' →
    ∀ key metric, all.entries.get? key = some metric → other.entries.get? key = some metric →
      results.get? key = results'.get? key

/-- Studentized bounds are joint, independent of each other and least favourable. -/
theorem studentizedBounds_joint
    (h : studentizedBounds source ctx sqrt hexdigest request all = .ok results) :
    JointBounds source ctx sqrt hexdigest request all results := by
  have hvalid := valid_of_studentizedBounds h
  have hread : ∀ {all : Metrics Row} {results : Dict String StudentizedBound},
      studentizedBounds source ctx sqrt hexdigest request all = .ok results → ∀ key metric,
      all.entries.get? key = some metric →
        results.get? key = some (metric.studentized source ctx sqrt hexdigest request) := by
    intro all results h key metric hmetric
    rw [studentizedBounds_eq hvalid] at h
    rw [← Except.ok.inj h]
    have hget := Dict.get?_mapValues (fun metric : MetricDefinition Row =>
      metric.studentized source ctx sqrt hexdigest request) all.entries key
    rw [hmetric] at hget
    exact hget
  refine ⟨fun key metric hmetric => ⟨_, hread h key metric hmetric,
    sound_studentized hvalid⟩, fun other results' h' key metric hmetric hother => ?_⟩
  rw [hread h key metric hmetric, hread h' key metric hother]

end Bounds

namespace SampleStudentized

def counter : RandomSource ℕ where
  seeded text := text.length
  randrange random n := (random % n, random + 1)
  randrange_lt _ _ h := Nat.mod_lt _ h

def mean : MetricDefinition ℚ where
  measure rows := if rows = [] then none else some (rows.sum / rows.length)
  direction := .lower

def undefinedMetric : MetricDefinition ℚ := ⟨fun _ => none, .upper⟩

def together : Metrics ℚ := ⟨[("none", undefinedMetric), ("mean", mean)], by decide⟩

def request : BoundRequest ℚ where
  rows := [1, 3, 4, 8]
  blockLengths := [2]
  repetitions := 6
  innerRepetitions := 3
  alpha := 1 / 3
  seed := 7

def bounds (metrics : Metrics ℚ) : Except String (Dict String StudentizedBound) :=
  studentizedBounds counter .exact id id request metrics

theorem bounds_spec : ((bounds together).toOption.bind (·.get? "mean")).bind (·.bound) =
    some (9 / 4) := by
  decide +kernel

/-- The mean has its bound next to a metric that is never defined. -/
theorem together_joint : ∃ results, bounds together = .ok results ∧
    (∃ bound, results.get? "mean" = some bound ∧ bound.bound = some (9 / 4)) ∧
    JointBounds counter .exact id id request together results := by
  have hbound := bounds_spec
  cases h : bounds together with
  | error reason =>
    rw [h] at hbound
    exact absurd hbound nofun
  | ok results =>
    rw [h] at hbound
    exact ⟨results, rfl, bind_eq_some.mp hbound, studentizedBounds_joint h⟩

end SampleStudentized

end StockProfiler.Prospective
