import Mathlib.Algebra.Order.Ring.WithTop
import StockProfiler.CandidateSelection.Screening
import StockProfiler.Core.Checks
import StockProfiler.Core.Places

/-!
# The replay of a screening

An accepted snapshot has percentiles between its knots, its percentiles and monotone curves follow
the raw values of peers, and the order of what is observed decides nothing.
-/

namespace StockProfiler.CandidateSelection

section Values

variable {row : ScreeningObservation} {strategy : ScreeningStrategy} {key : String}

/-- With distinct signals, the value of a signal is the one that is listed. -/
theorem get?_values (hnodup : (row.signals.map (·.signalId)).Nodup) {value : SignalValue} :
    row.values.get? key = some value ↔ value ∈ row.signals ∧ value.signalId = key := by
  have hkeys : ((row.signals.map fun value => (value.signalId, value)).map Prod.fst).Nodup := by
    rwa [List.map_map]
  rw [ScreeningObservation.values, Dict.ofLast_of_nodup hkeys]
  constructor
  · intro h
    obtain ⟨other, hother, heq⟩ := List.mem_map.mp (Dict.mem_of_get? h)
    obtain ⟨rfl, rfl⟩ := Prod.mk.inj heq
    exact ⟨hother, rfl⟩
  · rintro ⟨hmem, rfl⟩
    exact Dict.get?_of_mem hkeys (List.mem_map_of_mem hmem)

theorem get?_values_perm {other : ScreeningObservation}
    (hnodup : (row.signals.map (·.signalId)).Nodup) (h : row.signals.Perm other.signals)
    (key : String) : row.values.get? key = other.values.get? key := by
  ext value
  rw [get?_values hnodup, get?_values ((h.map _).nodup_iff.mp hnodup), h.mem_iff]

theorem signalId_of_definition {definition : SignalDefinition}
    (h : strategy.definitions.get? key = some definition) :
    definition ∈ strategy.signals ∧ definition.signalId = key := by
  obtain ⟨other, hother, heq⟩ := List.mem_map.mp (Dict.mem_ofLast (Dict.mem_of_get? h))
  obtain ⟨rfl, rfl⟩ := Prod.mk.inj heq
  exact ⟨hother, rfl⟩

end Values

/-- An observation that meets its contract. -/
structure RowAccepted (strategy : ScreeningStrategy) (request : ReplayRequest)
    (row : ScreeningObservation) : Prop where
  industry : some row.industry = (request.industries.get? row.securityId).join
  nodup : (row.signals.map (·.signalId)).Nodup
  complete : ∀ key, key ∈ row.values.keys ↔ key ∈ strategy.definitions.keys
  values : ∀ key value, row.values.get? key = some value → valueFailures strategy (key, value) = []

section Accepted

variable {ctx : DecimalContext} {hashes : ContentHashes} {zone : MarketZone}
  {snapshot : ScreeningSnapshot} {request : ReplayRequest} {audits : List ScreeningContribution}

theorem sortedSet_eq_iff {xs ys : List String} :
    sortedSet xs = sortedSet ys ↔ ∀ key, key ∈ xs ↔ key ∈ ys := by
  refine ⟨fun h key => ?_, sortedSet_congr⟩
  rw [← mem_sortedSet, h, mem_sortedSet]

theorem observationRowFailures_eq_nil {row : ScreeningObservation} :
    observationRowFailures snapshot request row = [] ↔
      RowAccepted snapshot.strategy request row := by
  rw [observationRowFailures, List.append_eq_nil_iff, List.flatMap_eq_nil_iff,
    ite_eq_left_iff, imp_iff_not (List.cons_ne_nil _ _), not_not, sortedSet_eq_iff]
  constructor
  · rintro ⟨⟨hindustry, hnodup, hcomplete⟩, hvalues⟩
    exact ⟨hindustry, hnodup, hcomplete, fun key value h => hvalues _ (Dict.mem_of_get? h)⟩
  · intro h
    refine ⟨⟨h.industry, h.nodup, h.complete⟩, fun entry hentry => ?_⟩
    exact h.values _ _ (Dict.get?_of_mem (Dict.keys_ofLast_nodup _) hentry)

/-- What acceptance says of the strategy and its artifact. -/
structure ContractAccepted (strategy : ScreeningStrategy)
    (artifact : ScreeningArtifact) : Prop where
  features : featureFailures strategy = []
  knots : knotFailures strategy.knots = []
  positive : headFailures strategy artifact.positive = []
  terminal : headFailures strategy artifact.terminal = []

/-- What acceptance says of the observations. -/
structure RowsAccepted (strategy : ScreeningStrategy) (request : ReplayRequest)
    (rows : List ScreeningObservation) : Prop where
  nodup : (rows.map (·.securityId)).Nodup
  complete : ∀ id, id ∈ rows.map (·.securityId) ↔ id ∈ request.industries.keys
  accepted : ∀ row ∈ rows, RowAccepted strategy request row
  context : ∀ key definition, strategy.definitions.get? key = some definition →
    definition.population = .context → ∀ row ∈ rows, ∀ other ∈ rows, row.raw key = other.raw key

theorem contextConflicts_eq_false {strategy : ScreeningStrategy}
    {rows : List ScreeningObservation} : contextConflicts rows strategy = false ↔
      ∀ key definition, strategy.definitions.get? key = some definition →
        definition.population = .context →
          ∀ row ∈ rows, ∀ other ∈ rows, row.raw key = other.raw key := by
  rw [contextConflicts, List.any_eq_false]
  constructor
  · intro h key definition hget hcontext row hrow other hother
    by_contra hne
    exact h _ (Dict.mem_of_get? hget) (decide_eq_true ⟨hcontext, row, hrow, other, hother, hne⟩)
  · intro h entry hentry htrue
    obtain ⟨hcontext, row, hrow, other, hother, hne⟩ := of_decide_eq_true htrue
    exact hne (h _ _ (Dict.get?_of_mem (Dict.keys_ofLast_nodup _) hentry) hcontext row hrow other
      hother)

/-- A snapshot is accepted where its contract is, whatever is observed, and its observations. -/
theorem replayScreening_eq_iff : replayScreening ctx hashes zone snapshot request = (audits, []) ↔
    (versionFailures hashes snapshot request = [] ∧
      trainingFailures hashes zone snapshot request = []) ∧
    ContractAccepted snapshot.strategy snapshot.artifact ∧
    RowsAccepted snapshot.strategy request snapshot.observations ∧
    audits = snapshot.observations.map (auditOf ctx snapshot) := by
  have hrows : observationFailures snapshot request = [] ↔
      (snapshot.observations.map (·.securityId)).Nodup ∧
      (∀ id, id ∈ snapshot.observations.map (·.securityId) ↔ id ∈ request.industries.keys) ∧
      ∀ row ∈ snapshot.observations, RowAccepted snapshot.strategy request row := by
    simp only [observationFailures, List.append_eq_nil_iff, List.flatMap_eq_nil_iff,
      ite_eq_left_iff, imp_iff_not (List.cons_ne_nil _ _), not_not, sortedSet_eq_iff,
      observationRowFailures_eq_nil, and_assoc]
  have hdups : ∀ failures : List String, failures.eraseDups = [] → failures = [] := by
    intro failures h
    refine List.eq_nil_iff_forall_not_mem.mpr fun failure hmem => ?_
    exact List.not_mem_nil (h ▸ List.mem_eraseDups.mpr hmem)
  unfold replayScreening
  dsimp only
  split
  · rename_i hfailures
    refine iff_of_false (fun h => hfailures (hdups _ (Prod.mk.inj h).2)) ?_
    rintro ⟨⟨hversion, htraining⟩, hcontract, hobserved, -⟩
    refine hfailures ?_
    rw [hversion, htraining, hcontract.features, hcontract.knots, hcontract.positive,
      hcontract.terminal, hrows.mpr ⟨hobserved.nodup, hobserved.complete, hobserved.accepted⟩]
    rfl
  · rename_i hfailures
    simp only [not_not, List.append_eq_nil_iff, hrows] at hfailures
    obtain ⟨⟨⟨⟨⟨⟨hversion, htraining⟩, hfeatures⟩, hknots⟩, hpositive⟩, hterminal⟩, hnodup,
      hcomplete, haccepted⟩ := hfailures
    split
    · rename_i hconflict
      refine iff_of_false (fun h => List.cons_ne_nil _ _ (Prod.mk.inj h).2) ?_
      rintro ⟨-, -, hobserved, -⟩
      exact absurd hconflict
        (Bool.eq_false_iff.mp (contextConflicts_eq_false.mpr hobserved.context))
    · rename_i hconflict
      have hcontext := contextConflicts_eq_false.mp (Bool.eq_false_iff.mpr hconflict)
      constructor
      · intro h
        exact ⟨⟨hversion, htraining⟩, ⟨hfeatures, hknots, hpositive, hterminal⟩,
          ⟨hnodup, hcomplete, haccepted, hcontext⟩, (Prod.mk.inj h).1.symm⟩
      · rintro ⟨-, -, -, rfl⟩
        rfl

end Accepted

/-- The rank of a value among its peers; what was not observed ranks below every raw value. -/
def rankOf (definition : SignalDefinition) (value : SignalValue) : WithBot ℚ :=
  value.raw.elim ⊥ fun raw => (definition.favorable raw : ℚ)

section Percentiles

variable {strategy : ScreeningStrategy} {request : ReplayRequest}
  {rows : List ScreeningObservation} {row : ScreeningObservation} {key : String}
  {definition : SignalDefinition} {value : SignalValue} {raw : ℚ}

/-- The percentile of an observed value is its mean place among the ranks of its peers. -/
theorem transformed_eq (hvalue : row.values.get? definition.signalId = some value)
    (hstate : value.state = .observed) (hraw : value.raw = some raw)
    (hcontext : definition.population ≠ .context) : transformed rows definition row =
      placePercent ((peers rows definition row.industry).map (rankOf definition))
        (definition.favorable raw : ℚ) := by
  obtain ⟨_, _, _⟩ := value
  obtain rfl : _ = some raw := hraw
  obtain rfl : _ = SignalState.observed := hstate
  have hcounts : ∀ peers : List SignalValue,
      (peers.filterMap fun peer => peer.raw.map definition.favorable).countP
          (· < definition.favorable raw) + peers.countP (·.raw = none) =
        (peers.map (rankOf definition)).countP (· < ((definition.favorable raw : ℚ) : WithBot ℚ)) ∧
      (peers.filterMap fun peer => peer.raw.map definition.favorable).countP
          (· = definition.favorable raw) =
        (peers.map (rankOf definition)).countP
          (· = ((definition.favorable raw : ℚ) : WithBot ℚ)) := by
    intro peers
    induction peers with
    | nil => exact ⟨rfl, rfl⟩
    | cons peer peers ih =>
      cases hpeer : peer.raw with
      | none => simp [rankOf, hpeer, ← ih.1, ← ih.2, Nat.add_assoc]
      | some other => simp [List.countP_cons, rankOf, hpeer, ← ih.1, ← ih.2, Nat.add_right_comm]
  unfold transformed
  rw [hvalue]
  dsimp only
  rw [if_neg hcontext, (hcounts _).1, (hcounts _).2, placePercent, meanPlace,
    List.length_map]

/-- A value is one of its peers. -/
theorem mem_peers (hrow : row ∈ rows) (hvalue : row.values.get? definition.signalId = some value) :
    value ∈ peers rows definition row.industry :=
  List.mem_filterMap.mpr ⟨row, List.mem_filter.mpr ⟨hrow, decide_eq_true (.inr rfl)⟩, hvalue⟩

/-- The rows that a signal is compared between. -/
def SamePeers (definition : SignalDefinition) (row other : ScreeningObservation) : Prop :=
  definition.population = .wholeUniverse ∨ row.industry = other.industry

theorem SamePeers.peers_eq {other : ScreeningObservation} (h : SamePeers definition row other) :
    peers rows definition row.industry = peers rows definition other.industry := by
  rcases h with h | h
  · simp only [peers, h, true_or]
  · rw [h]

/-- An accepted value is observed exactly where it has a raw value, in the range of a context. -/
theorem RowAccepted.value_spec (h : RowAccepted strategy request row)
    (hdef : strategy.definitions.get? key = some definition)
    (hvalue : row.values.get? key = some value) :
    (value.state = .observed ↔ value.raw.isSome) ∧
      (definition.population = .context → ∀ raw ∈ value.raw, 0 ≤ raw ∧ raw ≤ 100) := by
  have hnone := h.values key value hvalue
  obtain ⟨_, raw, state⟩ := value
  unfold valueFailures at hnone
  rw [hdef] at hnone
  cases state with
  | observed =>
    cases raw with
    | none => exact absurd hnone (List.cons_ne_nil _ _)
    | some raw =>
      refine ⟨iff_of_true rfl rfl, fun hcontext other hother => ?_⟩
      cases hother
      by_contra hrange
      exact absurd ((if_pos ⟨hcontext, hrange⟩).symm.trans hnone) (List.cons_ne_nil _ _)
  | missing state =>
    have hraw : raw = none := by
      by_contra hraw
      exact absurd ((if_pos (.inr hraw)).symm.trans hnone) (List.cons_ne_nil _ _)
    subst hraw
    exact ⟨iff_of_false (fun heq => by cases heq) (fun heq => by cases heq),
      fun _ _ hmem => absurd hmem (Option.not_mem_none _)⟩

/-- What was not observed has percentile zero. -/
theorem transformed_of_none (hvalue : row.values.get? definition.signalId = some value)
    (hraw : value.raw = none) : transformed rows definition row = 0 := by
  unfold transformed
  rw [hvalue]
  obtain ⟨_, _, _⟩ := value
  obtain rfl : _ = none := hraw
  rfl

/-- Percentiles lie between zero and a hundred. -/
theorem RowsAccepted.transformed_mem (h : RowsAccepted strategy request rows) (hrow : row ∈ rows)
    (hdef : strategy.definitions.get? key = some definition) :
    0 ≤ transformed rows definition row ∧ transformed rows definition row ≤ 100 := by
  obtain ⟨-, rfl⟩ := signalId_of_definition hdef
  have haccepted := h.accepted row hrow
  obtain ⟨value, hvalue⟩ := Option.isSome_iff_exists.mp (Dict.mem_keys_iff.mp
    ((haccepted.complete _).mpr (Dict.mem_keys_iff.mpr (Option.isSome_of_eq_some hdef))))
  obtain ⟨hstate, hrange⟩ := haccepted.value_spec hdef hvalue
  cases hraw : value.raw with
  | none =>
    rw [transformed_of_none hvalue hraw]
    norm_num
  | some raw =>
    have hobserved := hstate.mpr (Option.isSome_of_eq_some hraw)
    by_cases hcontext : definition.population = .context
    · have heq : transformed rows definition row = raw := by
        unfold transformed
        rw [hvalue]
        obtain ⟨_, _, _⟩ := value
        obtain rfl : _ = some raw := hraw
        obtain rfl : _ = SignalState.observed := hobserved
        exact if_pos hcontext
      rw [heq]
      exact hrange hcontext raw hraw
    · have hmem : ((definition.favorable raw : ℚ) : WithBot ℚ) ∈
          (peers rows definition row.industry).map (rankOf definition) :=
        List.mem_map.mpr ⟨value, mem_peers hrow hvalue, by rw [rankOf, hraw]; rfl⟩
      rw [transformed_eq hvalue hobserved hraw hcontext]
      exact ⟨placePercent_nonneg hmem, placePercent_le hmem⟩

/-- Among peers, percentiles follow the ranks of raw values. -/
theorem RowsAccepted.transformed_mono (h : RowsAccepted strategy request rows)
    (hdef : strategy.definitions.get? key = some definition)
    (hranked : definition.population ≠ .context) {other : ScreeningObservation} (hrow : row ∈ rows)
    (hother : other ∈ rows) (hpeers : SamePeers definition row other) {better : SignalValue}
    (hvalue : row.values.get? key = some value) (hbetter : other.values.get? key = some better)
    (hle : rankOf definition value ≤ rankOf definition better) :
    transformed rows definition row ≤ transformed rows definition other ∧
      (value.state = .observed → rankOf definition value < rankOf definition better →
        transformed rows definition row < transformed rows definition other) := by
  have hstate := ((h.accepted row hrow).value_spec hdef hvalue).1
  have hobserved := ((h.accepted other hother).value_spec hdef hbetter).1
  have hnonneg := (h.transformed_mem hother hdef).1
  obtain ⟨-, rfl⟩ := signalId_of_definition hdef
  cases hraw : value.raw with
  | none =>
    rw [transformed_of_none hvalue hraw]
    refine ⟨hnonneg, fun hvalueObserved => ?_⟩
    rw [hstate, hraw] at hvalueObserved
    cases hvalueObserved
  | some raw =>
    have hrank : rankOf definition value = (definition.favorable raw : ℚ) := by
      rw [rankOf, hraw]
      rfl
    cases hrawBetter : better.raw with
    | none =>
      rw [hrank, rankOf, hrawBetter] at hle
      exact absurd hle (WithBot.not_coe_le_bot _)
    | some rawBetter =>
      have hrankBetter : rankOf definition better = (definition.favorable rawBetter : ℚ) := by
        rw [rankOf, hrawBetter]
        rfl
      have hmem := List.mem_map_of_mem (f := rankOf definition) (mem_peers hrow hvalue)
      have hmemBetter := List.mem_map_of_mem (f := rankOf definition)
        (mem_peers hother hbetter)
      rw [transformed_eq hvalue (hstate.mpr (Option.isSome_of_eq_some hraw)) hraw hranked,
        transformed_eq hbetter (hobserved.mpr (Option.isSome_of_eq_some hrawBetter)) hrawBetter
          hranked, hpeers.peers_eq, ← hrank, ← hrankBetter]
      rw [hpeers.peers_eq] at hmem
      refine ⟨?_, fun _ hlt => placePercent_lt hmem hmemBetter hlt⟩
      rcases hle.eq_or_lt with heq | hlt
      · rw [heq]
      · exact (placePercent_lt hmem hmemBetter hlt).le

end Percentiles

/-- What acceptance says of the curves of a score. -/
structure HeadAccepted (strategy : ScreeningStrategy) (head : ScreeningHead) : Prop where
  mainEffects : ∀ key, key ∈ head.mainEffects.keys ↔
    key ∈ Dict.keys (strategy.definitions.filter (·.2.population ≠ .context))
  interactions : ∀ key, key ∈ head.interactions.keys ↔
    key ∈ strategy.interactions.map (·.interactionId)
  curves : ∀ effect ∈ head.mainEffects, effect.2.length = strategy.knots.length ∧
    (ascends strategy effect.1 → ∀ pair ∈ successive effect.2, pair.1 ≤ pair.2)
  components : ∀ term ∈ head.interactions, ∀ component ∈ term.2,
    component.left.length = strategy.knots.length ∧
      component.right.length = strategy.knots.length

section Curves

variable {strategy : ScreeningStrategy} {artifact : ScreeningArtifact} {head : ScreeningHead}
  {key : String} {definition : SignalDefinition} {x y a b : ℚ}

theorem headAccepted_of_nil (h : headFailures strategy head = []) : HeadAccepted strategy head := by
  simp only [headFailures, curveFailures, interactionFailures, List.append_eq_nil_iff,
    List.flatMap_eq_nil_iff, ite_eq_left_iff, imp_iff_not (List.cons_ne_nil _ _), not_not,
    sortedSet_eq_iff] at h
  obtain ⟨⟨⟨hmain, hinteractions⟩, hcurves⟩, hcomponents⟩ := h
  exact ⟨hmain, hinteractions, hcurves, fun term hterm => (hcomponents term hterm).2⟩

variable (h : ContractAccepted strategy artifact)
include h

theorem ContractAccepted.headAccepted
    (hhead : head ∈ [artifact.positive, artifact.terminal]) : HeadAccepted strategy head := by
  simp only [List.mem_cons, List.not_mem_nil, or_false] at hhead
  rcases hhead with rfl | rfl
  · exact headAccepted_of_nil h.positive
  · exact headAccepted_of_nil h.terminal

/-- Every percentage lies within accepted knots. -/
theorem ContractAccepted.withinKnots (hx : 0 ≤ x ∧ x ≤ 100) : WithinKnots strategy.knots x := by
  have hknots := h.knots
  simp only [knotFailures, ite_eq_left_iff, imp_iff_not (List.cons_ne_nil _ _), not_not] at hknots
  obtain ⟨hlength, hfirst, hlast, hascending⟩ := hknots
  refine ⟨hlength, (pairwise_iff_successive fun hab hbc => hab.trans hbc).mpr hascending, ?_, ?_⟩
  · rw [List.getD_eq_getElem?_getD, ← List.head?_eq_getElem?, hfirst]
    exact hx.1
  · rw [List.getD_eq_getElem?_getD, ← List.getLast?_eq_getElem?, hlast]
    exact hx.2

/-- A main effect is read off its curve. -/
theorem ContractAccepted.get?_contributions (hdef : strategy.definitions.get? key = some definition)
    {curve : List ℚ} (hcurve : (key, curve) ∈ head.mainEffects) (values : Dict String ℚ) :
    (contributions head strategy values).get? key =
      some (interpolate strategy.knots curve ((values.get? key).getD 0)) := by
  have hfeatures := h.features
  simp only [featureFailures, ite_eq_left_iff, imp_iff_not (List.cons_ne_nil _ _),
    not_not] at hfeatures
  obtain ⟨-, -, -, hapart, hintercept, -⟩ := hfeatures
  obtain ⟨hmem, rfl⟩ := signalId_of_definition hdef
  have hsignal := List.mem_map_of_mem (f := (·.signalId)) hmem
  refine Dict.get?_ofLast_of_mem (List.mem_append_left _ (List.mem_cons_of_mem _
    (List.mem_map.mpr ⟨_, hcurve, rfl⟩))) fun other hother => ?_
  rcases List.mem_append.mp hother with hother | hother
  · rcases List.mem_cons.mp hother with heq | hother
    · exact absurd (Prod.mk.inj heq).1 fun heq => hintercept (heq ▸ hsignal)
    · obtain ⟨⟨_, _⟩, heffect, heq⟩ := List.mem_map.mp hother
      obtain ⟨rfl, rfl⟩ := Prod.mk.inj heq
      have hsame := (Dict.get?_of_mem head.mainEffects_nodup heffect).symm.trans
        (Dict.get?_of_mem head.mainEffects_nodup hcurve)
      rw [Option.some.inj hsame]
  · obtain ⟨term, hterm, heq⟩ := List.mem_map.mp hother
    exact absurd (List.mem_map.mpr ⟨term, hterm, (Prod.mk.inj heq).1⟩) (hapart _ hsignal)

/-- The main effect of a monotone signal follows its percentile. -/
theorem ContractAccepted.mainEffect_mono (hhead : head ∈ [artifact.positive, artifact.terminal])
    (hdef : strategy.definitions.get? key = some definition)
    (hranked : definition.population ≠ .context) (hmonotone : definition.monotone = true)
    {values others : Dict String ℚ} (hvalues : values.get? key = some x)
    (hothers : others.get? key = some y) (hx : 0 ≤ x) (hxy : x ≤ y) (hy : y ≤ 100) :
    ∃ a b, (contributions head strategy values).get? key = some a ∧
      (contributions head strategy others).get? key = some b ∧ a ≤ b := by
  have haccepted := h.headAccepted hhead
  obtain ⟨⟨_, curve⟩, hcurve, rfl⟩ := List.mem_map.mp ((haccepted.mainEffects key).mpr
    (List.mem_map.mpr ⟨(key, definition), List.mem_filter.mpr
      ⟨Dict.mem_of_get? hdef, decide_eq_true hranked⟩, rfl⟩))
  obtain ⟨hsize, hascends⟩ := haccepted.curves _ hcurve
  have hpairwise : curve.Pairwise (· ≤ ·) :=
    (pairwise_iff_successive fun hab hbc => hab.trans hbc).mpr
      (hascends (by rw [ascends, hdef]; exact hmonotone))
  refine ⟨_, _, h.get?_contributions hdef hcurve values,
    h.get?_contributions hdef hcurve others, ?_⟩
  rw [hvalues, hothers]
  exact (h.withinKnots ⟨hx, hxy.trans hy⟩).interpolate_mono (h.withinKnots ⟨hx.trans hxy, hy⟩)
    hpairwise hsize hxy

end Curves

section Replay

variable {ctx : DecimalContext} {hashes : ContentHashes} {zone : MarketZone}
  {snapshot : ScreeningSnapshot} {request : ReplayRequest} {audits : List ScreeningContribution}

/-- **Nothing is extrapolated.** Every percentile of a replayed security lies between the knots,
every score looks up percentiles that are there, and every curve has a value for each knot. -/
theorem replay_withinKnots (h : replayScreening ctx hashes zone snapshot request = (audits, []))
    {row : ScreeningObservation} (hrow : row ∈ snapshot.observations) :
    (∀ entry ∈ snapshot.transformed row,
      0 ≤ entry.2 ∧ entry.2 ≤ 100 ∧ WithinKnots snapshot.strategy.knots entry.2) ∧
    ∀ head ∈ [snapshot.artifact.positive, snapshot.artifact.terminal],
      (∀ effect ∈ head.mainEffects,
        effect.1 ∈ (snapshot.transformed row).keys ∧
          effect.2.length = snapshot.strategy.knots.length) ∧
      ∀ term ∈ snapshot.strategy.interactions,
        term.left ∈ (snapshot.transformed row).keys ∧
        term.right ∈ (snapshot.transformed row).keys ∧
        ∃ components, head.interactions.get? term.interactionId = some components ∧
          ∀ component ∈ components,
            component.left.length = snapshot.strategy.knots.length ∧
              component.right.length = snapshot.strategy.knots.length := by
  obtain ⟨-, hcontract, hrows, -⟩ := replayScreening_eq_iff.mp h
  have hkeys (key : String) :
      key ∈ (snapshot.transformed row).keys ↔
        key ∈ snapshot.strategy.signals.map (·.signalId) := by
    rw [ScreeningSnapshot.transformed, Dict.keys_mapValues]
    constructor
    · intro hkey
      obtain ⟨definition, hdef⟩ := Option.isSome_iff_exists.mp (Dict.mem_keys_iff.mp hkey)
      obtain ⟨hmem, rfl⟩ := signalId_of_definition hdef
      exact List.mem_map_of_mem hmem
    · intro hkey
      obtain ⟨definition, hmem, rfl⟩ := List.mem_map.mp hkey
      rw [Dict.mem_keys_iff, ScreeningStrategy.definitions, Dict.get?_ofLast]
      exact Dict.isSome_get?_of_mem (List.mem_reverse.mpr (List.mem_map.mpr ⟨_, hmem, rfl⟩))
  have hfeatures := hcontract.features
  simp only [featureFailures, ite_eq_left_iff, imp_iff_not (List.cons_ne_nil _ _),
    not_not] at hfeatures
  obtain ⟨-, -, -, -, -, -, hterms⟩ := hfeatures
  refine ⟨fun entry hentry => ?_, fun head hhead => ?_⟩
  · obtain ⟨⟨key, definition⟩, hmem, rfl⟩ := List.mem_map.mp hentry
    have hmem := hrows.transformed_mem hrow
      (Dict.get?_of_mem (Dict.keys_ofLast_nodup _) hmem)
    exact ⟨hmem.1, hmem.2, hcontract.withinKnots hmem⟩
  · have haccepted := hcontract.headAccepted hhead
    refine ⟨fun effect heffect => ⟨?_, (haccepted.curves effect heffect).1⟩, fun term hterm =>
      ⟨(hkeys _).mpr (hterms term hterm).1, (hkeys _).mpr (hterms term hterm).2, ?_⟩⟩
    · have hkey := (haccepted.mainEffects effect.1).mp (List.mem_map_of_mem heffect)
      rw [ScreeningSnapshot.transformed, Dict.keys_mapValues]
      obtain ⟨entry, hentry, heq⟩ := List.mem_map.mp hkey
      exact List.mem_map.mpr ⟨entry, List.mem_of_mem_filter hentry, heq⟩
    · obtain ⟨components, hget⟩ := Option.isSome_iff_exists.mp (Dict.mem_keys_iff.mp
        ((haccepted.interactions _).mpr (List.mem_map_of_mem hterm)))
      exact ⟨components, hget, haccepted.components _ (Dict.mem_of_get? hget)⟩

/-- **Percentiles follow raw values.** Among peers a more favorable raw value has a later
percentile, an equal one the same, and nothing unobserved a later one than an observed value; the
main effect of a monotone signal never falls. -/
theorem replay_monotone (h : replayScreening ctx hashes zone snapshot request = (audits, []))
    {key : String} {definition : SignalDefinition}
    (hdef : snapshot.strategy.definitions.get? key = some definition)
    (hranked : definition.population ≠ .context) {row other : ScreeningObservation}
    (hrow : row ∈ snapshot.observations) (hother : other ∈ snapshot.observations)
    (hpeers : SamePeers definition row other) {value better : SignalValue}
    (hvalue : row.values.get? key = some value) (hbetter : other.values.get? key = some better)
    (hle : rankOf definition value ≤ rankOf definition better) :
    (transformed snapshot.observations definition row ≤
        transformed snapshot.observations definition other ∧
      (value.state = .observed → rankOf definition value < rankOf definition better →
        transformed snapshot.observations definition row <
          transformed snapshot.observations definition other)) ∧
    (definition.monotone = true →
      ∀ head ∈ [snapshot.artifact.positive, snapshot.artifact.terminal],
        ∃ a b, (contributions head snapshot.strategy
            (snapshot.transformed row)).get? key = some a ∧
          (contributions head snapshot.strategy
            (snapshot.transformed other)).get? key = some b ∧
          a ≤ b) := by
  obtain ⟨-, hcontract, hrows, -⟩ := replayScreening_eq_iff.mp h
  have hplaces := hrows.transformed_mono hdef hranked hrow hother hpeers hvalue hbetter hle
  have hget (row : ScreeningObservation) :
      (snapshot.transformed row).get? key =
        some (transformed snapshot.observations definition row) := by
    rw [ScreeningSnapshot.transformed, Dict.get?_mapValues, hdef, Option.map_some]
  refine ⟨hplaces, fun hmonotone head hhead => ?_⟩
  exact hcontract.mainEffect_mono hhead hdef hranked hmonotone (hget row) (hget other)
    (hrows.transformed_mem hrow hdef).1 hplaces.1 (hrows.transformed_mem hother hdef).2

end Replay

/-- The same observation, with its signals in some order. -/
structure SameRow (row other : ScreeningObservation) : Prop where
  securityId : row.securityId = other.securityId
  industry : row.industry = other.industry
  signals : row.signals.Perm other.signals

/-- The same scores of a security, with its signals in some order. -/
structure SameContribution (audit other : ScreeningContribution) : Prop where
  securityId : audit.securityId = other.securityId
  signals : audit.signals.Perm other.signals
  positiveContributions : audit.positiveContributions = other.positiveContributions
  terminalContributions : audit.terminalContributions = other.terminalContributions
  positiveScore : audit.positiveScore = other.positiveScore
  terminalScore : audit.terminalScore = other.terminalScore

/-- The same items in some order, where each may differ as it is allowed to. -/
def Reordered {α : Type} (same : α → α → Prop) (rows others : List α) : Prop :=
  ∃ middle, rows.Perm middle ∧ List.Forall₂ same middle others

/-- What differs as it may has an item for each item. -/
theorem Reordered.exists_of_mem {α : Type} {same : α → α → Prop} {rows others : List α}
    (h : Reordered same rows others) {row : α} (hrow : row ∈ rows) :
    ∃ other ∈ others, same row other := by
  obtain ⟨middle, hperm, hsame⟩ := h
  exact forall₂_mem_left hsame (hperm.mem_iff.mp hrow)

/-- What is read alike of all that may differ is the same in some order. -/
theorem Reordered.map_perm {α β : Type} {same : α → α → Prop} {rows others : List α} {f : α → β}
    (h : Reordered same rows others) (hf : ∀ row other, same row other → f row = f other) :
    (rows.map f).Perm (others.map f) := by
  obtain ⟨middle, hperm, hsame⟩ := h
  exact (hperm.map f).trans (.of_eq (map_eq_map_of_forall₂ (hsame.imp fun _ _ h => hf _ _ h)))

section Reorder

variable {strategy : ScreeningStrategy} {request : ReplayRequest}
  {rows others : List ScreeningObservation} {row other : ScreeningObservation}

theorem SameRow.accepted (h : SameRow row other) (haccepted : RowAccepted strategy request row) :
    RowAccepted strategy request other := by
  have hvalues := get?_values_perm haccepted.nodup h.signals
  refine ⟨h.securityId ▸ h.industry ▸ haccepted.industry,
    (h.signals.map _).nodup_iff.mp haccepted.nodup, fun key => ?_, fun key value hvalue => ?_⟩
  · rw [← haccepted.complete, Dict.mem_keys_iff, Dict.mem_keys_iff, hvalues]
  · exact haccepted.values key value ((hvalues key).trans hvalue)

theorem Reordered.peers_perm (h : Reordered SameRow rows others)
    (hnodup : ∀ row ∈ rows, (row.signals.map (·.signalId)).Nodup) (definition : SignalDefinition)
    (industry : String) :
    (peers rows definition industry).Perm (peers others definition industry) := by
  obtain ⟨middle, hperm, hsame⟩ := h
  refine ((hperm.filter _).filterMap _).trans (List.Perm.of_eq ?_)
  replace hnodup : ∀ row ∈ middle, (row.signals.map (·.signalId)).Nodup :=
    fun row hrow => hnodup row (hperm.mem_iff.mpr hrow)
  clear hperm
  induction hsame with
  | nil => rfl
  | @cons row other middle others hrow _ ih =>
    have hget := get?_values_perm (hnodup row List.mem_cons_self) hrow.signals definition.signalId
    have hrest := ih fun row hmem => hnodup row (List.mem_cons_of_mem _ hmem)
    simp only [peers, List.filter_cons, hrow.industry] at hrest ⊢
    split
    · rw [List.filterMap_cons, List.filterMap_cons, hget, hrest]
    · exact hrest

/-- The percentile of a value depends on the values of its peers in any order. -/
theorem transformed_congr {definition : SignalDefinition}
    (hvalue : row.values.get? definition.signalId = other.values.get? definition.signalId)
    (hpeers : (peers rows definition row.industry).Perm (peers others definition other.industry)) :
    transformed rows definition row = transformed others definition other := by
  simp only [transformed, hvalue, (hpeers.filterMap _).countP_eq, hpeers.countP_eq,
    hpeers.length_eq]

theorem Reordered.accepted (h : Reordered SameRow rows others)
    (haccepted : RowsAccepted strategy request rows) : RowsAccepted strategy request others := by
  have hids := h.map_perm fun _ _ hsame => hsame.securityId
  obtain ⟨middle, hperm, hsame⟩ := h
  have hfrom : ∀ other ∈ others, ∃ row ∈ rows, SameRow row other := by
    intro other hother
    obtain ⟨row, hrow, hsame⟩ := forall₂_mem_right hsame hother
    exact ⟨row, hperm.mem_iff.mpr hrow, hsame⟩
  refine ⟨hids.nodup_iff.mp haccepted.nodup, fun id => by rw [← hids.mem_iff, haccepted.complete],
    fun other hother => ?_, fun key definition hdef hcontext first hfirst second hsecond => ?_⟩
  · obtain ⟨row, hrow, hsame⟩ := hfrom other hother
    exact hsame.accepted (haccepted.accepted row hrow)
  · obtain ⟨row, hrow, hsame⟩ := hfrom first hfirst
    obtain ⟨row', hrow', hsame'⟩ := hfrom second hsecond
    have hraw := haccepted.context key definition hdef hcontext row hrow row' hrow'
    unfold ScreeningObservation.raw at hraw ⊢
    rwa [← get?_values_perm (haccepted.accepted row hrow).nodup hsame.signals,
      ← get?_values_perm (haccepted.accepted row' hrow').nodup hsame'.signals]

/-- A snapshot with its observations, and the signals of each of them, in another order is replayed
to the same scores, each with its signals in the order in which they are observed. -/
theorem reordered_audits {ctx : DecimalContext} {hashes : ContentHashes} {zone : MarketZone}
    {snapshot : ScreeningSnapshot} {audits : List ScreeningContribution}
    (h : replayScreening ctx hashes zone snapshot request = (audits, []))
    (horder : Reordered SameRow snapshot.observations others) :
    ∃ reordered, replayScreening ctx hashes zone { snapshot with observations := others } request =
      (reordered, []) ∧ Reordered SameContribution audits reordered := by
  obtain ⟨hversions, hcontract, haccepted, rfl⟩ := replayScreening_eq_iff.mp h
  refine ⟨_, replayScreening_eq_iff.mpr ⟨hversions, hcontract, horder.accepted haccepted, rfl⟩, ?_⟩
  have hpeers := horder.peers_perm fun row hrow => (haccepted.accepted row hrow).nodup
  obtain ⟨middle, hperm, hsame⟩ := horder
  refine ⟨middle.map (auditOf ctx snapshot), hperm.map _, ?_⟩
  rw [List.forall₂_map_left_iff, List.forall₂_map_right_iff]
  refine ((List.forall₂_and_left _ _).mpr ⟨fun row hrow => hperm.mem_iff.mpr hrow, hsame⟩).imp ?_
  rintro row other ⟨hrow, hsame⟩
  have hvalues : snapshot.transformed row =
      ({ snapshot with observations := others } : ScreeningSnapshot).transformed other := by
    refine List.map_congr_left fun entry _ => congrArg (Prod.mk entry.1) ?_
    exact transformed_congr (get?_values_perm (haccepted.accepted row hrow).nodup hsame.signals _)
      (hsame.industry ▸ hpeers entry.2 row.industry)
  -- The percentiles of the security are the same, so only the order of its signals differs.
  unfold auditOf
  rw [hvalues]
  exact ⟨hsame.securityId, hsame.signals.map _, rfl, rfl, rfl, rfl⟩

end Reorder

namespace SampleScreening

/-- A signal that every security has. -/
def definition : SignalDefinition where
  signalId := "value"
  semanticsVersion := "1"
  population := .wholeUniverse
  reverse := false
  monotone := true
  minimumStates := []

/-- A signal among the peers of an industry, which a young security may lack. -/
def growth : SignalDefinition where
  signalId := "growth"
  semanticsVersion := "2"
  population := .industry
  reverse := true
  monotone := false
  minimumStates := [.insufficientHistory]

def strategy : ScreeningStrategy where
  versionId := "sha256:"
  signals := [definition, growth]
  interactions := [⟨"value-growth", "value", "growth"⟩]
  knots := [0, 100]
  maximumInteractionRank := 1
  selectionPolicySha256 := ""
  minimumMatureMonths := 1
  rollingMatureMonths := 1
  trainingStartMonth := 2042 * 12
  trainingCalendarVersion := "1"
  labelHorizonMonths := 1
  dataContracts := [("field:signal:value", "1"), ("field:signal:growth", "2")]
  declarations := []
  rollingMatureMonths_pos := Nat.one_pos

/-- The days of January 2042, of which the last one is a session. -/
def calendar : UniverseCalendar where
  versionId := "1"
  days := (List.range 31).map fun day => {
    marketDate := CivilDate.toDay ⟨2042, 1, 1⟩ + day
    closeAt := if day = 30 then some (CivilDate.toDay ⟨2042, 1, 31⟩ * microsecondsPerDay)
      else none }

/-- The end of February 2042. -/
def cutoff : Instant := CivilDate.toDay ⟨2042, 3, 1⟩ * microsecondsPerDay - 1000000

/-- The second security, high in the one signal and without the other, has the interaction. -/
def head : ScreeningHead where
  intercept := 0
  mainEffects := [("value", [0, 1]), ("growth", [0, 1 / 2])]
  interactions := [("value-growth", [⟨1, [0, 1], [1, 0]⟩])]
  mainEffects_nodup := by decide

def artifact : ScreeningArtifact where
  snapshotId := "sha256:"
  strategySha256 := ""
  fittedAt := cutoff
  labelAvailableThrough := cutoff
  trainingMonths := ["2042-01"]
  trainingCalendar := [
    ⟨2042 * 12, CivilDate.toDay ⟨2042, 2, 1⟩ * microsecondsPerDay - 1000000, some calendar⟩]
  trainingMembersSha256 := ""
  trainingMembers := [⟨2042 * 12, "security", true, false, cutoff⟩]
  environmentSha256 := ""
  diagnosticsSha256 := ""
  fitDiagnostics := [("status", "CONVERGED")]
  positive := head
  terminal := head

/-- A security with a raw value and what is known of its growth. -/
def observation (securityId : String) (raw : ℚ) (growth : SignalValue) : ScreeningObservation where
  securityId
  industry := "industry"
  signals := [⟨"value", some raw, .observed⟩, growth]

def first : ScreeningObservation := observation "first" 1 ⟨"growth", some 5, .observed⟩

def second : ScreeningObservation :=
  observation "second" 2 ⟨"growth", none, .missing .insufficientHistory⟩

def snapshot : ScreeningSnapshot where
  strategy
  artifact
  observations := [first, second]

def request : ReplayRequest where
  cutoff
  policy := ""
  strategyVersion := "sha256:"
  snapshotId := "sha256:"
  industries := [("first", some "industry"), ("second", some "industry")]
  dataContracts := [("field:signal:growth", "2"), ("field:signal:value", "1")]

def hashes : ContentHashes :=
  ⟨fun _ => "", fun _ => "", fun _ => "", fun _ => "", fun _ => "", fun _ => ""⟩

/-- The audits of the sample. -/
def audits : List ScreeningContribution :=
  (replayScreening .exact hashes ⟨id, id⟩ snapshot request).1

theorem accepted : replayScreening .exact hashes ⟨id, id⟩ snapshot request = (audits, []) :=
  Prod.ext rfl (by decide +kernel)

end SampleScreening

open SampleScreening in
/-- The security that lacks a signal is placed first in it, and the interaction has its curves. -/
theorem sample_withinKnots :
    WithinKnots strategy.knots (transformed snapshot.observations growth second) ∧
    ∃ components, head.interactions.get? "value-growth" = some components ∧
      ∀ component ∈ components, component.left.length = 2 ∧ component.right.length = 2 := by
  have hsecond : second ∈ snapshot.observations := List.mem_cons_of_mem _ List.mem_cons_self
  obtain ⟨hpercentiles, hheads⟩ := replay_withinKnots accepted hsecond
  refine ⟨(hpercentiles ("growth", _) (List.mem_cons_of_mem _ List.mem_cons_self)).2.2, ?_⟩
  obtain ⟨-, hinteractions⟩ := hheads head List.mem_cons_self
  exact (hinteractions ⟨"value-growth", "value", "growth"⟩ List.mem_cons_self).2.2

open SampleScreening in
/-- Two values strictly inside one bin transform to increasing values. -/
theorem sample_monotone : transformed snapshot.observations definition first <
    transformed snapshot.observations definition second := by
  have hfirst : first.values.get? "value" = some ⟨"value", some 1, .observed⟩ := rfl
  have hsecond : second.values.get? "value" = some ⟨"value", some 2, .observed⟩ := rfl
  have hlt : rankOf definition ⟨"value", some 1, .observed⟩ <
      rankOf definition ⟨"value", some 2, .observed⟩ := WithBot.coe_lt_coe.mpr one_lt_two
  exact (replay_monotone accepted (by rfl) (fun heq => by cases heq) List.mem_cons_self
    (List.mem_cons_of_mem _ List.mem_cons_self) (.inl rfl) hfirst hsecond hlt.le).1.2 rfl hlt

end StockProfiler.CandidateSelection
