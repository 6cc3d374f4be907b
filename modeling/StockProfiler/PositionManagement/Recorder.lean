import StockProfiler.Core.Dict
import StockProfiler.PositionManagement.Contracts

/-!
# Recording reconciliation conflicts

Every reconciliation pass yields the reports it makes, in order. The recorder
turns a list of reports into the returned conflicts and into the reasons that
block an action quantity, a valuation, or the whole portfolio. Conflicts are
deduplicated by scope, code and fields; reasons by scope and code alone.
-/

namespace StockProfiler.PositionManagement

variable {code : String}

/-- The account and security a report concerns; an absent part means every one. -/
abbrev Scope := Option String × Option String

/-- One call of the conflict recorder. -/
structure ConflictReport where
  accountId : Option String
  securityId : Option String
  code : String
  fields : List String
  blocksExactStatisticalQuantity : Bool
  portfolioDependency : Bool := false
  blocksCurrentValuation : Bool := false

namespace ConflictReport

/-- The scope a report is filed under. -/
def scope (r : ConflictReport) : Scope := (r.accountId, r.securityId)

/-- The identity by which conflicts are deduplicated. -/
def key (r : ConflictReport) : Option String × Option String × String × List String :=
  (r.accountId, r.securityId, r.code, r.fields)

/-- The conflict a report retains. -/
def toConflict (r : ConflictReport) : PositionFactConflict where
  code := r.code
  affectedScope := ⟨r.accountId, r.securityId, r.fields⟩
  blocksExactStatisticalQuantity := r.blocksExactStatisticalQuantity

end ConflictReport

/-- Report only under a condition. -/
def reportIf (p : Prop) [Decidable p] (r : ConflictReport) : List ConflictReport :=
  if p then [r] else []

@[simp] theorem reportIf_eq_nil {p : Prop} [Decidable p] {r : ConflictReport} :
    reportIf p r = [] ↔ ¬p := by
  simp [reportIf]

@[simp] theorem mem_reportIf {p : Prop} [Decidable p] {r s : ConflictReport} :
    s ∈ reportIf p r ↔ p ∧ s = r := by
  by_cases hp : p <;> simp [reportIf, hp]

/-- A blocking report that also stops every portfolio-level use. -/
def portfolioReport (accountId securityId : Option String) (code : String)
    (fields : List String) (blocksCurrentValuation : Bool) : ConflictReport where
  accountId := accountId
  securityId := securityId
  code := code
  fields := fields
  blocksExactStatisticalQuantity := true
  portfolioDependency := true
  blocksCurrentValuation := blocksCurrentValuation

/-- Report every defect of one piece of evidence under the same scope. -/
def evidenceReports (evidence : PositionEvidence) (cutoffAt : Instant)
    (accountId securityId : Option String) (fields : List String)
    (current portfolio valuation : Bool) : List ConflictReport :=
  (evidence.problemCodes cutoffAt current).map fun code =>
    { accountId, securityId, code, fields
      blocksExactStatisticalQuantity := true
      portfolioDependency := portfolio
      blocksCurrentValuation := valuation }

/-- Append a value that is not yet listed. -/
def appendUnique (values : List String) (value : String) : List String :=
  if value ∈ values then values else values ++ [value]

@[simp] theorem mem_appendUnique {values : List String} {value x : String} :
    x ∈ appendUnique values value ↔ x ∈ values ∨ x = value := by
  rw [appendUnique]
  split
  · rename_i h
    exact ⟨.inl, fun hx => hx.elim id (fun hx => hx ▸ h)⟩
  · rw [List.mem_append, List.mem_singleton]

/-- Reasons filed under their scopes. -/
abbrev ScopedReasons := Dict Scope (List String)

namespace ScopedReasons

/-- The reasons of one scope. -/
def under (reasons : ScopedReasons) (scope : Scope) : List String := (reasons.get? scope).getD []

/-- File one reason under a scope. -/
def file (reasons : ScopedReasons) (scope : Scope) (code : String) : ScopedReasons :=
  reasons.set scope (appendUnique (reasons.under scope) code)

@[simp] theorem mem_under_file {reasons : ScopedReasons} {scope s : Scope} {x : String} :
    x ∈ (reasons.file scope code).under s ↔ x ∈ reasons.under s ∨ scope = s ∧ x = code := by
  rw [ScopedReasons.under, file, Dict.get?_set]
  by_cases h : scope = s
  · subst h
    simp [ScopedReasons.under]
  · simp [h, ScopedReasons.under]

end ScopedReasons

/-- Everything the recorder has retained. -/
structure Recorder where
  conflictKeys : List (Option String × Option String × String × List String) := []
  conflicts : List PositionFactConflict := []
  blocking : ScopedReasons := []
  valuation : ScopedReasons := []
  portfolioBlocking : List String := []

namespace Recorder

variable {reports : List ConflictReport} (s : Recorder) (r : ConflictReport)

/-- Retain a conflict unless the same one is already listed. -/
def retain : Recorder :=
  if r.key ∈ s.conflictKeys then s
  else
    { s with
      conflictKeys := r.key :: s.conflictKeys
      conflicts := s.conflicts ++ [r.toConflict] }

/-- File a blocking report, and extend it to the portfolio when it depends on it. -/
def block : Recorder :=
  if r.blocksExactStatisticalQuantity then
    { s with
      blocking := s.blocking.file r.scope r.code
      portfolioBlocking :=
        if r.portfolioDependency then appendUnique s.portfolioBlocking r.code
        else s.portfolioBlocking }
  else s

/-- File a report that invalidates the current valuation. -/
def invalidate : Recorder :=
  if r.blocksCurrentValuation then { s with valuation := s.valuation.file r.scope r.code } else s

/-- Record one report. -/
def record : Recorder := ((s.retain r).block r).invalidate r

/-- Record a list of reports in order. -/
def ofReports (reports : List ConflictReport) : Recorder := reports.foldl record {}

/-- What one report adds to each part of the recorder. -/
theorem record_conflicts :
    (s.record r).conflicts =
      if r.key ∈ s.conflictKeys then s.conflicts else s.conflicts ++ [r.toConflict] := by
  simp only [record, invalidate, block, retain]
  split_ifs <;> rfl

theorem record_conflictKeys :
    (s.record r).conflictKeys =
      if r.key ∈ s.conflictKeys then s.conflictKeys else r.key :: s.conflictKeys := by
  simp only [record, invalidate, block, retain]
  split_ifs <;> rfl

theorem record_blocking :
    (s.record r).blocking =
      if r.blocksExactStatisticalQuantity then s.blocking.file r.scope r.code
      else s.blocking := by
  simp only [record, invalidate, block, retain]
  split_ifs <;> rfl

theorem record_portfolioBlocking :
    (s.record r).portfolioBlocking =
      if r.blocksExactStatisticalQuantity ∧ r.portfolioDependency then
        appendUnique s.portfolioBlocking r.code
      else s.portfolioBlocking := by
  simp only [record, invalidate, block, retain]
  split_ifs <;> simp_all

theorem record_valuation :
    (s.record r).valuation =
      if r.blocksCurrentValuation then s.valuation.file r.scope r.code else s.valuation := by
  simp only [record, invalidate, block, retain]
  split_ifs <;> rfl

/-- A property that a report either keeps or establishes, and that does not hold at
first, holds of the recorder exactly when some report established it. -/
theorem ofReports_iff {P : Recorder → Prop} {q : ConflictReport → Prop} (hnil : ¬P {})
    (hstep : ∀ s r, P (s.record r) ↔ P s ∨ q r) (reports : List ConflictReport) :
    P (ofReports reports) ↔ ∃ r ∈ reports, q r := by
  have h : ∀ s : Recorder, P (reports.foldl record s) ↔ P s ∨ ∃ r ∈ reports, q r := by
    induction reports with
    | nil => simp
    | cons r rs ih =>
      intro s
      rw [List.foldl_cons, ih, hstep, or_assoc, List.exists_mem_cons_iff]
  exact (h {}).trans (or_iff_right hnil)

/-- The codes that reports of one kind file under their scopes. -/
theorem mem_under_iff {codes : Recorder → ScopedReasons} {blocks : ConflictReport → Bool}
    (hnil : codes {} = {}) (hrecord : ∀ s r, codes (s.record r) =
      if blocks r then (codes s).file r.scope r.code else codes s) {scope : Scope} :
    code ∈ (codes (ofReports reports)).under scope ↔
      ∃ r ∈ reports, blocks r ∧ r.scope = scope ∧ code = r.code := by
  refine ofReports_iff (P := fun s => code ∈ (codes s).under scope)
    (hnil ▸ List.not_mem_nil) (fun s r => ?_) reports
  rw [hrecord]
  cases blocks r <;> simp

theorem mem_blocking_iff {scope : Scope} :
    code ∈ (ofReports reports).blocking.under scope ↔
      ∃ r ∈ reports, r.blocksExactStatisticalQuantity ∧ r.scope = scope ∧ code = r.code :=
  mem_under_iff rfl record_blocking

theorem mem_valuation_iff {scope : Scope} :
    code ∈ (ofReports reports).valuation.under scope ↔
      ∃ r ∈ reports, r.blocksCurrentValuation ∧ r.scope = scope ∧ code = r.code :=
  mem_under_iff rfl record_valuation

theorem mem_portfolioBlocking_iff :
    code ∈ (ofReports reports).portfolioBlocking ↔
      ∃ r ∈ reports, (r.blocksExactStatisticalQuantity ∧ r.portfolioDependency) ∧
        code = r.code := by
  have hstep : ∀ (s : Recorder) (r : ConflictReport), code ∈ (s.record r).portfolioBlocking ↔
      code ∈ s.portfolioBlocking ∨
        ((r.blocksExactStatisticalQuantity ∧ r.portfolioDependency) ∧ code = r.code) := by
    intro s r
    rw [record_portfolioBlocking]
    split
    · rename_i h
      simp [h]
    · rename_i h
      simp [h]
  exact ofReports_iff (P := fun s => code ∈ s.portfolioBlocking) List.not_mem_nil hstep reports

theorem mem_conflictKeys_iff {key : Option String × Option String × String × List String} :
    key ∈ (ofReports reports).conflictKeys ↔ ∃ r ∈ reports, key = r.key := by
  have hstep : ∀ (s : Recorder) (r : ConflictReport), key ∈ (s.record r).conflictKeys ↔
      key ∈ s.conflictKeys ∨ key = r.key := by
    intro s r
    rw [record_conflictKeys]
    split
    · rename_i h
      exact ⟨.inl, fun hk => hk.elim id (fun hk => hk ▸ h)⟩
    · rw [List.mem_cons, or_comm]
  exact ofReports_iff (P := fun s => key ∈ s.conflictKeys) List.not_mem_nil hstep reports

theorem length_conflicts_eq (reports : List ConflictReport) :
    (ofReports reports).conflicts.length = (ofReports reports).conflictKeys.length := by
  have h : ∀ s : Recorder, s.conflicts.length = s.conflictKeys.length →
      (reports.foldl record s).conflicts.length =
        (reports.foldl record s).conflictKeys.length := by
    induction reports with
    | nil => exact fun s hs => hs
    | cons r rs ih =>
      intro s hs
      refine ih _ ?_
      rw [record_conflicts, record_conflictKeys]
      split <;> simp [hs]
  exact h {} rfl

theorem conflicts_eq_nil_iff : (ofReports reports).conflicts = [] ↔ reports = [] := by
  rw [← List.length_eq_zero_iff, length_conflicts_eq, List.length_eq_zero_iff]
  constructor
  · intro h
    refine List.eq_nil_iff_forall_not_mem.mpr fun r hr => ?_
    have hkey := mem_conflictKeys_iff.mpr ⟨r, hr, rfl⟩
    rw [h] at hkey
    exact List.not_mem_nil hkey
  · rintro rfl
    rfl

theorem exists_report_of_mem_conflicts {c : PositionFactConflict}
    (h : c ∈ (ofReports reports).conflicts) : ∃ r ∈ reports, c = r.toConflict := by
  have hgen : ∀ (rs : List ConflictReport) (s : Recorder), c ∈ (rs.foldl record s).conflicts →
      c ∈ s.conflicts ∨ ∃ r ∈ rs, c = r.toConflict := by
    intro rs
    induction rs with
    | nil => exact fun s hs => .inl hs
    | cons r rs ih =>
      intro s hs
      rcases ih (s.record r) hs with hmem | ⟨q, hq, hc⟩
      · rw [record_conflicts] at hmem
        split at hmem
        · exact .inl hmem
        · rcases List.mem_append.mp hmem with hmem | hmem
          · exact .inl hmem
          · exact .inr ⟨r, List.mem_cons_self .., List.mem_singleton.mp hmem⟩
      · exact .inr ⟨q, List.mem_cons_of_mem _ hq, hc⟩
  exact (hgen reports {} h).resolve_left List.not_mem_nil

end Recorder

end StockProfiler.PositionManagement
