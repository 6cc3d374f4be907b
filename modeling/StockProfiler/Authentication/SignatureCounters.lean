import StockProfiler.Authentication.Ceremonies

/-!
# Signature counters

The counter of a passkey is read, checked and written in three steps. It never regresses exactly
when every assertion still advances the counter that is stored when its own is written.
-/

namespace StockProfiler.Authentication

/-- The counter that an observation stores. -/
def Observation.stores (credentialId : String) : Observation → Option ℕ
  | .enrolled _ other signCount _ => if other = credentialId then some signCount else none
  | .asserted other _ signCount => if other = credentialId then some signCount else none
  | _ => none

/-- The counter of the accepted assertion that an observation is. -/
def Observation.asserts (credentialId : String) : Observation → Option ℕ
  | .asserted other _ signCount => if other = credentialId then some signCount else none
  | _ => none

/-- The counters that were stored for a credential, in order. -/
def storedCounts (trace : List Observation) (credentialId : String) : List ℕ :=
  trace.filterMap (Observation.stores credentialId)

/-- The counters of the accepted assertions of a credential, in order. -/
def assertedCounts (trace : List Observation) (credentialId : String) : List ℕ :=
  trace.filterMap (Observation.asserts credentialId)

/-- The stored counter of a credential never decreases, and no two accepted assertions carry the
same nonzero counter. -/
structure CountersSound (trace : List Observation) (credentialId : String) : Prop where
  stored : (storedCounts trace credentialId).Pairwise (· ≤ ·)
  asserted : ((assertedCounts trace credentialId).filter (· ≠ 0)).Nodup

/-- An assertion of a credential advances the counter that is stored when its own is written. -/
def Observation.Advancing (credentialId : String) : Observation → Prop
  | .asserted other stored signCount => other = credentialId → Advances stored signCount
  | _ => True

instance (credentialId : String) (o : Observation) : Decidable (o.Advancing credentialId) := by
  unfold Observation.Advancing
  split <;> infer_instance

/-- Every assertion of a credential advances the counter that is stored when its own is written. -/
def AdvancesStored (trace : List Observation) (credentialId : String) : Prop :=
  ∀ o ∈ trace, o.Advancing credentialId

instance (trace : List Observation) (credentialId : String) :
    Decidable (AdvancesStored trace credentialId) := inferInstanceAs (Decidable (∀ _ ∈ _, _))

/-- A counter is first stored by an enrollment. An assertion writes over the one stored last, and
was checked against one stored before. -/
def Counted (earlier : List Observation) : Observation → Prop
  | .enrolled _ credentialId _ _ => storedCounts earlier credentialId = []
  | .asserted credentialId stored signCount =>
    (storedCounts earlier credentialId).getLast? = some stored ∧
      ∃ checked ∈ storedCounts earlier credentialId, Advances checked signCount
  | _ => True

section Counters

variable {trace : List Observation} {o : Observation} {credentialId : String}

theorem storedCounts_snoc (trace : List Observation) (o : Observation) (credentialId : String) :
    storedCounts (trace ++ [o]) credentialId =
      storedCounts trace credentialId ++ (o.stores credentialId).toList := by
  rw [storedCounts, List.filterMap_append]
  cases h : o.stores credentialId with
  | none => rw [List.filterMap_cons_none h]; rfl
  | some n => rw [List.filterMap_cons_some h]; rfl

theorem assertedCounts_snoc (trace : List Observation) (o : Observation) (credentialId : String) :
    assertedCounts (trace ++ [o]) credentialId =
      assertedCounts trace credentialId ++ (o.asserts credentialId).toList := by
  rw [assertedCounts, List.filterMap_append]
  cases h : o.asserts credentialId with
  | none => rw [List.filterMap_cons_none h]; rfl
  | some n => rw [List.filterMap_cons_some h]; rfl

/-- An observation is no assertion of a credential and leaves its counter, enrolls it, or is an
assertion of it. -/
theorem observation_cases (credentialId : String) (o : Observation) :
    (o.stores credentialId = none ∧ o.asserts credentialId = none ∧ o.Advancing credentialId) ∨
    (∃ grantId signCount now, o = .enrolled grantId credentialId signCount now) ∨
    ∃ stored signCount, o = .asserted credentialId stored signCount := by
  cases o with
  | enrolled grantId enrolled signCount now =>
    by_cases hid : enrolled = credentialId
    · subst hid
      exact .inr (.inl ⟨_, _, _, rfl⟩)
    · exact .inl ⟨if_neg hid, rfl, trivial⟩
  | asserted asserted stored signCount =>
    by_cases hid : asserted = credentialId
    · subst hid
      exact .inr (.inr ⟨_, _, rfl⟩)
    · exact .inl ⟨if_neg hid, if_neg hid, fun heq => absurd heq hid⟩
  | _ => exact .inl ⟨rfl, rfl, trivial⟩

/-- The stored counters are the one enrolled and the asserted ones. -/
theorem storedCounts_eq (h : Explained Counted trace) :
    (storedCounts trace credentialId = [] ∧ assertedCounts trace credentialId = []) ∨
      ∃ enrolled, storedCounts trace credentialId =
        enrolled :: assertedCounts trace credentialId := by
  induction trace using List.reverseRecOn with
  | nil => exact .inl ⟨rfl, rfl⟩
  | append_singleton trace o ih =>
    obtain ⟨htrace, ho⟩ := explained_snoc.mp h
    rw [storedCounts_snoc, assertedCounts_snoc]
    rcases observation_cases credentialId o with ⟨hstores, hasserts, -⟩ |
      ⟨grantId, signCount, now, rfl⟩ | ⟨stored, signCount, rfl⟩
    · rw [hstores, hasserts, Option.toList_none, List.append_nil, List.append_nil]
      exact ih htrace
    · have hempty : storedCounts trace credentialId = [] := ho
      rcases ih htrace with ⟨-, hasserted⟩ | ⟨enrolled, heq⟩
      · refine .inr ⟨signCount, ?_⟩
        rw [hempty, hasserted, Observation.stores, if_pos rfl]
        rfl
      · rw [hempty] at heq
        exact nomatch heq
    · rcases ih htrace with ⟨hempty, -⟩ | ⟨enrolled, heq⟩
      · have hlast := ho.1
        rw [hempty] at hlast
        exact nomatch hlast
      · refine .inr ⟨enrolled, ?_⟩
        rw [heq, Observation.stores, Observation.asserts, if_pos rfl]
        rfl

theorem le_getLast_of_pairwise {counts : List ℕ} {last : ℕ} (h : counts.Pairwise (· ≤ ·))
    (hlast : counts.getLast? = some last) : ∀ n ∈ counts, n ≤ last := by
  obtain ⟨front, rfl⟩ := List.getLast?_eq_some_iff.mp hlast
  intro n hn
  rcases List.mem_append.mp hn with hn | hn
  · exact (List.pairwise_append.mp h).2.2 n hn last (List.mem_singleton_self last)
  · exact (List.mem_singleton.mp hn).le

/-- One more assertion is sound exactly when it advances the stored counter. -/
theorem countersSound_snoc_asserted {stored signCount : ℕ} (htrace : Explained Counted trace)
    (hcounted : Counted trace (.asserted credentialId stored signCount))
    (h : CountersSound trace credentialId) :
    CountersSound (trace ++ [.asserted credentialId stored signCount]) credentialId ↔
      Advances stored signCount := by
  obtain ⟨hlast, checked, hchecked, hadvances⟩ := hcounted
  have hmax := le_getLast_of_pairwise h.stored hlast
  have hstored : storedCounts (trace ++ [.asserted credentialId stored signCount]) credentialId =
      storedCounts trace credentialId ++ [signCount] := by
    rw [storedCounts_snoc, Observation.stores, if_pos rfl]
    rfl
  have hasserted : assertedCounts (trace ++ [.asserted credentialId stored signCount])
      credentialId = assertedCounts trace credentialId ++ [signCount] := by
    rw [assertedCounts_snoc, Observation.asserts, if_pos rfl]
    rfl
  have hstoredMem : stored ∈ storedCounts trace credentialId := List.mem_of_getLast? hlast
  obtain ⟨enrolled, heq⟩ : ∃ enrolled, storedCounts trace credentialId =
      enrolled :: assertedCounts trace credentialId := by
    rcases storedCounts_eq htrace with ⟨hempty, -⟩ | heq
    · rw [hempty] at hlast
      exact nomatch hlast
    · exact heq
  constructor
  · intro hnext
    have hle : stored ≤ signCount :=
      (List.pairwise_append.mp (hstored ▸ hnext.stored)).2.2 stored hstoredMem signCount
        (List.mem_singleton_self signCount)
    by_contra hnot
    -- an assertion that advances nothing repeats a nonzero counter, which was asserted before
    obtain ⟨rfl, hpos⟩ : stored = signCount ∧ signCount ≠ 0 := by
      unfold Advances at hnot
      omega
    have hlt : checked < stored := by
      unfold Advances at hadvances
      omega
    have hmem : stored ∈ assertedCounts trace credentialId := by
      rw [heq] at hlast hchecked
      cases hcounts : assertedCounts trace credentialId with
      | nil =>
        rw [hcounts] at hlast hchecked
        have henrolled : enrolled = stored := Option.some.inj hlast
        rw [List.mem_singleton.mp hchecked, henrolled] at hlt
        exact absurd hlt (lt_irrefl _)
      | cons first rest =>
        rw [hcounts, List.getLast?_cons_cons] at hlast
        exact List.mem_of_getLast? hlast
    have hnodup := hnext.asserted
    rw [hasserted, List.filter_append, List.nodup_append] at hnodup
    refine hnodup.2.2 stored (List.mem_filter.mpr ⟨hmem, decide_eq_true hpos⟩) stored ?_ rfl
    exact List.mem_filter.mpr ⟨List.mem_singleton_self _, decide_eq_true hpos⟩
  · intro hnext
    refine ⟨?_, ?_⟩
    · rw [hstored]
      refine List.pairwise_append.mpr ⟨h.stored, List.pairwise_singleton .., fun n hn m hm => ?_⟩
      have hle := hmax n hn
      rw [List.mem_singleton.mp hm]
      unfold Advances at hnext
      omega
    · rw [hasserted, List.filter_append]
      refine List.nodup_append.mpr ⟨h.asserted, (List.nodup_singleton _).filter _,
        fun n hn m hm => ?_⟩
      obtain ⟨hn, -⟩ := List.mem_filter.mp hn
      obtain ⟨hm, hpos⟩ := List.mem_filter.mp hm
      rw [List.mem_singleton.mp hm] at hpos ⊢
      have hle := hmax n (heq ▸ List.mem_cons_of_mem _ hn)
      have hpos := of_decide_eq_true hpos
      unfold Advances at hnext
      omega

theorem CountersSound.of_snoc (h : CountersSound (trace ++ [o]) credentialId) :
    CountersSound trace credentialId where
  stored := (List.pairwise_append.mp (storedCounts_snoc trace o credentialId ▸ h.stored)).1
  asserted := by
    have hnodup := h.asserted
    rw [assertedCounts_snoc, List.filter_append] at hnodup
    exact (List.nodup_append.mp hnodup).1

/-- Counters are sound exactly when every assertion advances the counter that is stored when its
own is written. -/
theorem countersSound_iff (h : Explained Counted trace) :
    CountersSound trace credentialId ↔ AdvancesStored trace credentialId := by
  induction trace using List.reverseRecOn with
  | nil => exact ⟨nofun, fun _ => ⟨.nil, .nil⟩⟩
  | append_singleton trace o ih =>
    obtain ⟨htrace, ho⟩ := explained_snoc.mp h
    have ih := ih htrace
    have hsplit : AdvancesStored (trace ++ [o]) credentialId ↔
        AdvancesStored trace credentialId ∧ o.Advancing credentialId := by
      refine ⟨fun hall => ⟨fun a ha => hall a (List.mem_append_left _ ha),
        hall o (List.mem_append_right _ (List.mem_singleton_self _))⟩, ?_⟩
      rintro ⟨hall, hlast⟩ a ha
      rcases List.mem_append.mp ha with ha | ha
      · exact hall a ha
      · exact List.mem_singleton.mp ha ▸ hlast
    rw [hsplit, ← ih]
    rcases observation_cases credentialId o with ⟨hstores, hasserts, hother⟩ |
      ⟨grantId, signCount, now, rfl⟩ | ⟨stored, signCount, rfl⟩
    · refine ⟨fun hsound => ⟨hsound.of_snoc, hother⟩, fun hsound => ?_⟩
      refine ⟨?_, ?_⟩
      · rw [storedCounts_snoc, hstores, Option.toList_none, List.append_nil]
        exact hsound.1.stored
      · rw [assertedCounts_snoc, hasserts, Option.toList_none, List.append_nil]
        exact hsound.1.asserted
    · have hempty : storedCounts trace credentialId = [] := ho
      refine ⟨fun hsound => ⟨hsound.of_snoc, trivial⟩, fun hsound => ⟨?_, ?_⟩⟩
      · rw [storedCounts_snoc, hempty, Observation.stores, if_pos rfl]
        exact List.pairwise_singleton ..
      · have hasserts : (Observation.enrolled grantId credentialId signCount now).asserts
            credentialId = none := rfl
        rw [assertedCounts_snoc, hasserts, Option.toList_none, List.append_nil]
        exact hsound.1.asserted
    · refine ⟨fun hsound => ⟨hsound.of_snoc, fun _ => ?_⟩, fun hsound => ?_⟩
      · exact (countersSound_snoc_asserted htrace ho hsound.of_snoc).mp hsound
      · exact (countersSound_snoc_asserted htrace ho hsound.1).mpr (hsound.2 rfl)

end Counters

/-- The library accepts an assertion only when its counter advances the one that it is given. -/
def Library.ChecksCounters (library : Library) : Prop :=
  ∀ credential challenge credentialPublicKey stored signCount,
    library.verifyAuthenticationResponse credential challenge credentialPublicKey stored =
      some signCount → Advances stored signCount

/-- The observations tell the history of every counter, up to the one that is stored. -/
structure Store.TellsCounters (store : Store) : Prop where
  explained : Explained Counted store.trace
  last : ∀ credentialId, (store.credentials.get? credentialId).map (·.signCount) =
    (storedCounts store.trace credentialId).getLast?

/-- An assertion that is verified was checked against a counter that was stored. -/
def Phase.Checked (store : Store) (phase : Phase) : Prop :=
  ∀ credentialId signCount verified, phase = .assertionVerified credentialId signCount verified →
    ∃ checked ∈ storedCounts store.trace credentialId, Advances checked signCount

section Runs

variable {settings : Settings} {library : Library} {store store' : Store} {o : Observation}

/-- What is no enrollment and no assertion leaves the counters. -/
theorem Store.TellsCounters.snoc (h : store.TellsCounters)
    (htrace : store'.trace = store.trace ++ [o])
    (hcredentials : store'.credentials = store.credentials)
    (hstores : ∀ credentialId, o.stores credentialId = none)
    (hcounted : Counted store.trace o) : store'.TellsCounters where
  explained := by
    rw [htrace]
    exact explained_snoc.mpr ⟨h.explained, hcounted⟩
  last := by
    intro credentialId
    rw [htrace, hcredentials, storedCounts_snoc, hstores, Option.toList_none, List.append_nil]
    exact h.last credentialId

/-- A transaction continues the histories of the counters. -/
theorem Store.TellsCounters.effect (h : store.TellsCounters) {input : Input} {phase : Phase}
    (heffect : Effect settings library input store phase store') (hchecked : phase.Checked store) :
    store'.TellsCounters := by
  cases heffect with
  | unchanged => exact h
  | grantIssued => exact h.snoc rfl rfl (fun _ => rfl) trivial
  | challengeIssued => exact h.snoc rfl rfl (fun _ => rfl) trivial
  | challengeAccepted => exact h.snoc rfl rfl (fun _ => rfl) trivial
  | @enrolled grantId credentialId grant row credentials hgrant hlive hcredentials =>
    obtain ⟨habsent, hget⟩ := Dict.get?_of_insertNew hcredentials
    have hempty : storedCounts store.trace credentialId = [] := by
      have hlast := h.last credentialId
      rw [habsent] at hlast
      exact List.getLast?_eq_none_iff.mp hlast.symm
    refine ⟨explained_snoc.mpr ⟨h.explained, hempty⟩, fun other => ?_⟩
    rw [Store.observe_credentials, Store.observe_trace, hget, storedCounts_snoc,
      Observation.stores]
    by_cases hid : credentialId = other
    · subst hid
      rw [if_pos rfl, if_pos rfl, hempty]
      rfl
    · rw [if_neg hid, if_neg hid, Option.toList_none, List.append_nil]
      exact h.last other
  | @asserted credentialId signCount verified row hphase hrow =>
    have hlast := h.last credentialId
    rw [hrow] at hlast
    have hcounted := hchecked credentialId signCount verified hphase
    refine ⟨explained_snoc.mpr ⟨h.explained, hlast.symm, hcounted⟩, fun other => ?_⟩
    rw [Store.observe_credentials, Store.observe_trace, Dict.get?_modify, storedCounts_snoc,
      Observation.stores]
    by_cases hid : credentialId = other
    · subst hid
      rw [if_pos rfl, if_pos rfl, hrow, Option.toList_some, List.getLast?_concat]
      rfl
    · rw [if_neg hid, if_neg hid, Option.toList_none, List.append_nil]
      exact h.last other
  | sessionCreated => exact h.snoc rfl rfl (fun _ => rfl) trivial
  | sessionAccepted => exact h.snoc rfl rfl (fun _ => rfl) trivial
  | sessionTouched => exact h.snoc rfl rfl (fun _ => rfl) trivial
  | @sessionDeleted sessionHash =>
    have haccepted : (store.observe
        (.sessionAccepted sessionHash input.readings.first)).TellsCounters :=
      h.snoc rfl rfl (fun _ => rfl) trivial
    exact haccepted.snoc rfl rfl (fun _ => rfl) trivial

theorem trace_prefix_of_effect {input : Input} {phase : Phase}
    (heffect : Effect settings library input store phase store') :
    store.trace <+: store'.trace := by
  cases heffect with
  | unchanged => exact List.prefix_refl _
  | sessionDeleted =>
    rw [Store.observe_trace, Store.observe_trace, List.append_assoc]
    exact List.prefix_append ..
  | _ => exact List.prefix_append ..

/-- In every run, the counter that is stored last is the one of its row, and counters are sound
exactly when every assertion advances the counter that is stored when its own is written. -/
theorem run_countersSound_iff {π : Type*} [DecidableEq π] {start s : Clients π}
    (hlibrary : library.ChecksCounters) (hfresh : start.Fresh)
    (hrun : Shared.Run (step settings library) (fun _ _ _ => True) start s)
    (credentialId : String) :
    (s.store.credentials.get? credentialId).map (·.signCount) =
      (storedCounts s.store.trace credentialId).getLast? ∧
    (CountersSound s.store.trace credentialId ↔ AdvancesStored s.store.trace credentialId) := by
  have hstart : start.store.TellsCounters := by
    rw [hfresh.store]
    exact ⟨explained_nil, fun _ => rfl⟩
  have hchecked : ∀ p, (start.progress p).Checked start.store := by
    intro p credentialId signCount verified hphase
    rw [hfresh.idle p] at hphase
    exact nomatch hphase
  have heffect : ∀ (s : Clients π) p input, Effect settings library input s.store (s.progress p)
      (transact settings library input s.store (s.progress p)).1 := fun _ _ _ => effect_transact
  have hact : ∀ (s : Clients π) p input, True → s.store.TellsCounters →
      (∀ q, (s.progress q).Checked s.store) →
      (step settings library input s.store (s.progress p)).1.TellsCounters ∧
        (step settings library input s.store (s.progress p)).2.Checked
          (step settings library input s.store (s.progress p)).1 := by
    intro s p input _ hcounted hheld
    have hnext := hcounted.effect (heffect s p input) (hheld p)
    refine ⟨⟨hnext.explained, hnext.last⟩, fun credentialId signCount verified hphase => ?_⟩
    obtain ⟨hsame, credential, challenge, row, hrow, hverified⟩ :=
      assertionVerified_of_transact hphase
    have hlast := hcounted.last credentialId
    rw [hrow] at hlast
    refine ⟨row.signCount, ?_, hlibrary _ _ _ _ _ hverified⟩
    rw [step, hsame]
    exact List.mem_of_getLast? hlast.symm
  have hrely : ∀ (s : Clients π) p input q, q ≠ p → True → s.store.TellsCounters →
      (∀ q, (s.progress q).Checked s.store) →
      (s.progress q).Checked (step settings library input s.store (s.progress p)).1 := by
    intro s p input q _ _ _ hheld credentialId signCount verified hphase
    obtain ⟨checked, hmem, hadvances⟩ := hheld q credentialId signCount verified hphase
    have hgrown := trace_prefix_of_effect (heffect s p input)
    exact ⟨checked, (hgrown.filterMap _).subset hmem, hadvances⟩
  obtain ⟨hcounted, -⟩ := hrun.guarantee hstart hchecked hact hrely
  exact ⟨hcounted.last credentialId, countersSound_iff hcounted.explained⟩

/-- The credential whose counter a client is about to write. -/
def Phase.writes? : Phase → Option String
  | .assertionVerified credentialId _ _ => some credentialId
  | _ => none

/-- No client writes a counter while another one, which has checked it, is about to write it. -/
def Undisturbed {π : Type*} (s : Clients π) (p : π) (_ : Input) : Prop :=
  ∀ q, q ≠ p → ∀ id ∈ (s.progress q).writes?, (s.progress p).writes? ≠ some id

/-- An assertion that is verified advances the counter of its row. -/
def Phase.Advances (store : Store) (phase : Phase) : Prop :=
  ∀ credentialId signCount verified, phase = .assertionVerified credentialId signCount verified →
    ∃ row, store.credentials.get? credentialId = some row ∧
      Authentication.Advances row.signCount signCount

/-- The assertions of every credential advance the counters that they write over. -/
def Store.Advances (store : Store) : Prop :=
  ∀ credentialId, AdvancesStored store.trace credentialId

/-- A transaction of another client keeps the row of a credential, unless it writes its counter. -/
theorem get?_of_effect {input : Input} {phase : Phase} {credentialId : String} {row : CredentialRow}
    (heffect : Effect settings library input store phase store')
    (hrow : store.credentials.get? credentialId = some row)
    (hother : phase.writes? ≠ some credentialId) :
    store'.credentials.get? credentialId = some row := by
  cases heffect with
  | @enrolled grantId enrolled grant other credentials hgrant hlive hcredentials =>
    obtain ⟨habsent, hget⟩ := Dict.get?_of_insertNew hcredentials
    rw [Store.observe_credentials, hget, if_neg, hrow]
    rintro rfl
    exact nomatch habsent.symm.trans hrow
  | @asserted asserted signCount verified other hphase _ =>
    subst hphase
    rw [Store.observe_credentials, Dict.get?_modify, if_neg, hrow]
    exact fun heq => hother (congrArg some heq)
  | _ => exact hrow

/-- A transaction advances counters when the one that it writes, if any, does. -/
theorem Store.Advances.effect (h : store.Advances) {input : Input} {phase : Phase}
    (heffect : Effect settings library input store phase store')
    (hadvances : phase.Advances store) :
    store'.Advances := by
  intro credentialId
  have hsnoc {trace : List Observation} {o : Observation} (h : AdvancesStored trace credentialId)
      (ho : o.Advancing credentialId) : AdvancesStored (trace ++ [o]) credentialId :=
    List.forall_mem_append.mpr ⟨h, List.forall_mem_singleton.mpr ho⟩
  cases heffect with
  | unchanged => exact h credentialId
  | @asserted asserted signCount verified row hphase hrow =>
    refine hsnoc (h credentialId) fun _ => ?_
    obtain ⟨checked, hchecked, hlt⟩ := hadvances asserted signCount verified hphase
    rwa [Option.some.inj (hrow.symm.trans hchecked)]
  | sessionDeleted => exact hsnoc (hsnoc (h credentialId) trivial) trivial
  | _ => exact hsnoc (h credentialId) trivial

/-- In a run in which no counter is written between a check of it and the write that follows, every
assertion advances the counter that is stored when its own is written. -/
theorem run_advancesStored {π : Type*} [DecidableEq π] {start s : Clients π}
    (hlibrary : library.ChecksCounters) (hfresh : start.Fresh)
    (hrun : Shared.Run (step settings library) Undisturbed start s) (credentialId : String) :
    AdvancesStored s.store.trace credentialId := by
  have hstart : start.store.Advances := by
    rw [hfresh.store]
    exact nofun
  have hheld : ∀ p, (start.progress p).Advances start.store := by
    intro p credentialId signCount verified hphase
    rw [hfresh.idle p] at hphase
    exact nomatch hphase
  have heffect : ∀ (s : Clients π) p input, Effect settings library input s.store (s.progress p)
      (transact settings library input s.store (s.progress p)).1 := fun _ _ _ => effect_transact
  refine (hrun.guarantee hstart hheld ?_ ?_).1 credentialId
  · intro s p input _ hstored hheld
    have hnext := hstored.effect (heffect s p input) (hheld p)
    refine ⟨hnext, fun credentialId signCount verified hphase => ?_⟩
    obtain ⟨hsame, credential, challenge, row, hrow, hverified⟩ :=
      assertionVerified_of_transact hphase
    refine ⟨row, ?_, hlibrary _ _ _ _ _ hverified⟩
    rw [step, hsame]
    exact hrow
  · intro s p input q hq hundisturbed _ hheld credentialId signCount verified hphase
    obtain ⟨row, hrow, hadvances⟩ := hheld q credentialId signCount verified hphase
    have hkept := get?_of_effect (heffect s p input) hrow
      (hundisturbed q hq credentialId (hphase ▸ rfl))
    exact ⟨row, hkept, hadvances⟩

end Runs

namespace SampleAssertions

open SampleCeremonies

/-- Assertions of the counters six and seven, whose counters are written in some order. -/
def asserted (writes : List Bool) : List (Bool × Input) :=
  enrollment ++
    [(true, input 5 "-" (.authenticationOptions .authentication)),
      (true, going 6 "first"),
      (true, input 7 "-" (.authenticationOptions .authentication)),
      (true, going 8 "second"),
      (true, input 9 "-" (.verifyAssertion "first" ⟨"passkey", "six"⟩ .authentication .nothing)),
      (true, going 10 "-"),
      (false, input 11 "-" (.verifyAssertion "second" ⟨"passkey", "seven"⟩ .authentication
        .nothing)),
      (false, going 12 "-")] ++
    writes.map fun client => (client, going 13 "-")

theorem checksCounters : library.ChecksCounters := by
  intro credential challenge credentialPublicKey stored signCount h
  obtain ⟨-, hadvances⟩ := Option.filter_eq_some_iff.mp h
  exact of_decide_eq_true hadvances

/-- The later counter is written over by the earlier one. -/
theorem regressed_spec :
    storedCounts (start.play (step production library) (asserted [false, true])).store.trace
      "passkey" = [5, 7, 6] := by
  decide +kernel

end SampleAssertions

/-- Counters that are written in order. -/
theorem sample_countersSound : CountersSound
    (SampleCeremonies.start.play (step SampleCeremonies.production SampleCeremonies.library)
      (SampleAssertions.asserted [true, false])).store.trace "passkey" :=
  (run_countersSound_iff SampleAssertions.checksCounters SampleCeremonies.fresh
    (Shared.run_play _ .refl (by decide +kernel)) "passkey").2.mpr (by decide +kernel)

/-- Of two assertions that are checked against the same stored counter, the earlier one writes over
the later one, and the counter regresses. -/
theorem sample_regressed :
    SampleCeremonies.library.ChecksCounters ∧
    ∃ s, Shared.Run (step SampleCeremonies.production SampleCeremonies.library)
      (fun _ _ _ => True) SampleCeremonies.start s ∧ ¬ CountersSound s.store.trace "passkey" := by
  refine ⟨SampleAssertions.checksCounters, SampleCeremonies.start.play
    (step SampleCeremonies.production SampleCeremonies.library)
    (SampleAssertions.asserted [false, true]),
    Shared.run_play _ .refl (by decide +kernel), fun h => ?_⟩
  have hstored := h.stored
  rw [SampleAssertions.regressed_spec] at hstored
  exact absurd hstored (by decide)

end StockProfiler.Authentication
