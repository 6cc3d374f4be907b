import StockProfiler.Authentication.Passkeys

/-!
# Effects of a transaction

A transaction of the authenticator leaves the store as it is, or has one of few effects, each with
what the transaction checked for it.
-/

namespace StockProfiler.Authentication

variable (settings : Settings) (library : Library)

/-- What a transaction may do to the store. -/
inductive Effect (input : Input) (store : Store) (phase : Phase) : Store → Prop where
  | unchanged : Effect input store phase store
  | grantIssued {row : GrantRow} {grants : Dict String GrantRow}
      (hgrants : store.grants.insertNew input.identifier row = some grants) :
      Effect input store phase
        ({ store with grants }.observe (.grantIssued input.identifier row.expiresAt))
  | challengeIssued {row : ChallengeRow} {challenges : Dict String ChallengeRow}
      (hchallenges : store.challenges.insertNew input.identifier row = some challenges) :
      Effect input store phase ({ store with challenges }.observe
        (.challengeIssued input.identifier row.purpose row.expiresAt))
  | challengeAccepted {challengeId : String} {row : ChallengeRow}
      (hrow : store.challenges.get? challengeId = some row)
      (hlive : input.readings.first < row.expiresAt) :
      Effect input store phase
        ({ store with challenges := store.challenges.erase challengeId }.observe
        (.challengeAccepted challengeId row.purpose input.readings.first))
  | enrolled {grantId credentialId : String} {grant : GrantRow} {row : CredentialRow}
      {credentials : Dict String CredentialRow} (hgrant : store.grants.get? grantId = some grant)
      (hlive : input.readings.first < grant.expiresAt)
      (hcredentials : store.credentials.insertNew credentialId row = some credentials) :
      Effect input store phase
        ({ store with credentials, grants := store.grants.erase grantId }.observe
        (.enrolled grantId credentialId row.signCount input.readings.first))
  | asserted {credentialId : String} {signCount : ℕ} {verified : Verified} {row : CredentialRow}
      (hphase : phase = .assertionVerified credentialId signCount verified)
      (hrow : store.credentials.get? credentialId = some row) :
      Effect input store phase ({ store with
        credentials := store.credentials.modify credentialId fun row => { row with signCount }
      }.observe (.asserted credentialId row.signCount signCount))
  | sessionCreated {credentialId : String} {row : SessionRow} {sessions : Dict String SessionRow}
      (hphase : phase = .creatingSession credentialId row.lastSeenAt)
      (hsessions : store.sessions.insertNew (library.digest input.identifier) row = some sessions) :
      Effect input store phase ({ store with sessions }.observe
        (.sessionCreated (library.digest input.identifier) row.lastSeenAt row.absoluteExpiresAt))
  | sessionAccepted {sessionHash : String} {row : SessionRow}
      (hrow : store.sessions.get? sessionHash = some row)
      (habsolute : input.readings.first < row.absoluteExpiresAt)
      (hidle : input.readings.second < settings.idleAt row.lastSeenAt) :
      Effect input store phase (store.observe (.sessionAccepted sessionHash input.readings.first))
  | sessionTouched {sessionToken : String} {reauthenticated : Bool} {row : SessionRow}
      {touch : SessionRow → SessionRow}
      (hphase : phase = .sessionActive sessionToken reauthenticated)
      (hrow : store.sessions.get? (library.digest sessionToken) = some row)
      (hseen : ∀ row, (touch row).lastSeenAt = input.seenAt reauthenticated)
      (habsolute : ∀ row, (touch row).absoluteExpiresAt = row.absoluteExpiresAt) :
      Effect input store phase ({ store with
        sessions := store.sessions.modify (library.digest sessionToken) touch }.observe
          (.sessionTouched (library.digest sessionToken) (input.seenAt reauthenticated)))
  | sessionDeleted {sessionHash : String} {row : SessionRow}
      (hrow : store.sessions.get? sessionHash = some row)
      (habsolute : input.readings.first < row.absoluteExpiresAt)
      (hidle : input.readings.second < settings.idleAt row.lastSeenAt) :
      Effect input store phase
        ({ (store.observe (.sessionAccepted sessionHash input.readings.first)) with
          sessions := store.sessions.erase sessionHash }.observe (.sessionDeleted sessionHash))

section Effects

variable {challengeId : String} {purpose : ChallengePurpose} {row : SessionRow}
  {verified : Verified} {credentialId : String}

variable {settings library} {input : Input} {store store' : Store} {phase : Phase}

theorem effect_createHostConsoleGrant (purpose : HostGrantPurpose) :
    Effect settings library input store phase
      (createHostConsoleGrant settings input store purpose) := by
  unfold createHostConsoleGrant
  dsimp only
  split
  · exact .unchanged
  · split
    · exact .unchanged
    · rename_i hgrants
      exact .grantIssued hgrants

theorem effect_saveChallenge (purpose : ChallengePurpose) (grantId : Option String) :
    Effect settings library input store phase
      (saveChallenge settings input store purpose grantId) := by
  unfold saveChallenge
  dsimp only
  split
  · exact .unchanged
  · rename_i hchallenges
    exact .challengeIssued hchallenges

theorem effect_enroll (grantId : String) (verified : VerifiedRegistration) :
    Effect settings library input store phase (enroll input store grantId verified) := by
  unfold enroll
  split
  · rename_i hactive
    split
    · exact .unchanged
    · rename_i hcredentials
      obtain ⟨grant, hgrant, hlive⟩ := Option.any_eq_true _ _ |>.mp hactive
      rw [Bool.not_eq_true', expired, decide_eq_false_iff_not, not_le] at hlive
      exact .enrolled hgrant hlive hcredentials
  · exact .unchanged

theorem consumeChallenge_eq_some {row : ChallengeRow}
    (h : consumeChallenge input store challengeId purpose = some (store', row)) :
    store.challenges.get? challengeId = some row ∧ row.purpose = purpose ∧
      input.readings.first < row.expiresAt ∧
      store' = { store with challenges := store.challenges.erase challengeId }.observe
        (.challengeAccepted challengeId purpose input.readings.first) := by
  unfold consumeChallenge at h
  split at h
  · cases h
  · rename_i row' hrow
    split at h
    · cases h
    · rename_i hlive
      rw [not_or, not_not, expired, decide_eq_true_eq, not_le] at hlive
      obtain ⟨rfl, rfl⟩ := Prod.mk.inj (Option.some.inj h)
      exact ⟨hrow, hlive.1, hlive.2, rfl⟩

theorem effect_consumeChallenge {row : ChallengeRow}
    (h : consumeChallenge input store challengeId purpose = some (store', row)) :
    Effect settings library input store phase store' := by
  obtain ⟨hrow, rfl, hlive, rfl⟩ := consumeChallenge_eq_some h
  exact .challengeAccepted hrow hlive

theorem effect_registrationVerify (challengeId : String) (credential : PublicKeyCredential) :
    Effect settings library input store phase
      (registrationVerify library input store challengeId credential).1 := by
  unfold registrationVerify
  split
  · exact .unchanged
  · rename_i hconsume
    have heffect : Effect settings library input store phase _ := effect_consumeChallenge hconsume
    split <;> exact heffect

theorem effect_beginAssertion (challengeId : String) (credential : PublicKeyCredential)
    (purpose : ChallengePurpose) (verified : Verified) :
    Effect settings library input store phase
      (beginAssertion input store challengeId credential purpose verified).1 := by
  unfold beginAssertion
  split
  · exact .unchanged
  · rename_i hconsume
    exact effect_consumeChallenge hconsume

theorem effect_storeSignCount {signCount : ℕ}
    (hphase : phase = .assertionVerified credentialId signCount verified) :
    Effect settings library input store phase (storeSignCount store credentialId signCount) := by
  unfold storeSignCount
  split
  · exact .unchanged
  · rename_i hrow
    exact .asserted hphase hrow

theorem effect_createSession {now : Instant} (hphase : phase = .creatingSession credentialId now) :
    Effect settings library input store phase
      (createSession settings library input store credentialId now) := by
  unfold createSession
  dsimp only
  split
  · exact .unchanged
  · rename_i hsessions
    exact .sessionCreated hphase hsessions

theorem readSession_eq_some {sessionToken : Option String}
    (h : readSession library store sessionToken = some row) :
    store.sessions.get? (library.digest (sessionToken.getD "")) = some row := by
  unfold readSession at h
  split at h
  · cases h
  · exact h

variable (sessionToken csrfToken : Option String)

theorem effect_requireSession (recent : Bool) :
    Effect settings library input store phase
      (requireSession settings library input store sessionToken recent) := by
  unfold requireSession
  split
  · exact .unchanged
  · rename_i hrow
    split
    · exact .unchanged
    · rename_i hlive
      rw [not_or, not_or, expired, idleExpired, decide_eq_true_eq, decide_eq_true_eq, not_le,
        not_le] at hlive
      exact .sessionAccepted (readSession_eq_some hrow) hlive.1 hlive.2.1

/-- An accepted session is stored and within both of its limits. -/
theorem requireMutableSession_eq_some {sessionToken csrfToken : Option String}
    (h : requireMutableSession settings library input store sessionToken csrfToken =
      some (store', row)) :
    store.sessions.get? (library.digest (sessionToken.getD "")) = some row ∧
      input.readings.first < row.absoluteExpiresAt ∧
      input.readings.second < settings.idleAt row.lastSeenAt ∧
      store' = store.observe
        (.sessionAccepted (library.digest (sessionToken.getD "")) input.readings.first) := by
  unfold requireMutableSession at h
  split at h
  · exact nomatch h
  · split at h
    · exact nomatch h
    · rename_i hrow
      split at h
      · rename_i hvalid
        obtain ⟨rfl, rfl⟩ := Prod.mk.inj (Option.some.inj h)
        rw [validateSessionMutation, Bool.not_eq_true', Bool.or_eq_false_iff,
          Bool.or_eq_false_iff, expired, idleExpired, decide_eq_false_iff_not,
          decide_eq_false_iff_not, not_le, not_le] at hvalid
        exact ⟨readSession_eq_some hrow, hvalid.1.1, hvalid.1.2, rfl⟩
      · exact nomatch h

theorem effect_requireMutableSession {sessionToken csrfToken : Option String}
    (h : requireMutableSession settings library input store sessionToken csrfToken =
      some (store', row)) : Effect settings library input store phase store' := by
  obtain ⟨hrow, habsolute, hidle, rfl⟩ := requireMutableSession_eq_some h
  exact .sessionAccepted hrow habsolute hidle

theorem effect_beginRefresh :
    Effect settings library input store phase
      (beginRefresh settings library input store sessionToken csrfToken).1 := by
  unfold beginRefresh
  split
  · exact .unchanged
  · rename_i hrow
    exact effect_requireMutableSession hrow

theorem effect_beginReauthentication (credentialId : String) :
    Effect settings library input store phase
      (beginReauthentication settings library input store sessionToken csrfToken
        credentialId).1 := by
  unfold beginReauthentication
  split
  · exact .unchanged
  · rename_i hrow
    have heffect : Effect settings library input store phase _ := effect_requireMutableSession hrow
    split <;> exact heffect

theorem effect_touchSession {sessionToken : String} {reauthenticated : Bool}
    (hphase : phase = .sessionActive sessionToken reauthenticated) :
    Effect settings library input store phase
      (touchSession library input store sessionToken reauthenticated) := by
  unfold touchSession
  dsimp only
  split
  · exact .unchanged
  · rename_i hrow
    refine .sessionTouched hphase hrow (fun row => ?_) fun row => ?_ <;>
      cases reauthenticated <;> rfl

theorem effect_logout :
    Effect settings library input store phase
      (logout settings library input store sessionToken csrfToken) := by
  unfold logout
  split
  · exact .unchanged
  · rename_i hmutable
    obtain ⟨hrow, habsolute, hidle, rfl⟩ := requireMutableSession_eq_some hmutable
    exact .sessionDeleted hrow habsolute hidle

theorem effect_serve (request : Request) :
    Effect settings library input store phase (serve settings library input store request).1 := by
  cases request with
  | createHostConsoleGrant purpose => exact effect_createHostConsoleGrant purpose
  | registrationOptions grantId => exact .unchanged
  | registrationVerify challengeId credential => exact effect_registrationVerify ..
  | authenticationOptions purpose => exact .unchanged
  | verifyAssertion challengeId credential purpose verified => exact effect_beginAssertion ..
  | requireSession sessionToken recent => exact effect_requireSession ..
  | requireMutableSession sessionToken csrfToken =>
    rw [serve]
    split
    · exact .unchanged
    · rename_i hrow
      exact effect_requireMutableSession hrow
  | refreshSession sessionToken csrfToken => exact effect_beginRefresh ..
  | reauthenticate sessionToken csrfToken credentialId => exact effect_beginReauthentication ..
  | logout sessionToken csrfToken => exact effect_logout ..

theorem effect_transact :
    Effect settings library input store phase (transact settings library input store phase).1 := by
  cases phase with
  | idle => exact effect_serve input.request
  | grantActive grantId => exact effect_saveChallenge ..
  | registrationVerified grantId verified => exact effect_enroll ..
  | credentialsFound purpose => exact effect_saveChallenge ..
  | challengeConsumed challenge credential verified => exact .unchanged
  | assertionVerified credentialId signCount verified => exact effect_storeSignCount rfl
  | authenticated credentialId => exact .unchanged
  | creatingSession credentialId now => exact effect_createSession rfl
  | reauthenticating sessionToken csrfToken credentialId => exact effect_beginReauthentication ..
  | sessionActive sessionToken reauthenticated => exact effect_touchSession rfl

/-- A request goes on to no assertion and no session of its own with its first transaction. -/
def Phase.isBegun : Phase → Bool
  | .assertionVerified .. | .authenticated .. | .creatingSession .. | .reauthenticating .. => false
  | _ => true

theorem isBegun_beginReauthentication (credentialId : String) :
    (beginReauthentication settings library input store sessionToken
      csrfToken credentialId).2.isBegun = true := by
  unfold beginReauthentication
  split
  · rfl
  · split <;> rfl

theorem isBegun_serve (request : Request) :
    (serve settings library input store request).2.isBegun = true := by
  cases request with
  | createHostConsoleGrant purpose => rfl
  | registrationOptions grantId =>
    rw [serve]
    split <;> rfl
  | registrationVerify challengeId credential =>
    rw [serve, registrationVerify]
    split
    · rfl
    · split <;> rfl
  | authenticationOptions purpose =>
    rw [serve]
    split <;> rfl
  | verifyAssertion challengeId credential purpose verified =>
    rw [serve, beginAssertion]
    split <;> rfl
  | requireSession sessionToken recent => rfl
  | requireMutableSession sessionToken csrfToken =>
    rw [serve]
    split <;> rfl
  | refreshSession sessionToken csrfToken =>
    rw [serve, beginRefresh]
    split <;> rfl
  | reauthenticate sessionToken csrfToken credentialId => exact isBegun_beginReauthentication ..
  | logout sessionToken csrfToken => rfl

/-- Only a client that is authenticated reads the clock for a session. -/
theorem creatingSession_of_transact {now : Instant}
    (h : (transact settings library input store phase).2 = .creatingSession credentialId now) :
    now = input.readings.first := by
  cases phase with
  | idle =>
    have hbegun : (transact settings library input store .idle).2.isBegun = true :=
      isBegun_serve input.request
    rw [h] at hbegun
    exact nomatch hbegun
  | reauthenticating sessionToken csrfToken credentialId =>
    have hbegun : (transact settings library input store
        (.reauthenticating sessionToken csrfToken credentialId)).2.isBegun = true :=
      isBegun_beginReauthentication ..
    rw [h] at hbegun
    exact nomatch hbegun
  | authenticated => exact (Phase.creatingSession.inj h).2.symm
  | challengeConsumed challenge credential verified =>
    rw [transact] at h
    unfold checkAssertion at h
    split at h
    · exact nomatch h
    · split at h <;> exact nomatch h
  | assertionVerified _ _ verified => cases verified <;> exact nomatch h
  | _ => exact nomatch h

/-- Only the check of the library verifies an assertion. -/
theorem assertionVerified_of_transact {signCount : ℕ}
    (h : (transact settings library input store phase).2 =
      .assertionVerified credentialId signCount verified) :
    (transact settings library input store phase).1 = store ∧
      ∃ credential challenge row, store.credentials.get? credentialId = some row ∧
        library.verifyAuthenticationResponse credential challenge row.credentialPublicKey
          row.signCount = some signCount := by
  cases phase with
  | idle =>
    have hbegun : (transact settings library input store .idle).2.isBegun = true :=
      isBegun_serve input.request
    rw [h] at hbegun
    cases hbegun
  | reauthenticating sessionToken csrfToken credentialId =>
    have hbegun : (transact settings library input store
        (.reauthenticating sessionToken csrfToken credentialId)).2.isBegun = true :=
      isBegun_beginReauthentication ..
    rw [h] at hbegun
    cases hbegun
  | challengeConsumed challenge credential verified =>
    refine ⟨rfl, ?_⟩
    rw [transact] at h
    unfold checkAssertion at h
    split at h
    · cases h
    · rename_i row hrow
      split at h
      · cases h
      · rename_i hverified
        injection h with hid hcount hnext
        subst hid hcount
        exact ⟨credential, challenge, row, hrow, hverified⟩
  | assertionVerified _ _ verified => cases verified <;> cases h
  | _ => cases h

end Effects

end StockProfiler.Authentication
