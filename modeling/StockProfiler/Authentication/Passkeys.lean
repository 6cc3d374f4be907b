import StockProfiler.Authentication.Tables
import StockProfiler.Core.SharedStore

/-!
# The passkey authenticator

A request runs in several transactions of its own, with what it computes in between attached to
the one before. Any number of clients make any number of requests, and these interleave between
transactions.
-/

namespace StockProfiler.Authentication

/-- What a route does with an assertion that is verified. -/
inductive Verified where
  | nothing
  | createSession
  | reauthenticate (sessionToken csrfToken : Option String)

/-- What a client asks for. -/
inductive Request where
  | createHostConsoleGrant (purpose : HostGrantPurpose)
  | registrationOptions (grantId : String)
  | registrationVerify (challengeId : String) (credential : PublicKeyCredential)
  | authenticationOptions (purpose : ChallengePurpose)
  | verifyAssertion (challengeId : String) (credential : PublicKeyCredential)
      (purpose : ChallengePurpose) (verified : Verified)
  | requireSession (sessionToken : Option String) (requireRecentReauthentication : Bool)
  | requireMutableSession (sessionToken csrfToken : Option String)
  | refreshSession (sessionToken csrfToken : Option String)
  | reauthenticate (sessionToken csrfToken : Option String) (credentialId : String)
  | logout (sessionToken csrfToken : Option String)

/-- How far a client is with its request, between two transactions. -/
inductive Phase where
  /-- It makes no request. -/
  | idle
  /-- Its grant is active. -/
  | grantActive (grantId : String)
  /-- Its challenge is consumed, and its registration verified. -/
  | registrationVerified (grantId : String) (verified : VerifiedRegistration)
  /-- There are credentials. -/
  | credentialsFound (purpose : ChallengePurpose)
  /-- Its challenge is consumed. -/
  | challengeConsumed (challenge : String) (credential : PublicKeyCredential) (verified : Verified)
  /-- Its assertion is verified. -/
  | assertionVerified (credentialId : String) (signCount : ℕ) (verified : Verified)
  /-- The counter of its assertion is stored, for a session. -/
  | authenticated (credentialId : String)
  /-- It has read the clock for its session. -/
  | creatingSession (credentialId : String) (now : Instant)
  /-- The counter of its assertion is stored, for a session that it names. -/
  | reauthenticating (sessionToken csrfToken : Option String) (credentialId : String)
  /-- Its session is found active. -/
  | sessionActive (sessionToken : String) (reauthenticated : Bool)

/-- What a client brings to its next transaction: its request, when it makes a new one, what is
drawn at random, and the readings of the clock. -/
structure Input where
  request : Request
  identifier : String
  csrfToken : String
  challenge : String
  readings : Readings

variable (settings : Settings) (library : Library) (input : Input) (store : Store)

/-- `create_host_console_grant`. -/
def createHostConsoleGrant (purpose : HostGrantPurpose) : Store :=
  if (hostGrantSecret settings purpose).getD "" = "" then store
  else
    let expiresAt := afterSeconds input.readings.first (hostGrantTtlSeconds settings purpose)
    match store.grants.insertNew input.identifier ⟨purpose, expiresAt⟩ with
    | none => store
    | some grants => { store with grants }.observe (.grantIssued input.identifier expiresAt)

/-- `_require_active_grant`. -/
def isActiveGrant (grantId : String) : Bool :=
  (store.grants.get? grantId).any fun grant => !expired grant.expiresAt input.readings.first

/-- The transaction of `registration_verify`: `_consume_active_grant`, and the credential. -/
def enroll (grantId : String) (verified : VerifiedRegistration) : Store :=
  if isActiveGrant input store grantId then
    match store.credentials.insertNew verified.credentialId
        ⟨verified.credentialPublicKey, verified.signCount⟩ with
    -- the credential is enrolled already: the transaction is rolled back
    | none => store
    | some credentials =>
      { store with credentials, grants := store.grants.erase grantId }.observe
        (.enrolled grantId verified.credentialId verified.signCount input.readings.first)
  else store

/-- `_save_challenge`. -/
def saveChallenge (purpose : ChallengePurpose) (grantId : Option String) : Store :=
  let expiresAt := afterSeconds input.readings.first settings.authChallengeTtlSeconds
  match store.challenges.insertNew input.identifier ⟨purpose, input.challenge, grantId,
    expiresAt⟩ with
  | none => store
  | some challenges =>
    { store with challenges }.observe (.challengeIssued input.identifier purpose expiresAt)

/-- `_consume_challenge`. -/
def consumeChallenge (challengeId : String) (purpose : ChallengePurpose) :
    Option (Store × ChallengeRow) :=
  match store.challenges.get? challengeId with
  | none => none
  | some row =>
    if row.purpose ≠ purpose ∨ expired row.expiresAt input.readings.first then none
    else some ({ store with challenges := store.challenges.erase challengeId }.observe
      (.challengeAccepted challengeId purpose input.readings.first), row)

/-- `registration_verify` up to its second transaction. -/
def registrationVerify (challengeId : String) (credential : PublicKeyCredential) : Store × Phase :=
  match consumeChallenge input store challengeId .registration with
  | none => (store, .idle)
  | some (store, row) =>
    match row.grantId, library.verifyRegistrationResponse credential row.challenge with
    | some grantId, some verified => (store, .registrationVerified grantId verified)
    | _, _ => (store, .idle)

/-- `verify_assertion` up to its second transaction. -/
def beginAssertion (challengeId : String) (credential : PublicKeyCredential)
    (purpose : ChallengePurpose) (verified : Verified) : Store × Phase :=
  match consumeChallenge input store challengeId purpose with
  | none => (store, .idle)
  | some (store, row) => (store, .challengeConsumed row.challenge credential verified)

/-- The second transaction of `verify_assertion`, and the check of the library. -/
def checkAssertion (challenge : String) (credential : PublicKeyCredential) (verified : Verified) :
    Phase :=
  match store.credentials.get? credential.id with
  | none => .idle
  | some row =>
    match library.verifyAuthenticationResponse credential challenge row.credentialPublicKey
        row.signCount with
    | none => .idle
    | some signCount => .assertionVerified credential.id signCount verified

/-- What follows an assertion. -/
def Verified.next (credentialId : String) : Verified → Phase
  | .nothing => .idle
  | .createSession => .authenticated credentialId
  | .reauthenticate sessionToken csrfToken =>
    .reauthenticating sessionToken csrfToken credentialId

/-- The third transaction of `verify_assertion`. -/
def storeSignCount (credentialId : String) (signCount : ℕ) : Store :=
  match store.credentials.get? credentialId with
  | none => store
  | some row =>
    { store with
      credentials := store.credentials.modify credentialId fun row => { row with signCount }
    }.observe (.asserted credentialId row.signCount signCount)

/-- The transaction of `_create_session`. -/
def createSession (credentialId : String) (now : Instant) : Store :=
  let sessionHash := library.digest input.identifier
  let absoluteExpiresAt := afterSeconds input.readings.first
    settings.authSessionAbsoluteTtlSeconds
  match store.sessions.insertNew sessionHash
      ⟨library.digest input.csrfToken, credentialId, now, now, now, absoluteExpiresAt⟩ with
  | none => store
  | some sessions =>
    { store with sessions }.observe (.sessionCreated sessionHash now absoluteExpiresAt)

variable (sessionToken csrfToken : Option String)

/-- The row of a session token that is given. -/
def readSession : Option SessionRow :=
  if sessionToken.getD "" = "" then none
  else store.sessions.get? (library.digest (sessionToken.getD ""))

/-- `require_session`. -/
def requireSession (requireRecentReauthentication : Bool) : Store :=
  match readSession library store sessionToken with
  | none => store
  | some row =>
    if expired row.absoluteExpiresAt input.readings.first ∨
        idleExpired settings row.lastSeenAt input.readings.second ∨
        requireRecentReauthentication ∧
          recentReauthenticationExpired settings row.recentReauthAt input.readings.third then store
    else store.observe
      (.sessionAccepted (library.digest (sessionToken.getD "")) input.readings.first)

/-- `_validate_session_mutation`. -/
def validateSessionMutation (row : SessionRow) (csrfToken : String) : Bool :=
  !(expired row.absoluteExpiresAt input.readings.first ||
    idleExpired settings row.lastSeenAt input.readings.second ||
    row.csrfHash != library.digest csrfToken)

/-- `require_mutable_session`. -/
def requireMutableSession : Option (Store × SessionRow) :=
  if csrfToken.getD "" = "" then none
  else
    match readSession library store sessionToken with
    | none => none
    | some row =>
      if validateSessionMutation settings library input row (csrfToken.getD "") then
        some (store.observe
          (.sessionAccepted (library.digest (sessionToken.getD "")) input.readings.first), row)
      else none

/-- `refresh_session` up to its second transaction. -/
def beginRefresh : Store × Phase :=
  match requireMutableSession settings library input store sessionToken csrfToken with
  | none => (store, .idle)
  | some (store, _) => (store, .sessionActive (sessionToken.getD "") false)

/-- `reauthenticate` up to its second transaction. -/
def beginReauthentication (credentialId : String) : Store × Phase :=
  match requireMutableSession settings library input store sessionToken csrfToken with
  | none => (store, .idle)
  | some (store, row) =>
    if row.credentialId ≠ credentialId then (store, .idle)
    else (store, .sessionActive (sessionToken.getD "") true)

/-- When the second transaction of `refresh_session` or of `reauthenticate` has a session last
seen. -/
def Input.seenAt (reauthenticated : Bool) : Instant :=
  if reauthenticated then input.readings.second else input.readings.first

/-- The second transaction of `refresh_session` and of `reauthenticate`. -/
def touchSession (sessionToken : String) (reauthenticated : Bool) : Store :=
  let sessionHash := library.digest sessionToken
  let lastSeenAt := input.seenAt reauthenticated
  match store.sessions.get? sessionHash with
  | none => store
  | some _ =>
    { store with
      sessions := store.sessions.modify sessionHash fun row =>
        if reauthenticated then { row with recentReauthAt := input.readings.first, lastSeenAt }
        else { row with lastSeenAt }
    }.observe (.sessionTouched sessionHash lastSeenAt)

/-- `logout`. -/
def logout : Store :=
  match requireMutableSession settings library input store sessionToken csrfToken with
  | none => store
  | some (store, _) =>
    let sessionHash := library.digest (sessionToken.getD "")
    { store with sessions := store.sessions.erase sessionHash }.observe
      (.sessionDeleted sessionHash)

/-- The first transaction of a request. -/
def serve : Request → Store × Phase
  | .createHostConsoleGrant purpose => (createHostConsoleGrant settings input store purpose, .idle)
  | .registrationOptions grantId =>
    (store, if isActiveGrant input store grantId then .grantActive grantId else .idle)
  | .registrationVerify challengeId credential =>
    registrationVerify library input store challengeId credential
  | .authenticationOptions purpose =>
    (store, if store.credentials = [] then .idle else .credentialsFound purpose)
  | .verifyAssertion challengeId credential purpose verified =>
    beginAssertion input store challengeId credential purpose verified
  | .requireSession sessionToken recent =>
    (requireSession settings library input store sessionToken recent, .idle)
  | .requireMutableSession sessionToken csrfToken =>
    match requireMutableSession settings library input store sessionToken csrfToken with
    | none => (store, .idle)
    | some (store, _) => (store, .idle)
  | .refreshSession sessionToken csrfToken =>
    beginRefresh settings library input store sessionToken csrfToken
  | .reauthenticate sessionToken csrfToken credentialId =>
    beginReauthentication settings library input store sessionToken csrfToken credentialId
  | .logout sessionToken csrfToken =>
    (logout settings library input store sessionToken csrfToken, .idle)

/-- The next transaction of a client. -/
def transact : Phase → Store × Phase
  | .idle => serve settings library input store input.request
  | .grantActive grantId =>
    (saveChallenge settings input store .registration (some grantId), .idle)
  | .registrationVerified grantId verified => (enroll input store grantId verified, .idle)
  | .credentialsFound purpose => (saveChallenge settings input store purpose none, .idle)
  | .challengeConsumed challenge credential verified =>
    (store, checkAssertion library store challenge credential verified)
  | .assertionVerified credentialId signCount verified =>
    (storeSignCount store credentialId signCount, verified.next credentialId)
  | .authenticated credentialId => (store, .creatingSession credentialId input.readings.first)
  | .creatingSession credentialId now =>
    (createSession settings library input store credentialId now, .idle)
  | .reauthenticating sessionToken csrfToken credentialId =>
    beginReauthentication settings library input store sessionToken csrfToken credentialId
  | .sessionActive sessionToken reauthenticated =>
    (touchSession library input store sessionToken reauthenticated, .idle)

/-- One step of a client, after which the clock has been read. -/
def step (phase : Phase) : Store × Phase :=
  let result := transact settings library input store phase
  ({ result.1 with clock := input.readings.third }, result.2)

end StockProfiler.Authentication
