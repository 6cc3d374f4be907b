import StockProfiler.Core.Clock
import StockProfiler.Core.Dict

/-!
# Authentication tables

The four tables of the passkey authenticator, each keyed by its primary key, and what the
authenticator reads of its settings and of the WebAuthn library.
-/

namespace StockProfiler.Authentication

/-- The only grants of the host console that may start an enrollment. -/
inductive HostGrantPurpose where
  | bootstrap
  | recovery

/-- The one-time ceremonies. -/
inductive ChallengePurpose where
  | registration
  | authentication
  | reauthentication
  deriving DecidableEq

/-- A row of `auth_credentials`, under its credential id. -/
structure CredentialRow where
  credentialPublicKey : String
  signCount : ℕ

/-- A row of `auth_challenges`, under its challenge id. -/
structure ChallengeRow where
  purpose : ChallengePurpose
  challenge : String
  grantId : Option String
  expiresAt : Instant

/-- A row of `auth_host_grants`, under its grant id. -/
structure GrantRow where
  purpose : HostGrantPurpose
  expiresAt : Instant

/-- A row of `auth_sessions`, under the digest of its token. -/
structure SessionRow where
  csrfHash : String
  credentialId : String
  createdAt : Instant
  lastSeenAt : Instant
  recentReauthAt : Instant
  absoluteExpiresAt : Instant

/-- The settings that the authenticator reads. -/
structure Settings where
  authChallengeTtlSeconds : ℤ
  authSessionIdleTtlSeconds : ℤ
  authSessionAbsoluteTtlSeconds : ℤ
  authRecentReauthenticationTtlSeconds : ℤ
  authBootstrapToken : Option String
  authRecoveryToken : Option String
  authBootstrapTokenTtlSeconds : ℤ
  authRecoveryTokenTtlSeconds : ℤ

/-- A credential as a browser sends it: the id that it names, and the rest for the library. -/
structure PublicKeyCredential where
  id : String
  response : String

/-- What the library reads off a registration that it accepts. -/
structure VerifiedRegistration where
  credentialId : String
  credentialPublicKey : String
  signCount : ℕ

/-- The functions of the WebAuthn library, at the relying party and the origin of the settings,
and the digest of tokens. An assertion that is accepted yields its counter. -/
structure Library where
  verifyRegistrationResponse : PublicKeyCredential → String → Option VerifiedRegistration
  verifyAuthenticationResponse : PublicKeyCredential → String → String → ℕ → Option ℕ
  digest : String → String

/-- The counter of an assertion is past a stored one, or the authenticator does not count. -/
def Advances (stored count : ℕ) : Prop := stored < count ∨ stored = 0 ∧ count = 0

instance (stored count : ℕ) : Decidable (Advances stored count) := instDecidableOr

/-- The instant so many seconds later. -/
def afterSeconds (t : Instant) (seconds : ℤ) : Instant :=
  t + seconds * 1000000

/-- The readings of the clock in one step of a request, in their order. -/
structure Readings where
  first : Instant
  second : Instant
  third : Instant
  first_le : first ≤ second
  second_le : second ≤ third

/-- `_expired`. -/
def expired (timestamp now : Instant) : Bool := timestamp ≤ now

variable (store : Store) (o : Observation) (settings : Settings)

/-- When a session that was last seen at some time goes idle. -/
def Settings.idleAt (lastSeenAt : Instant) : Instant :=
  afterSeconds lastSeenAt settings.authSessionIdleTtlSeconds

/-- `_idle_expired`. -/
def idleExpired (lastSeenAt now : Instant) : Bool :=
  settings.idleAt lastSeenAt ≤ now

/-- `_recent_reauthentication_expired`. -/
def recentReauthenticationExpired (recentReauthAt now : Instant) : Bool :=
  afterSeconds recentReauthAt settings.authRecentReauthenticationTtlSeconds ≤ now

/-- The secret that the console needs for a grant. -/
def hostGrantSecret : HostGrantPurpose → Option String
  | .bootstrap => settings.authBootstrapToken
  | .recovery => settings.authRecoveryToken

/-- How long a grant lives. -/
def hostGrantTtlSeconds : HostGrantPurpose → ℤ
  | .bootstrap => settings.authBootstrapTokenTtlSeconds
  | .recovery => settings.authRecoveryTokenTtlSeconds

/-- What a transaction did that matters to one-time use. Nothing reads it back. -/
inductive Observation where
  | grantIssued (grantId : String) (expiresAt : Instant)
  | challengeIssued (challengeId : String) (purpose : ChallengePurpose) (expiresAt : Instant)
  | challengeAccepted (challengeId : String) (purpose : ChallengePurpose) (now : Instant)
  | enrolled (grantId credentialId : String) (signCount : ℕ) (now : Instant)
  | asserted (credentialId : String) (stored signCount : ℕ)
  | sessionCreated (sessionHash : String) (now absoluteExpiresAt : Instant)
  | sessionAccepted (sessionHash : String) (now : Instant)
  | sessionTouched (sessionHash : String) (now : Instant)
  | sessionDeleted (sessionHash : String)
  deriving DecidableEq

/-- The tables, with the latest reading of the clock and what happened so far. -/
structure Store where
  credentials : Dict String CredentialRow := []
  challenges : Dict String ChallengeRow := []
  grants : Dict String GrantRow := []
  sessions : Dict String SessionRow := []
  clock : Instant := 0
  trace : List Observation := []

/-- Note what a transaction did. -/
def Store.observe : Store :=
  { store with trace := store.trace ++ [o] }

@[simp] theorem Store.observe_trace : (store.observe o).trace = store.trace ++ [o] := rfl

@[simp] theorem Store.observe_credentials : (store.observe o).credentials = store.credentials := rfl

@[simp] theorem Store.observe_challenges : (store.observe o).challenges = store.challenges := rfl

@[simp] theorem Store.observe_grants : (store.observe o).grants = store.grants := rfl

@[simp] theorem Store.observe_sessions : (store.observe o).sessions = store.sessions := rfl

@[simp] theorem Store.observe_clock : (store.observe o).clock = store.clock := rfl

end StockProfiler.Authentication
