import StockProfiler.Authentication.Effects
import StockProfiler.Core.History

/-!
# One-time ceremonies

Whatever clients there are and however their transactions interleave, a challenge and a grant are
used once, and a session is accepted only while it lives. A session that has gone idle stays so as
long as no request that found it active touches it afterwards.
-/

namespace StockProfiler.Authentication

variable (settings : Settings) (revives : Bool)

/-- When a session goes idle, after one more observation. One that is touched after it has gone
idle either revives, or stays so. -/
def idleAfter (sessionHash : String) (expiry : Option Instant) : Observation → Option Instant
  | .sessionCreated created now _ =>
    if created = sessionHash then some (settings.idleAt now) else expiry
  | .sessionTouched touched now =>
    if touched = sessionHash then
      expiry.map fun idleAt => if revives ∨ now < idleAt then settings.idleAt now else idleAt
    else expiry
  | _ => expiry

/-- When a session goes idle, after what was observed so far. -/
def idleExpiry (trace : List Observation) (sessionHash : String) : Option Instant :=
  trace.foldl (idleAfter settings revives sessionHash) none

@[simp] theorem idleExpiry_snoc (trace : List Observation) (o : Observation)
    (sessionHash : String) : idleExpiry settings revives (trace ++ [o]) sessionHash =
      idleAfter settings revives sessionHash (idleExpiry settings revives trace sessionHash) o := by
  rw [idleExpiry, List.foldl_append, ← idleExpiry, List.foldl_cons, List.foldl_nil]

/-- An observation is justified by the ones before it: a challenge is accepted once, for the
purpose that it was issued for and before it expires; a grant enrolls one credential; and a session
is accepted from its creation to its deletion, its absolute expiry, or its going idle. -/
def Justified (earlier : List Observation) : Observation → Prop
  | .grantIssued grantId _ => ∀ expiresAt, .grantIssued grantId expiresAt ∉ earlier
  | .challengeIssued challengeId _ _ =>
    ∀ purpose expiresAt, .challengeIssued challengeId purpose expiresAt ∉ earlier
  | .sessionCreated sessionHash _ _ =>
    ∀ now absoluteExpiresAt, .sessionCreated sessionHash now absoluteExpiresAt ∉ earlier
  | .challengeAccepted challengeId purpose now =>
    (∃ expiresAt, .challengeIssued challengeId purpose expiresAt ∈ earlier ∧ now < expiresAt) ∧
      ∀ purpose now, .challengeAccepted challengeId purpose now ∉ earlier
  | .enrolled grantId _ _ now =>
    (∃ expiresAt, .grantIssued grantId expiresAt ∈ earlier ∧ now < expiresAt) ∧
      ∀ credentialId signCount now, .enrolled grantId credentialId signCount now ∉ earlier
  | .sessionAccepted sessionHash now =>
    (∃ created absoluteExpiresAt, .sessionCreated sessionHash created absoluteExpiresAt ∈ earlier ∧
      created ≤ now ∧ now < absoluteExpiresAt) ∧
      .sessionDeleted sessionHash ∉ earlier ∧
      ∃ idleAt ∈ idleExpiry settings revives earlier sessionHash, now < idleAt
  | .sessionDeleted sessionHash =>
    ∃ created absoluteExpiresAt, .sessionCreated sessionHash created absoluteExpiresAt ∈ earlier
  | .sessionTouched .. | .asserted .. => True

/-- What was observed is justified, and every row is one that may still be used: its challenge is
not accepted, its grant has not enrolled, its session is not deleted and goes idle when it says. -/
structure Store.Sound (store : Store) : Prop where
  explained : Explained (Justified settings revives) store.trace
  challenges : ∀ challengeId row, store.challenges.get? challengeId = some row →
    .challengeIssued challengeId row.purpose row.expiresAt ∈ store.trace ∧
      ∀ purpose now, .challengeAccepted challengeId purpose now ∉ store.trace
  grants : ∀ grantId row, store.grants.get? grantId = some row →
    .grantIssued grantId row.expiresAt ∈ store.trace ∧
      ∀ credentialId signCount now, .enrolled grantId credentialId signCount now ∉ store.trace
  sessions : ∀ sessionHash row, store.sessions.get? sessionHash = some row →
    (∃ created ≤ store.clock,
      .sessionCreated sessionHash created row.absoluteExpiresAt ∈ store.trace) ∧
      .sessionDeleted sessionHash ∉ store.trace ∧
      idleExpiry settings revives store.trace sessionHash = some (settings.idleAt row.lastSeenAt)

section Sound

variable {now : Instant} {sessionHash : String}

variable {settings revives} {library : Library} {store store' : Store} {o : Observation}

theorem issued_of_accepted {trace : List Observation} {challengeId : String}
    {purpose : ChallengePurpose} (h : Explained (Justified settings revives) trace)
    (hmem : .challengeAccepted challengeId purpose now ∈ trace) :
    ∃ expiresAt, .challengeIssued challengeId purpose expiresAt ∈ trace := by
  obtain ⟨earlier, hgrown, ⟨expiresAt, hissued, -⟩, -⟩ := h.of_mem hmem
  exact ⟨expiresAt, hgrown.subset hissued⟩

theorem issued_of_enrolled {trace : List Observation} {grantId credentialId : String}
    {signCount : ℕ} (h : Explained (Justified settings revives) trace)
    (hmem : .enrolled grantId credentialId signCount now ∈ trace) :
    ∃ expiresAt, .grantIssued grantId expiresAt ∈ trace := by
  obtain ⟨earlier, hgrown, ⟨expiresAt, hissued, -⟩, -⟩ := h.of_mem hmem
  exact ⟨expiresAt, hgrown.subset hissued⟩

theorem created_of_deleted {trace : List Observation}
    (h : Explained (Justified settings revives) trace)
    (hmem : .sessionDeleted sessionHash ∈ trace) :
    ∃ created absoluteExpiresAt,
      .sessionCreated sessionHash created absoluteExpiresAt ∈ trace := by
  obtain ⟨earlier, hgrown, created, absoluteExpiresAt, hcreated⟩ := h.of_mem hmem
  exact ⟨created, absoluteExpiresAt, hgrown.subset hcreated⟩

/-- A justified observation keeps a store sound that changes no other row. -/
theorem Store.Sound.snoc (h : store.Sound settings revives)
    (htrace : store'.trace = store.trace ++ [o]) (hclock : store'.clock = store.clock)
    (hjustified : Justified settings revives store.trace o)
    (hchallenges : ∀ challengeId row, store'.challenges.get? challengeId = some row →
      (store.challenges.get? challengeId = some row ∧
        ∀ purpose now, o ≠ .challengeAccepted challengeId purpose now) ∨
      o = .challengeIssued challengeId row.purpose row.expiresAt)
    (hgrants : ∀ grantId row, store'.grants.get? grantId = some row →
      (store.grants.get? grantId = some row ∧
        ∀ credentialId signCount now, o ≠ .enrolled grantId credentialId signCount now) ∨
      o = .grantIssued grantId row.expiresAt)
    (hsessions : ∀ sessionHash row', store'.sessions.get? sessionHash = some row' →
      (∃ row, store.sessions.get? sessionHash = some row ∧
        row'.absoluteExpiresAt = row.absoluteExpiresAt ∧ o ≠ .sessionDeleted sessionHash ∧
        idleAfter settings revives sessionHash (some (settings.idleAt row.lastSeenAt)) o =
          some (settings.idleAt row'.lastSeenAt)) ∨
      (o = .sessionCreated sessionHash row'.lastSeenAt row'.absoluteExpiresAt ∧
        row'.lastSeenAt ≤ store.clock)) : store'.Sound settings revives where
  explained := by
    rw [htrace]
    exact explained_snoc.mpr ⟨h.explained, hjustified⟩
  challenges := by
    intro challengeId row hrow
    simp only [htrace, List.mem_append, List.mem_singleton, not_or]
    rcases hchallenges challengeId row hrow with ⟨hrow, hne⟩ | rfl
    · obtain ⟨hissued, haccepted⟩ := h.challenges challengeId row hrow
      exact ⟨.inl hissued, fun purpose now => ⟨haccepted purpose now, (hne purpose now).symm⟩⟩
    · refine ⟨.inr rfl, fun purpose now => ⟨fun hmem => ?_, nofun⟩⟩
      obtain ⟨expiresAt, hissued⟩ := issued_of_accepted h.explained hmem
      exact hjustified purpose expiresAt hissued
  grants := by
    intro grantId row hrow
    simp only [htrace, List.mem_append, List.mem_singleton, not_or]
    rcases hgrants grantId row hrow with ⟨hrow, hne⟩ | rfl
    · obtain ⟨hissued, henrolled⟩ := h.grants grantId row hrow
      exact ⟨.inl hissued, fun c n now => ⟨henrolled c n now, (hne c n now).symm⟩⟩
    · refine ⟨.inr rfl, fun c n now => ⟨fun hmem => ?_, nofun⟩⟩
      obtain ⟨expiresAt, hissued⟩ := issued_of_enrolled h.explained hmem
      exact hjustified expiresAt hissued
  sessions := by
    intro sessionHash row' hrow'
    rw [htrace, hclock, idleExpiry_snoc]
    simp only [List.mem_append, List.mem_singleton, not_or]
    rcases hsessions sessionHash row' hrow' with ⟨row, hrow, habsolute, hne, hidle⟩ | ⟨rfl, hle⟩
    · obtain ⟨⟨created, hle, hcreated⟩, hdeleted, hexpiry⟩ := h.sessions sessionHash row hrow
      rw [habsolute, hexpiry]
      exact ⟨⟨created, hle, .inl hcreated⟩, ⟨hdeleted, hne.symm⟩, hidle⟩
    · refine ⟨⟨row'.lastSeenAt, hle, .inr rfl⟩, ⟨fun hmem => ?_, nofun⟩, if_pos rfl⟩
      obtain ⟨created, absoluteExpiresAt, hcreated⟩ := created_of_deleted h.explained hmem
      exact hjustified created absoluteExpiresAt hcreated

theorem Store.Sound.tick (h : store.Sound settings revives) (hle : store.clock ≤ now) :
    { store with clock := now }.Sound settings revives where
  explained := h.explained
  challenges := h.challenges
  grants := h.grants
  sessions := by
    intro sessionHash row hrow
    obtain ⟨⟨created, hcreated, hmem⟩, hrest⟩ := h.sessions sessionHash row hrow
    exact ⟨⟨created, hcreated.trans hle, hmem⟩, hrest⟩

/-- What an observation issues under an identifier, or under its digest. -/
def Observation.issues (library : Library) (identifier : String) : Observation → Bool
  | .grantIssued grantId _ => grantId = identifier
  | .challengeIssued challengeId _ _ => challengeId = identifier
  | .sessionCreated sessionHash _ _ => sessionHash = library.digest identifier
  | _ => false

/-- What is drawn at random was not issued before. -/
def Input.Fresh (library : Library) (input : Input) (trace : List Observation) : Prop :=
  ∀ o ∈ trace, o.issues library input.identifier = false

instance (library : Library) (input : Input) (trace : List Observation) :
    Decidable (input.Fresh library trace) := inferInstanceAs (Decidable (∀ _ ∈ _, _))

section Fresh

variable {input : Input} {trace : List Observation} (h : input.Fresh library trace)
include h

theorem Input.Fresh.grant (expiresAt : Instant) : .grantIssued input.identifier expiresAt ∉ trace :=
  fun hmem => nomatch (h _ hmem).symm.trans (decide_eq_true rfl)

theorem Input.Fresh.challenge (purpose : ChallengePurpose) (expiresAt : Instant) :
    .challengeIssued input.identifier purpose expiresAt ∉ trace :=
  fun hmem => nomatch (h _ hmem).symm.trans (decide_eq_true rfl)

theorem Input.Fresh.session (now absoluteExpiresAt : Instant) :
    .sessionCreated (library.digest input.identifier) now absoluteExpiresAt ∉ trace :=
  fun hmem => nomatch (h _ hmem).symm.trans (decide_eq_true rfl)

end Fresh

/-- A client that creates a session has read the clock. -/
def Phase.HasRead (store : Store) (phase : Phase) : Prop :=
  ∀ credentialId now, phase = .creatingSession credentialId now → now ≤ store.clock

/-- A session that is touched has not gone idle since it was found active. -/
def Phase.Timely (settings : Settings) (library : Library) (input : Input) (store : Store) :
    Phase → Prop
  | .sessionActive sessionToken reauthenticated =>
    ∀ row ∈ store.sessions.get? (library.digest sessionToken),
      input.seenAt reauthenticated < settings.idleAt row.lastSeenAt
  | _ => True

instance (settings : Settings) (library : Library) (input : Input) (store : Store)
    (phase : Phase) : Decidable (phase.Timely settings library input store) := by
  unfold Phase.Timely
  split <;> infer_instance

theorem Store.Sound.accept (h : store.Sound settings revives) {input : Input}
    (hclock : store.clock ≤ input.readings.first) {row : SessionRow}
    (hrow : store.sessions.get? sessionHash = some row)
    (habsolute : input.readings.first < row.absoluteExpiresAt)
    (hidle : input.readings.second < settings.idleAt row.lastSeenAt) :
    (store.observe (.sessionAccepted sessionHash input.readings.first)).Sound settings revives := by
  obtain ⟨⟨created, hle, hcreated⟩, hdeleted, hexpiry⟩ := h.sessions sessionHash row hrow
  refine h.snoc rfl rfl ⟨⟨created, _, hcreated, hle.trans hclock, habsolute⟩, hdeleted, _, hexpiry,
    input.readings.first_le.trans_lt hidle⟩ (fun _ _ h => .inl ⟨h, nofun⟩)
    (fun _ _ h => .inl ⟨h, nofun⟩) fun _ row' h => .inl ⟨row', h, rfl, nofun, rfl⟩

/-- One ceremony step keeps the store sound, given a timely touch of the session. -/
theorem Store.Sound.effect (h : store.Sound settings revives) {input : Input} {phase : Phase}
    (heffect : Effect settings library input store phase store')
    (hclock : store.clock ≤ input.readings.first) (hfresh : input.Fresh library store.trace)
    (hread : phase.HasRead store)
    (htimely : revives = true ∨ phase.Timely settings library input store) :
    store'.Sound settings revives := by
  cases heffect with
  | unchanged => exact h
  | grantIssued hgrants =>
    obtain ⟨-, hget⟩ := Dict.get?_of_insertNew hgrants
    refine h.snoc rfl rfl hfresh.grant (fun _ _ h => .inl ⟨h, by simp⟩) (fun grantId row hrow => ?_)
      fun _ row' h => .inl ⟨row', h, rfl, by simp, rfl⟩
    rw [Store.observe_grants, hget] at hrow
    split at hrow
    · rename_i hid
      rw [← Option.some.inj hrow, hid]
      exact .inr rfl
    · exact .inl ⟨hrow, by simp⟩
  | challengeIssued hchallenges =>
    obtain ⟨-, hget⟩ := Dict.get?_of_insertNew hchallenges
    refine h.snoc rfl rfl hfresh.challenge (fun challengeId row hrow => ?_)
      (fun _ _ h => .inl ⟨h, by simp⟩) fun _ row' h => .inl ⟨row', h, rfl, by simp, rfl⟩
    rw [Store.observe_challenges, hget] at hrow
    split at hrow
    · rename_i hid
      rw [← Option.some.inj hrow, hid]
      exact .inr rfl
    · exact .inl ⟨hrow, by simp⟩
  | @challengeAccepted challengeId row hrow hlive =>
    obtain ⟨hissued, haccepted⟩ := h.challenges challengeId row hrow
    refine h.snoc rfl rfl ⟨⟨_, hissued, hlive⟩, haccepted⟩ (fun other row' hrow' => ?_)
      (fun _ _ h => .inl ⟨h, by simp⟩) fun _ row' h => .inl ⟨row', h, rfl, by simp, rfl⟩
    rw [Store.observe_challenges, Dict.get?_erase] at hrow'
    split at hrow'
    · cases hrow'
    · rename_i hne
      refine .inl ⟨hrow', fun _ _ heq => hne ?_⟩
      injection heq
  | @enrolled grantId credentialId grant row credentials hgrant hlive hcredentials =>
    obtain ⟨hissued, henrolled⟩ := h.grants grantId grant hgrant
    refine h.snoc rfl rfl ⟨⟨_, hissued, hlive⟩, henrolled⟩ (fun _ _ h => .inl ⟨h, by simp⟩)
      (fun other row' hrow' => ?_) fun _ row' h => .inl ⟨row', h, rfl, by simp, rfl⟩
    rw [Store.observe_grants, Dict.get?_erase] at hrow'
    split at hrow'
    · cases hrow'
    · rename_i hne
      refine .inl ⟨hrow', fun _ _ _ heq => hne ?_⟩
      injection heq
  | asserted hphase hrow =>
    exact h.snoc rfl rfl trivial (fun _ _ h => .inl ⟨h, by simp⟩) (fun _ _ h => .inl ⟨h, by simp⟩)
      fun _ row' h => .inl ⟨row', h, rfl, by simp, rfl⟩
  | @sessionCreated credentialId row sessions hphase hsessions =>
    obtain ⟨-, hget⟩ := Dict.get?_of_insertNew hsessions
    refine h.snoc rfl rfl hfresh.session (fun _ _ h => .inl ⟨h, by simp⟩)
      (fun _ _ h => .inl ⟨h, by simp⟩) fun sessionHash row' hrow' => ?_
    rw [Store.observe_sessions, hget] at hrow'
    split at hrow'
    · rename_i hhash
      rw [← Option.some.inj hrow', hhash]
      exact .inr ⟨rfl, hread _ _ hphase⟩
    · rename_i hne
      exact .inl ⟨row', hrow', rfl, by simp, if_neg hne⟩
  | sessionAccepted hrow habsolute hidle => exact h.accept hclock hrow habsolute hidle
  | @sessionTouched sessionToken reauthenticated row touch hphase hrow hseen habsolute =>
    refine h.snoc rfl rfl trivial (fun _ _ h => .inl ⟨h, by simp⟩) (fun _ _ h => .inl ⟨h, by simp⟩)
      fun sessionHash row' hrow' => ?_
    rw [Store.observe_sessions, Dict.get?_modify] at hrow'
    split at hrow'
    · rename_i hhash
      rw [← hhash, hrow] at hrow'
      cases hrow'
      refine .inl ⟨row, hhash ▸ hrow, habsolute row, by simp, ?_⟩
      have hlive : revives = true ∨
          input.seenAt reauthenticated < settings.idleAt row.lastSeenAt := by
        rw [hphase] at htimely
        exact htimely.imp_right fun h => h row hrow
      rw [idleAfter, if_pos hhash, Option.map_some, if_pos hlive, hseen]
    · rename_i hne
      exact .inl ⟨row', hrow', rfl, by simp, if_neg hne⟩
  | @sessionDeleted sessionHash row hrow habsolute hidle =>
    have haccepted := h.accept hclock hrow habsolute hidle
    obtain ⟨⟨created, -, hcreated⟩, -⟩ := h.sessions sessionHash row hrow
    refine haccepted.snoc rfl rfl ⟨created, _, List.mem_append_left _ hcreated⟩
      (fun _ _ h => .inl ⟨h, by simp⟩) (fun _ _ h => .inl ⟨h, by simp⟩) fun other row' hrow' => ?_
    rw [Store.observe_sessions, Dict.get?_erase] at hrow'
    split at hrow'
    · cases hrow'
    · rename_i hne
      refine .inl ⟨row', hrow', rfl, fun heq => hne ?_, rfl⟩
      injection heq

end Sound

/-- The store, and the clients. -/
abbrev Clients (π : Type*) := Shared π Store Phase

/-- There are no rows, nothing was observed, and no request is under way. -/
structure Clients.Fresh {π : Type*} (s : Clients π) : Prop where
  store : s.store = { clock := s.store.clock }
  idle : ∀ p, s.progress p = .idle

/-- The clock does not go back, and what is drawn at random does not repeat. -/
def Admissible {π : Type*} (library : Library) (s : Clients π) (_ : π) (input : Input) : Prop :=
  s.store.clock ≤ input.readings.first ∧ input.Fresh library s.store.trace

instance {π : Type*} (library : Library) (s : Clients π) (p : π) (input : Input) :
    Decidable (Admissible library s p input) := instDecidableAnd

/-- What is observed is one-time: every observation is justified by the ones before it, and a
session that has gone idle stays so. -/
def OneTime (trace : List Observation) : Prop := Explained (Justified settings false) trace

section Runs

variable {π : Type*} [DecidableEq π] {settings revives} {library : Library} {start s : Clients π}
  {allowed : Clients π → π → Input → Prop}

theorem clock_of_effect {input : Input} {store store' : Store} {phase : Phase}
    (heffect : Effect settings library input store phase store') : store'.clock = store.clock := by
  cases heffect <;> rfl

/-- Whatever is observed in an admissible run is justified, when a session may revive or is touched
in time. -/
theorem run_sound (hfresh : start.Fresh) (hrun : Shared.Run (step settings library) allowed start s)
    (hallowed : ∀ s p input, allowed s p input → Admissible library s p input ∧
      (revives = true ∨ (s.progress p).Timely settings library input s.store)) :
    s.store.Sound settings revives := by
  have hstart : start.store.Sound settings revives := by
    rw [hfresh.store]
    exact ⟨explained_nil, nofun, nofun, nofun⟩
  have hread : ∀ p, (start.progress p).HasRead start.store := by
    intro p credentialId now hphase
    rw [hfresh.idle p] at hphase
    exact nomatch hphase
  have hclock : ∀ s p input, allowed s p input →
      s.store.clock ≤ (step settings library input s.store (s.progress p)).1.clock := by
    intro s p input h
    obtain ⟨⟨hclock, -⟩, -⟩ := hallowed s p input h
    exact hclock.trans (input.readings.first_le.trans input.readings.second_le)
  have hact : ∀ s p input, allowed s p input → s.store.Sound settings revives →
      (∀ q, (s.progress q).HasRead s.store) →
      (step settings library input s.store (s.progress p)).1.Sound settings revives ∧
        (step settings library input s.store (s.progress p)).2.HasRead
          (step settings library input s.store (s.progress p)).1 := by
    intro s p input h hsound hheld
    obtain ⟨⟨hle, hnew⟩, htimely⟩ := hallowed s p input h
    have heffect : Effect settings library input s.store (s.progress p) _ := effect_transact
    refine ⟨(hsound.effect heffect hle hnew (hheld p) htimely).tick ?_, fun _ now hphase => ?_⟩
    · rw [clock_of_effect heffect]
      exact hclock s p input h
    · rw [creatingSession_of_transact hphase]
      exact input.readings.first_le.trans input.readings.second_le
  have hrely : ∀ s p input q, q ≠ p → allowed s p input → s.store.Sound settings revives →
      (∀ q, (s.progress q).HasRead s.store) →
      (s.progress q).HasRead (step settings library input s.store (s.progress p)).1 := by
    intro s p input q _ h _ hheld credentialId now hphase
    exact (hheld q credentialId now hphase).trans (hclock s p input h)
  exact (hrun.guarantee hstart hread hact hrely).1

/-- In every admissible run that touches sessions in time, ceremonies are one-time. -/
theorem run_oneTime (hfresh : start.Fresh)
    (hrun : Shared.Run (step settings library) (fun s p input => Admissible library s p input ∧
      (s.progress p).Timely settings library input s.store) start s) :
    OneTime settings s.store.trace :=
  (run_sound hfresh hrun fun _ _ _ h => ⟨h.1, .inr h.2⟩).explained

end Runs

namespace SampleCeremonies

def production : Settings where
  authChallengeTtlSeconds := 300
  authSessionIdleTtlSeconds := 604800
  authSessionAbsoluteTtlSeconds := 2592000
  authRecentReauthenticationTtlSeconds := 600
  authBootstrapToken := some "secret"
  authRecoveryToken := none
  authBootstrapTokenTtlSeconds := 600
  authRecoveryTokenTtlSeconds := 600

def counters : Dict String ℕ := [("five", 5), ("six", 6), ("seven", 7)]

def library : Library where
  verifyRegistrationResponse := fun credential _ =>
    (counters.get? credential.response).map (⟨credential.id, "key", ·⟩)
  verifyAuthenticationResponse := fun credential _ _ stored =>
    (counters.get? credential.response).filter (Advances stored ·)
  digest := ("digest of " ++ ·)

def input (second : ℤ) (identifier : String) (request : Request) : Input where
  request
  identifier
  csrfToken := "csrf"
  challenge := "challenge"
  readings := ⟨second * 1000000, second * 1000000, second * 1000000, le_refl _, le_refl _⟩

def going (second : ℤ) (identifier : String) : Input :=
  input second identifier (.requireSession none false)

def start : Clients Bool where
  store := {}
  progress := fun _ => .idle

theorem fresh : start.Fresh := ⟨rfl, fun _ => rfl⟩

def enrollment : List (Bool × Input) :=
  [(true, input 0 "grant" (.createHostConsoleGrant .bootstrap)),
    (true, input 1 "-" (.registrationOptions "grant")),
    (true, going 2 "registration"),
    (true, input 3 "-" (.registrationVerify "registration" ⟨"passkey", "five"⟩)),
    (true, going 4 "-")]

def login : List (Bool × Input) :=
  [(true, input 5 "-" (.authenticationOptions .authentication)),
    (true, going 6 "login"),
    (true, input 7 "-" (.verifyAssertion "login" ⟨"passkey", "six"⟩ .authentication
      .createSession)),
    (true, going 8 "-"),
    (true, going 9 "-"),
    (true, going 10 "-"),
    (true, going 11 "token")]

/-- The session is found active at some second and touched at another one, and asked for later. -/
def refreshed (found touched asked : ℤ) : List (Bool × Input) :=
  enrollment ++ login ++
    [(true, input found "-" (.refreshSession (some "token") (some "csrf"))),
      (true, going touched "-"),
      (false, input asked "-" (.requireSession (some "token") false))]

def timely : List (Bool × Input) := refreshed 604000 604001 700000

def late : List (Bool × Input) := refreshed 604000 605000 700000

/-- When the late refresh is over, the session has gone idle, and it is accepted. -/
theorem late_spec : (start.play (step production library) late).store.trace =
    (start.play (step production library) late).store.trace.dropLast ++
      [.sessionAccepted "digest of token" 700000000000] ∧
    idleExpiry production false (start.play (step production library) late).store.trace.dropLast
      "digest of token" = some 604810000000 := by
  decide +kernel

end SampleCeremonies

/-- A run that refreshes a session in time. -/
theorem sample_oneTime : OneTime SampleCeremonies.production
    (SampleCeremonies.start.play (step SampleCeremonies.production SampleCeremonies.library)
      SampleCeremonies.timely).store.trace :=
  run_oneTime SampleCeremonies.fresh (Shared.run_play _ .refl (by decide +kernel))

/-- A session that has gone idle is accepted, when a refresh that found it active comes late. -/
theorem sample_revived :
    ∃ s, Shared.Run (step SampleCeremonies.production SampleCeremonies.library)
      (Admissible SampleCeremonies.library) SampleCeremonies.start s ∧
      ¬ OneTime SampleCeremonies.production s.store.trace := by
  refine ⟨SampleCeremonies.start.play (step SampleCeremonies.production SampleCeremonies.library)
    SampleCeremonies.late, Shared.run_play _ .refl (by decide +kernel), fun h => ?_⟩
  obtain ⟨htrace, hexpiry⟩ := SampleCeremonies.late_spec
  obtain ⟨-, -, idleAt, hidle, hlt⟩ := h _ _ [] htrace
  rw [hexpiry] at hidle
  cases hidle
  exact absurd hlt (by decide)

end StockProfiler.Authentication
