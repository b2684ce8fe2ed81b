import TelegramS3.Operators

namespace TelegramS3
open Relational Table Fallible Transition OperatorStore
set_option autoImplicit true

structure SessionClaims where
  uid : Uuid
  sid : Uuid
  ver : Int
  iat : Int
  exp : Int
  csrf : Uuid

def adminSessionTtlSeconds : Int := 8 * 60 * 60

structure ResolvedPrincipal where
  user : DbUser
  claims : SessionClaims

/-- What the server takes from outside: lower case, password check and cookie decoding. -/
structure AdminServer where
  lower : String → String
  verifyPassword : String → String → Except AuthError Unit
  decodeClaims : String → Option SessionClaims

namespace SessionClaims

def sessionLive (c : SessionClaims) (s : OperatorStore) : Bool :=
  (s.getSession c.sid).any fun d => d.revokedAt.isNone

def resolve (c : SessionClaims) (s : OperatorStore) : Option ResolvedPrincipal :=
  match s.getUserById c.uid with
  | some user => if user.disabled || user.tokenVersion ≠ c.ver then none else some ⟨user, c⟩
  | none => none

end SessionClaims

/-- The claims of a cookie that has not run out. -/
def AdminServer.unexpired (server : AdminServer) (now : OffsetDateTime) (cookie : String) :
    Option SessionClaims :=
  (server.decodeClaims cookie).filter fun c => now.unixTimestamp ≤ c.exp

/-- The session is read from one state of the store, the user from another one. -/
def AdminServer.principalFromHeaders (server : AdminServer) (s s' : OperatorStore)
    (now : OffsetDateTime) (cookie : String) : Option ResolvedPrincipal := do
  let claims ← server.unexpired now cookie
  if claims.sessionLive s then claims.resolve s' else none

def issuedClaims (user : DbUser) (sid csrf : Uuid) (now : OffsetDateTime) : SessionClaims where
  uid := user.id
  sid := sid
  ver := user.tokenVersion
  iat := now.unixTimestamp
  exp := now.unixTimestamp + adminSessionTtlSeconds
  csrf := csrf

def OperatorStore.issueSession (s : OperatorStore) (user : DbUser) (sid csrf : Uuid)
    (now : OffsetDateTime) : Except MetadataError (OperatorStore × SessionClaims) := do
  let s' ← s.insertSession { cookieId := sid, userId := user.id, tokenVersion := user.tokenVersion }
  return (s', issuedClaims user sid csrf now)

def AdminServer.authenticate (server : AdminServer) (s : OperatorStore)
    (rawUsername password : String) : Except AuthError DbUser := do
  let username ← normalizeUsername server.lower rawUsername
  match s.getUser username with
  | none => throw { kind := .unknownUser, message := "invalid username or password" }
  | some user =>
    server.verifyPassword password user.passwordHash
    ensure (!user.disabled) { kind := .disabled, message := "account is disabled" }
    return user

inductive Duty where
  | refresh
  | logout
  | changePassword (target : Uuid) (password : String)
  | updateProfile (displayName : String) (current password : Option String)
  | deleteUser (target : Uuid)

/-- How far a request has come; every step is one access to the store. -/
inductive SessionPhase where
  | settingUp (username displayName : String)
  | signingIn (username password : String)
  | presented (cookie : String) (duty : Duty)
  | sessionRead (claims : SessionClaims) (duty : Duty)
  | resolved (principal : ResolvedPrincipal) (duty : Duty)
  | settingPassword (target : Uuid) (password : String) (own : Bool)
  | savingProfile (user : Uuid) (displayName : String) (password : Option String)
  | deleting (target : DbUser)
  | deletable (target : Uuid)
  | revoking (user : Uuid) (reissue : Bool)
  | rereading (user : Uuid)
  | issuing (user : DbUser)
  | answered (issued : Option SessionClaims)

structure Drawn where
  uid : Uuid
  sid : Uuid
  csrf : Uuid
  hash : Except AuthError String
  now : OffsetDateTime

def isControl (c : Char) : Bool := c.toNat < 32 || (127 ≤ c.toNat && c.toNat < 160)

def normalizeDisplayName (raw : String) : Except AuthError String := do
  let value := trim raw
  ensure (!(value.isEmpty || 120 < value.length || value.toList.any isControl))
    { kind := .invalidDisplayName, message := "display name must be 1-120 non-control characters" }
  return value

namespace AdminServer
variable (server : AdminServer)

/-- The reads and checks of `update_profile` before its write. -/
def checkProfile (s : OperatorStore) (id : Uuid) (displayName : String)
    (current password : Option String) : Except AuthError String := do
  let displayName ← normalizeDisplayName displayName
  match password with
  | none => return displayName
  | some password =>
    match current with
    | none =>
      throw { kind := .invalidPassword
              message := "current password is required to change password" }
    | some current =>
      match s.getUserById id with
      | none => throw { kind := .unknownUser, message := "account not found" }
      | some user =>
        server.verifyPassword current user.passwordHash
        validatePassword password
        return displayName

def perform (p : ResolvedPrincipal) (duty : Duty) (now : OffsetDateTime) (s : OperatorStore) :
    OperatorStore × SessionPhase :=
  match duty with
  | .refresh => (s, .issuing p.user)
  | .logout => (s.revokeSession p.claims.sid now, .answered none)
  | .changePassword target password =>
    match s.getUserById target with
    | none => (s, .answered none)
    | some user =>
      if user.id = p.user.id || p.user.role = .superadmin then
        (s, .settingPassword user.id password (user.id = p.user.id))
      else (s, .answered none)
  | .updateProfile displayName current password =>
    match server.checkProfile s p.user.id displayName current password with
    | .error _ => (s, .answered none)
    | .ok displayName => (s, .savingProfile p.user.id displayName password)
  | .deleteUser target =>
    match s.getUserById target with
    | none => (s, .answered none)
    | some user => if p.user.role = .superadmin then (s, .deleting user) else (s, .answered none)

def advance (d : Drawn) (s : OperatorStore) : SessionPhase → OperatorStore × SessionPhase
  | .settingUp username displayName =>
    match d.hash with
    | .error _ => (s, .answered none)
    | .ok hash =>
      match s.createFirstUser d.uid username hash displayName d.now with
      | .error _ => (s, .answered none)
      | .ok s' => (s', .rereading d.uid)
  | .signingIn username password =>
    match server.authenticate s username password with
    | .error _ => (s, .answered none)
    | .ok user => (s, .issuing user)
  | .presented cookie duty =>
    match server.unexpired d.now cookie with
    | none => (s, .answered none)
    | some claims =>
      if claims.sessionLive s then (s, .sessionRead claims duty) else (s, .answered none)
  | .sessionRead claims duty =>
    match claims.resolve s with
    | none => (s, .answered none)
    | some p => (s, .resolved p duty)
  | .resolved p duty => server.perform p duty d.now s
  | .settingPassword target password own =>
    match validatePassword password, d.hash with
    | .ok _, .ok hash => (s.setUserPassword target hash d.now, .revoking target own)
    | _, _ => (s, .answered none)
  | .savingProfile user displayName password =>
    match password, d.hash with
    | none, _ => (s.updateUserProfile user displayName none d.now, .answered none)
    | some _, .ok hash =>
      (s.updateUserProfile user displayName (some hash) d.now, .revoking user true)
    | some _, .error _ => (s, .answered none)
  | .deleting target =>
    if target.role = .superadmin && s.enabledSuperadminCount ≤ 1 then (s, .answered none)
    else (s, .deletable target.id)
  | .deletable target =>
    match s.deleteUser target with
    | .error _ => (s, .answered none)
    | .ok s' => (s', .revoking target false)
  | .revoking user reissue =>
    (s.revokeUserSessions user d.now, if reissue then .rereading user else .answered none)
  | .rereading id =>
    match s.getUserById id with
    | none => (s, .answered none)
    | some user => (s, .issuing user)
  | .issuing user =>
    match s.issueSession user d.sid d.csrf d.now with
    | .error _ => (s, .answered none)
    | .ok (s', claims) => (s', .answered (some claims))
  | .answered issued => (s, .answered issued)

end AdminServer

def OperatorOp.newUser : OperatorOp → Option Uuid
  | .createUser id .. => some id
  | .createFirstUser id .. => some id
  | _ => none

def OperatorOp.newSession : OperatorOp → Option Uuid
  | .insertSession session => some session.cookieId
  | _ => none

/-- The store with the requests under way, and the ids that were ever in it. -/
structure SessionWorld where
  store : OperatorStore := {}
  requests : List SessionPhase := []
  seenUsers : List Uuid := []
  seenSessions : List Uuid := []

def SessionWorld.enter (w : SessionWorld) (s : OperatorStore) : SessionWorld :=
  { w with
    store := s
    seenUsers := s.users.rows.map DbUser.id ++ w.seenUsers
    seenSessions := s.sessions.rows.map DbSession.cookieId ++ w.seenSessions }

inductive SessionRequest where
  | setUp (username displayName : String)
  | login (username password : String)
  | signedIn (cookie : String) (duty : Duty)

def SessionRequest.phase : SessionRequest → SessionPhase
  | .setUp username displayName => .settingUp username displayName
  | .login username password => .signingIn username password
  | .signedIn cookie duty => .presented cookie duty

/-- Any transaction at any time, a new request, or the next access of a request. -/
inductive SessionAction where
  | transact (op : OperatorOp)
  | receive (request : SessionRequest)
  | advance (i : Nat) (d : Drawn)

namespace SessionAction

def serve (server : AdminServer) (w : SessionWorld) : SessionAction → SessionWorld
  | .transact op =>
    match op.apply w.store with
    | .ok s => w.enter s
    | .error _ => w
  | .receive request => { w with requests := w.requests ++ [request.phase] }
  | .advance i d =>
    match w.requests[i]? with
    | some phase =>
      let (s, phase) := server.advance d w.store phase
      { w.enter s with requests := w.requests.set i phase }
    | none => w

/-- The ids of users and sessions are never used again. -/
def Fresh (w : SessionWorld) : SessionAction → Prop
  | .transact op =>
    (∀ i ∈ op.newUser, i ∉ w.seenUsers) ∧ ∀ i ∈ op.newSession, i ∉ w.seenSessions
  | .receive _ => True
  | .advance _ d => d.uid ∉ w.seenUsers ∧ d.sid ∉ w.seenSessions

end SessionAction

def SessionStep (server : AdminServer) (a : SessionAction) (w w' : SessionWorld) : Prop :=
  w' = a.serve server w ∧ a.Fresh w

def DbUser.Ages (u u' : DbUser) : Prop := u.id = u'.id ∧ u.tokenVersion ≤ u'.tokenVersion

def DbSession.Ages (d d' : DbSession) : Prop :=
  d.cookieId = d'.cookieId ∧ (d.revokedAt.isSome = true → d'.revokedAt.isSome = true)

theorem DbUser.Ages.refl (u : DbUser) : u.Ages u := ⟨rfl, Int.le_refl _⟩

theorem DbSession.Ages.refl (d : DbSession) : d.Ages d := ⟨rfl, id⟩

/-- What is in the store under an id used before was there before. -/
structure Fades (us ds : List Uuid) (s s' : OperatorStore) : Prop where
  users : ∀ u' ∈ s'.users, u'.id ∈ us → ∃ u ∈ s.users, u.Ages u'
  sessions : ∀ d' ∈ s'.sessions, d'.cookieId ∈ ds → ∃ d ∈ s.sessions, d.Ages d'

theorem Fades.refl (s : OperatorStore) : Fades us ds s s :=
  ⟨fun u hu _ => ⟨u, hu, .refl u⟩, fun d hd _ => ⟨d, hd, .refl d⟩⟩

theorem Fades.of_descends (hu : Table.Descends DbUser.Ages s.users s'.users)
    (hd : Table.Descends DbSession.Ages s.sessions s'.sessions) : Fades us ds s s' :=
  ⟨fun u' hu' _ => hu u' hu', fun d' hd' _ => hd d' hd'⟩

theorem Fades.of_users (hu : Table.Descends DbUser.Ages s.users s'.users)
    (hd : s'.sessions = s.sessions) : Fades us ds s s' :=
  .of_descends hu (hd ▸ Table.Descends.refl DbSession.Ages.refl s.sessions)

theorem Fades.of_sessions (hu : s'.users = s.users)
    (hd : Table.Descends DbSession.Ages s.sessions s'.sessions) : Fades us ds s s' :=
  .of_descends (hu ▸ Table.Descends.refl DbUser.Ages.refl s.users) hd

theorem insertUser_fades (h : s.insertUser u = .ok t)
    (hu : s'.users = t.users) (hs : s'.sessions = t.sessions) (hn : u.id ∉ us) :
    Fades us ds s s' := by
  obtain ⟨rfl, -⟩ := insertUser_ok h
  constructor
  · intro u' hu' hseen
    rw [hu] at hu'
    rcases mem_insertOrIgnore.1 hu' with hu' | ⟨rfl, -⟩
    · exact ⟨u', hu', .refl u'⟩
    · exact absurd hseen hn
  · intro d hd _
    rw [hs] at hd
    exact ⟨d, hd, .refl d⟩

theorem insertSession_fades (h : s.insertSession d = .ok s')
    (hn : d.cookieId ∉ ds) : Fades us ds s s' := by
  obtain ⟨_, _, h⟩ := bind_ok.1 h
  cases h
  constructor
  · exact fun u hu _ => ⟨u, hu, .refl u⟩
  · intro d' hd' hseen
    rcases mem_insertOrIgnore.1 hd' with hd' | ⟨rfl, -⟩
    · exact ⟨d', hd', .refl d'⟩
    · exact absurd hseen hn

theorem OperatorOp.fades {op : OperatorOp} (h : op.apply s = .ok s')
    (hu : ∀ i ∈ op.newUser, i ∉ us) (hd : ∀ i ∈ op.newSession, i ∉ ds) :
    Fades us ds s s' := by
  cases op with
  | openStore =>
    cases h
    exact Fades.of_users (Table.Descends.refl DbUser.Ages.refl s.users) rfl
  | createUser =>
    obtain ⟨t, ht, h⟩ := bind_ok.1 h
    cases h
    exact insertUser_fades ht rfl rfl (hu _ rfl)
  | createFirstUser =>
    obtain ⟨_, _, h⟩ := bind_ok.1 h
    obtain ⟨t, ht, h⟩ := bind_ok.1 h
    cases h
    exact insertUser_fades ht rfl rfl (hu _ rfl)
  | deleteUser =>
    obtain ⟨_, _, h⟩ := bind_ok.1 h
    cases h
    exact Fades.of_descends (Table.Descends.delete DbUser.Ages.refl)
      (Table.Descends.delete DbSession.Ages.refl)
  | setUserDisabled =>
    obtain ⟨_, _, h⟩ := bind_ok.1 h
    cases h
    refine Fades.of_users ?_ rfl
    exact Table.Descends.of_update rfl DbUser.Ages.refl fun u _ _ => ⟨rfl, Int.le_refl _⟩
  | setUserPassword =>
    cases h
    refine Fades.of_users ?_ rfl
    exact Table.Descends.of_update rfl DbUser.Ages.refl fun u _ _ => ⟨rfl, by simp⟩
  | updateUserProfile id displayName passwordHash now =>
    cases h
    cases passwordHash with
    | some passwordHash =>
      refine Fades.of_users ?_ rfl
      exact Table.Descends.of_update rfl DbUser.Ages.refl fun u _ _ => ⟨rfl, by simp⟩
    | none =>
      refine Fades.of_users ?_ rfl
      exact Table.Descends.of_update rfl DbUser.Ages.refl fun u _ _ => ⟨rfl, Int.le_refl _⟩
  | insertSession => exact insertSession_fades h (hd _ rfl)
  | revokeSession =>
    cases h
    refine Fades.of_sessions rfl ?_
    exact Table.Descends.of_update rfl DbSession.Ages.refl fun d _ _ => ⟨rfl, fun _ => rfl⟩
  | revokeUserSessions =>
    cases h
    refine Fades.of_sessions rfl ?_
    exact Table.Descends.of_update rfl DbSession.Ages.refl fun d _ _ => ⟨rfl, fun _ => rfl⟩
  | sweepSessions =>
    cases h
    refine Fades.of_sessions rfl ?_
    exact Table.Descends.delete DbSession.Ages.refl

def DrawsOnly (d : Drawn) (s s' : OperatorStore) : Prop :=
  s' = s ∨ ∃ op : OperatorOp, op.apply s = .ok s' ∧ (∀ i ∈ op.newUser, i = d.uid) ∧
    ∀ i ∈ op.newSession, i = d.sid

theorem DrawsOnly.plain (op : OperatorOp) (h : op.apply s = .ok s') (hu : op.newUser = none)
    (hd : op.newSession = none) : DrawsOnly d s s' := by
  refine .inr ⟨op, h, ?_, ?_⟩
  · intro i hi
    rw [hu] at hi
    cases hi
  · intro i hi
    rw [hd] at hi
    cases hi

theorem DrawsOnly.fades (h : DrawsOnly d s s') (hu : d.uid ∉ us) (hd : d.sid ∉ ds) :
    Fades us ds s s' := by
  rcases h with rfl | ⟨op, h, hus, hds⟩
  · exact Fades.refl s'
  · apply OperatorOp.fades h
    · intro i hi
      rw [hus i hi]
      exact hu
    · intro i hi
      rw [hds i hi]
      exact hd

namespace AdminServer

section
variable (server : AdminServer)
include server

theorem perform_draws (p : ResolvedPrincipal) (duty : Duty) (now : OffsetDateTime)
    (s : OperatorStore) : DrawsOnly d s (server.perform p duty now s).1 := by
  cases duty with
  | refresh => exact .inl rfl
  | logout => exact .plain (.revokeSession p.claims.sid now) rfl rfl rfl
  | changePassword target password =>
    simp only [perform]
    split
    · exact .inl rfl
    · split
      · exact .inl rfl
      · exact .inl rfl
  | updateProfile displayName current password =>
    simp only [perform]
    split
    · exact .inl rfl
    · exact .inl rfl
  | deleteUser target =>
    simp only [perform]
    split
    · exact .inl rfl
    · split
      · exact .inl rfl
      · exact .inl rfl

theorem settingUp_draws (d : Drawn) (s : OperatorStore) (username displayName : String) :
    DrawsOnly d s (server.advance d s (.settingUp username displayName)).1 := by
  simp only [advance]
  split
  · exact .inl rfl
  · split
    · exact .inl rfl
    · rename_i s' h
      refine .inr ⟨.createFirstUser d.uid username _ displayName d.now, h, ?_, ?_⟩
      · intro i hi
        exact (Option.mem_some.1 hi).symm
      · intro i hi
        cases hi

theorem issuing_draws (d : Drawn) (s : OperatorStore) (user : DbUser) :
    DrawsOnly d s (server.advance d s (.issuing user)).1 := by
  simp only [advance]
  split
  · exact .inl rfl
  · rename_i s' claims h
    obtain ⟨t, ht, h⟩ := bind_ok.1 h
    cases h
    refine .inr ⟨.insertSession _, ht, ?_, ?_⟩
    · intro i hi
      cases hi
    · intro i hi
      exact (Option.mem_some.1 hi).symm

theorem advance_draws (d : Drawn) (s : OperatorStore) (phase : SessionPhase) :
    DrawsOnly d s (server.advance d s phase).1 := by
  cases phase with
  | settingUp username displayName => exact server.settingUp_draws d s username displayName
  | issuing user => exact server.issuing_draws d s user
  | resolved p duty => exact server.perform_draws p duty d.now s
  | signingIn username password =>
    simp only [advance]
    split
    · exact .inl rfl
    · exact .inl rfl
  | presented cookie duty =>
    simp only [advance]
    split
    · exact .inl rfl
    · split
      · exact .inl rfl
      · exact .inl rfl
  | sessionRead claims duty =>
    simp only [advance]
    split
    · exact .inl rfl
    · exact .inl rfl
  | settingPassword target password own =>
    simp only [advance]
    split
    · rename_i hash _ _
      exact .plain (.setUserPassword target hash d.now) rfl rfl rfl
    · exact .inl rfl
  | savingProfile user displayName password =>
    simp only [advance]
    split
    · exact .plain (.updateUserProfile user displayName none d.now) rfl rfl rfl
    · rename_i hash _
      exact .plain (.updateUserProfile user displayName (some hash) d.now) rfl rfl rfl
    · exact .inl rfl
  | deleting target =>
    simp only [advance]
    split
    · exact .inl rfl
    · exact .inl rfl
  | deletable target =>
    simp only [advance]
    split
    · exact .inl rfl
    · rename_i s' h
      exact .plain (.deleteUser target) h rfl rfl
  | revoking user reissue =>
    exact .plain (.revokeUserSessions user d.now) rfl rfl rfl
  | rereading id =>
    simp only [advance]
    split
    · exact .inl rfl
    · exact .inl rfl
  | answered issued => exact .inl rfl

end

end AdminServer

namespace SessionWorld

structure Recorded (w : SessionWorld) : Prop where
  users : ∀ u ∈ w.store.users, u.id ∈ w.seenUsers
  sessions : ∀ d ∈ w.store.sessions, d.cookieId ∈ w.seenSessions

structure Moves (w w' : SessionWorld) : Prop where
  fades : Fades w.seenUsers w.seenSessions w.store w'.store
  users : w.seenUsers ⊆ w'.seenUsers
  sessions : w.seenSessions ⊆ w'.seenSessions
  recorded : w.Recorded → w'.Recorded

theorem Moves.refl (w : SessionWorld) : Moves w w :=
  ⟨Fades.refl _, List.Subset.refl _, List.Subset.refl _, id⟩

theorem enter_moves (w : SessionWorld) (h : Fades w.seenUsers w.seenSessions w.store s) :
    Moves w (w.enter s) where
  fades := h
  users := List.subset_append_right _ _
  sessions := List.subset_append_right _ _
  recorded _ :=
    ⟨fun _ hu => List.mem_append_left _ (List.mem_map_of_mem hu),
      fun _ hd => List.mem_append_left _ (List.mem_map_of_mem hd)⟩

end SessionWorld

theorem SessionStep.moves (h : SessionStep server a w w') : SessionWorld.Moves w w' := by
  obtain ⟨rfl, hf⟩ := h
  cases a with
  | transact op =>
    simp only [SessionAction.serve]
    split
    · rename_i s hs
      exact w.enter_moves (OperatorOp.fades hs hf.1 hf.2)
    · exact .refl w
  | receive request =>
    exact ⟨Fades.refl _, List.Subset.refl _, List.Subset.refl _, fun h => ⟨h.users, h.sessions⟩⟩
  | advance i d =>
    simp only [SessionAction.serve]
    split
    · rename_i phase _
      have hm := w.enter_moves ((server.advance_draws d w.store phase).fades hf.1 hf.2)
      exact ⟨hm.fades, hm.users, hm.sessions, fun h => ⟨(hm.recorded h).users,
        (hm.recorded h).sessions⟩⟩
    · exact .refl w

namespace SessionWorld
variable {w w' : SessionWorld} {c : SessionClaims}

/-- The cookie's version is behind, its session was revoked or swept, or its user deleted. -/
inductive Withdrawn (w : SessionWorld) (c : SessionClaims) : Prop where
  | stale : u ∈ w.store.users → u.id = c.uid → c.ver < u.tokenVersion → Withdrawn w c
  | revoked : d ∈ w.store.sessions → d.cookieId = c.sid → d.revokedAt.isSome = true →
      Withdrawn w c
  | swept : c.sid ∈ w.seenSessions → w.store.getSession c.sid = none → Withdrawn w c
  | deleted : c.uid ∈ w.seenUsers → w.store.getUserById c.uid = none → Withdrawn w c

def UserDead (w : SessionWorld) (c : SessionClaims) : Prop :=
  c.uid ∈ w.seenUsers ∧ ∀ u ∈ w.store.users, u.id = c.uid → c.ver < u.tokenVersion

def SessionDead (w : SessionWorld) (c : SessionClaims) : Prop :=
  c.sid ∈ w.seenSessions ∧ ∀ d ∈ w.store.sessions, d.cookieId = c.sid → d.revokedAt.isSome = true

def Dead (w : SessionWorld) (c : SessionClaims) : Prop := w.UserDead c ∨ w.SessionDead c

theorem Withdrawn.dead (h : w.Withdrawn c) (hw : w.Recorded) : w.Dead c := by
  cases h with
  | stale hu hi hv =>
    refine .inl ⟨hi ▸ hw.users _ hu, fun u' hu' hi' => ?_⟩
    rwa [eq_of_key_eq hu' hu (hi'.trans hi.symm)]
  | revoked hd hi hr =>
    refine .inr ⟨hi ▸ hw.sessions _ hd, fun d' hd' hi' => ?_⟩
    rwa [eq_of_key_eq hd' hd (hi'.trans hi.symm)]
  | swept hs hn => exact .inr ⟨hs, fun d hd hi => absurd hi (get?_eq_none.1 hn d hd)⟩
  | deleted hs hn => exact .inl ⟨hs, fun u hu hi => absurd hi (get?_eq_none.1 hn u hu)⟩

theorem UserDead.moves (h : w.UserDead c) (hm : Moves w w') : w'.UserDead c := by
  refine ⟨hm.users h.1, fun u' hu' hi => ?_⟩
  obtain ⟨u, hu, hid, hv⟩ := hm.fades.users u' hu' (hi ▸ h.1)
  exact Int.lt_of_lt_of_le (h.2 u hu (hid.trans hi)) hv

theorem SessionDead.moves (h : w.SessionDead c) (hm : Moves w w') : w'.SessionDead c := by
  refine ⟨hm.sessions h.1, fun d' hd' hi => ?_⟩
  obtain ⟨d, hd, hid, hr⟩ := hm.fades.sessions d' hd' (hi ▸ h.1)
  exact hr (h.2 d hd (hid.trans hi))

theorem UserDead.resolve (h : w.UserDead c) : c.resolve w.store = none := by
  unfold SessionClaims.resolve
  split
  · rename_i u hu
    obtain ⟨hm, hi⟩ := get?_eq_some.1 hu
    have hv : u.tokenVersion ≠ c.ver := (Int.ne_of_lt (h.2 u hm hi)).symm
    simp [hv]
  · rfl

theorem SessionDead.not_live (h : w.SessionDead c) : c.sessionLive w.store = false := by
  unfold SessionClaims.sessionLive
  cases hs : w.store.getSession c.sid with
  | none => rfl
  | some d =>
    obtain ⟨hm, hi⟩ := get?_eq_some.1 hs
    have hr := h.2 d hm hi
    cases hd : d.revokedAt with
    | none => simp [hd] at hr
    | some t => simp [hd]

end SessionWorld

def NoSessions (w : SessionWorld) : Prop := w = {}

theorem recorded_of_run (hr : Run NoSessions (SessionStep server) past w) : w.Recorded := by
  refine Run.invariant ?_ (fun _ _ _ hw h => h.moves.recorded hw) hr
  intro w h
  subst h
  exact ⟨fun _ h => absurd h (not_mem_empty _), fun _ h => absurd h (not_mem_empty _)⟩

theorem SessionWorld.UserDead.run (h : w.UserDead c)
    (hr : Run (fun v => v = w) (SessionStep server) later w') : w'.UserDead c :=
  Run.invariant (I := fun v => v.UserDead c) (fun _ he => he ▸ h)
    (fun _ _ _ hw hs => hw.moves hs.moves) hr

theorem SessionWorld.SessionDead.run (h : w.SessionDead c)
    (hr : Run (fun v => v = w) (SessionStep server) later w') : w'.SessionDead c :=
  Run.invariant (I := fun v => v.SessionDead c) (fun _ he => he ▸ h)
    (fun _ _ _ hw hs => hw.moves hs.moves) hr

/-- A withdrawn cookie is refused by every later check, whatever runs before it and between its two
reads. -/
theorem withdrawn_never_accepted (server : AdminServer)
    (hr : Run NoSessions (SessionStep server) past w) (hd : w.Withdrawn c)
    (h₁ : Run (fun v => v = w) (SessionStep server) later w₁)
    (h₂ : Run (fun v => v = w₁) (SessionStep server) between w₂)
    (hc : server.decodeClaims cookie = some c) (now : OffsetDateTime) :
    server.principalFromHeaders w₁.store w₂.store now cookie = none := by
  have hp : server.unexpired now cookie = none ∨ server.unexpired now cookie = some c := by
    unfold AdminServer.unexpired
    rw [hc, Option.filter_some]
    split
    · exact .inr rfl
    · exact .inl rfl
  unfold AdminServer.principalFromHeaders
  rcases hp with hp | hp
  · rw [hp]
    rfl
  · rw [hp, Option.bind_eq_bind, Option.bind_some]
    rcases hd.dead (recorded_of_run hr) with hu | hs
    · rw [((hu.run h₁).run h₂).resolve, ite_self]
    · rw [(hs.run h₁).not_live]
      rfl

instance (w : SessionWorld) : (a : SessionAction) → Decidable (a.Fresh w)
  | .transact op => inferInstanceAs (Decidable ((∀ i ∈ op.newUser, i ∉ w.seenUsers) ∧
      ∀ i ∈ op.newSession, i ∉ w.seenSessions))
  | .receive _ => isTrue trivial
  | .advance _ d => inferInstanceAs (Decidable (d.uid ∉ w.seenUsers ∧ d.sid ∉ w.seenSessions))

def SessionAction.step? (server : AdminServer) (a : SessionAction) (w : SessionWorld) :
    Option SessionWorld :=
  if a.Fresh w then some (a.serve server w) else none

theorem SessionStep.of_step? (h : a.step? server w = some w') : SessionStep server a w w' := by
  unfold SessionAction.step? at h
  split at h
  · rename_i hf
    cases h
    exact ⟨rfl, hf⟩
  · cases h

/-- A login reads its user, the password is changed, and the session is issued after that. -/
def lateLogin : List SessionAction :=
  let d : Drawn := ⟨⟨2⟩, ⟨7⟩, ⟨8⟩, .ok "$argon2id$", default⟩
  [.transact .openStore, .transact (.createFirstUser ⟨1⟩ "root" "$argon2id$" "Root" default),
    .receive (.login "root" "correct-horse"), .advance 0 d,
    .transact (.setUserPassword ⟨1⟩ "$argon2id$v" default), .advance 0 d]

def lateServer : AdminServer where
  lower := id
  verifyPassword _ _ := .ok ()
  decodeClaims cookie := if cookie = "late" then some ⟨⟨1⟩, ⟨7⟩, 0, 0, 28800, ⟨8⟩⟩ else none

theorem lateLogin_runs : (exec (SessionAction.step? lateServer) [] {} lateLogin).isSome = true := by
  decide +kernel

def lateWorld : SessionWorld :=
  ((exec (SessionAction.step? lateServer) [] {} lateLogin).get lateLogin_runs).2

theorem lateWorld_stale :
    lateWorld.store.users.any (fun u => u.id = ⟨1⟩ && decide (0 < u.tokenVersion)) = true := by
  decide +kernel

/-- The session of the late login is live, and its cookie is refused. -/
theorem late_login_refused :
    SessionClaims.sessionLive ⟨⟨1⟩, ⟨7⟩, 0, 0, 28800, ⟨8⟩⟩ lateWorld.store = true ∧
      lateServer.principalFromHeaders lateWorld.store lateWorld.store default "late" = none := by
  refine ⟨by decide +kernel, ?_⟩
  have he : NoSessions {} := rfl
  have hr := Run.mono (fun _ _ _ h => SessionStep.of_step? h) (Run.of_exec_isSome he lateLogin_runs)
  obtain ⟨u, hu, hp⟩ := any_eq_true.1 lateWorld_stale
  obtain ⟨hi, hv⟩ := Bool.and_eq_true_iff.1 hp
  exact withdrawn_never_accepted lateServer hr
    (.stale hu (of_decide_eq_true hi) (of_decide_eq_true hv)) (.init rfl) (.init rfl) rfl default

end TelegramS3
