import TelegramS3.Lockouts
import TelegramS3.Store

namespace TelegramS3
open Relational Table Fallible Transition
set_option autoImplicit true

inductive Role where
  | admin | superadmin
  deriving DecidableEq

def Role.parse (text : String) : Option Role :=
  if text = "admin" then some .admin else if text = "superadmin" then some .superadmin else none

structure DbUser where
  id : Uuid
  username : String
  passwordHash : String
  role : Role
  displayName : String
  disabled : Bool := false
  tokenVersion : Int := 0
  createdAt : OffsetDateTime
  updatedAt : OffsetDateTime

structure DbSession where
  cookieId : Uuid
  userId : Uuid
  tokenVersion : Int
  revokedAt : Option OffsetDateTime := none

instance : Keyed DbUser Uuid := ⟨DbUser.id⟩
instance : Keyed DbSession Uuid := ⟨DbSession.cookieId⟩

def DbUser.enabledSuperadmin (u : DbUser) : Bool := u.role = .superadmin && !u.disabled

/-- The operator tables and the setting `setup_complete`, missing before the schema is there. -/
structure OperatorStore where
  users : Table DbUser := ∅
  sessions : Table DbSession := ∅
  setupComplete : Option Bool := none

namespace OperatorStore
variable (s : OperatorStore)

def userCount : Nat := s.users.rows.length

def enabledSuperadminCount : Nat := (s.users.select DbUser.enabledSuperadmin).length

def getUser (username : String) : Option DbUser := s.users.rows.find? fun u => u.username = username

def getUserById (id : Uuid) : Option DbUser := s.users.get? id

def getSession (cookieId : Uuid) : Option DbSession := s.sessions.get? cookieId

def setupRequired : Option Bool :=
  s.setupComplete.map fun complete => !complete && s.users.rows.isEmpty

def openStore : OperatorStore :=
  { s with setupComplete := some (s.setupComplete.getD (!s.users.rows.isEmpty)) }

def insertUser (u : DbUser) : Except MetadataError OperatorStore := do
  ensure (!s.users.any fun v => v.id = u.id || v.username = u.username)
    (.sqlite "constraint failed: users")
  return { s with users := s.users.insertOrIgnore u }

/-- The first account is a superadmin whatever role is asked for. -/
def createUser (id : Uuid) (username passwordHash : String) (role : Role) (displayName : String)
    (now : OffsetDateTime) : Except MetadataError OperatorStore := do
  let s' ← s.insertUser
    { id, username, passwordHash, displayName
      role := if s.users.rows.isEmpty then .superadmin else role
      createdAt := now, updatedAt := now }
  return { s' with setupComplete := some true }

def createFirstUser (id : Uuid) (username passwordHash displayName : String)
    (now : OffsetDateTime) : Except MetadataError OperatorStore := do
  ensure (s.setupRequired = some true) (.invalidManifest "setup is already complete")
  let s' ← s.insertUser
    { id, username, passwordHash, displayName, role := .superadmin
      createdAt := now, updatedAt := now }
  return { s' with setupComplete := some true }

/-- The sessions of a user go with the row. -/
def deleteUser (id : Uuid) : Except MetadataError OperatorStore := do
  ensure (!((s.getUserById id).any fun u => u.role = .superadmin) || 1 < s.enabledSuperadminCount)
    (.invalidManifest "cannot delete the last enabled superadmin")
  return { s with
    users := s.users.delete fun u => u.id = id
    sessions := s.sessions.delete fun d => d.userId = id }

def setUserDisabled (id : Uuid) (disabled : Bool) (now : OffsetDateTime) :
    Except MetadataError OperatorStore := do
  ensure (!(disabled && (s.getUserById id).any DbUser.enabledSuperadmin) ||
      1 < s.enabledSuperadminCount)
    (.invalidManifest "cannot disable the last enabled superadmin")
  return { s with
    users := s.users.modify (fun u => u.id = id) fun u => { u with disabled, updatedAt := now } }

def setUserPassword (id : Uuid) (passwordHash : String) (now : OffsetDateTime) : OperatorStore :=
  { s with
    users := s.users.modify (fun u => u.id = id) fun u =>
      { u with passwordHash, tokenVersion := u.tokenVersion + 1, updatedAt := now } }

def updateUserProfile (id : Uuid) (displayName : String) (passwordHash : Option String)
    (now : OffsetDateTime) : OperatorStore :=
  match passwordHash with
  | some passwordHash =>
    { s with
      users := s.users.modify (fun u => u.id = id) fun u =>
        { u with
          displayName, passwordHash, tokenVersion := u.tokenVersion + 1, updatedAt := now } }
  | none =>
    { s with
      users := s.users.modify (fun u => u.id = id) fun u =>
        { u with displayName, updatedAt := now } }

def insertSession (session : DbSession) : Except MetadataError OperatorStore := do
  ensure (!s.sessions.contains session.cookieId && s.users.contains session.userId)
    (.sqlite "constraint failed: admin_sessions")
  return { s with sessions := s.sessions.insertOrIgnore { session with revokedAt := none } }

def revokeSession (cookieId : Uuid) (now : OffsetDateTime) : OperatorStore :=
  { s with
    sessions := s.sessions.modify (fun d => d.cookieId = cookieId && d.revokedAt.isNone)
      fun d => { d with revokedAt := some now } }

def revokeUserSessions (userId : Uuid) (now : OffsetDateTime) : OperatorStore :=
  { s with
    sessions := s.sessions.modify (fun d => d.userId = userId && d.revokedAt.isNone)
      fun d => { d with revokedAt := some now } }

def sweepSessions (cutoff : OffsetDateTime) : OperatorStore :=
  { s with
    sessions := s.sessions.delete fun d => d.revokedAt.any fun t => t.text < cutoff.text }

end OperatorStore

/-- The transactions on the operator accounts; the schema is applied at every start. -/
inductive OperatorOp where
  | openStore
  | createUser (id : Uuid) (username passwordHash : String) (role : Role) (displayName : String)
    (now : OffsetDateTime)
  | createFirstUser (id : Uuid) (username passwordHash displayName : String)
    (now : OffsetDateTime)
  | deleteUser (id : Uuid)
  | setUserDisabled (id : Uuid) (disabled : Bool) (now : OffsetDateTime)
  | setUserPassword (id : Uuid) (passwordHash : String) (now : OffsetDateTime)
  | updateUserProfile (id : Uuid) (displayName : String) (passwordHash : Option String)
    (now : OffsetDateTime)
  | insertSession (session : DbSession)
  | revokeSession (cookieId : Uuid) (now : OffsetDateTime)
  | revokeUserSessions (userId : Uuid) (now : OffsetDateTime)
  | sweepSessions (cutoff : OffsetDateTime)

def OperatorOp.apply (s : OperatorStore) : OperatorOp → Except MetadataError OperatorStore
  | .openStore => .ok s.openStore
  | .createUser id username passwordHash role displayName now =>
    s.createUser id username passwordHash role displayName now
  | .createFirstUser id username passwordHash displayName now =>
    s.createFirstUser id username passwordHash displayName now
  | .deleteUser id => s.deleteUser id
  | .setUserDisabled id disabled now => s.setUserDisabled id disabled now
  | .setUserPassword id passwordHash now => .ok (s.setUserPassword id passwordHash now)
  | .updateUserProfile id displayName passwordHash now =>
    .ok (s.updateUserProfile id displayName passwordHash now)
  | .insertSession session => s.insertSession session
  | .revokeSession cookieId now => .ok (s.revokeSession cookieId now)
  | .revokeUserSessions userId now => .ok (s.revokeUserSessions userId now)
  | .sweepSessions cutoff => .ok (s.sweepSessions cutoff)

def OperatorOp.isCreateFirstUser : OperatorOp → Bool
  | .createFirstUser .. => true
  | _ => false

inductive AccountError where
  | auth (error : AuthError)
  | store (context : String) (error : MetadataError)

/-- A byte that `is_ascii_control` or `is_ascii_whitespace` holds of. -/
def isControlOrSpace (c : Char) : Bool := c.toNat ≤ 32 || c.toNat = 127

/-- `to_lowercase` is the parameter `lower`. -/
def normalizeUsername (lower : String → String) (raw : String) : Except AuthError String := do
  let value := lower (trim raw)
  ensure (!(value.isEmpty || 64 < value.utf8ByteSize || value.toList.any isControlOrSpace))
    { kind := .invalidUsername, message := "username must be 1-64 non-control characters" }
  return value

def validatePassword (password : String) : Except AuthError Unit :=
  ensure (12 ≤ password.length)
    { kind := .weakPassword, message := "password must be at least 12 characters" }

/-- How far a call of `create_account` has come; every step is one access to the store. -/
inductive AccountPhase where
  | arrived
  | unclaimed (username : String) (requested : Role)
  | chosen (username : String) (role : Role)
  | inserted (username : String) (id : Uuid)
  | stored (username : String)
  | answered (result : Except AccountError DbUser)

structure AccountCall where
  rawUsername : String
  password : String
  requestedRole : String
  displayName : String
  phase : AccountPhase := .arrived

namespace AccountCall

def checked (lower : String → String) (c : AccountCall) : Except AuthError (String × Role) := do
  let username ← normalizeUsername lower c.rawUsername
  validatePassword c.password
  match Role.parse c.requestedRole with
  | some role => return (username, role)
  | none => throw { kind := .notAllowed, message := "unknown role requested" }

/-- The next access to the store of a call; the id and the hash come from outside. -/
def advance (lower : String → String) (c : AccountCall) (id : Uuid)
    (hash : Except AuthError String) (now : OffsetDateTime) (s : OperatorStore) :
    OperatorStore × AccountPhase :=
  match c.phase with
  | .arrived =>
    match c.checked lower with
    | .error e => (s, .answered (.error (.auth e)))
    | .ok (username, role) =>
      if (s.getUser username).isSome then
        (s, .answered (.error (.auth { kind := .usernameTaken, message := "username taken" })))
      else (s, .unclaimed username role)
  | .unclaimed username requested =>
    (s, .chosen username (if s.userCount = 0 then .superadmin else requested))
  | .chosen username role =>
    match hash with
    | .error e => (s, .answered (.error (.auth e)))
    | .ok hash =>
      match s.createUser id username hash role c.displayName now with
      | .error e => (s, .answered (.error (.store "failed to store user: " e)))
      | .ok s' => (s', .inserted username id)
  | .inserted username id =>
    if (s.getUserById id).isSome then (s, .stored username)
    else
      (s, .answered (.error
        (.store "failed to store user: " (.invalidManifest "created user not readable"))))
  | .stored username =>
    match s.getUser username with
    | some user => (s, .answered (.ok user))
    | none =>
      (s, .answered (.error (.auth { kind := .internal, message := "created user is unreadable" })))
  | .answered result => (s, .answered result)

end AccountCall

structure OperatorWorld where
  store : OperatorStore := {}
  calls : List AccountCall := []
  firstUsers : Nat := 0

inductive OperatorAction where
  | transact (op : OperatorOp)
  | createAccount (rawUsername password requestedRole displayName : String)
  | advance (i : Nat) (id : Uuid) (hash : Except AuthError String) (now : OffsetDateTime)

/-- A refused transaction leaves everything as it is. -/
def OperatorAction.serve (lower : String → String) (w : OperatorWorld) :
    OperatorAction → OperatorWorld
  | .transact op =>
    match op.apply w.store with
    | .ok s =>
      { w with
        store := s
        firstUsers := if op.isCreateFirstUser then w.firstUsers + 1 else w.firstUsers }
    | .error _ => w
  | .createAccount rawUsername password requestedRole displayName =>
    { w with calls := w.calls ++ [{ rawUsername, password, requestedRole, displayName }] }
  | .advance i id hash now =>
    match w.calls[i]? with
    | some call =>
      let (store, phase) := call.advance lower id hash now w.store
      { w with store, calls := w.calls.set i { call with phase } }
    | none => w

def OperatorStep (lower : String → String) (a : OperatorAction) (w w' : OperatorWorld) : Prop :=
  w' = a.serve lower w

namespace OperatorStore
variable (s : OperatorStore)

def Administered : Prop := ∃ u ∈ s.users, u.enabledSuperadmin = true

/-- A store with users can be administered and is set up. -/
structure Administrable : Prop where
  administered : u ∈ s.users → s.Administered
  complete : u ∈ s.users → s.setupComplete = some true

structure Keeps (s s' : OperatorStore) : Prop where
  administered : s.Administered → s'.Administered
  complete : s.setupComplete = some true → s'.setupComplete = some true
  administrable : s.Administrable → s'.Administrable

theorem Keeps.refl : Keeps s s := ⟨id, id, id⟩

theorem Keeps.of_users {s s' : OperatorStore} (ha : s.Administered → s'.Administered)
    (hc : s.setupComplete = some true → s'.setupComplete = some true)
    (hu : ∀ u' ∈ s'.users, ∃ u, u ∈ s.users) : Keeps s s' where
  administered := ha
  complete := hc
  administrable := by
    intro hs
    constructor
    · intro u' hu'
      obtain ⟨u, hm⟩ := hu u' hu'
      exact ha (hs.administered hm)
    · intro u' hu'
      obtain ⟨u, hm⟩ := hu u' hu'
      exact hc (hs.complete hm)

section
variable {s s' : OperatorStore} {p : DbUser → Bool} {f : DbUser → DbUser}
  (hu : s'.users.rows = s.users.rows.map fun u => if p u then f u else u)
include hu

theorem Keeps.of_modify (ha : s.Administered → ∃ u ∈ s.users, u.enabledSuperadmin = true ∧
      (p u = true → (f u).enabledSuperadmin = true)) (hc : s'.setupComplete = s.setupComplete) :
    Keeps s s' := by
  apply Keeps.of_users
  · intro hs
    obtain ⟨u, hm, hs, hf⟩ := ha hs
    cases hp : p u with
    | true => exact ⟨f u, mem_of_update_true hu hm hp, hf hp⟩
    | false => exact ⟨u, mem_of_update_false hu hm hp, hs⟩
  · rw [hc]
    exact id
  · intro u' hu'
    rw [mem_def, hu] at hu'
    obtain ⟨u, hm, -⟩ := List.mem_map.1 hu'
    exact ⟨u, hm⟩

theorem Keeps.of_plain
    (hf : ∀ u : DbUser, u.enabledSuperadmin = true → (f u).enabledSuperadmin = true)
    (hc : s'.setupComplete = s.setupComplete) : Keeps s s' := by
  refine Keeps.of_modify hu ?_ hc
  intro hs
  obtain ⟨u, hu, ha⟩ := hs
  exact ⟨u, hu, ha, fun _ => hf u ha⟩

end

theorem Keeps.of_eq {s s' : OperatorStore} (hu : s'.users = s.users)
    (hc : s'.setupComplete = s.setupComplete) : Keeps s s' := by
  apply Keeps.of_users
  · intro hs
    obtain ⟨u, hm, hs⟩ := hs
    exact ⟨u, hu ▸ hm, hs⟩
  · rw [hc]
    exact id
  · intro u' hu'
    rw [hu] at hu'
    exact ⟨u', hu'⟩

theorem openStore_keeps : Keeps s s.openStore := by
  apply Keeps.of_users
  · exact id
  · intro h
    simp [openStore, h]
  · intro u hu
    exact ⟨u, hu⟩

theorem insertUser_ok {s : OperatorStore} (h : s.insertUser u = .ok s') :
    s' = { s with users := s.users.insertOrIgnore u } ∧ s.users.get? u.id = none := by
  obtain ⟨_, he, h⟩ := bind_ok.1 h
  cases h
  apply And.intro rfl
  apply get?_eq_none.2
  intro v hv hk
  have hn := any_eq_false.1 (Bool.not_eq_true' _ ▸ ensure_ok.1 he) v hv
  rw [Bool.or_eq_false_iff] at hn
  exact of_decide_eq_false hn.1 hk

theorem Keeps.of_insert {s s' : OperatorStore} (h : s.insertUser u = .ok t)
    (hs : s' = { t with setupComplete := some true })
    (hu : s.users.rows = [] → u.enabledSuperadmin = true) : Keeps s s' := by
  obtain ⟨rfl, hn⟩ := insertUser_ok h
  subst hs
  have hk : ∀ v ∈ s.users, v ∈ s.users.insertOrIgnore u := by
    intro v hv
    exact mem_insertOrIgnore.2 (.inl hv)
  have hm : s.Administered → ∃ v ∈ s.users.insertOrIgnore u, v.enabledSuperadmin = true := by
    intro hs
    obtain ⟨v, hv, hs⟩ := hs
    exact ⟨v, hk v hv, hs⟩
  refine ⟨hm, fun _ => rfl, ?_⟩
  intro hs
  refine ⟨fun _ => ?_, fun _ => rfl⟩
  by_cases he : s.users.rows = []
  · exact ⟨u, mem_insertOrIgnore.2 (.inr ⟨rfl, hn⟩), hu he⟩
  · obtain ⟨v, hv⟩ := List.exists_mem_of_ne_nil _ he
    exact hm (hs.administered hv)

theorem createUser_keeps {s : OperatorStore}
    (h : s.createUser i username passwordHash role displayName now = .ok s') : Keeps s s' := by
  obtain ⟨t, ht, h⟩ := bind_ok.1 h
  cases h
  apply Keeps.of_insert ht rfl
  intro he
  simp [DbUser.enabledSuperadmin, he]

section
variable {s : OperatorStore}
  (h : s.createFirstUser i username passwordHash displayName now = .ok s')
include h

theorem createFirstUser_keeps : Keeps s s' := by
  obtain ⟨-, -, h⟩ := bind_ok.1 h
  obtain ⟨t, ht, h⟩ := bind_ok.1 h
  cases h
  exact Keeps.of_insert ht rfl fun _ => rfl

theorem createFirstUser_complete : s.setupComplete ≠ some true ∧ s'.setupComplete = some true := by
  obtain ⟨_, he, h⟩ := bind_ok.1 h
  obtain ⟨t, -, h⟩ := bind_ok.1 h
  cases h
  refine ⟨fun hc => ?_, rfl⟩
  have hr := of_decide_eq_true (ensure_ok.1 he)
  simp [setupRequired, hc] at hr

end

theorem Administered.spared {s : OperatorStore} (hs : s.Administered)
    (h : (s.getUserById i).any DbUser.enabledSuperadmin = true → 1 < s.enabledSuperadminCount) :
    ∃ u ∈ s.users, u.enabledSuperadmin = true ∧ u.id ≠ i := by
  obtain ⟨u, hu, ha⟩ := hs
  by_cases hi : u.id = i
  · have hg : s.getUserById i = some u := get?_eq_some.2 ⟨hu, hi⟩
    rw [hg] at h
    exact exists_other (h ha) i
  · exact ⟨u, hu, ha, hi⟩

theorem deleteUser_keeps {s : OperatorStore} (h : s.deleteUser i = .ok s') : Keeps s s' := by
  obtain ⟨_, he, h⟩ := bind_ok.1 h
  cases h
  apply Keeps.of_users
  · intro hs
    have hc : (s.getUserById i).any DbUser.enabledSuperadmin = true →
        1 < s.enabledSuperadminCount := by
      intro ha
      obtain ⟨u, hu, ha⟩ := (Option.any_eq_true _ _).1 ha
      have hr := (Bool.and_eq_true_iff.1 ha).1
      have hg := ensure_ok.1 he
      rw [hu, Option.any_some, hr] at hg
      exact of_decide_eq_true hg
    obtain ⟨u, hu, ha, hi⟩ := hs.spared hc
    exact ⟨u, mem_delete.2 ⟨hu, decide_eq_false hi⟩, ha⟩
  · exact fun hc => hc
  · intro u hu
    exact ⟨u, (mem_delete.1 hu).1⟩

theorem setUserDisabled_keeps {s : OperatorStore} (h : s.setUserDisabled i disabled now = .ok s') :
    Keeps s s' := by
  obtain ⟨_, he, h⟩ := bind_ok.1 h
  cases h
  refine Keeps.of_modify rfl ?_ rfl
  intro hs
  cases disabled with
  | false =>
    obtain ⟨u, hu, ha⟩ := hs
    have hr := (Bool.and_eq_true_iff.1 ha).1
    exact ⟨u, hu, ha, fun _ => Bool.and_eq_true_iff.2 ⟨hr, rfl⟩⟩
  | true =>
    have hc : (s.getUserById i).any DbUser.enabledSuperadmin = true →
        1 < s.enabledSuperadminCount := by
      intro ha
      have hg := ensure_ok.1 he
      rw [ha] at hg
      exact of_decide_eq_true hg
    obtain ⟨u, hu, ha, hi⟩ := hs.spared hc
    exact ⟨u, hu, ha, fun hp => absurd (of_decide_eq_true hp) hi⟩

theorem updateUserProfile_keeps (i : Uuid) (displayName : String)
    (passwordHash : Option String) (now : OffsetDateTime) :
    Keeps s (s.updateUserProfile i displayName passwordHash now) := by
  cases passwordHash with
  | some passwordHash => exact Keeps.of_plain rfl (fun _ ha => ha) rfl
  | none => exact Keeps.of_plain rfl (fun _ ha => ha) rfl

end OperatorStore

open OperatorStore

theorem OperatorOp.keeps {op : OperatorOp} (h : op.apply s = .ok s') : Keeps s s' := by
  cases op with
  | openStore =>
    cases h
    exact openStore_keeps s
  | createUser => exact createUser_keeps h
  | createFirstUser => exact createFirstUser_keeps h
  | deleteUser => exact deleteUser_keeps h
  | setUserDisabled => exact setUserDisabled_keeps h
  | setUserPassword =>
    cases h
    exact Keeps.of_plain rfl (fun _ ha => ha) rfl
  | updateUserProfile =>
    cases h
    exact updateUserProfile_keeps s _ _ _ _
  | insertSession =>
    obtain ⟨_, _, h⟩ := bind_ok.1 h
    cases h
    exact Keeps.of_eq rfl rfl
  | revokeSession =>
    cases h
    exact Keeps.of_eq rfl rfl
  | revokeUserSessions =>
    cases h
    exact Keeps.of_eq rfl rfl
  | sweepSessions =>
    cases h
    exact Keeps.of_eq rfl rfl

theorem OperatorOp.first_complete {op : OperatorOp} (ho : op.isCreateFirstUser = true)
    (h : op.apply s = .ok s') : s.setupComplete ≠ some true ∧ s'.setupComplete = some true := by
  cases op with
  | createFirstUser => exact createFirstUser_complete h
  | _ => cases ho

section
variable (lower : String → String) (c : AccountCall) (i : Uuid) (hash : Except AuthError String)
  (now : OffsetDateTime) (s : OperatorStore)
include lower c i hash now s

theorem AccountCall.advance_store : (c.advance lower i hash now s).1 = s ∨
      ∃ username passwordHash role, s.createUser i username passwordHash role c.displayName now =
        .ok (c.advance lower i hash now s).1 := by
  unfold AccountCall.advance
  split
  · split
    · exact .inl rfl
    · split
      · exact .inl rfl
      · exact .inl rfl
  · exact .inl rfl
  · split
    · exact .inl rfl
    · split
      · exact .inl rfl
      · rename_i hc
        exact .inr ⟨_, _, _, hc⟩
  · split
    · exact .inl rfl
    · exact .inl rfl
  · split
    · exact .inl rfl
    · exact .inl rfl
  · exact .inl rfl

theorem AccountCall.advance_keeps : Keeps s (c.advance lower i hash now s).1 := by
  rcases c.advance_store lower i hash now s with h | ⟨username, passwordHash, role, h⟩
  · rw [h]
    exact Keeps.refl s
  · exact createUser_keeps h

end

namespace OperatorWorld

/-- The first user was created at most once, and then the setup is closed. -/
def SetUpOnce (w : OperatorWorld) : Prop :=
  w.firstUsers = 0 ∨ w.firstUsers = 1 ∧ w.store.setupComplete = some true

theorem SetUpOnce.keeps {w w' : OperatorWorld} (h : w.SetUpOnce) (hk : Keeps w.store w'.store)
    (hf : w'.firstUsers = w.firstUsers) : w'.SetUpOnce := by
  rcases h with h | ⟨h, hc⟩
  · exact .inl (hf.trans h)
  · exact .inr ⟨hf.trans h, hk.complete hc⟩

theorem SetUpOnce.first {w w' : OperatorWorld} (h : w.SetUpOnce)
    (ho : w.store.setupComplete ≠ some true) (hc : w'.store.setupComplete = some true)
    (hf : w'.firstUsers = w.firstUsers + 1) : w'.SetUpOnce := by
  rcases h with h | ⟨-, h⟩
  · exact .inr ⟨by rw [hf, h], hc⟩
  · exact absurd h ho

end OperatorWorld

theorem OperatorStep.keeps (h : OperatorStep lower a w w') : Keeps w.store w'.store := by
  subst h
  cases a with
  | transact op =>
    simp only [OperatorAction.serve]
    split
    · rename_i s hs
      exact OperatorOp.keeps hs
    · exact Keeps.refl _
  | createAccount => exact Keeps.refl _
  | advance i id hash now =>
    simp only [OperatorAction.serve]
    split
    · exact AccountCall.advance_keeps lower _ id hash now w.store
    · exact Keeps.refl _

theorem OperatorStep.setUpOnce (hw : w.SetUpOnce) (h : OperatorStep lower a w w') :
    w'.SetUpOnce := by
  have hk := h.keeps
  subst h
  cases a with
  | transact op =>
    cases hs : op.apply w.store with
    | error e =>
      rw [OperatorAction.serve, hs]
      exact hw
    | ok s =>
      rw [OperatorAction.serve, hs] at hk ⊢
      cases ho : op.isCreateFirstUser with
      | true =>
        obtain ⟨hn, hc⟩ := OperatorOp.first_complete ho hs
        exact hw.first hn hc rfl
      | false =>
        rw [ho] at hk
        exact hw.keeps hk rfl
  | createAccount => exact hw.keeps hk rfl
  | advance i id hash now =>
    simp only [OperatorAction.serve] at hk ⊢
    split
    · rename_i call hc
      rw [hc] at hk
      exact hw.keeps hk rfl
    · exact hw

def EmptyOperators (w : OperatorWorld) : Prop := w = {}

theorem administrable_of_run (hr : Run EmptyOperators (OperatorStep lower) past w) :
    w.store.Administrable := by
  refine Run.invariant (I := fun w => w.store.Administrable) ?_ ?_ hr
  · intro w h
    subst h
    exact ⟨fun h => absurd h (not_mem_empty _), fun h => absurd h (not_mem_empty _)⟩
  · intro a w w' hw h
    exact h.keeps.administrable hw

theorem setUpOnce_of_run (hr : Run EmptyOperators (OperatorStep lower) past w) : w.SetUpOnce := by
  refine Run.invariant (I := fun w => w.SetUpOnce) ?_ ?_ hr
  · intro w h
    subst h
    exact .inl rfl
  · intro a w w' hw h
    exact h.setUpOnce hw

theorem later_of_run {I : OperatorStore → Prop} (hI : ∀ s s', Keeps s s' → I s → I s')
    (hr : Run EmptyOperators (OperatorStep lower) past w) :
    ∀ t ∈ w :: past, I t.store → I w.store := by
  refine Run.history_invariant (I := fun past w => ∀ t ∈ w :: past, I t.store → I w.store) ?_ ?_ hr
  · intro w _ t ht h
    rwa [List.mem_singleton.1 ht] at h
  · intro past a w w' ih hs t ht h
    rcases List.mem_cons.1 ht with rfl | ht
    · exact h
    · exact hI _ _ hs.keeps (ih t ht h)

theorem OperatorStore.Administrable.complete_of_required {s : OperatorStore}
    (hs : s.Administrable) (h : s.setupRequired = some false) : s.setupComplete = some true := by
  cases hc : s.setupComplete with
  | none => simp [setupRequired, hc] at h
  | some complete =>
    cases complete with
    | true => rfl
    | false =>
      have he : s.users.rows ≠ [] := by
        intro he
        simp [setupRequired, hc, he] at h
      obtain ⟨u, hu⟩ := List.exists_mem_of_ne_nil _ he
      rw [hs.complete hu] at hc
      cases hc

/-- Somebody can administer the store from the first user on, who is set up at most once. -/
theorem always_administrable (lower : String → String)
    (hr : Run EmptyOperators (OperatorStep lower) past w) :
    (∀ t ∈ w :: past, ∀ u ∈ t.store.users,
      ∃ v ∈ w.store.users, v.role = .superadmin ∧ v.disabled = false) ∧
    w.firstUsers ≤ 1 ∧
    ∀ t ∈ w :: past, t.store.setupRequired = some false → w.store.setupRequired = some false := by
  refine ⟨?_, ?_, ?_⟩
  · intro t ht u hu
    obtain ⟨earlier, he, -⟩ := hr.of_mem ht
    have ha := (administrable_of_run he).administered hu
    obtain ⟨v, hv, hs⟩ := later_of_run (fun _ _ hk => hk.administered) hr t ht ha
    obtain ⟨hrole, hd⟩ := Bool.and_eq_true_iff.1 hs
    exact ⟨v, hv, of_decide_eq_true hrole, Bool.not_eq_true' _ ▸ hd⟩
  · rcases setUpOnce_of_run hr with h | ⟨h, -⟩
    · exact h ▸ Nat.zero_le 1
    · exact h ▸ Nat.le_refl 1
  · intro t ht h
    obtain ⟨earlier, he, -⟩ := hr.of_mem ht
    have hc := (administrable_of_run he).complete_of_required h
    have hw := later_of_run (I := fun s => s.setupComplete = some true)
      (fun _ _ hk => hk.complete) hr t ht hc
    simp [setupRequired, hw]

def firstOperator : OperatorWorld :=
  OperatorAction.serve id (OperatorAction.serve id {} (.transact .openStore))
    (.transact (.createFirstUser ⟨1⟩ "root" "$argon2id$" "Root" default))

theorem first_operator_administers :
    ∃ v ∈ firstOperator.store.users, v.role = .superadmin ∧ v.disabled = false := by
  have hr : Run EmptyOperators (OperatorStep id)
      [OperatorAction.serve id {} (.transact .openStore), {}] firstOperator :=
    .step (.step (.init rfl) rfl) rfl
  exact (always_administrable id hr).1 firstOperator List.mem_cons_self
    { id := ⟨1⟩, username := "root", passwordHash := "$argon2id$", role := .superadmin
      displayName := "Root", createdAt := default, updatedAt := default } List.mem_cons_self

end TelegramS3
