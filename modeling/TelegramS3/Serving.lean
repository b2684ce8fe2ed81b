import TelegramS3.Moves
import TelegramS3.Ranges
import TelegramS3.Reading

namespace TelegramS3
open Relational Fallible Transition MetadataStore
set_option autoImplicit true

structure ReadConditions where
  ifMatch : Option ETagCondition := none
  ifNoneMatch : Option ETagCondition := none
  ifModifiedSince : Option OffsetDateTime := none
  ifUnmodifiedSince : Option OffsetDateTime := none

/-- A condition on the tag decides alone. -/
def enforceConditionals (label : String) (unchanged : String → S3Error) (c : ReadConditions)
    (m : ObjectManifest) : Except S3Error Unit :=
  match c.ifMatch with
  | some condition => ensure (etagConditionMatches condition m.checksum.wholeObject)
      (.s3 .preconditionFailed (label ++ "if-match precondition failed"))
  | none => do
    ensure (c.ifUnmodifiedSince.all fun t => m.createdAt.ble t)
      (.s3 .preconditionFailed (label ++ "if-unmodified-since precondition failed"))
    ensure (c.ifNoneMatch.all fun condition =>
      !etagConditionMatches condition m.checksum.wholeObject) (unchanged "if-none-match")
    ensure (c.ifModifiedSince.all fun t => !m.createdAt.ble t) (unchanged "if-modified-since")

def enforceReadConditionals : ReadConditions → ObjectManifest → Except S3Error Unit :=
  enforceConditionals "" fun _ => .s3 .notModified "object not modified"

def enforceCopySourceConditionals : ReadConditions → ObjectManifest → Except S3Error Unit :=
  enforceConditionals "copy-source " fun name =>
    .s3 .preconditionFailed ("copy-source " ++ name ++ " precondition failed")

structure ObjectSource where
  bucket : String
  key : String
  versionId : Option String := none

structure ShareLinkRecord where
  objectId : Uuid
  bucket : String
  key : String
  expiresAt : Option Int
  revokedAt : Option Int

/-- What the readers take from outside: the parser of ids, and the share links by their tokens. -/
structure ReadServer where
  parseUuid : String → Except String Uuid
  getShareLink : String → Option ShareLinkRecord

/-- A manifest a reader goes on to send, when it was looked up, and what of it. -/
structure Served where
  manifest : ObjectManifest
  resolvedAt : OffsetDateTime
  plan : ReadPlan

namespace ReadServer
variable (server : ReadServer) (s : MetadataStore)

/-- The version is looked up by its id, in any state. -/
def getManifestByVersion (bucket key versionId : String)
    (now : OffsetDateTime) : Except ObjectFormatError (Option ObjectManifest) :=
  match server.parseUuid versionId with
  | .error e => .error (.invalidPlan e)
  | .ok objectId =>
    match s.getManifest objectId with
    | .error e => .error (.metadata e)
    | .ok found =>
      .ok (found.filter fun m => m.bucket = bucket && m.key = key && !m.isExpired now)

def resolveManifest (source : ObjectSource) (now : OffsetDateTime) :
    Except ObjectFormatError (Option ObjectManifest) :=
  match source.versionId with
  | some versionId => server.getManifestByVersion s source.bucket source.key versionId now
  | none => ObjectFormat.getActiveManifest s source.bucket source.key now

def requireManifest (source : ObjectSource) (missing : String)
    (now : OffsetDateTime) : Except S3Error ObjectManifest := do
  match ← (server.resolveManifest s source now).mapError .object with
  | none => throw (.s3 .noSuchKey missing)
  | some m => return m

def getObject (source : ObjectSource) (conditions : ReadConditions)
    (header : Option (List Char)) (now : OffsetDateTime) : Except S3Error Served := do
  let m ← server.requireManifest s source "object does not exist" now
  ensure (m.commitState = .committed) (.s3 .noSuchKey "object does not exist")
  enforceReadConditionals conditions m
  let range ← objectRange header m.contentLength
  let plan ← (planRead m range.1.start range.1.stop).mapError .object
  return { manifest := m, resolvedAt := now, plan }

def copyObject (source : ObjectSource) (conditions : ReadConditions)
    (now : OffsetDateTime) : Except S3Error Served := do
  let m ← server.requireManifest s source "source object does not exist" now
  enforceCopySourceConditionals conditions m
  let plan ← (planRead m 0 m.contentLength).mapError .object
  return { manifest := m, resolvedAt := now, plan }

def partCopySource (source : ObjectSource) (conditions : ReadConditions)
    (range : Option (List Char)) (now : OffsetDateTime) :
    Except S3Error (ObjectManifest × ByteRange) := do
  let m ← server.requireManifest s source "source object does not exist" now
  enforceCopySourceConditionals conditions m
  match range with
  | some value =>
    let range ← parseByteRange value m.contentLength
    return (m, range)
  | none => return (m, ⟨0, m.contentLength⟩)

/-- The manifest `read_range_to_writer` reads; the key is looked up again. -/
def readRangeSource (bucket key : String) (range : ByteRange)
    (now : OffsetDateTime) : Except ObjectFormatError Served := do
  let missing : ObjectFormatError := .invalidRead ("object not found: " ++ bucket ++ "/" ++ key)
  match ← (s.getActiveManifest bucket key).mapError .metadata with
  | none => throw missing
  | some m =>
    ensure (m.commitState = .committed)
      (.invalidRead ("object is not committed: " ++ bucket ++ "/" ++ key))
    ensure (!m.isExpired now) missing
    let plan ← planRead m range.start range.stop
    return { manifest := m, resolvedAt := now, plan }

/-- The two look-ups of a copy into a part, each in a state of the store of its own. -/
def uploadPartCopy (s s' : MetadataStore) (source : ObjectSource) (conditions : ReadConditions)
    (range : Option (List Char)) (now now' : OffsetDateTime) : Except S3Error Served := do
  let (m, range) ← server.partCopySource s source conditions range now
  (readRangeSource s' m.bucket m.key range now').mapError .object

def handleContent (bucket key : String) (header : Option (List Char))
    (now : OffsetDateTime) : Except AdminError Served := do
  ensure (!bucket.isEmpty) (.status 400 "bucket is required")
  ensure (!key.isEmpty) (.status 400 "key is required")
  ensure (isSafeObjectKey key) (.status 400 "key must be a non-empty, relative, plain file path")
  match ← (ObjectFormat.getActiveManifest s bucket key now).mapError .internal with
  | none => throw (.status 404 "object not found")
  | some m =>
    ensure (m.commitState = .committed) (.status 404 "object not found")
    let range ← (parseContentRange header m.contentLength).mapError fun _ =>
      .status 416 "range not satisfiable"
    let plan ← (planRead m range.1.start range.1.stop).mapError fun _ =>
      .status 416 "range not satisfiable"
    return { manifest := m, resolvedAt := now, plan }

def sharedManifest (link : ShareLinkRecord) (now : OffsetDateTime) :
    Except AdminError ObjectManifest := do
  ensure (!(link.revokedAt.isSome || link.expiresAt.any fun t => t ≤ now.unixTimestamp))
    (.status 404 "not found\n")
  match s.getManifest link.objectId with
  | .error _ => throw (.status 500 "internal server error\n")
  | .ok none => throw (.status 404 "not found\n")
  | .ok (some m) =>
    ensure (m.commitState = .committed && m.bucket = link.bucket && m.key = link.key &&
      !m.isExpired now) (.status 404 "not found\n")
    return m

def handleShareRequest (token : String) (header : Option (List Char))
    (now : OffsetDateTime) : Except AdminError Served := do
  match server.getShareLink token with
  | none => throw (.status 404 "not found\n")
  | some link =>
    let m ← sharedManifest s link now
    let range ← (objectRange header m.contentLength).mapError fun _ =>
      .status 416 "range not satisfiable\n"
    let plan ← (planRead m range.1.start range.1.stop).mapError fun _ =>
      .status 416 "range not satisfiable\n"
    return { manifest := m, resolvedAt := now, plan }

end ReadServer

inductive ReadRequest where
  | getObject (source : ObjectSource) (conditions : ReadConditions) (header : Option (List Char))
  | copyObject (source : ObjectSource) (conditions : ReadConditions)
  | uploadPartCopy (source : ObjectSource) (conditions : ReadConditions)
    (range : Option (List Char))
  | adminDownload (bucket key : String) (header : Option (List Char))
  | publicShare (token : String) (header : Option (List Char))

/-- Where a request is answered: the store and the time at its first look-up, and those at the
second one. -/
structure ReadMoment where
  store : MetadataStore
  now : OffsetDateTime
  laterStore : MetadataStore
  later : OffsetDateTime

/-- The source a request is served from, when it is. -/
def ReadServer.serve (server : ReadServer) (t : ReadMoment) : ReadRequest → Option Served
  | .getObject source conditions header =>
    after (server.getObject t.store source conditions header t.now)
  | .copyObject source conditions => after (server.copyObject t.store source conditions t.now)
  | .uploadPartCopy source conditions range =>
    after (server.uploadPartCopy t.store t.laterStore source conditions range t.now t.later)
  | .adminDownload bucket key header =>
    after (ReadServer.handleContent t.store bucket key header t.now)
  | .publicShare token header => after (server.handleShareRequest t.store token header t.now)

/-- The manifest was there to be read when it was looked up. -/
structure Served.Readable (v : Served) : Prop where
  committed : v.manifest.commitState = .committed
  unexpired : v.manifest.isExpired v.resolvedAt = false

/-- The source of a copy that goes through is committed. -/
def ReadServer.CopiesCommitted (server : ReadServer) (t : ReadMoment) : ReadRequest → Prop
  | .copyObject source conditions => ∀ m,
      server.resolveManifest t.store source t.now = .ok (some m) →
      enforceCopySourceConditionals conditions m = .ok () →
        (planRead m 0 m.contentLength).isOk = true → m.commitState = .committed
  | _ => True

namespace ReadServer
variable {server : ReadServer} {s s' : MetadataStore}

theorem getActiveManifest_unexpired
    (h : ObjectFormat.getActiveManifest s bucket key now = .ok (some m)) :
    m.isExpired now = false := by
  unfold ObjectFormat.getActiveManifest at h
  split at h
  · cases h
  · split at h
    · cases h
    · rename_i hf
      split at h
      · cases h
      · cases h
        simpa using (Option.filter_eq_some_iff.1 hf).2

theorem getManifestByVersion_unexpired
    (h : server.getManifestByVersion s bucket key versionId now = .ok (some m)) :
    m.isExpired now = false := by
  unfold getManifestByVersion at h
  split at h
  · cases h
  · split at h
    · cases h
    · rename_i found _
      obtain ⟨-, hp⟩ := Option.filter_eq_some_iff.1 (Except.ok.inj h)
      simp only [Bool.and_eq_true] at hp
      simpa using hp.2

theorem resolveManifest_unexpired (h : server.resolveManifest s source now = .ok (some m)) :
    m.isExpired now = false := by
  unfold resolveManifest at h
  split at h
  · exact getManifestByVersion_unexpired h
  · exact getActiveManifest_unexpired h

theorem requireManifest_ok : server.requireManifest s source missing now = .ok m ↔
      server.resolveManifest s source now = .ok (some m) := by
  unfold requireManifest
  cases hr : server.resolveManifest s source now with
  | error e =>
    constructor
    · intro h
      cases h
    · intro h
      cases h
  | ok found =>
    cases found with
    | none =>
      constructor
      · intro h
        cases h
      · intro h
        cases h
    | some m' =>
      constructor
      · intro h
        cases h
        rfl
      · intro h
        cases h
        rfl

theorem getObject_readable (h : server.getObject s source conditions header now = .ok v) :
    v.Readable := by
  obtain ⟨m, hm, h⟩ := bind_ok.1 h
  obtain ⟨_, hc, h⟩ := bind_ok.1 h
  obtain ⟨_, -, h⟩ := bind_ok.1 h
  obtain ⟨range, -, h⟩ := bind_ok.1 h
  obtain ⟨plan, -, h⟩ := bind_ok.1 h
  cases h
  exact ⟨of_decide_eq_true (ensure_ok.1 hc), resolveManifest_unexpired (requireManifest_ok.1 hm)⟩

theorem readRangeSource_readable (h : readRangeSource s bucket key range now = .ok v) :
    v.Readable := by
  obtain ⟨found, -, h⟩ := bind_ok.1 h
  cases found with
  | none => cases h
  | some m =>
    obtain ⟨_, hc, h⟩ := bind_ok.1 h
    obtain ⟨_, he, h⟩ := bind_ok.1 h
    obtain ⟨plan, -, h⟩ := bind_ok.1 h
    cases h
    exact ⟨of_decide_eq_true (ensure_ok.1 hc), by simpa using ensure_ok.1 he⟩

theorem uploadPartCopy_readable
    (h : server.uploadPartCopy s s' source conditions range now now' = .ok v) : v.Readable := by
  obtain ⟨⟨m, r⟩, -, h⟩ := bind_ok.1 h
  exact readRangeSource_readable (mapError_ok.1 h)

theorem handleContent_readable (h : handleContent s bucket key header now = .ok v) :
    v.Readable := by
  obtain ⟨_, -, h⟩ := bind_ok.1 h
  obtain ⟨_, -, h⟩ := bind_ok.1 h
  obtain ⟨_, -, h⟩ := bind_ok.1 h
  obtain ⟨found, hf, h⟩ := bind_ok.1 h
  cases found with
  | none => cases h
  | some m =>
    obtain ⟨_, hc, h⟩ := bind_ok.1 h
    obtain ⟨range, -, h⟩ := bind_ok.1 h
    obtain ⟨plan, -, h⟩ := bind_ok.1 h
    cases h
    exact ⟨of_decide_eq_true (ensure_ok.1 hc), getActiveManifest_unexpired (mapError_ok.1 hf)⟩

theorem sharedManifest_readable (h : sharedManifest s link now = .ok m) :
    m.commitState = .committed ∧ m.isExpired now = false := by
  obtain ⟨_, -, h⟩ := bind_ok.1 h
  split at h
  · cases h
  · cases h
  · obtain ⟨_, hp, h⟩ := bind_ok.1 h
    cases h
    have hp := ensure_ok.1 hp
    simp only [Bool.and_eq_true, decide_eq_true_eq] at hp
    exact ⟨hp.1.1.1, by simpa using hp.2⟩

theorem handleShareRequest_readable (h : server.handleShareRequest s token header now = .ok v) :
    v.Readable := by
  unfold handleShareRequest at h
  split at h
  · cases h
  · obtain ⟨m, hm, h⟩ := bind_ok.1 h
    obtain ⟨range, -, h⟩ := bind_ok.1 h
    obtain ⟨plan, -, h⟩ := bind_ok.1 h
    cases h
    obtain ⟨hc, he⟩ := sharedManifest_readable hm
    exact ⟨hc, he⟩

theorem copyObject_ok : server.copyObject s source conditions now = .ok v ↔
    ∃ m plan, server.resolveManifest s source now = .ok (some m) ∧
      enforceCopySourceConditionals conditions m = .ok () ∧
      planRead m 0 m.contentLength = .ok plan ∧
      v = { manifest := m, resolvedAt := now, plan } := by
  unfold copyObject
  simp only [bind_ok, requireManifest_ok, mapError_ok, pure_ok]
  constructor
  · rintro ⟨m, hm, u, hc, plan, hp, rfl⟩
    exact ⟨m, plan, hm, hc, hp, rfl⟩
  · rintro ⟨m, plan, hm, hc, hp, rfl⟩
    exact ⟨m, hm, (), hc, plan, hp, rfl⟩

end ReadServer

/-- Every reader but the copy serves committed, unexpired objects only; the copy needs a committed
one. -/
theorem served_readable_iff (server : ReadServer) (t : ReadMoment) (req : ReadRequest) :
    (∀ v, server.serve t req = some v → v.Readable) ↔ server.CopiesCommitted t req := by
  cases req with
  | getObject source conditions header =>
    exact ⟨fun _ => trivial, fun _ v h => ReadServer.getObject_readable (after_eq_some.1 h)⟩
  | uploadPartCopy source conditions range =>
    exact ⟨fun _ => trivial, fun _ v h => ReadServer.uploadPartCopy_readable (after_eq_some.1 h)⟩
  | adminDownload bucket key header =>
    exact ⟨fun _ => trivial, fun _ v h => ReadServer.handleContent_readable (after_eq_some.1 h)⟩
  | publicShare token header =>
    exact ⟨fun _ => trivial,
      fun _ v h => ReadServer.handleShareRequest_readable (after_eq_some.1 h)⟩
  | copyObject source conditions =>
    constructor
    · intro h m hm hc hp
      cases hplan : planRead m 0 m.contentLength with
      | error e =>
        rw [hplan] at hp
        cases hp
      | ok plan =>
        have hs := ReadServer.copyObject_ok.2 ⟨m, plan, hm, hc, hplan, rfl⟩
        exact (h _ (after_eq_some.2 hs)).committed
    · intro h v hv
      obtain ⟨m, plan, hm, hc, hp, rfl⟩ := ReadServer.copyObject_ok.1 (after_eq_some.1 hv)
      refine ⟨h m hm hc ?_, ReadServer.resolveManifest_unexpired hm⟩
      rw [hp]
      rfl

def deletedObject : List StoreOp :=
  uploadOps (emptyObject ⟨1⟩ "photos" "a") ⟨11⟩ 1 ++
    [.deleteActiveKey "photos" "a" "deleted" {} (instant 2)]

def deletedObjectRun : List MetadataStore × MetadataStore :=
  (exec (StoreOp.apply fun _ => none) [] photosStore deletedObject).get (by decide +kernel)

def versionServer : ReadServer where
  parseUuid _ := .ok ⟨1⟩
  getShareLink _ := none

/-- A copy that names the version of the deleted object is served from its tombstone. -/
theorem copy_serves_tombstone :
    Run NoObjects (StoreStep fun _ => none) deletedObjectRun.1 deletedObjectRun.2 ∧
      (versionServer.serve ⟨deletedObjectRun.2, instant 3, deletedObjectRun.2, instant 3⟩
        (.copyObject ⟨"photos", "a", some "1"⟩ {})).map (fun v => v.manifest.commitState) =
          some .tombstoned := by
  have hi : NoObjects photosStore := ⟨rfl, rfl, rfl⟩
  exact ⟨Run.of_exec_isSome hi (by decide +kernel), by decide +kernel⟩

def storedObject (objectId : Uuid) (checksum : String) (messageId : Int) : ObjectManifest :=
  { emptyObject objectId "photos" "a" with
    contentLength := 3
    checksum := { algorithm := "sha256", wholeObject := checksum }
    encryption := { enabled := true, format := "aes", keyId := some "k1" }
    chunks :=
      [{ order := 0, offset := 0, size := 3, checksum, telegramPeerId := "-1001"
         telegramMessageId := messageId, telegramDocumentId := none }] }

def storeObject (objectId lease attempt : Uuid) (checksum : String) (messageId : Int)
    (hour : Nat) : List StoreOp :=
  let now := (instant hour).unixTimestamp
  let m := storedObject objectId checksum messageId
  [.beginTransfer objectId "photos" "a" now, .stageManifest .put m (instant hour),
    .queueTransfer objectId 1 now, .claimTransfer now lease,
    .beginSendAttempt objectId lease 0 attempt now,
    .finishSendAttempt objectId lease 0 attempt
      { peerId := "-1001", messageId, documentId := none } now,
    .enterCommitting objectId lease now, .commitTransferManifest objectId lease m (instant hour)]

end TelegramS3
