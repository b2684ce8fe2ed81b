import TelegramS3.Table
import TelegramS3.Manifest

namespace TelegramS3
open Relational
set_option autoImplicit true

inductive MetadataError where
  | sqlite (constraint : String)
  | manifestNotFound (what : String)
  | journalNotFound (operation : String)
  | multipartSessionNotFound (upload : String)
  | invalidManifest (message : String)
  | preconditionFailed (message : String)
  | bucketNotFound (bucket : String)
  | bucketNotEmpty (bucket : String)
  | folderNotEmpty (folder : String)
  | connectionRemovalInProgress
  | quotaExceeded (message : String)
  deriving DecidableEq

inductive OperationKind where
  | put | delete | rebuild | repair | garbageCollect
  deriving DecidableEq

inductive TransferState where
  | receiving | queued | uploading | committing | retryWait | recoveryRequired
  | completed | cleaned | cancelled | receptionFailed | superseded
  deriving DecidableEq

def TransferState.terminal : TransferState → Bool
  | .completed | .cleaned | .cancelled | .receptionFailed | .superseded => true
  | _ => false

def TransferState.published : TransferState → Bool
  | .completed | .cleaned => true
  | _ => false

def TransferState.leased : TransferState → Bool
  | .uploading | .committing => true
  | _ => false

def TransferState.waiting : TransferState → Bool
  | .queued | .retryWait | .recoveryRequired => true
  | _ => false

inductive JournalState where
  | staging | committed | tombstoned | cancelled
  deriving DecidableEq

inductive MultipartState where
  | initiated | uploading | completing | completed | aborted | recoveryRequired | quarantined
  deriving DecidableEq

inductive AttemptState where
  | sending | unknown | checkpointed | retryable
  deriving DecidableEq

inductive TargetKind where
  | evidence | message
  deriving DecidableEq

inductive TargetState where
  | pending | retryWait | running | completed | recoveryRequired
  deriving DecidableEq

inductive RechunkState where
  | queued | processing | completed | failed
  deriving DecidableEq

inductive RemovalState where
  | pending | running | remoteCleanupPending | completed
  deriving DecidableEq

structure BucketRow where
  name : String
  connectionId : String := "legacy"
  createdAt : OffsetDateTime
  deletedAt : Option OffsetDateTime := none

structure JournalDetails where
  operationId : Uuid
  objectId : Uuid
  bucket : String
  objectKey : String
  operationKind : OperationKind
  state : JournalState
  reason : Option String

/-- `details` is the JSON column, which no statement rewrites after staging. -/
structure JournalRow where
  operationId : Uuid
  objectId : Uuid
  bucket : String
  objectKey : String
  operationKind : OperationKind
  state : JournalState
  details : JournalDetails
  error : Option String
  createdAt : OffsetDateTime
  updatedAt : OffsetDateTime

structure ManifestRow where
  objectId : Uuid
  connectionId : String
  bucket : String
  objectKey : String
  versionId : Option String
  commitState : CommitState
  manifest : ObjectManifest
  createdAt : OffsetDateTime
  committedAt : Option OffsetDateTime
  tombstonedAt : Option OffsetDateTime

structure ActiveRow where
  bucket : String
  objectKey : String
  objectId : Uuid
  updatedAt : OffsetDateTime

structure MultipartSession where
  uploadId : Uuid
  bucket : String
  key : String
  versionId : Option String
  contentType : String
  checksumAlgorithm : String
  expiresAt : Option OffsetDateTime
  state : MultipartState
  createdAt : OffsetDateTime
  updatedAt : OffsetDateTime

/-- `state` is the column of the row, `session.state` the one inside its JSON. -/
structure UploadRow where
  uploadId : Uuid
  connectionId : String
  bucket : String
  objectKey : String
  state : MultipartState
  session : MultipartSession
  createdAt : OffsetDateTime
  updatedAt : OffsetDateTime

structure MultipartPart where
  uploadId : Uuid
  partNumber : Nat
  size : Nat
  checksum : String
  eTag : String
  telegram : TelegramLocation
  manifest : Option ObjectManifest
  createdAt : OffsetDateTime

structure PartRow where
  uploadId : Uuid
  partNumber : Nat
  part : MultipartPart
  createdAt : OffsetDateTime

structure TransferWriteConditionals where
  ifMatch : Option String
  ifNoneMatch : Option String
  deriving DecidableEq

structure TransferJob where
  sequence : Nat
  id : Uuid
  objectId : Uuid
  connectionId : String
  operationId : Option Uuid := none
  bucket : String
  key : String
  state : TransferState := .receiving
  bytes : Nat := 0
  chunksDone : Nat := 0
  chunksTotal : Nat := 0
  attempts : Nat := 0
  nextRetry : Int := 0
  lease : Option Uuid := none
  leaseUntil : Int := 0
  writeConditionals : Option TransferWriteConditionals := none
  error : Option String := none
  createdAt : Int
  updatedAt : Int

structure TransferChunkRow where
  jobId : Uuid
  chunkOrder : Nat
  location : TelegramLocation

structure SendAttemptRow where
  jobId : Uuid
  chunkOrder : Nat
  attemptId : Uuid
  attemptToken : String
  state : AttemptState
  startedAt : Int
  finishedAt : Option Int := none
  location : Option TelegramLocation := none
  errorKind : Option String := none
  error : Option String := none
  retryable : Bool := false

structure MultipartJobRow where
  jobId : Uuid
  uploadId : Uuid
  partNumber : Nat
  expectedChecksum : Option String

structure CleanupTargetRow where
  id : Nat
  objectId : Uuid
  peerId : String
  messageId : Int
  connectionId : String
  kind : TargetKind
  dueAt : Int
  state : TargetState := .pending
  attempts : Nat := 0
  nextRetry : Int := 0
  lease : Option Uuid := none
  leaseUntil : Int := 0
  error : Option String := none
  evidenceLocation : Option TelegramLocation := none
  evidenceAttemptToken : Option String := none
  evidenceAttemptStartedAt : Option Int := none
  completed : Bool := false

structure AccountRow where
  id : String
  label : String
  quotaBytes : Option Nat := none
  downloadEnabled : Bool := true

structure ReplicaLocationRow where
  objectId : Uuid
  chunkOrder : Nat
  accountId : String
  mode : ReplicaMode
  peerId : String
  messageId : Int
  documentId : Option String

structure RechunkJobRow where
  id : Uuid
  bucket : String
  key : String
  objectId : Uuid
  sourceAccountId : String
  newChunkSize : Nat
  state : RechunkState := .queued
  error : Option String := none
  createdAt : Int
  updatedAt : Int

structure RechunkLockRow where
  objectId : Uuid
  jobId : Uuid
  createdAt : Int

structure ConnectionRemovalJob where
  id : Uuid
  connectionId : String
  deleteUploadedFiles : Bool
  state : RemovalState
  objectCount : Nat
  requestedAt : Int
  updatedAt : Int

structure RemovalObjectRow where
  jobId : Uuid
  objectId : Uuid

instance : Keyed BucketRow String := ⟨BucketRow.name⟩
instance : Keyed JournalRow Uuid := ⟨JournalRow.operationId⟩
instance : Keyed ManifestRow Uuid := ⟨ManifestRow.objectId⟩
instance : Keyed ActiveRow (String × String) := ⟨fun r => (r.bucket, r.objectKey)⟩
instance : Keyed UploadRow Uuid := ⟨UploadRow.uploadId⟩
instance : Keyed PartRow (Uuid × Nat) := ⟨fun r => (r.uploadId, r.partNumber)⟩
instance : Keyed TransferJob Uuid := ⟨TransferJob.id⟩
instance : Keyed TransferChunkRow (Uuid × Nat) := ⟨fun r => (r.jobId, r.chunkOrder)⟩
instance : Keyed SendAttemptRow (Uuid × Nat × Uuid) :=
  ⟨fun r => (r.jobId, r.chunkOrder, r.attemptId)⟩
instance : Keyed MultipartJobRow Uuid := ⟨MultipartJobRow.jobId⟩
instance : Keyed CleanupTargetRow (String × Int) := ⟨fun r => (r.peerId, r.messageId)⟩
instance : Keyed AccountRow String := ⟨AccountRow.id⟩
instance : Keyed ReplicaLocationRow (Uuid × Nat × String) :=
  ⟨fun r => (r.objectId, r.chunkOrder, r.accountId)⟩
instance : Keyed RechunkJobRow Uuid := ⟨RechunkJobRow.id⟩
instance : Keyed RechunkLockRow Uuid := ⟨RechunkLockRow.objectId⟩
instance : Keyed ConnectionRemovalJob Uuid := ⟨ConnectionRemovalJob.id⟩
instance : Keyed RemovalObjectRow (Uuid × Uuid) := ⟨fun r => (r.jobId, r.objectId)⟩

/-- The cleanup targets with the last row id handed out. -/
structure CleanupOutbox where
  targets : Table CleanupTargetRow := ∅
  sequence : Nat := 0

/-- The tables of the metadata database and the settings its methods read. -/
structure MetadataStore where
  activeConnectionSetting : Option String := none
  cleanupRetentionSetting : Option Int := none
  storageChatSetting : Option String := none
  buckets : Table BucketRow := ∅
  operationJournal : Table JournalRow := ∅
  objectManifests : Table ManifestRow := ∅
  activeObjects : Table ActiveRow := ∅
  multipartUploads : Table UploadRow := ∅
  multipartParts : Table PartRow := ∅
  transferJobs : Table TransferJob := ∅
  transferSequence : Nat := 0
  transferChunks : Table TransferChunkRow := ∅
  sendAttempts : Table SendAttemptRow := ∅
  multipartJobs : Table MultipartJobRow := ∅
  outbox : CleanupOutbox := {}
  telegramAccounts : Table AccountRow := ∅
  replicaLocations : Table ReplicaLocationRow := ∅
  rechunkJobs : Table RechunkJobRow := ∅
  rechunkLocks : Table RechunkLockRow := ∅
  connectionRemovalJobs : Table ConnectionRemovalJob := ∅
  connectionRemovalObjects : Table RemovalObjectRow := ∅

namespace MetadataStore
variable (s : MetadataStore)

/-- `COALESCE((SELECT value … 'telegram_active_connection_id'), 'legacy')`. -/
def activeConnectionId : String := s.activeConnectionSetting.getD "legacy"

def defaultCleanupRetentionSecs : Int := 12 * 60 * 60

def cleanupRetentionSecs : Int :=
  s.cleanupRetentionSetting.getD defaultCleanupRetentionSecs

def loadManifestByObjectId (objectId : Uuid) :
    Except MetadataError (Option ObjectManifest) :=
  match s.objectManifests.get? objectId with
  | none => .ok none
  | some row =>
    match row.manifest.validate with
    | .error message => .error (.invalidManifest message)
    | .ok () => .ok (some row.manifest)

theorem loadManifestByObjectId_eq_some {s : MetadataStore} :
    s.loadManifestByObjectId object = .ok (some m) ↔
      ∃ row, s.objectManifests.get? object = some row ∧ row.manifest.validate = .ok () ∧
        row.manifest = m := by
  unfold loadManifestByObjectId
  cases hr : s.objectManifests.get? object with
  | none => simp
  | some row =>
    cases hv : row.manifest.validate with
    | error e => simp [hv]
    | ok u => simp [hv]

theorem loadManifestByObjectId_ok {s : MetadataStore}
    (h : s.loadManifestByObjectId objectId = .ok (some m)) :
    ∃ row, s.objectManifests.get? objectId = some row ∧ row.manifest = m := by
  obtain ⟨row, hr, -, hm⟩ := loadManifestByObjectId_eq_some.1 h
  exact ⟨row, hr, hm⟩

theorem loadManifestByObjectId_iff {s : MetadataStore} :
    s.loadManifestByObjectId object = .ok current ↔
      current = (s.objectManifests.get? object).map ManifestRow.manifest ∧
        ∀ m, current = some m → m.validate = .ok () := by
  unfold loadManifestByObjectId
  cases hr : s.objectManifests.get? object with
  | none =>
    simp only [Option.map_none, Except.ok.injEq]
    constructor
    · rintro rfl
      simp
    · rintro ⟨rfl, -⟩
      rfl
  | some row =>
    cases hv : row.manifest.validate with
    | error e =>
      simp only [hv, Option.map_some, reduceCtorEq, false_iff, not_and]
      rintro rfl h
      cases (h _ rfl).symm.trans hv
    | ok u =>
      simp only [hv, Option.map_some, Except.ok.injEq]
      constructor
      · rintro rfl
        simp [hv]
      · rintro ⟨rfl, -⟩
        rfl

def activeObjectId (bucket key : String) : Option Uuid :=
  (s.activeObjects.get? (bucket, key)).map ActiveRow.objectId

def hasAttempt (job : Uuid) (p : AttemptState → Bool) : Bool :=
  s.sendAttempts.any fun a => decide (a.jobId = job) && p a.state

def ambiguousSend (job : Uuid) : Bool :=
  s.hasAttempt job fun st => st = .sending || st = .unknown

end MetadataStore
end TelegramS3
