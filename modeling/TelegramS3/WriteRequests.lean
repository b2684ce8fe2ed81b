import TelegramS3.Completion
import TelegramS3.Leases
import TelegramS3.Replacing

namespace TelegramS3
open Relational Fallible Transition MetadataStore
set_option autoImplicit true

/-- The S3 library's text form of a condition, which its parser reads back. -/
structure HeaderCodec where
  toHttpHeader : ETagCondition → String
  fromStr : String → Option ETagCondition
  roundTrip : ∀ c, fromStr (toHttpHeader c) = some c

structure WriteHeaders where
  ifMatch : Option ETagCondition := none
  ifNoneMatch : Option ETagCondition := none

namespace WriteHeaders

/-- `enforce_write_conditionals`, the check at the front door. -/
def enforce (h : WriteHeaders) (current : Option ObjectManifest) : Except S3Error Unit :=
  match current with
  | none => ensure h.ifMatch.isNone (.s3 .preconditionFailed "if-match precondition failed")
  | some m =>
    match h.ifMatch, h.ifNoneMatch with
    | some condition, _ => ensure (etagConditionMatches condition m.checksum.wholeObject)
        (.s3 .preconditionFailed "if-match precondition failed")
    | none, some condition => ensure (!etagConditionMatches condition m.checksum.wholeObject)
        (.s3 .preconditionFailed "if-none-match precondition failed")
    | none, none => .ok ()

def snapshot (codec : HeaderCodec) (h : WriteHeaders) : Option TransferWriteConditionals :=
  if h.ifMatch.isNone && h.ifNoneMatch.isNone then none
  else some { ifMatch := h.ifMatch.map codec.toHttpHeader
              ifNoneMatch := h.ifNoneMatch.map codec.toHttpHeader }

def Satisfied (h : WriteHeaders) (current : Option ObjectManifest) : Prop :=
  (∀ c, h.ifMatch = some c →
    ∃ m, current = some m ∧ etagConditionMatches c m.checksum.wholeObject = true) ∧
  ∀ c, h.ifNoneMatch = some c → ∀ m, current = some m →
    etagConditionMatches c m.checksum.wholeObject = false

end WriteHeaders

inductive WriteEntry where
  | putObject (contentType : String) (expiresAt : Option OffsetDateTime)
  | completeMultipartUpload (uploadId : Uuid) (parts : List Nat)

def WriteEntry.isPut : WriteEntry → Bool
  | .putObject .. => true
  | .completeMultipartUpload .. => false

structure WriteRequest where
  entry : WriteEntry
  bucket : String
  key : String
  headers : WriteHeaders := {}

def WriteRequest.recorded (codec : HeaderCodec) (r : WriteRequest) :
    Option TransferWriteConditionals :=
  match r.entry with
  | .putObject .. => r.headers.snapshot codec
  | .completeMultipartUpload .. => none

inductive WritePhase where
  | arrived
  | accepted
  | planned (plan : MultipartCompletionPlan)
  | composed (m : ObjectManifest)
  | receiving (objectId : Uuid) (composed : Option ObjectManifest)
  | staged (m : ObjectManifest)
  | conditioned (m : ObjectManifest)
  | waiting (object job : Uuid) (st : WaitState)
  | succeeded (object : Uuid)
  | failed

structure WriteTask where
  request : WriteRequest
  phase : WritePhase := .arrived

inductive WriteRead where
  | frontDoor (now : OffsetDateTime)
  | compose (now : OffsetDateTime)
  | wait

def bucketExists (s : MetadataStore) (bucket : String) : Bool :=
  s.buckets.any fun b =>
    b.name = bucket && b.deletedAt.isNone && b.connectionId = s.activeConnectionId

def WriteRequest.frontDoor (r : WriteRequest) (s : MetadataStore) (now : OffsetDateTime) :
    Except S3Error WritePhase :=
  match r.entry with
  | .putObject .. => do
    ensure (bucketExists s r.bucket) (.s3 .noSuchBucket "bucket does not exist")
    let current ← (ObjectFormat.getActiveManifest s r.bucket r.key now).mapError .object
    r.headers.enforce current
    return .accepted
  | .completeMultipartUpload uploadId numbers =>
    match s.getMultipartSession uploadId with
    | none => .error (.s3 .noSuchUpload "multipart upload does not exist")
    | some session => do
      let current ← (ObjectFormat.getActiveManifest s r.bucket r.key now).mapError .object
      r.headers.enforce current
      let parts ← planParts (s.listMultipartParts uploadId) numbers
      return .planned
        { uploadId, objectId := uploadId, bucket := session.bucket, key := session.key
          contentType := session.contentType, checksumAlgorithm := session.checksumAlgorithm
          contentLength := (parts.map MultipartPartPlan.size).sum, parts }

section Steps
variable (codec : HeaderCodec) (cfg : ServiceConfig) (sha256Hex : List UInt8 → String)

def WriteTask.read (t : WriteTask) (s : MetadataStore) (rd : WriteRead) : WriteTask :=
  match t.phase, rd with
  | .arrived, .frontDoor now =>
    match t.request.frontDoor s now with
    | .ok phase => { t with phase }
    | .error _ => { t with phase := .failed }
  | .planned plan, .compose now =>
    match ObjectFormat.completeMultipartUpload cfg sha256Hex s plan now with
    | .error _ | .ok (.visible (.error _)) => { t with phase := .failed }
    | .ok (.visible (.ok _)) => { t with phase := .succeeded plan.objectId }
    | .ok (.waitFor job) => { t with phase := .waiting plan.objectId job .polling }
    | .ok (.publish m) => { t with phase := .composed m }
  | .waiting object job st, .wait =>
    match st.read s job with
    | .returned _ (.ok _) => { t with phase := .succeeded object }
    | .returned _ (.error _) => { t with phase := .failed }
    | st => { t with phase := .waiting object job st }
  | _, _ => t

/-- What a put has received: the chunks it staged and the checksum of its body. -/
structure ReceivedBody where
  chunks : List ChunkRef := []
  wholeChecksum : String := ""

inductive WriteMove where
  | begin (objectId : Uuid) (now : Int)
  | reserve (bytes budget : Nat) (now : Int)
  | stage (body : ReceivedBody) (now : OffsetDateTime)
  | setConditionals (now : Int)
  | queue (now : OffsetDateTime)
  | fail (filesRemoved : Bool) (message : String) (now : Int)

def WriteRequest.manifest (r : WriteRequest) (objectId : Uuid) (body : ReceivedBody)
    (now : OffsetDateTime) : Option ObjectManifest :=
  match r.entry with
  | .putObject contentType expiresAt => some (cfg.newManifest
      { objectId, bucket := r.bucket, key := r.key, contentType, expiresAt
        chunks := body.chunks, wholeChecksum := body.wholeChecksum } now)
  | .completeMultipartUpload .. => none

/-- The next store call of a write and the phase after it; completions take the id of the upload. -/
def WriteTask.step (t : WriteTask) (mv : WriteMove) : Option (StoreOp × WritePhase) :=
  match t.phase, mv with
  | .accepted, .begin objectId now =>
    some (.beginTransfer objectId t.request.bucket t.request.key now, .receiving objectId none)
  | .composed m, .begin objectId now =>
    if objectId = m.objectId then
      some (.beginTransfer objectId m.bucket m.key now, .receiving objectId (some m))
    else none
  | .receiving objectId composed, .reserve bytes budget now =>
    some (.reserveStaging objectId bytes budget now, .receiving objectId composed)
  | .receiving objectId composed, .stage body now =>
    (composed.or (t.request.manifest cfg objectId body now)).map fun m =>
      (.stageManifest .put m now, .staged m)
  | .staged m, .setConditionals now =>
    match t.request.entry with
    | .putObject .. => some (.setTransferConditionals m.objectId (t.request.headers.snapshot codec)
        now, .conditioned m)
    | .completeMultipartUpload .. => none
  | .staged m, .queue now =>
    match t.request.entry with
    | .completeMultipartUpload uploadId _ =>
      some (.queueMultipartCompletion m.objectId uploadId now,
        .waiting m.objectId m.objectId .polling)
    | .putObject .. => none
  | .conditioned m, .queue now =>
    some (.queueTransfer m.objectId m.chunks.length now.unixTimestamp,
      .waiting m.objectId m.objectId .polling)
  | .receiving objectId _, .fail filesRemoved message now =>
    some (.failReception objectId filesRemoved message now, .failed)
  | .staged m, .fail filesRemoved message now | .conditioned m, .fail filesRemoved message now =>
    some (.failReception m.objectId filesRemoved message now, .failed)
  | _, _ => none

/-- The store, the ids taken by the writes with the request that took them, and the writes. -/
structure WriteWorld where
  store : MetadataStore
  issued : List (Uuid × WriteRequest) := []
  tasks : List WriteTask := []

inductive WriteAction where
  | call (op : StoreOp)
  | arrive (r : WriteRequest)
  | read (i : Nat) (rd : WriteRead)
  | run (i : Nat) (mv : WriteMove)

def StoreOp.configures : StoreOp → Option Uuid
  | .setTransferConditionals id _ _ => some id
  | op => op.queues.or op.opensId

def WriteWorld.fresh (w : WriteWorld) (objectId : Uuid) : Bool :=
  !(w.issued.map Prod.fst).contains objectId && !w.store.transferJobs.contains objectId &&
    !w.store.objectManifests.contains objectId && !w.store.multipartJobs.contains objectId

def WriteMove.takes : WriteMove → List Uuid
  | .begin objectId _ => [objectId]
  | _ => []

/-- Writes get fresh ids, whose jobs no other request opens, attaches, conditions or queues. -/
def WriteAction.apply (a : WriteAction) (w : WriteWorld) : Option WriteWorld :=
  match a with
  | .call op =>
    if op.requested && !op.configures.any (w.issued.map Prod.fst).contains then
      (op.serve codec.fromStr w.store).map fun s => { w with store := s }
    else none
  | .arrive r => some { w with tasks := w.tasks ++ [{ request := r }] }
  | .read i rd => w.tasks[i]?.map fun t =>
      { w with tasks := w.tasks.set i (t.read cfg sha256Hex w.store rd) }
  | .run i mv =>
    if mv.takes.all w.fresh then
      w.tasks[i]?.bind fun t => (t.step codec cfg mv).bind fun (op, phase) =>
        (op.serve codec.fromStr w.store).map fun s =>
          { store := s, issued := mv.takes.map (·, t.request) ++ w.issued
            tasks := w.tasks.set i { t with phase } }
    else none

def WriteStep (a : WriteAction) (w w' : WriteWorld) : Prop :=
  a.apply codec cfg sha256Hex w = some w'

end Steps

end TelegramS3
