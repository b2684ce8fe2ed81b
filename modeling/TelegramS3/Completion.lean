import TelegramS3.Multipart
import TelegramS3.Service

namespace TelegramS3
open Relational Fallible MetadataStore
set_option autoImplicit true

namespace MetadataStore

def getMultipartSession (s : MetadataStore) (uploadId : Uuid) : Option MultipartSession :=
  (s.multipartUploads.get? uploadId).map UploadRow.session

def multipartCompletionJob (s : MetadataStore) (uploadId : Uuid) : Option TransferJob :=
  (s.transferJobs.rows.filter fun j => s.partOf uploadId 0 j.id).foldl
    (fun newest j => match newest with
      | some n => if n.sequence < j.sequence then some j else some n
      | none => some j) none

end MetadataStore

inductive S3ErrorCode where
  | preconditionFailed | noSuchBucket | noSuchUpload | noSuchKey | invalidPart | invalidArgument
  | invalidRange | notModified
  deriving DecidableEq

/-- Why a request fails: a handler's own answer, or an error it passes on. -/
inductive S3Error where
  | s3 (code : S3ErrorCode) (message : String)
  | object (e : ObjectFormatError)
  deriving DecidableEq

/-- A part as the completion request names it and as it is stored. -/
structure MultipartPartPlan where
  partNumber : Nat
  size : Nat
  checksum : String
  eTag : String

structure MultipartCompletionPlan where
  uploadId : Uuid
  objectId : Uuid
  bucket : String
  key : String
  contentType : String
  checksumAlgorithm : String
  contentLength : Nat
  parts : List MultipartPartPlan

def planParts (stored : List MultipartPart) (numbers : List Nat) :
    Except S3Error (List MultipartPartPlan) :=
  numbers.mapM fun number =>
    match stored.find? fun part => part.partNumber = number with
    | none => .error (.s3 .invalidPart "missing part")
    | some part =>
      .ok { partNumber := number, size := part.size, checksum := part.checksum, eTag := part.eTag }

def beBytes (width n : Nat) : List UInt8 :=
  (List.range width).map fun i => UInt8.ofNat (n / 256 ^ (width - 1 - i))

/-- A text goes into the composite checksum behind its length. -/
def checksumComponent (value : String) : List UInt8 :=
  beBytes 8 value.utf8ByteSize ++ value.toUTF8.data.toList

/-- What the loop over the parts has put together. -/
structure Composition where
  chunks : List ChunkRef := []
  offset : Nat := 0
  previousPartNumber : Nat := 0
  encryption : Option EncryptionInfo := none
  hashed : List UInt8 := "telegram-s3-multipart-sha256-v1\x00".toUTF8.data.toList

def composeChunk (partNumber : Nat) (part : ObjectManifest) (acc : Composition) (c : ChunkRef) :
    Except ObjectFormatError Composition := do
  ensure (!(isBlank c.telegramPeerId || c.telegramMessageId ≤ 0))
    (.invalidPlan ("multipart part " ++ toString partNumber ++ " has an unpublished chunk"))
  ensure (acc.chunks.length < 2 ^ 32)
    (.invalidPlan "multipart object contains too many chunks")
  let chunk := { c.reference part.objectId with order := acc.chunks.length, offset := acc.offset }
  ensure (acc.offset + c.size < 2 ^ 64) (.invalidPlan "multipart content length overflow")
  return { acc with chunks := acc.chunks ++ [chunk], offset := acc.offset + c.size }

def composePart (stored : List MultipartPart) (acc : Composition) (plan : MultipartPartPlan) :
    Except ObjectFormatError Composition := do
  ensure (acc.previousPartNumber < plan.partNumber)
    (.invalidPlan "multipart parts must be unique and ordered by part number")
  match stored.find? fun part => part.partNumber = plan.partNumber with
  | none => throw (.invalidPlan "missing multipart part")
  | some part =>
    ensure (part.eTag = plan.eTag) (.invalidPlan "multipart ETag mismatch")
    match part.manifest with
    | none =>
      throw (.invalidPlan "legacy multipart framing requires recovery or source re-upload")
    | some m =>
      match m.validate with
      | .error message => throw (.invalidPlan message)
      | .ok () =>
        ensure (part.size = plan.size && m.contentLength = part.size &&
            part.checksum = plan.checksum && m.checksum.wholeObject = part.checksum)
          (.invalidPlan "multipart part metadata changed during completion")
        ensure (acc.encryption.all fun expected => expected = m.encryption)
          (.invalidPlan "multipart parts use incompatible encryption metadata")
        m.chunks.foldlM (composeChunk plan.partNumber m)
          { acc with
            previousPartNumber := plan.partNumber
            encryption := some (acc.encryption.getD m.encryption)
            hashed := acc.hashed ++ beBytes 4 plan.partNumber ++ beBytes 8 part.size ++
              checksumComponent m.checksum.algorithm ++ checksumComponent m.checksum.wholeObject }

/-- The manifest of the whole object: the chunks of the parts in order, none of them copied. -/
def completionManifest (cfg : ServiceConfig) (sha256Hex : List UInt8 → String)
    (session : MultipartSession) (stored : List MultipartPart) (plan : MultipartCompletionPlan)
    (now : OffsetDateTime) : Except ObjectFormatError ObjectManifest := do
  ensure (!plan.parts.isEmpty) (.invalidPlan "multipart completion requires at least one part")
  ensure (plan.objectId = plan.uploadId)
    (.invalidPlan "multipart completion object id must match the upload id")
  ensure (plan.checksumAlgorithm = session.checksumAlgorithm)
    (.invalidPlan "multipart checksum algorithm changed during completion")
  let acc ← plan.parts.foldlM (composePart stored) {}
  ensure (acc.offset = plan.contentLength)
    (.invalidPlan ("multipart content length mismatch: expected " ++ toString plan.contentLength ++
      ", composed " ++ toString acc.offset))
  match acc.encryption with
  | none => throw (.invalidPlan "multipart completion has no encryption metadata")
  | some encryption =>
    let m : ObjectManifest :=
      { schemaVersion := manifestSchemaVersion, commitState := .staging
        objectId := plan.objectId, bucket := plan.bucket, key := plan.key
        versionId := some plan.objectId.text, contentLength := acc.offset
        contentType := plan.contentType, userMetadata := [], tags := [], createdAt := now
        expiresAt := session.expiresAt
        checksum := { algorithm := "sha256-parts-v1", wholeObject := sha256Hex acc.hashed }
        encryption, telegram := cfg.localManifest plan.objectId, chunks := acc.chunks }
    match m.validate with
    | .error message => throw (.invalidPlan message)
    | .ok () => return m

/-- What `complete_multipart_upload` does once it has read the session. -/
inductive CompletionStart where
  | visible (found : Except ObjectFormatError ObjectManifest)
  | waitFor (job : Uuid)
  | publish (m : ObjectManifest)

def ObjectFormat.completeMultipartUpload (cfg : ServiceConfig) (sha256Hex : List UInt8 → String)
    (s : MetadataStore) (plan : MultipartCompletionPlan) (now : OffsetDateTime) :
    Except ObjectFormatError CompletionStart :=
  match s.getMultipartSession plan.uploadId with
  | none => .error (.invalidPlan ("upload not found: " ++ plan.uploadId.text))
  | some session =>
    if session.bucket != plan.bucket || session.key != plan.key then
      .error (.invalidPlan "multipart completion target mismatch")
    else
      match session.state with
      | .completed => .ok (.visible (match s.getActiveManifest plan.bucket plan.key with
          | .error e => .error (.metadata e)
          | .ok none => .error (.invalidPlan "completed multipart object is not visible")
          | .ok (some m) => .ok m))
      | .completing =>
        match s.multipartCompletionJob plan.uploadId with
        | none =>
          .error (.invalidPlan "multipart completion job is missing; recovery is required")
        | some job => .ok (.waitFor job.id)
      | .aborted | .quarantined | .recoveryRequired =>
        .error (.invalidPlan "multipart upload is not completable")
      | .initiated | .uploading =>
        (completionManifest cfg sha256Hex session (s.listMultipartParts plan.uploadId) plan
          now).map .publish

end TelegramS3
