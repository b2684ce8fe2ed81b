import TelegramS3.Accounts
import TelegramS3.Recovery

namespace TelegramS3
open Relational Fallible MetadataStore
set_option autoImplicit true

inductive IoErrorKind where
  | notFound | invalidData | unexpectedEof | other
  deriving DecidableEq

structure IoError where
  kind : IoErrorKind
  message : String
  deriving DecidableEq

structure ChecksumMismatch where
  scope : String
  expected : String
  actual : String
  deriving DecidableEq

def ChecksumMismatch.text (e : ChecksumMismatch) : String :=
  "checksum mismatch for " ++ e.scope ++ ": expected " ++ e.expected ++ ", got " ++ e.actual

inductive ObjectFormatError where
  | metadata (e : MetadataError)
  | invalidPlan (message : String)
  | invalidRead (message : String)
  | missingChunk (objectId : Uuid) (order : Nat)
  | checksumMismatch (e : ChecksumMismatch)
  | invalidChecksum (message : String)
  | io (e : IoError)
  | receptionNotFound
  | receptionOffsetMismatch (received : Nat)
  | receptionChunkTooLarge
  | receptionChunkSizeMismatch
  | receptionNotComplete
  deriving DecidableEq

/-- What the running service puts into the manifests it builds. -/
structure ServiceConfig where
  storageChatId : String
  keyId : String

structure ManifestBuildArgs where
  objectId : Uuid
  bucket : String
  key : String
  contentType : String
  expiresAt : Option OffsetDateTime
  commitState : CommitState := .staging
  chunks : List ChunkRef
  wholeChecksum : String

def ServiceConfig.localManifest (cfg : ServiceConfig) (objectId : Uuid) : TelegramLocation :=
  { peerId := cfg.storageChatId, messageId := 0
    documentId := some ("local:" ++ objectId.text ++ ":manifest") }

def ServiceConfig.newManifest (cfg : ServiceConfig) (args : ManifestBuildArgs)
    (now : OffsetDateTime) : ObjectManifest :=
  { schemaVersion := manifestSchemaVersion, commitState := args.commitState
    objectId := args.objectId, bucket := args.bucket, key := args.key
    versionId := some args.objectId.text, contentLength := (args.chunks.map ChunkRef.size).sum
    contentType := args.contentType, userMetadata := [], tags := [], createdAt := now
    expiresAt := args.expiresAt
    checksum := { algorithm := "sha256", wholeObject := args.wholeChecksum }
    encryption := { enabled := true, format := "chacha20poly1305-v1", keyId := some cfg.keyId }
    telegram := cfg.localManifest args.objectId, chunks := args.chunks }

def ChunkRef.reference (c : ChunkRef) (sourceObjectId : Uuid) : ChunkRef :=
  let payload := c.payloadIdentity sourceObjectId
  { c with sourceObjectId := some payload.1, sourceChunkOrder := some payload.2 }

def ServiceConfig.movedManifest (cfg : ServiceConfig) (source : ObjectManifest) (objectId : Uuid)
    (bucket key : String) : ObjectManifest :=
  { source with
    schemaVersion := manifestSchemaVersion, commitState := .staging, objectId, bucket, key
    versionId := some objectId.text, telegram := cfg.localManifest objectId
    chunks := source.chunks.map fun c => c.reference source.objectId }

namespace ObjectFormat

/-- The active object of a key, unless it is expired; one being re-chunked is an error. -/
def getActiveManifest (s : MetadataStore) (bucket key : String) (now : OffsetDateTime) :
    Except ObjectFormatError (Option ObjectManifest) :=
  match s.getActiveManifest bucket key with
  | .error e => .error (.metadata e)
  | .ok found =>
    match found.filter fun m => !m.isExpired now with
    | none => .ok none
    | some m =>
      if s.objectRechunkLocked m.objectId then
        .error (.invalidRead "object is being re-chunked; try again later")
      else .ok (some m)

def listBucketManifests (s : MetadataStore) (bucket : String) (now : OffsetDateTime) :
    Except ObjectFormatError (List ObjectManifest) :=
  match s.listBucketManifests bucket with
  | .error e => .error (.metadata e)
  | .ok l => .ok (l.filter fun m => !m.isExpired now)

end ObjectFormat
end TelegramS3
