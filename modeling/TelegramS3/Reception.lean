import TelegramS3.Multipart
import TelegramS3.Reading

namespace TelegramS3
open Relational Fallible MetadataStore
set_option autoImplicit true

/-- The service as a reception meets it; `clock` and `disk` answer for the chunk of an order. -/
structure ReceptionEnv where
  cfg : ServiceConfig
  crypto : Crypto
  chunkSize : Nat
  chunkSize_pos : 0 < chunkSize
  stagingBudget : Nat
  clock : Nat → Int
  disk : Nat → Except IoError Unit

def ServiceConfig.storageChat (cfg : ServiceConfig) : Except ObjectFormatError String := do
  ensure (cfg.storageChatId != "")
    (.invalidPlan "telegram bootstrap settings are not configured")
  return cfg.storageChatId

/-- What has been staged of a body: chunks, hashed bytes, offset, and files by order. -/
structure Staged where
  store : MetadataStore
  chunks : List ChunkRef := []
  hashed : Bytes := []
  offset : Nat := 0
  files : List Bytes := []

/-- A reception between two frames: the bytes that do not fill a chunk yet are pending. -/
structure Receiving (chunkSize : Nat) where
  staged : Staged
  pending : Bytes := []
  room : pending.length < chunkSize

def Crypto.localChunk (crypto : Crypto) (objectId : Uuid) (chat : String) (order offset : Nat)
    (bytes : Bytes) : ChunkRef :=
  { order, offset, size := bytes.length, checksum := crypto.sha256Hex bytes
    telegramPeerId := chat, telegramMessageId := 0
    telegramDocumentId := some ("local:" ++ objectId.text ++ ":" ++ toString order) }

section Receive
variable (env : ReceptionEnv) (objectId : Uuid)

def stageTransferChunk (bytes : Bytes) (st : Staged) : Except ObjectFormatError Staged := do
  let order := st.chunks.length
  ensure (order < 2 ^ 32) (.invalidPlan "too many chunks")
  let store ← (st.store.reserveStaging objectId (bytes.length + 16) env.stagingBudget
    (env.clock order)).mapError .metadata
  let encrypted ← env.crypto.encryptChunk objectId order bytes
  (env.disk order).mapError .io
  let chat ← env.cfg.storageChat
  let chunk := env.crypto.localChunk objectId chat order st.offset bytes
  return { store, chunks := st.chunks ++ [chunk], hashed := st.hashed ++ bytes
           offset := st.offset + bytes.length, files := st.files ++ [encrypted] }

def Receiving.takes (r : Receiving chunkSize) (remaining : Bytes) : Nat :=
  min remaining.length (chunkSize - r.pending.length)

theorem Receiving.drop_takes_lt (r : Receiving chunkSize) (h : ¬ remaining = []) :
    (remaining.drop (r.takes remaining)).length < remaining.length := by
  have hroom := r.room
  have hpos := List.length_pos_iff.2 h
  rw [List.length_drop, Receiving.takes]
  omega

def Receiving.filled (r : Receiving chunkSize) (remaining : Bytes) : Bytes :=
  r.pending ++ remaining.take (r.takes remaining)

theorem Receiving.filled_lt {r : Receiving chunkSize} {remaining : Bytes}
    (h : ¬ (r.filled remaining).length = chunkSize) :
    (r.filled remaining).length < chunkSize := by
  have hroom := r.room
  rw [filled, List.length_append, List.length_take, takes] at h ⊢
  omega

/-- The inner loop over a frame: the pending chunk is staged each time it is full. -/
def receiveFrame (r : Receiving env.chunkSize) (remaining : Bytes) :
    Except ObjectFormatError (Receiving env.chunkSize) :=
  if _h : remaining = [] then .ok r
  else if hfull : (r.filled remaining).length = env.chunkSize then do
    let staged ← stageTransferChunk env objectId (r.filled remaining) r.staged
    receiveFrame ⟨staged, [], env.chunkSize_pos⟩ (remaining.drop (r.takes remaining))
  else
    receiveFrame ⟨r.staged, r.filled remaining, Receiving.filled_lt hfull⟩
      (remaining.drop (r.takes remaining))
termination_by remaining.length
decreasing_by all_goals exact r.drop_takes_lt ‹_›

def receiveFrames (r : Receiving env.chunkSize) :
    List (Option Bytes) → Except ObjectFormatError (Receiving env.chunkSize)
  | [] => .ok r
  | none :: _ => .error (.invalidPlan "request body interrupted; resend source file")
  | some frame :: rest => do receiveFrames (← receiveFrame env objectId r frame) rest

/-- What is pending after the last frame is a chunk of its own. -/
def receiveBody (store : MetadataStore) (body : List (Option Bytes)) :
    Except ObjectFormatError Staged := do
  let r ← receiveFrames env objectId ⟨{ store }, [], env.chunkSize_pos⟩ body
  if r.pending.isEmpty then return r.staged
  stageTransferChunk env objectId r.pending r.staged

end Receive

/-- An upload request; a part names its upload, its number and the checksum it must have. -/
structure UploadRequest where
  objectId : Uuid
  bucket : String
  key : String
  contentType : String
  body : List (Option Bytes)
  part : Option (Uuid × Nat × Option String) := none
  conditionals : Option TransferWriteConditionals := none
  expiresAt : Option OffsetDateTime := none

/-- An accepted upload: the staged manifest, the staged files and the store. -/
structure Received where
  manifest : ObjectManifest
  files : List Bytes
  store : MetadataStore

def ensureConnectionNotRemoving (s : MetadataStore) : Except ObjectFormatError Unit :=
  ensure (!s.removalInProgress) (.invalidPlan "Telegram connection removal is in progress")

def finalizeReception (cfg : ServiceConfig) (args : ManifestBuildArgs)
    (conditionals : Option TransferWriteConditionals) (s : MetadataStore) (now : OffsetDateTime) :
    Except ObjectFormatError (ObjectManifest × MetadataStore) := do
  ensureConnectionNotRemoving s
  let manifest := cfg.newManifest args now
  let s ← (s.stageManifest .put manifest now).mapError .metadata
  let s ← (s.setTransferConditionals args.objectId conditionals now.unixTimestamp).mapError
    .metadata
  let s ← (s.queueTransfer args.objectId args.objectId manifest.chunks.length
    now.unixTimestamp).mapError .metadata
  return (manifest, s)

def insertPartJob (s : MetadataStore) (objectId : Uuid) :
    Option (Uuid × Nat × Option String) → Except MetadataError MetadataStore
  | none => .ok s
  | some (upload, number, checksum) => s.insertMultipartJob
      { jobId := objectId, uploadId := upload, partNumber := number, expectedChecksum := checksum }

/-- A part is refused when it does not have the checksum it was announced with. -/
def ensurePartChecksum (part : Option (Uuid × Nat × Option String)) (actual : String) :
    Except ObjectFormatError Unit :=
  match part with
  | some (_, _, some expected) => ensure (expected == actual)
      (.checksumMismatch { scope := "multipart part", expected, actual })
  | _ => .ok ()

def enqueueWithPart (env : ReceptionEnv) (req : UploadRequest) (s : MetadataStore)
    (begun : Int) (now : OffsetDateTime) : Except ObjectFormatError Received := do
  ensureConnectionNotRemoving s
  let s ← (s.beginTransfer req.objectId req.bucket req.key begun).mapError .metadata
  let s ← (insertPartJob s req.objectId req.part).mapError .metadata
  let staged ← receiveBody env req.objectId s req.body
  let args : ManifestBuildArgs :=
    { objectId := req.objectId, bucket := req.bucket, key := req.key
      contentType := req.contentType, expiresAt := req.expiresAt, chunks := staged.chunks
      wholeChecksum := env.crypto.sha256Hex staged.hashed }
  ensurePartChecksum req.part args.wholeChecksum
  let (manifest, store) ← finalizeReception env.cfg args req.conditionals staged.store now
  return { manifest, files := staged.files, store }

end TelegramS3
