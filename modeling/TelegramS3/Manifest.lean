import Mathlib.Algebra.Order.Ring.Int
import Mathlib.Data.List.Lex
import TelegramS3.Fallible

namespace TelegramS3
open Fallible
set_option autoImplicit true

/-- An identifier; two of them compare as their texts do. -/
structure Uuid where
  value : BitVec 128
  deriving DecidableEq, Inhabited

def hexDigit (n : Nat) : Char := if n < 10 then Char.ofNat (48 + n) else Char.ofNat (87 + n)

def Uuid.text (u : Uuid) : String :=
  let digits (first count : Nat) :=
    (List.range count).map fun i => hexDigit (u.value.toNat / 16 ^ (31 - (first + i)) % 16)
  String.ofList (digits 0 8 ++ '-' :: digits 8 4 ++ '-' :: digits 12 4 ++ '-' :: digits 16 4 ++
    '-' :: digits 20 12)

/-- An instant of the UTC clock by its calendar fields. -/
structure OffsetDateTime where
  year : Nat
  month : Nat
  day : Nat
  hour : Nat := 0
  minute : Nat := 0
  second : Nat := 0
  nanosecond : Nat := 0
  valid : year < 10000 ∧ 1 ≤ month ∧ month ≤ 12 ∧ 1 ≤ day ∧ day ≤ 31 ∧
    hour < 24 ∧ minute < 60 ∧ second < 60 ∧ nanosecond < 10 ^ 9 := by decide
  deriving DecidableEq

namespace OffsetDateTime

instance : Inhabited OffsetDateTime := ⟨{ year := 1970, month := 1, day := 1 }⟩

def daysFromCivil (t : OffsetDateTime) : Int :=
  let y : Int := if t.month ≤ 2 then t.year - 1 else t.year
  let m : Int := if t.month > 2 then t.month - 3 else t.month + 9
  let era := y / 400
  let yoe := y - era * 400
  let doy := (153 * m + 2) / 5 + t.day - 1
  era * 146097 + (yoe * 365 + yoe / 4 - yoe / 100 + doy) - 719468

def unixTimestamp (t : OffsetDateTime) : Int :=
  t.daysFromCivil * 86400 + t.hour * 3600 + t.minute * 60 + t.second

def fields (t : OffsetDateTime) : List Nat :=
  [t.year, t.month, t.day, t.hour, t.minute, t.second, t.nanosecond]

def ble (t u : OffsetDateTime) : Bool := decide (t.fields ≤ u.fields)

def paddedDigits (width n : Nat) : List Char :=
  (List.range width).map fun i => Char.ofNat (48 + n / 10 ^ (width - 1 - i) % 10)

def fractionDigits (n : Nat) : List Char :=
  ((paddedDigits 9 n).reverse.dropWhile (· == '0')).reverse

/-- The RFC 3339 text of an instant. -/
def text (t : OffsetDateTime) : String :=
  String.ofList (paddedDigits 4 t.year ++ '-' :: paddedDigits 2 t.month ++ '-' ::
    paddedDigits 2 t.day ++ 'T' :: paddedDigits 2 t.hour ++ ':' :: paddedDigits 2 t.minute ++
    ':' :: paddedDigits 2 t.second ++
    (if t.nanosecond = 0 then [] else '.' :: fractionDigits t.nanosecond) ++ ['Z'])

end OffsetDateTime

inductive CommitState where
  | staging | committed | tombstoned | orphaned | recoveryRequired
  deriving DecidableEq

structure ObjectChecksum where
  algorithm : String
  wholeObject : String
  deriving DecidableEq

structure EncryptionInfo where
  enabled : Bool
  format : String
  keyId : Option String
  deriving DecidableEq

inductive ReplicaMode where
  | replica | access
  deriving DecidableEq

structure ChunkReplica where
  accountId : String
  mode : ReplicaMode := .replica
  chunkSize : Nat := 0
  telegramPeerId : String
  telegramMessageId : Int
  telegramDocumentId : Option String
  deriving DecidableEq

structure ChunkRef where
  order : Nat
  offset : Nat
  size : Nat
  checksum : String
  telegramPeerId : String
  telegramMessageId : Int
  telegramDocumentId : Option String
  sourceObjectId : Option Uuid := none
  sourceChunkOrder : Option Nat := none
  replicas : List ChunkReplica := []
  deriving DecidableEq

def ChunkRef.payloadIdentity (c : ChunkRef) (manifestObjectId : Uuid) : Uuid × Nat :=
  (c.sourceObjectId.getD manifestObjectId, c.sourceChunkOrder.getD c.order)

def ChunkRef.referencesRemotePayload (c : ChunkRef) : Bool :=
  c.sourceObjectId.isSome && c.sourceChunkOrder.isSome

def ChunkRef.location (c : ChunkRef) : String × Int := (c.telegramPeerId, c.telegramMessageId)

structure TelegramLocation where
  peerId : String
  messageId : Int
  documentId : Option String
  deriving DecidableEq

def TelegramLocation.location (l : TelegramLocation) : String × Int := (l.peerId, l.messageId)

structure ObjectManifest where
  schemaVersion : Nat
  commitState : CommitState
  objectId : Uuid
  bucket : String
  key : String
  versionId : Option String
  contentLength : Nat
  contentType : String
  userMetadata : List (String × String)
  tags : List (String × String)
  createdAt : OffsetDateTime
  expiresAt : Option OffsetDateTime
  checksum : ObjectChecksum
  encryption : EncryptionInfo
  telegram : TelegramLocation
  chunks : List ChunkRef
  deriving DecidableEq

def manifestSchemaVersion : Nat := 2

/-- The characters `str::trim` strips. -/
def isWhiteSpace (c : Char) : Bool :=
  let n := c.toNat
  (9 ≤ n && n ≤ 13) || n == 0x20 || n == 0x85 || n == 0xA0 || n == 0x1680 ||
    (0x2000 ≤ n && n ≤ 0x200A) || n == 0x2028 || n == 0x2029 || n == 0x202F || n == 0x205F ||
    n == 0x3000

def trim (value : String) : String :=
  String.ofList ((value.toList.dropWhile isWhiteSpace).reverse.dropWhile isWhiteSpace).reverse

def isBlank (value : String) : Bool := value.toList.all isWhiteSpace

def ObjectManifest.isExpired (m : ObjectManifest) (now : OffsetDateTime) : Bool :=
  m.expiresAt.any fun t => t.ble now

def ChunkReplica.validate (r : ChunkReplica) : Except String Unit := do
  ensure (!isBlank r.accountId) "chunk replica account_id is required"
  ensure (!isBlank r.telegramPeerId) "chunk replica telegram_peer_id is required"
  ensure (0 < r.telegramMessageId) "chunk replica requires a durable Telegram message"

/-- The checks of one chunk at its position; the sum of the sizes so far comes back. -/
def ChunkRef.validate (c : ChunkRef) (index expectedOffset : Nat) : Except String Nat := do
  ensure (c.sourceObjectId.isSome == c.sourceChunkOrder.isSome)
    "chunk source_object_id and source_chunk_order must appear together"
  ensure (!(c.referencesRemotePayload && decide (c.telegramMessageId ≤ 0)))
    "referenced chunk requires a durable Telegram message"
  c.replicas.forM ChunkReplica.validate
  ensure (c.order == index % 2 ^ 32) "chunk order must be contiguous"
  ensure (c.size != 0) "chunk size must be non-zero"
  ensure (c.offset == expectedOffset) "chunk offsets must be contiguous"
  ensure (!isBlank c.checksum) "chunk checksum is required"
  ensure (!isBlank c.telegramPeerId) "chunk telegram_peer_id is required"
  ensure (expectedOffset + c.size < 2 ^ 64) "chunk sizes overflow content length"
  return expectedOffset + c.size

def validateChunks : List ChunkRef → Nat → Nat → Except String Nat
  | [], _, expectedOffset => .ok expectedOffset
  | c :: rest, index, expectedOffset => do
    let next ← c.validate index expectedOffset
    validateChunks rest (index + 1) next

def ObjectManifest.validate (m : ObjectManifest) : Except String Unit := do
  ensure (m.schemaVersion != 0) "schema_version must be non-zero"
  ensure (!isBlank m.bucket) "bucket is required"
  ensure (!isBlank m.key) "key is required"
  ensure (!isBlank m.checksum.algorithm) "checksum.algorithm is required"
  ensure (!isBlank m.checksum.wholeObject) "checksum.whole_object is required"
  ensure (!isBlank m.telegram.peerId) "telegram.peer_id is required"
  if m.encryption.enabled then
    ensure (!isBlank m.encryption.format) "encryption.format is required when encryption is enabled"
    ensure (m.encryption.keyId.any (· != "")) "encryption.key_id is required when encryption is enabled"
  if m.chunks.isEmpty then
    ensure (m.contentLength == 0) "non-empty content_length requires chunk references"
  else
    let total ← validateChunks m.chunks 0 0
    ensure (total == m.contentLength) "chunk sizes must sum to content_length"

end TelegramS3
