import TelegramS3.Service

namespace TelegramS3
open Relational Fallible MetadataStore
set_option autoImplicit true

abbrev Bytes := List UInt8

/-- An AEAD under key and nonce of an object and a chunk order that opens what it sealed, and
SHA-256. -/
structure Crypto where
  sealInPlace : Uuid → Nat → Bytes → Option Bytes
  openInPlace : Uuid → Nat → Bytes → Option Bytes
  sha256Hex : Bytes → String
  open_seal : ∀ {objectId order plain cipher}, sealInPlace objectId order plain = some cipher →
    openInPlace objectId order cipher = some plain

namespace Crypto
variable (crypto : Crypto)

def encryptChunk (objectId : Uuid) (order : Nat) (plain : Bytes) :
    Except ObjectFormatError Bytes :=
  match crypto.sealInPlace objectId order plain with
  | some cipher => .ok cipher
  | none => .error (.invalidChecksum "encryption failed")

def decryptChunk (objectId : Uuid) (order : Nat) (cipher : Bytes) :
    Except ChecksumMismatch Bytes :=
  match crypto.openInPlace objectId order cipher with
  | some plain => .ok plain
  | none => .error
      { scope := "chunk " ++ toString order, expected := "encrypted payload"
        actual := "decryption failed" }

theorem decryptChunk_of_encryptChunk (h : crypto.encryptChunk objectId order plain = .ok cipher) :
    crypto.decryptChunk objectId order cipher = .ok plain := by
  unfold encryptChunk at h
  split at h
  · rename_i hs
    cases h
    rw [decryptChunk, crypto.open_seal hs]
  · cases h

end Crypto

structure ReadSpan where
  order : Nat
  offsetWithinChunk : Nat
  length : Nat
  checksum : String

structure ReadPlan where
  objectId : Uuid
  requestedRange : Nat × Nat
  chunks : List ReadSpan

def ChunkRef.readSpan (c : ChunkRef) (start stop : Nat) : ReadSpan :=
  let overlapStart := max start c.offset
  let overlapEnd := min stop (c.offset + c.size)
  { order := c.order, offsetWithinChunk := overlapStart - c.offset
    length := overlapEnd - overlapStart, checksum := c.checksum }

def planSpans (start stop : Nat) : List ChunkRef → Except ObjectFormatError (List ReadSpan)
  | [] => .ok []
  | c :: rest => do
    ensure (c.offset + c.size < 2 ^ 64) (.invalidRead "chunk offset overflow")
    let spans ← planSpans start stop rest
    if c.offset + c.size ≤ start ∨ stop ≤ c.offset then return spans
    return c.readSpan start stop :: spans

def planRead (m : ObjectManifest) (start stop : Nat) : Except ObjectFormatError ReadPlan := do
  ensure (start ≤ stop) (.invalidRead "range start is greater than range end")
  ensure (stop ≤ m.contentLength) (.invalidRead
    ("range end exceeds content length: " ++ toString stop ++ " > " ++ toString m.contentLength))
  let chunks ← planSpans start stop m.chunks
  return { objectId := m.objectId, requestedRange := (start, stop), chunks }

/-- A copy of a chunk that a read may fetch. -/
structure ReadCandidate where
  accountId : String
  location : TelegramLocation
  isPrimary : Bool

namespace MetadataStore
variable (s : MetadataStore)

def telegramAccountDownloadEnabled (id : String) : Bool :=
  (s.telegramAccounts.get? id).any AccountRow.downloadEnabled

/-- Without an active connection there is no account to be disabled. -/
def primaryDownloadEnabled : Bool :=
  match s.activeConnectionSetting with
  | some id => s.telegramAccountDownloadEnabled id
  | none => true

def primaryCandidate (c : ChunkRef) : ReadCandidate :=
  { accountId := s.activeConnectionSetting.getD "primary"
    location :=
      { peerId := c.telegramPeerId, messageId := c.telegramMessageId
        documentId := c.telegramDocumentId }
    isPrimary := true }

def readCandidates (c : ChunkRef) : List ReadCandidate :=
  (if s.primaryDownloadEnabled then [s.primaryCandidate c] else []) ++
    (c.replicas.filter fun r => s.telegramAccountDownloadEnabled r.accountId).map fun r =>
      { accountId := r.accountId
        location :=
          { peerId := r.telegramPeerId, messageId := r.telegramMessageId
            documentId := r.telegramDocumentId }
        isPrimary := false }

end MetadataStore

/-- The retries of a read, and what permits and downloads answer at each attempt. -/
structure Downloads where
  failoverRetries : Nat
  permit : String → Nat → Except IoError Unit
  message : ReadCandidate → Nat → Except IoError Bytes

def fitsI32 (n : Int) : Bool := -2 ^ 31 ≤ n && n < 2 ^ 31

def Downloads.attempt (d : Downloads) (order : Nat) (c : ReadCandidate) (attempt : Nat) :
    Except IoError (String × Bytes) := do
  ensure (fitsI32 c.location.messageId)
    { kind := .invalidData
      message := "telegram message id out of range for chunk " ++ toString order ++
        ": out of range integral type conversion attempted" }
  d.permit c.accountId attempt
  let bytes ← d.message c attempt
  return (c.accountId, bytes)

def accountFailoverCandidateIndex (selected candidateCount attemptsPerAccount attempt : Nat) :
    Nat :=
  (selected + attempt / max attemptsPerAccount 1) % candidateCount

/-- Attempts in turn until one succeeds; the last error is the one kept. -/
def tryAttempts (fetch : Nat → Except IoError α) (lastError : Option IoError) (attempt : Nat) :
    Nat → Except IoError α
  | 0 => .error (lastError.getD
      { kind := .other, message := "all Telegram account read attempts failed" })
  | remaining + 1 =>
    match fetch attempt with
    | .ok a => .ok a
    | .error e => tryAttempts fetch (some e) (attempt + 1) remaining

theorem tryAttempts_eq_ok : tryAttempts fetch lastError attempt n = .ok a ↔
      ∃ i, attempt ≤ i ∧ i < attempt + n ∧ fetch i = .ok a ∧
        ∀ j, attempt ≤ j → j < i → ∃ e, fetch j = .error e := by
  induction n generalizing attempt lastError with
  | zero =>
    constructor
    · intro h
      cases h
    · rintro ⟨i, h₁, h₂, -⟩
      exact absurd h₂ (Nat.not_lt.2 h₁)
  | succ n ih =>
    rw [tryAttempts]
    cases hf : fetch attempt with
    | ok b =>
      constructor
      · intro h
        refine ⟨attempt, le_rfl, by omega, hf.trans h, fun j h₁ h₂ => ?_⟩
        exact absurd h₂ (Nat.not_lt.2 h₁)
      · rintro ⟨i, h₁, -, hi, he⟩
        rcases h₁.eq_or_lt with rfl | hlt
        · exact hf.symm.trans hi
        · obtain ⟨e, he⟩ := he attempt le_rfl hlt
          rw [hf] at he
          cases he
    | error e =>
      rw [ih]
      constructor
      · rintro ⟨i, h₁, h₂, hi, he⟩
        refine ⟨i, by omega, by omega, hi, fun j hj hlt => ?_⟩
        rcases hj.eq_or_lt with rfl | hj
        · exact ⟨e, hf⟩
        · exact he j hj hlt
      · rintro ⟨i, h₁, h₂, hi, he⟩
        rcases h₁.eq_or_lt with rfl | h₁
        · rw [hf] at hi
          cases hi
        · exact ⟨i, h₁, by omega, hi, fun j hj => he j (by omega)⟩

/-- The attempts of a read, by the candidate each of them goes to. -/
def Downloads.failover (d : Downloads) (order : Nat) (candidates : List ReadCandidate)
    (hne : 0 < candidates.length) (attempt : Nat) : Except IoError (String × Bytes) :=
  let index := accountFailoverCandidateIndex (order % candidates.length) candidates.length
    (d.failoverRetries + 1) attempt
  d.attempt order (candidates.get ⟨index, Nat.mod_lt _ hne⟩) attempt

def Crypto.readPlaintext (crypto : Crypto) (m : ObjectManifest) (c : ChunkRef) (bytes : Bytes) :
    Except IoError Bytes :=
  if m.encryption.enabled then
    let payload := c.payloadIdentity m.objectId
    match crypto.decryptChunk payload.1 payload.2 bytes with
    | .ok plain => .ok plain
    | .error e => .error { kind := .invalidData, message := e.text }
  else .ok bytes

def Crypto.verifySpan (crypto : Crypto) (span : ReadSpan) (plain : Bytes) :
    Except IoError Bytes := do
  let actual := crypto.sha256Hex plain
  ensure (actual == span.checksum)
    { kind := .invalidData
      message := ChecksumMismatch.text
        { scope := "chunk " ++ toString span.order, expected := span.checksum, actual } }
  let start := span.offsetWithinChunk
  let stop := start + span.length
  ensure (stop ≤ plain.length)
    { kind := .unexpectedEof
      message := "chunk " ++ toString span.order ++ " shorter than planned span (len " ++
        toString plain.length ++ ", need " ++ toString start ++ "-" ++ toString stop ++ ")" }
  return (plain.drop start).take span.length

structure ReadSpanResult where
  accountId : String
  chunkOrder : Nat
  length : Nat
  bytes : Bytes
  deriving DecidableEq

/-- Decryption and checksum come after the loop over the candidates. -/
def readStreamSpan (crypto : Crypto) (d : Downloads) (s : MetadataStore) (m : ObjectManifest)
    (span : ReadSpan) : Except IoError ReadSpanResult :=
  match m.chunks[span.order]? with
  | none => .error { kind := .notFound, message := "missing chunk " ++ toString span.order }
  | some c =>
    let candidates := s.readCandidates c
    if hne : 0 < candidates.length then do
      let answer ← tryAttempts (d.failover span.order candidates hne) none 0
        ((d.failoverRetries + 1) * candidates.length)
      let plain ← crypto.readPlaintext m c answer.2
      let bytes ← crypto.verifySpan span plain
      return { accountId := answer.1, chunkOrder := span.order, length := span.length, bytes }
    else .error
      { kind := .notFound, message := "no Telegram account enabled for downloading this object" }

/-- A whole range: the plan, then its spans in order. -/
def readRange (crypto : Crypto) (d : Downloads) (s : MetadataStore) (m : ObjectManifest)
    (start stop : Nat) : Except ObjectFormatError Bytes := do
  let plan ← planRead m start stop
  match plan.chunks.mapM (readStreamSpan crypto d s m) with
  | .ok results => .ok (results.map ReadSpanResult.bytes).flatten
  | .error e => .error (.io e)

end TelegramS3
