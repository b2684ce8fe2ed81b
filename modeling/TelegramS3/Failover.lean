import TelegramS3.Reading
import TelegramS3.Visibility

namespace TelegramS3
open Relational Fallible MetadataStore
set_option autoImplicit true

/-- Downloaded bytes that decrypt to what the span was planned for. -/
def Crypto.Verifies (crypto : Crypto) (m : ObjectManifest) (c : ChunkRef) (span : ReadSpan)
    (bytes : Bytes) : Prop :=
  ∃ plain, crypto.readPlaintext m c bytes = .ok plain ∧ crypto.sha256Hex plain = span.checksum

structure Downloads.Healthy (d : Downloads) (crypto : Crypto) (m : ObjectManifest) (c : ChunkRef)
    (span : ReadSpan) (candidate : ReadCandidate) : Prop where
  message_id : fitsI32 candidate.location.messageId = true
  permitted : ∀ n, d.permit candidate.accountId n = .ok ()
  answers : ∀ n, ∃ bytes, d.message candidate n = .ok bytes ∧ crypto.Verifies m c span bytes

/-- No attempt before a good one is answered with corrupted bytes. -/
def Downloads.FirstAnswerVerifies (d : Downloads) (crypto : Crypto) (s : MetadataStore)
    (m : ObjectManifest) (c : ChunkRef) (span : ReadSpan) : Prop :=
  ∀ hne i, (∀ j < i, ∃ e, d.failover span.order (s.readCandidates c) hne j = .error e) →
    ∀ answer, d.failover span.order (s.readCandidates c) hne i = .ok answer →
      crypto.Verifies m c span answer.2

def ReadSpan.of (span : ReadSpan) (data : Bytes) : Bytes :=
  (data.drop span.offsetWithinChunk).take span.length

theorem Downloads.Healthy.attempt {d : Downloads} (h : d.Healthy crypto m c span candidate)
    (order n : Nat) : ∃ answer, d.attempt order candidate n = .ok answer ∧
      crypto.Verifies m c span answer.2 := by
  obtain ⟨bytes, hb, hv⟩ := h.answers n
  refine ⟨(candidate.accountId, bytes), ?_, hv⟩
  rw [Downloads.attempt, h.message_id, h.permitted, hb]
  rfl

theorem exists_failover_attempt (retries : Nat) (hk : k < count) (hs : selected < count) :
    ∃ i, i < (retries + 1) * count ∧
      accountFailoverCandidateIndex selected count (retries + 1) i = k := by
  refine ⟨(retries + 1) * ((k + (count - selected)) % count), ?_, ?_⟩
  · exact Nat.mul_lt_mul_of_pos_left (Nat.mod_lt _ (by omega)) (Nat.succ_pos _)
  · rw [accountFailoverCandidateIndex, max_eq_left (by omega),
      Nat.mul_div_cancel_left _ (Nat.succ_pos _), Nat.add_mod_mod,
      show selected + (k + (count - selected)) = k + count by omega, Nat.add_mod_right,
      Nat.mod_eq_of_lt hk]

theorem readCandidates_reached {d : Downloads} (hc : candidate ∈ candidates)
    (hne : 0 < candidates.length) (order : Nat) :
    ∃ i < (d.failoverRetries + 1) * candidates.length,
      d.failover order candidates hne i = d.attempt order candidate i := by
  obtain ⟨k, hk, rfl⟩ := List.mem_iff_getElem.1 hc
  obtain ⟨i, hi, he⟩ := exists_failover_attempt d.failoverRetries hk (Nat.mod_lt order hne)
  refine ⟨i, hi, ?_⟩
  simp only [Downloads.failover, List.get_eq_getElem, he]

theorem exists_failover_candidate (d : Downloads) (order : Nat)
    (hne : 0 < candidates.length) (n : Nat) :
    ∃ candidate ∈ candidates, d.failover order candidates hne n = d.attempt order candidate n :=
  ⟨_, List.get_mem _ _, rfl⟩

theorem exists_first_answer {fetch : Nat → Except IoError α} (hi : fetch i = .ok a) :
    ∃ j ≤ i, ∃ b, fetch j = .ok b ∧ ∀ k < j, ∃ e, fetch k = .error e := by
  induction i using Nat.strongRecOn generalizing a with
  | ind i ih =>
    by_cases h : ∃ k < i, ∃ b, fetch k = .ok b
    · obtain ⟨k, hk, b, hb⟩ := h
      obtain ⟨j, hj, hr⟩ := ih k hk hb
      exact ⟨j, hj.trans hk.le, hr⟩
    · refine ⟨i, le_rfl, a, hi, fun k hk => ?_⟩
      cases hf : fetch k with
      | ok b => exact absurd ⟨k, hk, b, hf⟩ h
      | error e => exact ⟨e, rfl⟩

section Read
variable {crypto : Crypto} {d : Downloads} {s : MetadataStore} {m : ObjectManifest}
  {c : ChunkRef} {span : ReadSpan} {data : Bytes}

theorem Crypto.verifySpan_ok :
    crypto.verifySpan span plain = .ok bytes ↔ crypto.sha256Hex plain = span.checksum ∧
      span.offsetWithinChunk + span.length ≤ plain.length ∧ span.of plain = bytes := by
  simp only [Crypto.verifySpan, bind_ok, ensure_ok, beq_iff_eq, decide_eq_true_eq, exists_const,
    pure_ok, ReadSpan.of]

theorem readStreamSpan_ok (hc : m.chunks[span.order]? = some c) :
    readStreamSpan crypto d s m span = .ok r ↔
      ∃ hne i answer plain, i < (d.failoverRetries + 1) * (s.readCandidates c).length ∧
        d.failover span.order (s.readCandidates c) hne i = .ok answer ∧
        (∀ j < i, ∃ e, d.failover span.order (s.readCandidates c) hne j = .error e) ∧
        crypto.readPlaintext m c answer.2 = .ok plain ∧
        crypto.sha256Hex plain = span.checksum ∧
        span.offsetWithinChunk + span.length ≤ plain.length ∧
        r = { accountId := answer.1, chunkOrder := span.order, length := span.length
              bytes := span.of plain } := by
  unfold readStreamSpan
  rw [hc]
  dsimp only
  split
  · rename_i hne
    simp only [bind_ok, tryAttempts_eq_ok, Crypto.verifySpan_ok, pure_ok, zero_add]
    constructor
    · rintro ⟨answer, ⟨i, -, hi, ha, he⟩, plain, hp, bytes, ⟨hs, hl, rfl⟩, rfl⟩
      exact ⟨hne, i, answer, plain, hi, ha, fun j => he j (Nat.zero_le j), hp, hs, hl, rfl⟩
    · rintro ⟨_, i, answer, plain, hi, ha, he, hp, hs, hl, rfl⟩
      exact ⟨answer, ⟨i, Nat.zero_le i, hi, ha, fun j _ => he j⟩, plain, hp, _, ⟨hs, hl, rfl⟩, rfl⟩
  · rename_i hne
    constructor
    · intro h
      cases h
    · rintro ⟨h, -⟩
      exact absurd h hne

/-- A read gives the chunk exactly when no earlier candidate answered with corrupted bytes. -/
theorem read_failover_exact (hc : m.chunks[span.order]? = some c)
    (hdata : ∀ x, crypto.sha256Hex x = span.checksum → x = data)
    (hlen : span.offsetWithinChunk + span.length ≤ data.length)
    (hgood : ∃ candidate ∈ s.readCandidates c, d.Healthy crypto m c span candidate) :
    (∃ r, readStreamSpan crypto d s m span = .ok r ∧ r.bytes = span.of data) ↔
      d.FirstAnswerVerifies crypto s m c span := by
  simp only [readStreamSpan_ok hc]
  constructor
  · rintro ⟨r, ⟨hne, i, answer, plain, hi, ha, he, hp, hs, -, -⟩, -⟩ hne' j hj answer' ha'
    have hij : i = j := by
      rcases Nat.lt_trichotomy i j with hlt | heq | hgt
      · obtain ⟨e, herr⟩ := hj i hlt
        rw [ha] at herr
        cases herr
      · exact heq
      · obtain ⟨e, herr⟩ := he j hgt
        rw [ha'] at herr
        cases herr
    subst hij
    rw [ha] at ha'
    cases ha'
    exact ⟨plain, hp, hs⟩
  · intro hfirst
    obtain ⟨candidate, hm, hh⟩ := hgood
    have hne : 0 < (s.readCandidates c).length := List.length_pos_of_mem hm
    obtain ⟨i, hi, he⟩ := readCandidates_reached (d := d) hm hne span.order
    obtain ⟨answer, ha, -⟩ := hh.attempt span.order i
    obtain ⟨j, hj, answer', ha', hbefore⟩ := exists_first_answer (he.trans ha)
    obtain ⟨plain, hp, hs⟩ := hfirst hne j hbefore answer' ha'
    have hplain := hdata plain hs
    subst hplain
    exact ⟨_, ⟨hne, j, answer', plain, hj.trans_lt hi, ha', hbefore, hp, hs, hlen, rfl⟩, rfl⟩

end Read

/-- A cipher that only appends a tag, and a digest that tells one plaintext from the others. -/
def taggingCrypto : Crypto where
  sealInPlace _ _ plain := some (plain ++ [0])
  openInPlace _ _ cipher := if cipher.getLast? = some 0 then some cipher.dropLast else none
  sha256Hex plain := if plain = [1, 2, 3] then "aa" else "bb"
  open_seal h := by
    cases h
    simp

def mirroredChunk : ChunkRef :=
  { order := 0, offset := 0, size := 3, checksum := "aa", telegramPeerId := "-1001"
    telegramMessageId := 5, telegramDocumentId := none
    replicas := [{ accountId := "mirror", telegramPeerId := "-1002", telegramMessageId := 7
                   telegramDocumentId := none }] }

def mirroredObject : ObjectManifest :=
  { emptyObject ⟨1⟩ "photos" "a" with
    contentLength := 3, chunks := [mirroredChunk]
    encryption := { enabled := true, format := "chacha20poly1305-v1", keyId := none } }

def mirrorStore : MetadataStore :=
  { telegramAccounts :=
      (∅ : Table AccountRow).insertOrIgnore { id := "mirror", label := "Mirror" } }

def mirrorDownloads (primary : Except IoError Bytes) : Downloads where
  failoverRetries := 1
  permit _ _ := .ok ()
  message c _ := if c.isPrimary then primary else .ok [1, 2, 3, 0]

def mirroredSpan : ReadSpan :=
  { order := 0, offsetWithinChunk := 1, length := 2, checksum := "aa" }

theorem mirror_healthy (primary : Except IoError Bytes) :
    ∃ candidate ∈ mirrorStore.readCandidates mirroredChunk,
      (mirrorDownloads primary).Healthy taggingCrypto mirroredObject mirroredChunk mirroredSpan
        candidate := by
  refine ⟨{ accountId := "mirror", location := ⟨"-1002", 7, none⟩, isPrimary := false },
    .tail _ (.head _), by decide, fun _ => rfl, fun _ => ⟨[1, 2, 3, 0], rfl, [1, 2, 3], ?_⟩⟩
  decide

theorem taggingCrypto_digest (x : Bytes) (h : taggingCrypto.sha256Hex x = "aa") :
    x = [1, 2, 3] := by
  by_contra hx
  simp [taggingCrypto, hx] at h

theorem mirrorDownloads_answer
    (h : (mirrorDownloads (.error e)).attempt order candidate n = .ok answer) :
    answer.2 = [1, 2, 3, 0] := by
  obtain ⟨-, -, h⟩ := bind_ok.1 h
  obtain ⟨-, -, h⟩ := bind_ok.1 h
  obtain ⟨bytes, hb, h⟩ := bind_ok.1 h
  cases h
  simp only [mirrorDownloads] at hb
  split at hb
  · cases hb
  · cases hb
    rfl

/-- The primary copy is gone and the read goes on to the mirror. -/
theorem read_past_missing_primary : ∃ r, readStreamSpan taggingCrypto
      (mirrorDownloads (.error { kind := .other, message := "MESSAGE_EMPTY" })) mirrorStore
      mirroredObject mirroredSpan = .ok r ∧ r.bytes = [2, 3] := by
  apply (read_failover_exact rfl taggingCrypto_digest (by decide) (mirror_healthy _)).2
  intro hne i _ answer ha
  rw [mirrorDownloads_answer ha]
  exact ⟨[1, 2, 3], by decide⟩

/-- A corrupted primary copy fails the read although the mirror is healthy. -/
theorem corrupted_primary_ends_read : (∃ candidate ∈ mirrorStore.readCandidates mirroredChunk,
      (mirrorDownloads (.ok [9])).Healthy taggingCrypto mirroredObject mirroredChunk mirroredSpan
        candidate) ∧
    readStreamSpan taggingCrypto (mirrorDownloads (.ok [9])) mirrorStore mirroredObject
      mirroredSpan = .error { kind := .invalidData, message :=
        "checksum mismatch for chunk 0: expected encrypted payload, got decryption failed" } :=
  ⟨mirror_healthy _, by decide⟩

end TelegramS3
