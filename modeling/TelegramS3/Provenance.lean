import TelegramS3.Chunking
import TelegramS3.Completion

namespace TelegramS3
open Relational Fallible MetadataStore Segments
set_option autoImplicit true

/-- The checks of a manifest that do not look at its chunks. -/
@[mk_iff] structure ObjectManifest.HeadValid (m : ObjectManifest) : Prop where
  schemaVersion : m.schemaVersion ≠ 0
  bucket : isBlank m.bucket = false
  key : isBlank m.key = false
  algorithm : isBlank m.checksum.algorithm = false
  wholeObject : isBlank m.checksum.wholeObject = false
  peer : isBlank m.telegram.peerId = false
  encryption : m.encryption.enabled = true →
    isBlank m.encryption.format = false ∧ m.encryption.keyId.any (· != "") = true

theorem ObjectManifest.validate_ok {m : ObjectManifest} : m.validate = .ok () ↔
      m.HeadValid ∧ validateChunks m.chunks 0 0 = .ok m.contentLength := by
  cases hc : m.chunks with
  | nil =>
    cases he : m.encryption.enabled <;>
      simp [ObjectManifest.validate, ObjectManifest.headValid_iff, bind_ok, validateChunks, he, hc,
        @eq_comm _ 0, and_assoc]
  | cons c rest =>
    cases he : m.encryption.enabled <;>
      simp [ObjectManifest.validate, ObjectManifest.headValid_iff, bind_ok, he, hc, and_assoc]

@[mk_iff] structure ChunkRef.ValidAt (c : ChunkRef) (index expectedOffset : Nat) : Prop where
  sources : c.sourceObjectId.isSome = c.sourceChunkOrder.isSome
  durable : c.referencesRemotePayload = true → 0 < c.telegramMessageId
  replicas : c.replicas.forM ChunkReplica.validate = .ok ()
  order : c.order = index % 2 ^ 32
  size : c.size ≠ 0
  offset : c.offset = expectedOffset
  checksum : isBlank c.checksum = false
  peer : isBlank c.telegramPeerId = false
  bound : expectedOffset + c.size < 2 ^ 64

theorem ChunkRef.validate_eq_ok {c : ChunkRef} {expected : Nat} :
    c.validate index expected = .ok total ↔
      c.ValidAt index expected ∧ expected + c.size = total := by
  simp only [ChunkRef.validate, ChunkRef.validAt_iff, bind_ok, ensure_ok, pure_ok, exists_const,
    beq_iff_eq, bne_iff_ne, Bool.not_eq_true', Bool.and_eq_false_imp, decide_eq_true_eq,
    decide_eq_false_iff_not, Int.not_le, and_assoc]
  constructor
  · rintro ⟨hs, hd, ⟨⟩, h⟩
    exact ⟨hs, hd, h⟩
  · rintro ⟨hs, hd, h⟩
    exact ⟨hs, hd, (), h⟩

theorem validateChunks_append (xs ys : List ChunkRef) (index expected : Nat) :
    validateChunks (xs ++ ys) index expected =
      (validateChunks xs index expected >>= validateChunks ys (index + xs.length)) := by
  induction xs generalizing index expected with
  | nil => rfl
  | cons c xs ih =>
    rw [List.cons_append, validateChunks, validateChunks, bind_assoc, List.length_cons,
      ← Nat.add_assoc, Nat.add_right_comm]
    congr 1
    funext next
    exact ih (index + 1) next

theorem validateChunks_total {chunks : List ChunkRef}
    (h : validateChunks chunks index expected = .ok total) :
    expected + (chunks.map ChunkRef.size).sum = total ∧ (expected < 2 ^ 64 → total < 2 ^ 64) := by
  induction chunks generalizing index expected with
  | nil =>
    cases h
    exact ⟨rfl, id⟩
  | cons c chunks ih =>
    obtain ⟨next, hc, h⟩ := bind_ok.1 h
    obtain ⟨hv, rfl⟩ := ChunkRef.validate_eq_ok.1 hc
    obtain ⟨hsum, hlt⟩ := ih h
    refine ⟨?_, fun _ => hlt hv.bound⟩
    rw [List.map_cons, List.sum_cons, ← hsum, Nat.add_assoc]

theorem validateChunks_mem {chunks : List ChunkRef}
    (h : validateChunks chunks index expected = .ok total) (hc : c ∈ chunks) :
    ∃ i e, c.ValidAt i e := by
  induction chunks generalizing index expected with
  | nil => cases hc
  | cons c' chunks ih =>
    obtain ⟨next, hc', h⟩ := bind_ok.1 h
    rcases List.mem_cons.1 hc with rfl | hc
    · exact ⟨index, expected, (ChunkRef.validate_eq_ok.1 hc').1⟩
    · exact ih h hc

def ChunkRef.isPublished (c : ChunkRef) : Bool :=
  !isBlank c.telegramPeerId && decide (0 < c.telegramMessageId)

namespace Composition

def push (objectId : Uuid) (acc : Composition) (c : ChunkRef) : Composition :=
  { acc with
    chunks := acc.chunks ++
      [{ c.reference objectId with order := acc.chunks.length, offset := acc.offset }]
    offset := acc.offset + c.size }

def enter (acc : Composition) (number : Nat) (part : MultipartPart) (m : ObjectManifest) :
    Composition :=
  { acc with
    previousPartNumber := number
    encryption := some (acc.encryption.getD m.encryption)
    hashed := acc.hashed ++ beBytes 4 number ++ beBytes 8 part.size ++
      checksumComponent m.checksum.algorithm ++ checksumComponent m.checksum.wholeObject }

variable {acc : Composition} {c : ChunkRef}

@[simp] theorem push_offset : (acc.push objectId c).offset = acc.offset + c.size := rfl

@[simp] theorem push_encryption : (acc.push objectId c).encryption = acc.encryption := rfl

@[simp] theorem push_length : (acc.push objectId c).chunks.length = acc.chunks.length + 1 := by
  simp [push]

end Composition

theorem composeChunk_ok : composeChunk number part acc c = .ok acc' ↔
      c.isPublished = true ∧ acc.chunks.length < 2 ^ 32 ∧ acc.offset + c.size < 2 ^ 64 ∧
        acc.push part.objectId c = acc' := by
  simp only [composeChunk, bind_ok, ensure_ok, pure_ok, exists_const, decide_eq_true_eq,
    ChunkRef.isPublished, Composition.push, Bool.not_or, Bool.and_eq_true, Bool.not_eq_true',
    decide_eq_false_iff_not, Int.not_le, and_assoc]

/-- The guards of a part that goes into the object. -/
structure PartFits (stored : List MultipartPart) (acc : Composition) (plan : MultipartPartPlan)
    (part : MultipartPart) (m : ObjectManifest) : Prop where
  next : acc.previousPartNumber < plan.partNumber
  found : stored.find? (fun part => part.partNumber = plan.partNumber) = some part
  eTag : part.eTag = plan.eTag
  manifest : part.manifest = some m
  valid : m.validate = .ok ()
  sizes : part.size = plan.size ∧ m.contentLength = part.size
  checksums : part.checksum = plan.checksum ∧ m.checksum.wholeObject = part.checksum
  encryption : ∀ e, acc.encryption = some e → e = m.encryption

theorem composePart_ok : composePart stored acc plan = .ok acc' ↔
      ∃ part m, PartFits stored acc plan part m ∧
        m.chunks.foldlM (composeChunk plan.partNumber m) (acc.enter plan.partNumber part m) =
          .ok acc' := by
  constructor
  · intro h
    obtain ⟨_, hn, h⟩ := bind_ok.1 h
    split at h
    · cases h
    · rename_i part hf
      obtain ⟨_, ht, h⟩ := bind_ok.1 h
      split at h
      · cases h
      · rename_i m hm
        split at h
        · cases h
        · rename_i hv
          obtain ⟨_, hs, h⟩ := bind_ok.1 h
          obtain ⟨_, he, h⟩ := bind_ok.1 h
          simp only [ensure_ok, decide_eq_true_eq, Bool.and_eq_true] at hn ht hs
          refine ⟨part, m, ⟨hn, hf, ht, hm, hv, hs.1.1, ⟨hs.1.2, hs.2⟩, fun e hacc => ?_⟩, h⟩
          rw [hacc, ensure_ok] at he
          exact of_decide_eq_true he
  · rintro ⟨part, m, h, hc⟩
    have he : acc.encryption.all (fun expected => expected = m.encryption) = true := by
      cases hacc : acc.encryption with
      | none => rfl
      | some e => exact decide_eq_true (h.encryption e hacc)
    have hs : (part.size = plan.size && m.contentLength = part.size &&
        part.checksum = plan.checksum && m.checksum.wholeObject = part.checksum) = true := by
      simp only [Bool.and_eq_true, decide_eq_true_eq]
      exact ⟨⟨h.sizes, h.checksums.1⟩, h.checksums.2⟩
    simp only [composePart, h.next, h.found, h.eTag, h.manifest, h.valid, hs, he, ensure,
      decide_true, if_true]
    exact hc

section Chunks
variable {chunks : List ChunkRef} {acc acc' : Composition}

theorem composeChunks_eq (h : chunks.foldlM (composeChunk number part) acc = .ok acc') :
    chunks.foldl (Composition.push part.objectId) acc = acc' := by
  induction chunks generalizing acc with
  | nil =>
    cases h
    rfl
  | cons c chunks ih =>
    rw [List.foldlM_cons] at h
    obtain ⟨acc₁, hc, h⟩ := bind_ok.1 h
    obtain ⟨-, -, -, rfl⟩ := composeChunk_ok.1 hc
    exact ih h

theorem composeChunks_ok (hp : ∀ c ∈ chunks, c.isPublished = true)
    (hn : acc.chunks.length + chunks.length ≤ 2 ^ 32)
    (hs : acc.offset + (chunks.map ChunkRef.size).sum < 2 ^ 64) :
    chunks.foldlM (composeChunk number part) acc =
      .ok (chunks.foldl (Composition.push part.objectId) acc) := by
  induction chunks generalizing acc with
  | nil => rfl
  | cons c chunks ih =>
    rw [List.length_cons] at hn
    rw [List.map_cons, List.sum_cons] at hs
    have hc : composeChunk number part acc c = .ok (acc.push part.objectId c) := by
      apply composeChunk_ok.2
      exact ⟨hp c List.mem_cons_self, by omega, by omega, rfl⟩
    rw [List.foldlM_cons, hc]
    apply ih (fun c hc => hp c (List.mem_cons_of_mem _ hc))
    · rw [Composition.push_length]
      omega
    · rw [Composition.push_offset]
      omega

end Chunks

def ChunkRef.places (c : ChunkRef) : List TelegramLocation :=
  { peerId := c.telegramPeerId, messageId := c.telegramMessageId
    documentId := c.telegramDocumentId } ::
    c.replicas.map fun r =>
      { peerId := r.telegramPeerId, messageId := r.telegramMessageId
        documentId := r.telegramDocumentId }

def ObjectManifest.sealing (m : ObjectManifest) : List (Uuid × Nat) :=
  m.chunks.map fun c => c.payloadIdentity m.objectId

def partManifests (stored : List MultipartPart) (parts : List MultipartPartPlan) :
    List ObjectManifest :=
  parts.filterMap fun plan =>
    (stored.find? fun part => part.partNumber = plan.partNumber).bind MultipartPart.manifest

theorem PartFits.partManifests (h : PartFits stored acc plan part m)
    (parts : List MultipartPartPlan) :
    TelegramS3.partManifests stored (plan :: parts) =
      m :: TelegramS3.partManifests stored parts := by
  apply List.filterMap_cons_some
  rw [h.found, Option.bind_some, h.manifest]

section Content
variable (crypto : Crypto) (remote : TelegramLocation → Option Bytes)

/-- A chunk whose copies are the piece, sealed under an object and an order if encrypted. -/
structure SealedAs (encrypted : Bool) (identity : Uuid × Nat) (c : ChunkRef) (p : Bytes) :
    Prop where
  checksum : c.checksum = crypto.sha256Hex p
  copies : ∀ l ∈ c.places, ∃ f, remote l = some f ∧
    if encrypted then crypto.encryptChunk identity.1 identity.2 p = .ok f else f = p

/-- The chunks of an object are the pieces, each sealed under its payload identity. -/
def ObjectManifest.Holds (m : ObjectManifest) (pieces : List Bytes) : Prop :=
  Laid (fun c => SealedAs crypto remote m.encryption.enabled (c.payloadIdentity m.objectId) c) 0 0
    m.chunks pieces

structure Composition.Holds (acc : Composition) (pieces : List Bytes) : Prop where
  fresh : acc.encryption = none → acc.chunks = []
  offset : acc.offset = pieces.flatten.length
  laid : Laid (fun c p => ∀ objectId, SealedAs crypto remote
    (acc.encryption.any EncryptionInfo.enabled) (c.payloadIdentity objectId) c p) 0 0
    acc.chunks pieces

variable {crypto remote} {acc acc' : Composition} {pieces : List Bytes}

theorem Composition.Holds.enter (h : acc.Holds crypto remote pieces)
    (hf : PartFits stored acc plan part m) :
    (acc.enter plan.partNumber part m).Holds crypto remote pieces ∧
      (acc.enter plan.partNumber part m).encryption = some m.encryption := by
  cases hacc : acc.encryption with
  | none =>
    have hchunks := h.fresh hacc
    have hlaid := h.laid
    rw [hchunks] at hlaid
    cases hlaid
    have henter : (acc.enter plan.partNumber part m).encryption = some m.encryption := by
      rw [Composition.enter, hacc]
      rfl
    refine ⟨⟨fun _ => hchunks, h.offset, ?_⟩, henter⟩
    show Laid _ 0 0 acc.chunks []
    rw [hchunks]
    exact .nil
  | some e =>
    have he : (acc.enter plan.partNumber part m).encryption = acc.encryption := by
      rw [Composition.enter, hacc]
      rfl
    refine ⟨⟨fun hnone => h.fresh (he ▸ hnone), h.offset, ?_⟩, ?_⟩
    · rw [he]
      exact h.laid
    · rw [he, hacc, hf.encryption e hacc]

theorem Composition.Holds.push (h : acc.Holds crypto remote pieces) (he : acc.encryption = some e)
    (hc : SealedAs crypto remote e.enabled (c.payloadIdentity objectId) c p)
    (hs : c.size = p.length) : (acc.push objectId c).Holds crypto remote (pieces ++ [p]) := by
  refine ⟨fun hnone => ?_, ?_, ?_⟩
  · rw [push_encryption, he] at hnone
    cases hnone
  · rw [push_offset, h.offset, hs, List.flatten_append, List.length_append, List.flatten_singleton]
  · apply Laid.snoc h.laid
    · intro id
      rw [he]
      exact ⟨hc.checksum, hc.copies⟩
    · exact (Nat.zero_add _).symm
    · rw [Nat.zero_add]
      exact h.offset
    · exact hs

theorem Composition.Holds.chunks {chunks : List ChunkRef} {ps : List Bytes}
    (hl : Laid (fun c => SealedAs crypto remote e.enabled (c.payloadIdentity objectId) c)
      order start chunks ps) (h : acc.Holds crypto remote pieces)
    (he : acc.encryption = some e) :
    (chunks.foldl (Composition.push objectId) acc).Holds crypto remote (pieces ++ ps) := by
  induction hl generalizing acc pieces with
  | nil => rwa [List.append_nil]
  | cons hr _ _ hs _ ih =>
    rw [List.foldl_cons, List.append_cons]
    exact ih (h.push he hr hs) he

theorem Composition.Holds.parts {parts : List MultipartPartPlan} {contents : List (List Bytes)}
    (hr : parts.foldlM (composePart stored) acc = .ok acc')
    (hc : List.Forall₂ (ObjectManifest.Holds crypto remote) (partManifests stored parts) contents)
    (h : acc.Holds crypto remote pieces) :
    acc'.Holds crypto remote (pieces ++ contents.flatten) := by
  induction parts generalizing acc pieces contents with
  | nil =>
    cases hr
    cases hc
    rwa [List.flatten_nil, List.append_nil]
  | cons plan parts ih =>
    rw [List.foldlM_cons] at hr
    obtain ⟨acc₁, hpart, hr⟩ := bind_ok.1 hr
    obtain ⟨part, m, hf, hfold⟩ := composePart_ok.1 hpart
    rw [hf.partManifests] at hc
    cases hc with
    | @cons _ content _ contents hm hc =>
      obtain ⟨hacc, he⟩ := h.enter hf
      have hnext := Composition.Holds.chunks hm hacc he
      rw [composeChunks_eq hfold] at hnext
      rw [List.flatten_cons, ← List.append_assoc]
      exact ih hr hc hnext

end Content

theorem composeParts_sealing
    (hr : parts.foldlM (composePart stored) acc = .ok acc') (objectId : Uuid) :
    acc'.chunks.map (fun c => c.payloadIdentity objectId) =
      acc.chunks.map (fun c => c.payloadIdentity objectId) ++
        (partManifests stored parts).flatMap ObjectManifest.sealing := by
  have hchunks (acc : Composition) (chunks : List ChunkRef) (source : Uuid) :
      (chunks.foldl (Composition.push source) acc).chunks.map
          (fun c => c.payloadIdentity objectId) =
        acc.chunks.map (fun c => c.payloadIdentity objectId) ++
          chunks.map fun c => c.payloadIdentity source := by
    induction chunks generalizing acc with
    | nil => rw [List.foldl_nil, List.map_nil, List.append_nil]
    | cons c chunks ih =>
      rw [List.foldl_cons, ih, Composition.push, List.map_append, List.append_assoc]
      rfl
  induction parts generalizing acc with
  | nil =>
    cases hr
    rw [partManifests, List.filterMap_nil, List.flatMap_nil, List.append_nil]
  | cons plan parts ih =>
    rw [List.foldlM_cons] at hr
    obtain ⟨acc₁, hpart, hr⟩ := bind_ok.1 hr
    obtain ⟨part, m, hf, hfold⟩ := composePart_ok.1 hpart
    rw [ih hr, hf.partManifests, List.flatMap_cons, ← composeChunks_eq hfold, hchunks,
      List.append_assoc]
    rfl

/-- Downloads that answer with what Telegram has at the place asked for. -/
structure Downloads.Serve (d : Downloads) (remote : TelegramLocation → Option Bytes) : Prop where
  permitted : ∀ account n, d.permit account n = .ok ()
  returns : ∀ candidate n f, remote candidate.location = some f →
    fitsI32 candidate.location.messageId = true ∧ d.message candidate n = .ok f

theorem readCandidates_places {s : MetadataStore} (h : candidate ∈ s.readCandidates c) :
    candidate.location ∈ c.places := by
  rcases List.mem_append.1 h with h | h
  · split at h
    · rw [List.mem_singleton] at h
      subst h
      exact List.mem_cons_self
    · cases h
  · obtain ⟨r, hr, rfl⟩ := List.mem_map.1 h
    exact List.mem_cons_of_mem _ (List.mem_map_of_mem (List.mem_filter.1 hr).1)

theorem SealedAs.reads {m : ObjectManifest}
    (h : SealedAs crypto remote m.encryption.enabled (c.payloadIdentity m.objectId) c p)
    (hd : d.Serve remote) (hc : m.chunks[c.order]? = some c) (hne : s.readCandidates c ≠ []) :
    Reads crypto d s m c p := by
  apply Reads.of_copies hne hc h.checksum
  intro candidate hmem n
  obtain ⟨f, hf, hsealed⟩ := h.copies _ (readCandidates_places hmem)
  obtain ⟨hid, hmsg⟩ := hd.returns candidate n f hf
  refine ⟨f, ?_, ?_⟩
  · rw [Downloads.attempt, hid, hd.permitted, hmsg]
    rfl
  · rw [Crypto.readPlaintext]
    split at hsealed
    · rename_i he
      rw [if_pos he]
      dsimp only
      rw [crypto.decryptChunk_of_encryptChunk hsealed]
    · rename_i he
      rw [if_neg he, hsealed]

theorem ObjectManifest.Holds.readRange
    (h : m.Holds crypto remote pieces) (hv : m.validate = .ok ()) (hd : d.Serve remote)
    (hne : ∀ c ∈ m.chunks, s.readCandidates c ≠ []) (hle : start ≤ stop)
    (hstop : stop ≤ pieces.flatten.length) :
    readRange crypto d s m start stop = .ok (slice start stop pieces.flatten) := by
  obtain ⟨-, hchunks⟩ := ObjectManifest.validate_ok.1 hv
  obtain ⟨hsum, hlt⟩ := validateChunks_total hchunks
  rw [Nat.zero_add, Laid.sum_size h] at hsum
  apply Laid.readRange (Laid.mono h ?_) hsum.symm (hsum ▸ hlt (by decide)) hle hstop
  intro c hc p hp
  exact hp.reads hd (h.getElem?_order hc) (hne c hc)

/-- A manifest and what moves make of it, each published before the next one. -/
inductive MovedFrom (cfg : ServiceConfig) (m : ObjectManifest) : ObjectManifest → Prop where
  | composed : MovedFrom cfg m m
  | published : MovedFrom cfg m m' → isBlank l.peerId = false →
      MovedFrom cfg m { m' with commitState := state, telegram := l }
  | moved : MovedFrom cfg m m' → (cfg.movedManifest m' objectId bucket key).validate = .ok () →
      MovedFrom cfg m (cfg.movedManifest m' objectId bucket key)

theorem ServiceConfig.movedManifest_sealing (cfg : ServiceConfig) (m : ObjectManifest) :
    (cfg.movedManifest m objectId bucket key).sealing = m.sealing := by
  rw [ObjectManifest.sealing, ServiceConfig.movedManifest, List.map_map]
  rfl

theorem Laid.map (h : Laid R order start chunks pieces)
    (hf : ∀ c, (f c).order = c.order ∧ (f c).offset = c.offset ∧ (f c).size = c.size)
    (hR : ∀ c p, R c p → R' (f c) p) : Laid R' order start (chunks.map f) pieces := by
  induction h with
  | nil => exact .nil
  | @cons c p order start chunks pieces hr ho hs hl _ ih =>
    obtain ⟨ho', hs', hl'⟩ := hf c
    exact .cons (hR c p hr) (ho'.trans ho) (hs'.trans hs) (hl'.trans hl) ih

theorem ObjectManifest.Holds.moved (h : m.Holds crypto remote pieces)
    (cfg : ServiceConfig) : (cfg.movedManifest m i b k).Holds crypto remote pieces := by
  apply Laid.map h
  · intro c
    exact ⟨rfl, rfl, rfl⟩
  · intro c p hp
    exact ⟨hp.checksum, hp.copies⟩

/-- An object made of others: it validates, has their payloads and reads as they do in turn. -/
structure ComposedOf (crypto : Crypto) (remote : TelegramLocation → Option Bytes)
    (parts : List ObjectManifest) (contents : List (List Bytes)) (m : ObjectManifest) : Prop where
  valid : m.validate = .ok ()
  sealing : m.sealing = parts.flatMap ObjectManifest.sealing
  holds : m.Holds crypto remote contents.flatten

section Composed
variable {parts : List ObjectManifest} {contents : List (List Bytes)} {m m' : ObjectManifest}

theorem ComposedOf.moves (h : ComposedOf crypto remote parts contents m)
    (hm : MovedFrom cfg m m') : ComposedOf crypto remote parts contents m' := by
  induction hm with
  | composed => exact h
  | published _ hl ih =>
    obtain ⟨hhead, hchunks⟩ := ObjectManifest.validate_ok.1 ih.valid
    exact ⟨ObjectManifest.validate_ok.2 ⟨{ hhead with peer := hl }, hchunks⟩, ih.sealing, ih.holds⟩
  | moved _ hv ih =>
    exact ⟨hv, (cfg.movedManifest_sealing _).trans ih.sealing, ih.holds.moved cfg⟩

theorem completionManifest_ok
    (h : completionManifest cfg sha256Hex session stored plan now = .ok m) :
    m.validate = .ok () ∧ (plan.objectId = plan.uploadId ∧ m.objectId = plan.objectId ∧
        m.bucket = plan.bucket ∧ m.key = plan.key) ∧
      ∃ acc, plan.parts.foldlM (composePart stored) {} = .ok acc ∧ m.chunks = acc.chunks ∧
        acc.encryption = some m.encryption ∧ m.contentLength = acc.offset := by
  obtain ⟨_, -, h⟩ := bind_ok.1 h
  obtain ⟨_, hid, h⟩ := bind_ok.1 h
  obtain ⟨_, -, h⟩ := bind_ok.1 h
  obtain ⟨acc, hacc, h⟩ := bind_ok.1 h
  obtain ⟨_, -, h⟩ := bind_ok.1 h
  simp only [ensure_ok, decide_eq_true_eq] at hid
  split at h
  · cases h
  · rename_i encryption he
    dsimp only at h
    split at h
    · cases h
    · rename_i hv
      cases h
      exact ⟨hv, ⟨hid, rfl, rfl, rfl⟩, acc, hacc, rfl, he, rfl⟩

theorem completionManifest_composed
    (h : completionManifest cfg sha256Hex session stored plan now = .ok m)
    (hc : List.Forall₂ (ObjectManifest.Holds crypto remote) (partManifests stored plan.parts)
      contents) :
    ComposedOf crypto remote (partManifests stored plan.parts) contents m := by
  obtain ⟨hv, -, acc, hacc, hchunks, he, -⟩ := completionManifest_ok h
  have hempty : Composition.Holds crypto remote {} [] := ⟨fun _ => rfl, rfl, .nil⟩
  have hholds := Composition.Holds.parts hacc hc hempty
  refine ⟨hv, ?_, ?_⟩
  · rw [ObjectManifest.sealing, hchunks, composeParts_sealing hacc]
    rfl
  · rw [ObjectManifest.Holds, hchunks]
    apply hholds.laid.mono
    intro c _ p hp
    have hc := hp m.objectId
    rwa [he] at hc

end Composed

theorem completeMultipartUpload_publish
    (h : ObjectFormat.completeMultipartUpload cfg sha256Hex s plan now = .ok (.publish m)) :
    ∃ session, s.getMultipartSession plan.uploadId = some session ∧
      (session.state = .initiated ∨ session.state = .uploading) ∧
      completionManifest cfg sha256Hex session (s.listMultipartParts plan.uploadId) plan now =
        .ok m := by
  unfold ObjectFormat.completeMultipartUpload at h
  split at h
  · cases h
  · rename_i session hfound
    split at h
    · cases h
    · cases hst : session.state with
      | completed => rw [hst] at h; cases h
      | completing =>
        rw [hst] at h
        dsimp only at h
        split at h <;> cases h
      | aborted | quarantined | recoveryRequired => rw [hst] at h; cases h
      | initiated =>
        rw [hst] at h
        obtain ⟨m', hm, he⟩ := map_ok.1 h
        cases he
        exact ⟨session, hfound, .inl hst, hm⟩
      | uploading =>
        rw [hst] at h
        obtain ⟨m', hm, he⟩ := map_ok.1 h
        cases he
        exact ⟨session, hfound, .inr hst, hm⟩

/-- A stored part that a plan lists with what is stored of it, published under the encryption. -/
structure PublishedPart (stored : List MultipartPart) (encryption : EncryptionInfo)
    (plan : MultipartPartPlan) (part : MultipartPart) (m : ObjectManifest) : Prop where
  found : stored.find? (fun part => part.partNumber = plan.partNumber) = some part
  eTag : part.eTag = plan.eTag
  manifest : part.manifest = some m
  valid : m.validate = .ok ()
  sizes : part.size = plan.size ∧ m.contentLength = part.size
  checksums : part.checksum = plan.checksum ∧ m.checksum.wholeObject = part.checksum
  encryption : m.encryption = encryption
  published : ∀ c ∈ m.chunks, c.isPublished = true

section Building
variable {acc : Composition} {stored : List MultipartPart} {encryption : EncryptionInfo}

theorem PublishedPart.fits (h : PublishedPart stored encryption plan part m)
    (hn : acc.previousPartNumber < plan.partNumber)
    (he : ∀ e, acc.encryption = some e → e = encryption) :
    PartFits stored acc plan part m :=
  ⟨hn, h.found, h.eTag, h.manifest, h.valid, h.sizes, h.checksums, fun e hacc =>
    (he e hacc).trans h.encryption.symm⟩

theorem PublishedPart.size_sum (h : PublishedPart stored encryption plan part m) :
    (m.chunks.map ChunkRef.size).sum = plan.size := by
  obtain ⟨-, hchunks⟩ := ObjectManifest.validate_ok.1 h.valid
  obtain ⟨hsum, -⟩ := validateChunks_total hchunks
  rw [Nat.zero_add] at hsum
  rw [hsum, h.sizes.2, h.sizes.1]

def Composition.Valid (acc : Composition) : Prop :=
  validateChunks acc.chunks 0 0 = .ok acc.offset

theorem Composition.Valid.push (h : acc.Valid) (hv : c.ValidAt index expected)
    (hp : c.isPublished = true) (hn : acc.chunks.length < 2 ^ 32)
    (hs : acc.offset + c.size < 2 ^ 64) : (acc.push objectId c).Valid := by
  obtain ⟨-, hid⟩ := Bool.and_eq_true_iff.1 hp
  have hc : ChunkRef.ValidAt
      { c.reference objectId with order := acc.chunks.length, offset := acc.offset }
      acc.chunks.length acc.offset :=
    { sources := rfl, durable := fun _ => of_decide_eq_true hid, replicas := hv.replicas
      order := (Nat.mod_eq_of_lt hn).symm, size := hv.size, offset := rfl, checksum := hv.checksum
      peer := hv.peer, bound := hs }
  rw [Composition.Valid, Composition.push, validateChunks_append, h]
  apply bind_ok.2
  refine ⟨acc.offset, rfl, bind_ok.2 ⟨acc.offset + c.size, ?_, rfl⟩⟩
  rw [Nat.zero_add]
  exact ChunkRef.validate_eq_ok.2 ⟨hc, rfl⟩

theorem Composition.Valid.chunks {chunks : List ChunkRef} (h : acc.Valid)
    (hv : ∀ c ∈ chunks, ∃ i e, c.ValidAt i e) (hp : ∀ c ∈ chunks, c.isPublished = true)
    (hn : acc.chunks.length + chunks.length ≤ 2 ^ 32)
    (hs : acc.offset + (chunks.map ChunkRef.size).sum < 2 ^ 64) :
    (chunks.foldl (Composition.push objectId) acc).Valid := by
  induction chunks generalizing acc with
  | nil => exact h
  | cons c chunks ih =>
    rw [List.length_cons] at hn
    rw [List.map_cons, List.sum_cons] at hs
    obtain ⟨i, e, hc⟩ := hv c List.mem_cons_self
    rw [List.foldl_cons]
    apply ih
    · exact h.push hc (hp c List.mem_cons_self) (by omega) (by omega)
    · exact fun c hc => hv c (List.mem_cons_of_mem _ hc)
    · exact fun c hc => hp c (List.mem_cons_of_mem _ hc)
    · rw [push_length]
      omega
    · rw [push_offset]
      omega

theorem Composition.foldl_push (acc : Composition) (chunks : List ChunkRef) (objectId : Uuid) :
    let acc' := chunks.foldl (Composition.push objectId) acc
    acc'.chunks.length = acc.chunks.length + chunks.length ∧
      acc'.offset = acc.offset + (chunks.map ChunkRef.size).sum ∧
      acc'.previousPartNumber = acc.previousPartNumber ∧ acc'.encryption = acc.encryption := by
  induction chunks generalizing acc with
  | nil => exact ⟨rfl, rfl, rfl, rfl⟩
  | cons c chunks ih =>
    obtain ⟨hn, ho, hp, he⟩ := ih (acc.push objectId c)
    rw [push_length] at hn
    rw [push_offset] at ho
    refine ⟨?_, ?_, hp, he⟩
    · rw [List.foldl_cons, hn, List.length_cons]
      omega
    · rw [List.foldl_cons, ho, List.map_cons, List.sum_cons, Nat.add_assoc]

/-- The loop goes through parts that are stored and published, in the order of their numbers. -/
theorem composeParts_ok (acc : Composition) {parts : List MultipartPartPlan}
    (hi : (acc.previousPartNumber :: parts.map MultipartPartPlan.partNumber).Pairwise (· < ·))
    (hp : ∀ plan ∈ parts, ∃ part m, PublishedPart stored encryption plan part m)
    (he : ∀ e, acc.encryption = some e → e = encryption)
    (hn : acc.chunks.length +
      ((partManifests stored parts).map fun m => m.chunks.length).sum ≤ 2 ^ 32)
    (hs : acc.offset + (parts.map MultipartPartPlan.size).sum < 2 ^ 64) (hv : acc.Valid) :
    ∃ acc', parts.foldlM (composePart stored) acc = .ok acc' ∧ acc'.Valid ∧
      acc'.offset = acc.offset + (parts.map MultipartPartPlan.size).sum ∧
      (acc'.encryption = if parts = [] then acc.encryption else some encryption) := by
  induction parts generalizing acc with
  | nil => exact ⟨acc, rfl, hv, rfl, rfl⟩
  | cons plan parts ih =>
    obtain ⟨part, m, hpart⟩ := hp plan List.mem_cons_self
    rw [List.map_cons, List.pairwise_cons] at hi
    have hfits := hpart.fits (hi.1 _ List.mem_cons_self) he
    rw [hfits.partManifests, List.map_cons, List.sum_cons] at hn
    rw [List.map_cons, List.sum_cons] at hs
    let acc₀ := acc.enter plan.partNumber part m
    let acc₁ := m.chunks.foldl (Composition.push m.objectId) acc₀
    have hsum := hpart.size_sum
    obtain ⟨-, hchunks⟩ := ObjectManifest.validate_ok.1 hpart.valid
    have hn₀ : acc₀.chunks.length + m.chunks.length ≤ 2 ^ 32 := by
      show acc.chunks.length + m.chunks.length ≤ 2 ^ 32
      omega
    have hs₀ : acc₀.offset + (m.chunks.map ChunkRef.size).sum < 2 ^ 64 := by
      show acc.offset + (m.chunks.map ChunkRef.size).sum < 2 ^ 64
      omega
    have hfold : composePart stored acc plan = .ok acc₁ :=
      composePart_ok.2 ⟨part, m, hfits, composeChunks_ok hpart.published hn₀ hs₀⟩
    have hv₁ : acc₁.Valid := Composition.Valid.chunks hv
      (fun c hc => validateChunks_mem hchunks hc) hpart.published hn₀ hs₀
    obtain ⟨hlen, hoff, hprev, henc⟩ := Composition.foldl_push acc₀ m.chunks m.objectId
    have henc₁ : acc₁.encryption = some encryption := by
      rw [henc]
      show some (acc.encryption.getD m.encryption) = some encryption
      cases hacc : acc.encryption with
      | none => rw [Option.getD_none, hpart.encryption]
      | some e => rw [Option.getD_some, he e hacc]
    obtain ⟨acc', hrest, hv', hoff', henc'⟩ := ih acc₁
      (by rw [hprev]; exact hi.2) (fun plan hm => hp plan (List.mem_cons_of_mem _ hm))
      (by intro e h; rw [henc₁] at h; cases h; rfl)
      (by rw [hlen]; show acc.chunks.length + m.chunks.length + _ ≤ _; omega)
      (by rw [hoff]; show acc.offset + _ + _ < _; omega) hv₁
    refine ⟨acc', ?_, hv', ?_, ?_⟩
    · rw [List.foldlM_cons, hfold]
      exact hrest
    · rw [hoff', hoff, List.map_cons, List.sum_cons, hsum]
      exact Nat.add_assoc _ _ _
    · rw [henc', henc₁, ite_self, if_neg (List.cons_ne_nil _ _)]

end Building

/-- A plan for an open upload: parts stored under one encryption, in order, and not too large. -/
structure Completable (cfg : ServiceConfig) (sha256Hex : Bytes → String) (s : MetadataStore)
    (plan : MultipartCompletionPlan) (session : MultipartSession) (encryption : EncryptionInfo) :
    Prop where
  found : s.getMultipartSession plan.uploadId = some session
  active : session.state = .initiated ∨ session.state = .uploading
  target : session.bucket = plan.bucket ∧ session.key = plan.key
  objectId : plan.objectId = plan.uploadId
  algorithm : plan.checksumAlgorithm = session.checksumAlgorithm
  nonempty : plan.parts ≠ []
  increasing : (0 :: plan.parts.map MultipartPartPlan.partNumber).Pairwise (· < ·)
  parts : ∀ p ∈ plan.parts, ∃ part m,
    PublishedPart (s.listMultipartParts plan.uploadId) encryption p part m
  count : ((partManifests (s.listMultipartParts plan.uploadId) plan.parts).map
    fun m => m.chunks.length).sum ≤ 2 ^ 32
  length : plan.contentLength = (plan.parts.map MultipartPartPlan.size).sum
  bound : plan.contentLength < 2 ^ 64
  texts : isBlank plan.bucket = false ∧ isBlank plan.key = false ∧
    isBlank cfg.storageChatId = false
  digest : ∀ bytes, isBlank (sha256Hex bytes) = false

theorem Completable.publish (h : Completable cfg sha256Hex s plan session encryption)
    (now : OffsetDateTime) :
    ∃ m, ObjectFormat.completeMultipartUpload cfg sha256Hex s plan now = .ok (.publish m) := by
  obtain ⟨acc, hfold, hv, hoff, henc⟩ := composeParts_ok {} h.increasing h.parts
    (by intro e he; cases he) (by rw [List.length_nil, Nat.zero_add]; exact h.count)
    (by rw [Nat.zero_add, ← h.length]; exact h.bound) rfl
  rw [if_neg h.nonempty] at henc
  rw [Nat.zero_add, ← h.length] at hoff
  obtain ⟨first, hfirst⟩ := List.exists_mem_of_ne_nil _ h.nonempty
  obtain ⟨part, pm, hpart⟩ := h.parts first hfirst
  obtain ⟨hhead, -⟩ := ObjectManifest.validate_ok.1 hpart.valid
  have hbuilt : ∃ m, completionManifest cfg sha256Hex session
      (s.listMultipartParts plan.uploadId) plan now = .ok m := by
    have hschema : manifestSchemaVersion ≠ 0 := by decide
    have halgorithm : isBlank "sha256-parts-v1" = false := by decide
    have hparts : (!plan.parts.isEmpty) = true := by
      rw [Bool.not_eq_true', List.isEmpty_eq_false_iff]
      exact h.nonempty
    unfold completionManifest
    simp only [hparts, h.objectId, h.algorithm, hfold, hoff, henc, ensure, decide_true, if_true,
      bind, Except.bind]
    split
    · rename_i message herror
      cases herror.symm.trans (ObjectManifest.validate_ok.2 ⟨⟨hschema, h.texts.1, h.texts.2.1,
        halgorithm, h.digest _, h.texts.2.2, hpart.encryption ▸ hhead.encryption⟩, hoff ▸ hv⟩)
    · exact ⟨_, rfl⟩
  obtain ⟨m, hm⟩ := hbuilt
  refine ⟨m, ?_⟩
  have htarget : (session.bucket != plan.bucket || session.key != plan.key) = false := by
    simp [h.target]
  rw [ObjectFormat.completeMultipartUpload, h.found]
  dsimp only
  rw [htarget, if_neg Bool.false_ne_true]
  rcases h.active with ha | ha
  · rw [ha, hm]
    rfl
  · rw [ha, hm]
    rfl

/-- A completed upload is its parts in turn: it is built, validates, has their payload identities
and reads as their contents, itself and after any moves. -/
theorem multipart_composition_preserves_content (cfg : ServiceConfig) (crypto : Crypto)
    (s : MetadataStore) (plan : MultipartCompletionPlan) (now : OffsetDateTime) :
    (∀ session encryption, Completable cfg crypto.sha256Hex s plan session encryption →
      ∃ m, ObjectFormat.completeMultipartUpload cfg crypto.sha256Hex s plan now =
        .ok (.publish m)) ∧
    ∀ m, ObjectFormat.completeMultipartUpload cfg crypto.sha256Hex s plan now = .ok (.publish m) →
      ∀ m', MovedFrom cfg m m' → ∀ remote contents,
        List.Forall₂ (ObjectManifest.Holds crypto remote)
          (partManifests (s.listMultipartParts plan.uploadId) plan.parts) contents →
        ComposedOf crypto remote
          (partManifests (s.listMultipartParts plan.uploadId) plan.parts) contents m' ∧
        ∀ d r, Downloads.Serve d remote → (∀ c ∈ m'.chunks, r.readCandidates c ≠ []) →
          ∀ start stop, start ≤ stop → stop ≤ contents.flatten.flatten.length →
            readRange crypto d r m' start stop =
              .ok (slice start stop contents.flatten.flatten) := by
  refine ⟨fun session encryption h => h.publish now, ?_⟩
  intro m hm m' hmoved remote contents hcontents
  obtain ⟨session, -, -, hbuilt⟩ := completeMultipartUpload_publish hm
  have hcomposed := (completionManifest_composed hbuilt hcontents).moves hmoved
  refine ⟨hcomposed, ?_⟩
  intro d r hd hne start stop hle hstop
  exact hcomposed.holds.readRange hcomposed.valid hd hne hle hstop

/-- Ciphertexts that begin with the object and the order they were sealed under. -/
def labellingCrypto : Crypto where
  sealInPlace objectId order plain :=
    some (UInt8.ofNat objectId.value.toNat :: UInt8.ofNat order :: plain)
  openInPlace objectId order cipher :=
    if cipher.take 2 = [UInt8.ofNat objectId.value.toNat, UInt8.ofNat order] then
      some (cipher.drop 2)
    else none
  sha256Hex _ := "aa"
  open_seal h := by
    cases h
    simp

def samplePart (number size : Nat) : MultipartPart :=
  { uploadId := ⟨9⟩, partNumber := number, size, checksum := "aa", eTag := "aa"
    telegram := { peerId := "-1001", messageId := 1, documentId := none }, createdAt := instant 0
    manifest := some
      { emptyObject (.mk (.ofNat 128 number)) "photos" "a.jpg" with
        contentLength := size, checksum := { algorithm := "sha256", wholeObject := "aa" }
        encryption := { enabled := true, format := "chacha20poly1305-v1", keyId := some "k1" }
        chunks := [{ order := 0, offset := 0, size, checksum := "aa", telegramPeerId := "-1001"
                     telegramMessageId := number, telegramDocumentId := none }] } }

def sampleSession : MultipartSession :=
  { uploadId := ⟨9⟩, bucket := "photos", key := "a.jpg", versionId := none
    contentType := "image/jpeg", checksumAlgorithm := "sha256", expiresAt := none
    state := .uploading, createdAt := instant 0, updatedAt := instant 0 }

def twoPartStore : MetadataStore :=
  { multipartUploads := (∅ : Table UploadRow).insertOrIgnore
      { uploadId := ⟨9⟩, connectionId := "", bucket := "photos", objectKey := "a.jpg"
        state := .uploading, session := sampleSession, createdAt := instant 0
        updatedAt := instant 0 }
    multipartParts := ((∅ : Table PartRow).insertOrIgnore
      { uploadId := ⟨9⟩, partNumber := 2, part := samplePart 2 3, createdAt := instant 0 })
      |>.insertOrIgnore
      { uploadId := ⟨9⟩, partNumber := 4, part := samplePart 4 1, createdAt := instant 0 } }

def sampleStorage : ServiceConfig := { storageChatId := "-1001", keyId := "k1" }

def twoPartPlan : MultipartCompletionPlan :=
  { uploadId := ⟨9⟩, objectId := ⟨9⟩, bucket := "photos", key := "a.jpg"
    contentType := "image/jpeg", checksumAlgorithm := "sha256", contentLength := 4
    parts := [{ partNumber := 2, size := 3, checksum := "aa", eTag := "aa" },
      { partNumber := 4, size := 1, checksum := "aa", eTag := "aa" }] }

def twoPartRemote (l : TelegramLocation) : Option Bytes :=
  if l.messageId = 2 then some [2, 0, 1, 2, 3] else if l.messageId = 4 then some [4, 0, 4] else none

def twoPartDownloads : Downloads where
  failoverRetries := 0
  permit _ _ := .ok ()
  message candidate _ :=
    match twoPartRemote candidate.location with
    | some bytes => .ok bytes
    | none => .error { kind := .other, message := "MESSAGE_EMPTY" }

theorem twoPartDownloads_serve : twoPartDownloads.Serve twoPartRemote := by
  refine ⟨fun _ _ => rfl, fun candidate n f h => ⟨?_, ?_⟩⟩
  · unfold twoPartRemote at h
    split at h
    · rename_i hid
      rw [hid]
      rfl
    · split at h
      · rename_i hid
        rw [hid]
        rfl
      · cases h
  · simp only [twoPartDownloads, h]

theorem twoPartPlan_completable :
    Completable sampleStorage labellingCrypto.sha256Hex twoPartStore twoPartPlan sampleSession
      { enabled := true, format := "chacha20poly1305-v1", keyId := some "k1" } where
  found := rfl
  active := .inr rfl
  target := ⟨rfl, rfl⟩
  objectId := rfl
  algorithm := rfl
  nonempty := List.cons_ne_nil _ _
  increasing := by decide
  parts p hp := by
    simp only [twoPartPlan, List.mem_cons, List.not_mem_nil, or_false] at hp
    rcases hp with rfl | rfl
    · exact ⟨samplePart 2 3, _, rfl, rfl, rfl, by decide, ⟨rfl, rfl⟩, ⟨rfl, rfl⟩, rfl, by decide⟩
    · exact ⟨samplePart 4 1, _, rfl, rfl, rfl, by decide, ⟨rfl, rfl⟩, ⟨rfl, rfl⟩, rfl, by decide⟩
  count := by decide
  length := rfl
  bound := by decide
  texts := by decide
  digest _ := show isBlank "aa" = false by decide

theorem samplePart_holds {number : Nat} (h : twoPartRemote ⟨"-1001", number, none⟩ =
      some (UInt8.ofNat (BitVec.ofNat 128 number).toNat :: 0 :: piece)) :
    ∀ m, (samplePart number piece.length).manifest = some m →
      m.Holds labellingCrypto twoPartRemote [piece] := by
  rintro _ ⟨⟩
  refine .cons ⟨rfl, ?_⟩ rfl rfl rfl .nil
  intro l hl
  rw [List.mem_singleton.1 hl]
  exact ⟨_, h, rfl⟩

/-- The parts of an upload that lists two of them read back behind one another. -/
theorem two_parts_read_as_one :
    ∃ m, ObjectFormat.completeMultipartUpload sampleStorage labellingCrypto.sha256Hex twoPartStore
        twoPartPlan (instant 1) = .ok (.publish m) ∧
      readRange labellingCrypto twoPartDownloads {} m 2 4 = .ok [3, 4] := by
  obtain ⟨hbuilt, hpreserved⟩ := multipart_composition_preserves_content sampleStorage
    labellingCrypto twoPartStore twoPartPlan (instant 1)
  obtain ⟨m, hm⟩ := hbuilt _ _ twoPartPlan_completable
  have hcontents : List.Forall₂ (ObjectManifest.Holds labellingCrypto twoPartRemote)
      (partManifests (twoPartStore.listMultipartParts ⟨9⟩) twoPartPlan.parts)
      [[[1, 2, 3]], [[4]]] :=
    .cons (samplePart_holds rfl _ rfl) (.cons (samplePart_holds rfl _ rfl) .nil)
  obtain ⟨-, hreads⟩ := hpreserved m hm m .composed twoPartRemote _ hcontents
  refine ⟨m, hm, hreads _ _ twoPartDownloads_serve ?_ 2 4 (by decide) (by decide)⟩
  intro c _
  exact List.cons_ne_nil _ _

end TelegramS3
