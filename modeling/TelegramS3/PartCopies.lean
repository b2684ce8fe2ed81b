import TelegramS3.PartUploads
import TelegramS3.Serving

namespace TelegramS3
open Relational Fallible Transition MetadataStore
set_option autoImplicit true

/-- The messages of the chats by chat and id; what was sent does not change. -/
abbrev Messages := String → Int → Bytes

def ObjectManifest.chunkPlaintext (m : ObjectManifest) (crypto : Crypto) (messages : Messages)
    (c : ChunkRef) : Except ObjectFormatError Bytes := do
  ensure (fitsI32 c.telegramMessageId)
    (.invalidRead ("telegram message id out of range for chunk " ++ toString c.order))
  let cipher := messages c.telegramPeerId c.telegramMessageId
  let plain ← if m.encryption.enabled then
      let payload := c.payloadIdentity m.objectId
      (crypto.decryptChunk payload.1 payload.2 cipher).mapError .checksumMismatch
    else .ok cipher
  let actual := crypto.sha256Hex plain
  ensure (actual = c.checksum) (.checksumMismatch
    { scope := "chunk " ++ toString c.order, expected := c.checksum, actual })
  return plain

def ObjectManifest.spanBytes (m : ObjectManifest) (crypto : Crypto) (messages : Messages)
    (span : ReadSpan) : Except ObjectFormatError Bytes :=
  match m.chunks[span.order]? with
  | none => .error (.missingChunk m.objectId span.order)
  | some c => do
    let plain ← m.chunkPlaintext crypto messages c
    ensure (span.offsetWithinChunk + span.length ≤ plain.length)
      (.io { kind := .other, message := "range end index out of range" })
    return (plain.drop span.offsetWithinChunk).take span.length

def ObjectManifest.contentRange (m : ObjectManifest) (crypto : Crypto) (messages : Messages)
    (range : ByteRange) : Except ObjectFormatError Bytes := do
  let plan ← planRead m range.start range.stop
  let pieces ← plan.chunks.mapM (m.spanBytes crypto messages)
  return pieces.flatten

def ObjectManifest.primary (m : ObjectManifest) : ObjectManifest :=
  { m with chunks := m.chunks.map fun c => { c with replicas := [] } }

theorem planSpans_primary (start stop : Nat) (chunks : List ChunkRef) :
    planSpans start stop (chunks.map fun c => { c with replicas := [] }) =
      planSpans start stop chunks := by
  induction chunks with
  | nil => rfl
  | cons c rest ih =>
    simp only [List.map_cons, planSpans, ih]
    rfl

theorem ObjectManifest.planRead_primary (m : ObjectManifest) (start stop : Nat) :
    planRead m.primary start stop = planRead m start stop := by
  have hs : planSpans start stop m.primary.chunks = planSpans start stop m.chunks :=
    planSpans_primary start stop m.chunks
  unfold planRead
  rw [hs]
  rfl

theorem ObjectManifest.spanBytes_primary (m : ObjectManifest) (crypto : Crypto)
    (messages : Messages) (span : ReadSpan) :
    m.primary.spanBytes crypto messages span = m.spanBytes crypto messages span := by
  unfold spanBytes
  have hc : m.primary.chunks[span.order]? =
      m.chunks[span.order]?.map fun c => { c with replicas := [] } := List.getElem?_map
  rw [hc]
  cases m.chunks[span.order]? with
  | none => rfl
  | some c => rfl

theorem ObjectManifest.contentRange_primary (m : ObjectManifest) (crypto : Crypto)
    (messages : Messages) (range : ByteRange) :
    m.primary.contentRange crypto messages range = m.contentRange crypto messages range := by
  have hs : m.primary.spanBytes crypto messages = m.spanBytes crypto messages :=
    funext (m.spanBytes_primary crypto messages)
  unfold contentRange
  rw [m.planRead_primary, hs]

/-- Where a call of `upload_part_copy` is; a call that has read its source goes on as the call of
a part. -/
inductive CopyPhase where
  | arrived
  | resolved (m : ObjectManifest) (range : ByteRange)
  | sent (m : ObjectManifest) (range : ByteRange) (part : Nat)
  | failed (e : S3Error)

structure CopyCall where
  source : ObjectSource
  conditions : ReadConditions := {}
  range : Option (List Char) := none
  uploadId : String
  partNumber : Int
  phase : CopyPhase := .arrived

structure CopyWorld where
  parts : PartWorld
  copies : List CopyCall := []

structure CopyService where
  parts : PartService
  server : ReadServer
  messages : Messages

inductive CopyAction where
  | part (a : PartAction)
  | start (source : ObjectSource) (conditions : ReadConditions) (range : Option (List Char))
    (uploadId : String) (partNumber : Int)
  | resolve (i : Nat) (now : OffsetDateTime)
  | read (i : Nat) (now : OffsetDateTime) (transport : Except ObjectFormatError Unit)

namespace CopyService
variable (svc : CopyService)

def readBytes (s : MetadataStore) (m : ObjectManifest) (range : ByteRange) (now : OffsetDateTime)
    (transport : Except ObjectFormatError Unit) : Except S3Error Bytes := do
  let v ← (ReadServer.readRangeSource s m.bucket m.key range now).mapError .object
  transport.mapError .object
  (v.manifest.contentRange svc.parts.crypto svc.messages range).mapError .object

def copyTarget (c : CopyCall) : Except S3Error (Uuid × Nat) := do
  let upload ← (svc.server.parseUuid c.uploadId).mapError fun e => .s3 .invalidArgument e
  ensure (0 ≤ c.partNumber && c.partNumber < 2 ^ 32)
    (.s3 .invalidArgument "invalid part number")
  return (upload, c.partNumber.toNat)

def sendPart (s : MetadataStore) (c : CopyCall) (m : ObjectManifest) (range : ByteRange)
    (now : OffsetDateTime) (transport : Except ObjectFormatError Unit) :
    Except S3Error PartCall := do
  let bytes ← svc.readBytes s m range now transport
  let (upload, number) ← svc.copyTarget c
  return { upload, number, body := [some bytes] }

end CopyService

def CopyWorld.set (w : CopyWorld) (i : Nat) (c : CopyCall) (phase : CopyPhase) : CopyWorld :=
  { w with copies := w.copies.set i { c with phase } }

def CopyAction.apply (svc : CopyService) (fromStr : String → Option ETagCondition)
    (a : CopyAction) (w : CopyWorld) : Option CopyWorld :=
  match a with
  | .part a => (a.apply svc.parts fromStr w.parts).map fun parts => { w with parts }
  | .start source conditions range uploadId partNumber =>
    some { w with
      copies := w.copies ++ [{ source, conditions, range, uploadId, partNumber }] }
  | .resolve i now =>
    w.copies[i]?.bind fun c =>
      match c.phase with
      | .arrived =>
        match svc.server.partCopySource w.parts.store c.source c.conditions c.range now with
        | .ok (m, range) => some (w.set i c (.resolved m range))
        | .error e => some (w.set i c (.failed e))
      | _ => none
  | .read i now transport =>
    w.copies[i]?.bind fun c =>
      match c.phase with
      | .resolved m range =>
        match svc.sendPart w.parts.store c m range now transport with
        | .ok call => some
            { (w.set i c (.sent m range w.parts.calls.length)) with
              parts := { w.parts with calls := w.parts.calls ++ [call] } }
        | .error e => some (w.set i c (.failed e))
      | _ => none

def CopyStep (svc : CopyService) (fromStr : String → Option ETagCondition) (a : CopyAction)
    (w w' : CopyWorld) : Prop :=
  a.apply svc fromStr w = some w'

structure CopyWorld.Initial (w : CopyWorld) : Prop where
  parts : w.parts.Initial
  copies : w.copies = []

/-- The part a copy is answered with is made of the range of the source it has checked. -/
def CopiesResolvedSource (svc : CopyService)
    (Step : CopyAction → CopyWorld → CopyWorld → Prop) : Prop :=
  ∀ past w, Run CopyWorld.Initial Step past w → ∀ c ∈ w.copies, ∀ m range i,
    c.phase = .sent m range i → ∀ call p, w.parts.calls[i]? = some call →
      call.phase = .answered (.ok p) →
        ∃ bytes, m.contentRange svc.parts.crypto svc.messages range = .ok bytes ∧
          p.Holds svc.parts bytes

/-- A copy reads its source only while the key shows what it has resolved, and parts are sent
alike. -/
def ReadsResolved (a : CopyAction) (w : CopyWorld) : Prop :=
  match a with
  | .part a => SendsAlike a w.parts
  | .read i .. => ∀ c m range, w.copies[i]? = some c → c.phase = .resolved m range →
      ∀ m', w.parts.store.getActiveManifest m.bucket m.key = .ok (some m') → m'.primary = m.primary
  | _ => True

namespace CopyService
variable {svc : CopyService} {s : MetadataStore} {m : ObjectManifest} {range : ByteRange}

theorem readRangeSource_active (h : ReadServer.readRangeSource s bucket key range now = .ok v) :
    s.getActiveManifest bucket key = .ok (some v.manifest) := by
  obtain ⟨found, hf, h⟩ := bind_ok.1 h
  cases found with
  | none => cases h
  | some m =>
    obtain ⟨_, -, h⟩ := bind_ok.1 h
    obtain ⟨_, -, h⟩ := bind_ok.1 h
    obtain ⟨plan, -, h⟩ := bind_ok.1 h
    cases h
    exact mapError_ok.1 hf

theorem readBytes_ok (h : svc.readBytes s m range now transport = .ok bytes) :
    ∃ m', s.getActiveManifest m.bucket m.key = .ok (some m') ∧
      m'.contentRange svc.parts.crypto svc.messages range = .ok bytes := by
  obtain ⟨v, hv, h⟩ := bind_ok.1 h
  obtain ⟨_, -, h⟩ := bind_ok.1 h
  exact ⟨v.manifest, readRangeSource_active (mapError_ok.1 hv), mapError_ok.1 h⟩

theorem sendPart_ok (h : svc.sendPart s c m range now transport = .ok call) :
    call.phase = .arrived ∧ ∃ m', s.getActiveManifest m.bucket m.key = .ok (some m') ∧
        m'.contentRange svc.parts.crypto svc.messages range = .ok call.bytes := by
  obtain ⟨bytes, hb, h⟩ := bind_ok.1 h
  obtain ⟨target, -, h⟩ := bind_ok.1 h
  cases h
  obtain ⟨m', ha, hc⟩ := readBytes_ok hb
  refine ⟨rfl, m', ha, ?_⟩
  rw [hc, PartCall.bytes, frameBytes, List.flatMap_singleton]
  rfl

end CopyService

def KeepsBodies (calls calls' : List PartCall) : Prop :=
  ∀ (i : Nat) (call : PartCall), calls[i]? = some call →
    ∃ call' : PartCall, calls'[i]? = some call' ∧ call'.body = call.body

theorem KeepsBodies.append (calls : List PartCall) (new : PartCall) :
    KeepsBodies calls (calls ++ [new]) := by
  intro i call hc
  refine ⟨call, ?_, rfl⟩
  rw [List.getElem?_append_left (List.getElem?_eq_some_iff.1 hc).1]
  exact hc

theorem KeepsBodies.set (hj : calls[j]? = some c) (phase : PartPhase) :
    KeepsBodies calls (calls.set j { c with phase }) := by
  intro i call hc
  by_cases he : j = i
  · subst he
    have hlt : j < calls.length := (List.getElem?_eq_some_iff.1 hc).1
    refine ⟨{ c with phase }, List.getElem?_set_self hlt, ?_⟩
    rw [Option.some.inj (hj.symm.trans hc)]
  · exact ⟨call, (List.getElem?_set_ne he).trans hc, rfl⟩

theorem PartStep.keepsBodies (h : PartStep svc fromStr a w w') : KeepsBodies w.calls w'.calls := by
  cases a with
  | call op =>
    simp only [PartStep, PartAction.apply, Option.ite_none_right_eq_some] at h
    obtain ⟨s', -, rfl⟩ := Option.map_eq_some_iff.1 h.2
    exact fun i call hc => ⟨call, hc, rfl⟩
  | start upload number body checksum =>
    cases h
    exact .append w.calls _
  | advance j fresh now io =>
    simp only [PartStep, PartAction.apply, Option.ite_none_right_eq_some] at h
    obtain ⟨c, hj, hs⟩ := Option.bind_eq_some_iff.1 h.2
    obtain ⟨next, -, rfl⟩ := Option.map_eq_some_iff.1 hs
    exact .set hj next.2
  | abandon j =>
    obtain ⟨c, hj, rfl⟩ := Option.map_eq_some_iff.1 h
    exact .set hj .abandoned

def CopyCall.Faithful (svc : CopyService) (calls : List PartCall) (c : CopyCall) : Prop :=
  ∀ m range i, c.phase = .sent m range i → ∃ call, calls[i]? = some call ∧
    m.contentRange svc.parts.crypto svc.messages range = .ok call.bytes

structure CopyWorld.Sound (svc : CopyService) (w : CopyWorld) : Prop where
  parts : w.parts.Sound svc.parts
  copies : ∀ c ∈ w.copies, c.Faithful svc w.parts.calls

namespace CopyWorld
variable {svc : CopyService} {w w' : CopyWorld}

theorem Faithful.mono (h : CopyCall.Faithful svc calls c)
    (hk : KeepsBodies calls calls') : CopyCall.Faithful svc calls' c := by
  intro m range i hp
  obtain ⟨call, hc, hb⟩ := h m range i hp
  obtain ⟨call', hc', he⟩ := hk i call hc
  refine ⟨call', hc', ?_⟩
  rw [hb, PartCall.bytes, PartCall.bytes, he]

theorem Sound.set (h : w.Sound svc) (hp : ∀ m range i, phase ≠ .sent m range i) :
    (w.set j c phase).Sound svc := by
  refine ⟨h.parts, fun c' hc' => ?_⟩
  rcases List.mem_or_eq_of_mem_set hc' with hc' | rfl
  · exact h.copies c' hc'
  · exact fun m range i he => absurd he (hp m range i)

theorem Sound.send (h : w.Sound svc) (hcall : call.phase = .arrived)
    (hb : m.contentRange svc.parts.crypto svc.messages range = .ok call.bytes) :
    { (w.set j c (.sent m range w.parts.calls.length)) with
      parts := { w.parts with calls := w.parts.calls ++ [call] } }.Sound svc := by
  refine ⟨h.parts.start call hcall, fun c' hc' => ?_⟩
  rcases List.mem_or_eq_of_mem_set hc' with hc' | rfl
  · exact Faithful.mono (h.copies c' hc') (.append w.parts.calls call)
  · intro m' range' i he
    cases he
    exact ⟨call, List.getElem?_concat_length, hb⟩

theorem Sound.step (h : w.Sound svc) (hs : CopyStep svc fromStr a w w')
    (ha : ReadsResolved a w) : w'.Sound svc := by
  cases a with
  | part a =>
    obtain ⟨parts, hp, rfl⟩ := Option.map_eq_some_iff.1 hs
    refine ⟨h.parts.step hp ha, fun c hc => ?_⟩
    exact Faithful.mono (h.copies c hc) (PartStep.keepsBodies hp)
  | start source conditions range uploadId partNumber =>
    cases hs
    refine ⟨h.parts, fun c hc => ?_⟩
    rcases List.mem_append.1 hc with hc | hc
    · exact h.copies c hc
    · rw [List.mem_singleton.1 hc]
      intro m range i he
      cases he
  | resolve i now =>
    obtain ⟨c, hc, hs⟩ := Option.bind_eq_some_iff.1 hs
    split at hs
    · split at hs
      · cases hs
        exact h.set nofun
      · cases hs
        exact h.set nofun
    · cases hs
  | read i now transport =>
    obtain ⟨c, hc, hs⟩ := Option.bind_eq_some_iff.1 hs
    split at hs
    · rename_i m range hp
      split at hs
      · rename_i call hcall
        cases hs
        obtain ⟨hnew, m', hm', hb⟩ := CopyService.sendPart_ok hcall
        apply h.send hnew
        rw [← m.contentRange_primary, ← ha c m range hc hp m' hm', m'.contentRange_primary]
        exact hb
      · cases hs
        exact h.set nofun
    · cases hs

theorem Sound.init (h : w.Initial) : w.Sound svc := by
  refine ⟨.init h.parts, fun c hc => ?_⟩
  rw [h.copies] at hc
  cases hc

end CopyWorld

theorem copies_resolved_source (svc : CopyService) (fromStr : String → Option ETagCondition) :
    CopiesResolvedSource svc (Guarded (CopyStep svc fromStr) ReadsResolved) := by
  intro past w hr c hc m range i hp call p hcall hans
  have hs : w.Sound svc := by
    apply hr.invariant (I := fun w => w.Sound svc)
    · intro w h
      exact .init h
    · intro a w w' ih h
      exact ih.step h.1 h.2
  obtain ⟨call', hcall', hb⟩ := hs.copies c hc m range i hp
  have he : call' = call := Option.some.inj (hcall'.symm.trans hcall)
  subst he
  have hd := (hs.parts.calls call' (List.mem_of_getElem? hcall)).carries
  rw [hans] at hd
  exact ⟨call'.bytes, hb, hd⟩

def copyService : CopyService where
  parts := partService
  server := { parseUuid := fun text => .ok (if text = "1" then ⟨1⟩ else ⟨7⟩)
              getShareLink := fun _ => none }
  messages _ id := if id = 5 then [1, 2, 3, 0] else [4, 5, 6, 0]

def copyOps (ops : List StoreOp) : List CopyAction := ops.map fun op => .part (.call op)

/-- The first version of a key with two versions is copied into a part, and the worker publishes
the part. -/
def copiedPart : List CopyAction :=
  let now := (instant 3).unixTimestamp
  copyOps (storeObject ⟨1⟩ ⟨11⟩ ⟨21⟩ "aa" 5 1 ++ storeObject ⟨2⟩ ⟨12⟩ ⟨22⟩ "bb" 6 2 ++
      [.createMultipartSession openUpload (instant 3)]) ++
    [.start ⟨"photos", "a", some "1"⟩ {} none "7" 1, .resolve 0 (instant 3),
      .read 0 (instant 3) (.ok ())] ++
    List.replicate 6 (.part (.advance 0 ⟨30⟩ (instant 3) (.ok ()))) ++
    List.replicate 11 (.part (.advance 0 ⟨31⟩ (instant 3) (.ok ()))) ++
    copyOps [.claimTransfer now ⟨32⟩, .beginSendAttempt ⟨30⟩ ⟨32⟩ 0 ⟨33⟩ now,
      .finishSendAttempt ⟨30⟩ ⟨32⟩ 0 ⟨33⟩
        { peerId := "-1001", messageId := 7, documentId := none } now,
      .enterCommitting ⟨30⟩ ⟨32⟩ now, .finishPartJob ⟨30⟩ ⟨32⟩ (instant 3)] ++
    List.replicate 5 (.part (.advance 0 ⟨31⟩ (instant 3) (.ok ())))

def copiedPartRun : List CopyWorld × CopyWorld :=
  (exec (CopyAction.apply copyService fun _ => none) [] { parts := { store := photosStore } }
    copiedPart).get (by decide +kernel)

/-- The part is made of the second version. -/
theorem copied_part_holds_other_version :
    ¬ CopiesResolvedSource copyService (CopyStep copyService fun _ => none) := by
  intro h
  have hi : CopyWorld.Initial { parts := { store := photosStore } } :=
    ⟨⟨⟨⟨rfl, rfl, rfl⟩, rfl, rfl⟩, rfl, rfl, rfl⟩, rfl⟩
  have hr : Run CopyWorld.Initial (CopyStep copyService fun _ => none) copiedPartRun.1
      copiedPartRun.2 := Run.of_exec_isSome hi (by decide +kernel)
  obtain ⟨c, m, range, call, p, hc, hp, hcall, hans, hm, he⟩ : ∃ c m range call p,
      copiedPartRun.2.copies[0]? = some c ∧ c.phase = .sent m range 0 ∧
      copiedPartRun.2.parts.calls[0]? = some call ∧ call.phase = .answered (.ok p) ∧
      m.contentRange copyService.parts.crypto copyService.messages range = .ok [1, 2, 3] ∧
      p.checksum ≠ taggingCrypto.sha256Hex [1, 2, 3] :=
    ⟨_, _, _, _, _, rfl, rfl, rfl, rfl, rfl, by decide +kernel⟩
  obtain ⟨bytes, hb, hh⟩ := h _ _ hr c (List.mem_of_getElem? hc) m range 0 hp call p hcall hans
  rw [hm] at hb
  cases hb
  exact he hh.checksum

end TelegramS3
