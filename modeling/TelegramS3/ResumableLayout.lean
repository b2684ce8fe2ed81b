import TelegramS3.ReceptionCalls
import TelegramS3.RechunkedContent

namespace TelegramS3
open Relational Fallible Transition MetadataStore
set_option autoImplicit true

/-- `finish_reception` up to its answer; a failure after the first check gives the upload up. -/
def ReceptionService.finishReception (svc : ReceptionService) (now : OffsetDateTime)
    (io : DiskOutcome) (r : Reception) :
    Except ObjectFormatError (ObjectManifest × MetadataStore) := do
  ensure r.state.finalReceived .receptionNotComplete
  ensureConnectionNotRemoving r.store
  match io with
  | .failed .. => throw (.io { kind := .other, message := "staging write failed" })
  | .done => finalizeReception svc.cfg (svc.finishArgs r.state) none r.store now

/-- The settings, the database, the clock and the disk at a call; they may change in between. -/
structure CallContext where
  cfg : ServiceConfig
  stagingBudget : Nat
  store : MetadataStore
  now : OffsetDateTime
  io : DiskOutcome

structure ReceiveCall extends CallContext where
  offset : Nat
  bytes : Bytes
  final : Bool

/-- An upload with the bodies and flags of the calls that were answered with success. -/
structure ReceptionSession where
  state : ReceptionState
  dir : Option StagingDir := some {}
  accepted : List (Bytes × Bool) := []

namespace ReceptionSession

def bodies (w : ReceptionSession) : List Bytes :=
  (w.accepted.map Prod.fst).filter fun body => !body.isEmpty

structure Opened (w : ReceptionSession) : Prop where
  state : w.state.chunks = [] ∧ w.state.offset = 0 ∧ w.state.finalReceived = false
  accepted : w.accepted = []

def reception (w : ReceptionSession) (ctx : CallContext) : Reception := ⟨ctx.store, w.state, w.dir⟩

end ReceptionSession

section Session
variable (crypto : Crypto) (objectId : Uuid)

def CallContext.service (ctx : CallContext) : ReceptionService :=
  { cfg := ctx.cfg, crypto, stagingBudget := ctx.stagingBudget, objectId }

def ReceiveCall.run (c : ReceiveCall) (w : ReceptionSession) :
    Reception × Except ObjectFormatError Nat :=
  (c.service crypto objectId).receiveReceptionChunk c.now c.io c.offset c.bytes c.final
    (w.reception c.toCallContext)

def ReceiveCall.apply (c : ReceiveCall) (w : ReceptionSession) : ReceptionSession :=
  match c.run crypto objectId w with
  | (r, .ok _) =>
    { state := r.state, dir := r.dir, accepted := w.accepted ++ [(c.bytes, c.final)] }
  | (r, .error _) => { state := r.state, dir := r.dir, accepted := w.accepted }

def ReceiveStep (c : ReceiveCall) (w w' : ReceptionSession) : Prop :=
  w' = c.apply crypto objectId w

/-- The file under the order of a chunk is its piece, sealed under the object and the order. -/
structure FiledChunk (dir : Option StagingDir) (c : ChunkRef) (p : Bytes) : Prop where
  checksum : c.checksum = crypto.sha256Hex p
  file : ∃ d f, dir = some d ∧ crypto.encryptChunk objectId c.order p = .ok f ∧
    ∀ g, (c.order, g) ∈ d.chunks ↔ g = f

/-- The object is the bodies in turn, in chunks of full size but the last, none after a final one.
-/
structure LaidOut (w : ReceptionSession) (m : ObjectManifest) : Prop where
  content : Laid (FiledChunk crypto objectId w.dir) 0 0 m.chunks w.bodies
  length : m.contentLength = (w.accepted.map Prod.fst).flatten.length
  sizes : ∀ i (c c' : ChunkRef), m.chunks[i]? = some c → m.chunks[i + 1]? = some c' →
    c.size = w.state.chunkSize
  final : w.accepted.Pairwise fun x y => x.2 = true → y.1 = []

/-- What is finished after any sequence of calls is laid out as it was sent. -/
def ResumableLayout (Step : ReceiveCall → ReceptionSession → ReceptionSession → Prop) : Prop :=
  ∀ past w, Run ReceptionSession.Opened Step past w → ∀ (ctx : CallContext) m s',
    (ctx.service crypto objectId).finishReception ctx.now ctx.io (w.reception ctx) = .ok (m, s') →
      LaidOut crypto objectId w m

end Session

/-- No data is sent once a final chunk has been received. -/
def NoLateData (c : ReceiveCall) (w : ReceptionSession) : Prop :=
  w.state.finalReceived = true → c.bytes = []

theorem StagingDir.mem_put {d : StagingDir} :
    (n, g) ∈ (d.put order f).chunks ↔ if n = order then g = f else (n, g) ∈ d.chunks := by
  rw [put, List.mem_cons, List.mem_filter]
  by_cases hn : n = order
  · simp [hn]
  · simp [hn]

/-- What a failed call can leave behind: bytes in the hash and the file of a chunk that is not
listed. -/
structure Residue (r r' : Reception) : Prop where
  state : ∃ hashed, r'.state = { r.state with hashed := hashed }
  dir : r'.dir = r.dir ∨
    ∃ d f, r.dir = some d ∧ r'.dir = some (d.put r.state.chunks.length f)

/-- A call with data that was accepted: its file and its chunk are the next ones. -/
structure Appended (svc : ReceptionService) (bytes : Bytes) (final : Bool) (r r' : Reception) :
    Prop where
  files : ∃ d f, r.dir = some d ∧
    svc.crypto.encryptChunk svc.objectId r.state.chunks.length bytes = .ok f ∧
    r'.dir = some (d.put r.state.chunks.length f)
  state : ∃ chat, r'.state = ({ r.state with
    hashed := r.state.hashed ++ bytes
    chunks := r.state.chunks ++
      [svc.crypto.localChunk svc.objectId chat r.state.chunks.length r.state.offset bytes]
    offset := r.state.offset + bytes.length } : ReceptionState).setFinal final

section Calls
variable {svc : ReceptionService} {r r' : Reception}

theorem Residue.refl (r : Reception) : Residue r r := ⟨⟨r.state.hashed, rfl⟩, .inl rfl⟩

theorem sealChunk_cases (io : DiskOutcome) (final : Bool)
    (h : svc.sealChunk io bytes r = (r', answer)) :
    (∃ e, answer = .error e ∧ Residue r r') ∨ answer = .ok () ∧
        Appended svc bytes final r { r' with state := r'.state.setFinal final } := by
  unfold ReceptionService.sealChunk at h
  dsimp only at h
  split at h
  · cases h
    exact .inl ⟨_, rfl, .refl r⟩
  · cases h
    exact .inl ⟨_, rfl, .refl r⟩
  · cases h
    exact .inl ⟨_, rfl, .refl r⟩
  · rename_i encrypted dir he hdir
    split at h
    · cases h
      exact .inl ⟨_, rfl, ⟨_, rfl⟩, .inr ⟨dir, encrypted, hdir, rfl⟩⟩
    · rename_i chat hchat
      cases h
      exact .inr ⟨rfl, ⟨dir, encrypted, hdir, he, rfl⟩, chat, rfl⟩

theorem stageChunk_cases (final : Bool) (h : svc.stageChunk now io bytes r = (r', answer)) :
    (∃ e, answer = .error e ∧ Residue r r') ∨ answer = .ok () ∧
        Appended svc bytes final r { r' with state := r'.state.setFinal final } := by
  unfold ReceptionService.stageChunk at h
  split at h
  · split at h
    · cases h
      exact .inl ⟨_, rfl, .refl r⟩
    · rcases sealChunk_cases io final h with ⟨e, he, hr⟩ | ⟨he, ha⟩
      · exact .inl ⟨e, he, hr.state, hr.dir⟩
      · exact .inr ⟨he, ha.files, ha.state⟩
  · cases h
    exact .inl ⟨_, rfl, .refl r⟩

/-- What a call does: it fails and leaves at most a residue, only sets the flag, or appends. -/
theorem receiveReceptionChunk_cases
    (h : svc.receiveReceptionChunk now io offset bytes final r = (r', answer)) :
    (∃ e, answer = .error e ∧ Residue r r') ∨
      ∃ n, answer = .ok n ∧ r.state.checkChunk offset bytes final = .ok () ∧
        (bytes = [] ∧ r' = { r with state := r.state.setFinal final } ∨
          bytes ≠ [] ∧ Appended svc bytes final r r') := by
  cases hc : r.state.checkChunk offset bytes final with
  | error e =>
    rw [ReceptionService.receiveReceptionChunk, hc] at h
    cases h
    exact .inl ⟨e, rfl, .refl r⟩
  | ok =>
    cases hb : bytes.isEmpty with
    | true =>
      rw [ReceptionService.receiveReceptionChunk, hc, hb] at h
      cases h
      exact .inr ⟨_, rfl, rfl, .inl ⟨List.isEmpty_iff.1 hb, rfl⟩⟩
    | false =>
      rw [receiveReceptionChunk_stage hc hb] at h
      have hne : bytes ≠ [] := by
        intro hnil
        rw [hnil] at hb
        cases hb
      cases hs : svc.stageChunk now io bytes r with
      | mk r₁ staged =>
        rw [hs] at h
        rcases stageChunk_cases final hs with ⟨e, rfl, hr⟩ | ⟨rfl, ha⟩
        · cases h
          exact .inl ⟨e, rfl, hr⟩
        · cases h
          exact .inr ⟨_, rfl, rfl, .inr ⟨hne, ha⟩⟩

end Calls

theorem checkChunk_length {st : ReceptionState}
    (h : st.checkChunk offset bytes false = .ok ()) : bytes.length = st.chunkSize := by
  obtain ⟨-, -, h⟩ := bind_ok.1 h
  obtain ⟨-, -, h⟩ := bind_ok.1 h
  have hsize := ensure_ok.1 h
  rw [Bool.false_or] at hsize
  exact beq_iff_eq.1 hsize

section
variable {R : ChunkRef → Bytes → Prop} {chunks : List ChunkRef}
  (h : Laid R order offset chunks pieces)
include h

theorem Laid.map_size : chunks.map ChunkRef.size = pieces.map List.length := by
  induction h with
  | nil => rfl
  | cons _ _ _ hs _ ih => rw [List.map_cons, List.map_cons, ih, hs]

theorem Laid.order_lt : ∀ c ∈ chunks, c.order < order + chunks.length := by
  induction h with
  | nil =>
    intro c hc
    cases hc
  | cons _ ho _ _ _ ih =>
    intro c hc
    rw [List.length_cons]
    rcases List.mem_cons.1 hc with rfl | hc
    · omega
    · have hlt := ih c hc
      omega

end

section Layout
variable {crypto : Crypto} {objectId : Uuid} {w w' : ReceptionSession}

theorem FiledChunk.put {p : Bytes}
    (h : FiledChunk crypto objectId (some d) c p) (hn : c.order ≠ n) :
    FiledChunk crypto objectId (some (d.put n g)) c p := by
  obtain ⟨d', f, hd, he, hf⟩ := h.file
  cases hd
  refine ⟨h.checksum, _, f, rfl, he, ?_⟩
  intro g'
  rw [StagingDir.mem_put, if_neg hn]
  exact hf g'

theorem laid_put (h : Laid (FiledChunk crypto objectId (some d)) 0 0 chunks pieces) :
    Laid (FiledChunk crypto objectId (some (d.put chunks.length g))) 0 0 chunks pieces := by
  apply h.mono
  intro c hc p hp
  have hlt := h.order_lt c hc
  exact hp.put (by omega)

structure ReceptionSession.Sound (crypto : Crypto) (objectId : Uuid) (w : ReceptionSession) :
    Prop where
  laid : Laid (FiledChunk crypto objectId w.dir) 0 0 w.state.chunks w.bodies
  offset : w.state.offset = w.bodies.flatten.length
  flagged : ∀ x ∈ w.accepted, x.2 = true → w.state.finalReceived = true
  full : w.state.finalReceived = false → ∀ body ∈ w.bodies, body.length = w.state.chunkSize
  inner : ∀ body ∈ w.bodies.dropLast, body.length = w.state.chunkSize
  final : w.accepted.Pairwise fun x y => x.2 = true → y.1 = []

namespace ReceptionSession

theorem Opened.sound (h : w.Opened) : w.Sound crypto objectId := by
  obtain ⟨⟨hc, ho, hf⟩, ha⟩ := h
  have hb : w.bodies = [] := by
    rw [bodies, ha]
    rfl
  refine ⟨?_, ?_, ?_, ?_, ?_, ?_⟩
  · rw [hc, hb]
    exact .nil
  · rw [ho, hb]
    rfl
  · simp [ha]
  · simp [hb]
  · simp [hb]
  · rw [ha]
    exact .nil

section
variable (h : w.Sound crypto objectId)
include h

theorem Sound.residue (hr : Residue (w.reception ctx) r) :
    Sound crypto objectId { state := r.state, dir := r.dir, accepted := w.accepted } := by
  obtain ⟨⟨hashed, hstate⟩, hdir⟩ := hr
  rw [hstate]
  refine ⟨?_, h.offset, h.flagged, h.full, h.inner, h.final⟩
  show Laid (FiledChunk crypto objectId r.dir) 0 0 w.state.chunks w.bodies
  rcases hdir with hdir | ⟨d, f, hd, hdir⟩
  · rw [hdir]
    exact h.laid
  · rw [hdir]
    have hd : w.dir = some d := hd
    have hlaid := h.laid
    rw [hd] at hlaid
    exact laid_put hlaid

theorem Sound.flagged_snoc (final : Bool) (body : Bytes) :
    ∀ x ∈ w.accepted ++ [(body, final)], x.2 = true → (w.state.finalReceived || final) = true := by
  intro x hx ht
  rcases List.mem_append.1 hx with hx | hx
  · rw [h.flagged x hx ht, Bool.true_or]
  · rw [List.mem_singleton.1 hx] at ht
    rw [show final = true from ht, Bool.or_true]

theorem Sound.final_snoc {body : Bytes} {final : Bool}
    (hl : w.state.finalReceived = true → body = []) :
    (w.accepted ++ [(body, final)]).Pairwise fun x y => x.2 = true → y.1 = [] := by
  rw [List.pairwise_append]
  refine ⟨h.final, List.pairwise_singleton _ _, ?_⟩
  intro x hx y hy ht
  rw [List.mem_singleton.1 hy]
  exact hl (h.flagged x hx ht)

end

theorem bodies_flag (h : w'.accepted = w.accepted ++ [([], final)]) : w'.bodies = w.bodies := by
  simp [bodies, h]

theorem bodies_append (h : w'.accepted = w.accepted ++ [(body, final)]) (hb : body ≠ []) :
    w'.bodies = w.bodies ++ [body] := by
  simp [bodies, h, hb]

theorem Sound.flag (h : w.Sound crypto objectId) (final : Bool) : Sound crypto objectId
      { w with state := w.state.setFinal final, accepted := w.accepted ++ [([], final)] } := by
  have hb : bodies
      { w with state := w.state.setFinal final, accepted := w.accepted ++ [([], final)] } =
        w.bodies := bodies_flag rfl
  refine ⟨hb ▸ h.laid, hb ▸ h.offset, h.flagged_snoc final [], ?_, hb ▸ h.inner,
    h.final_snoc fun _ => rfl⟩
  intro hf
  rw [hb]
  exact h.full (Bool.or_eq_false_iff.1 hf).1

theorem Sound.append {svc : ReceptionService} {r : Reception} {offset : Nat} {final : Bool}
    (h : w.Sound svc.crypto svc.objectId) (hb : body ≠ [])
    (hl : w.state.finalReceived = true → body = [])
    (hc : w.state.checkChunk offset body final = .ok ())
    (ha : Appended svc body final (w.reception ctx) r) :
    Sound svc.crypto svc.objectId
      { state := r.state, dir := r.dir, accepted := w.accepted ++ [(body, final)] } := by
  obtain ⟨⟨d, f, hd, he, hdir⟩, chat, hstate⟩ := ha
  have hd : w.dir = some d := hd
  have hopen : w.state.finalReceived = false := by
    cases hf : w.state.finalReceived with
    | false => rfl
    | true => exact absurd (hl hf) hb
  have hfull := h.full hopen
  rw [hdir, hstate]
  have hbodies (st : ReceptionState) (dir : Option StagingDir) :
      bodies { state := st, dir, accepted := w.accepted ++ [(body, final)] } = w.bodies ++ [body] :=
    bodies_append rfl hb
  refine ⟨?_, ?_, h.flagged_snoc final body, ?_, ?_, h.final_snoc hl⟩
  · rw [hbodies]
    have hlaid := h.laid
    rw [hd] at hlaid
    apply (laid_put hlaid).snoc
    · refine ⟨rfl, _, f, rfl, he, ?_⟩
      intro g
      rw [StagingDir.mem_put]
      exact iff_of_eq (if_pos rfl)
    · exact (Nat.zero_add _).symm
    · exact h.offset.trans (Nat.zero_add _).symm
    · rfl
  · rw [hbodies, List.flatten_append, List.flatten_singleton, List.length_append, ← h.offset]
    rfl
  · intro hf
    have hnot : final = false := (Bool.or_eq_false_iff.1 hf).2
    have hsize : body.length = w.state.chunkSize := checkChunk_length (hnot ▸ hc)
    rw [hbodies]
    intro x hx
    rcases List.mem_append.1 hx with hx | hx
    · exact hfull x hx
    · rw [List.mem_singleton.1 hx]
      exact hsize
  · rw [hbodies, List.dropLast_concat]
    exact hfull

theorem Sound.step (h : w.Sound crypto objectId) (hl : NoLateData c w)
    (hs : ReceiveStep crypto objectId c w w') : w'.Sound crypto objectId := by
  rw [hs, ReceiveCall.apply]
  cases hx : c.run crypto objectId w with
  | mk r answer =>
    rcases receiveReceptionChunk_cases hx with ⟨e, rfl, hr⟩ | ⟨n, rfl, hc, ⟨hb, rfl⟩ | ⟨hb, ha⟩⟩
    · exact h.residue hr
    · dsimp only
      rw [hb]
      exact h.flag c.final
    · exact Sound.append h hb hl hc ha

theorem sound_of_run (h : Run Opened (Guarded (ReceiveStep crypto objectId) NoLateData) past w) :
    w.Sound crypto objectId :=
  Run.invariant (fun _ => Opened.sound) (fun _ _ _ hi hs => hi.step hs.2 hs.1) h

theorem Sound.sizes (h : w.Sound crypto objectId)
    (hc : w.state.chunks[i]? = some c) (hc' : w.state.chunks[i + 1]? = some c') :
    c.size = w.state.chunkSize := by
  have hlen : w.state.chunks.length = w.bodies.length := by
    rw [← List.length_map ChunkRef.size, h.laid.map_size, List.length_map]
  have hlt : i + 1 < w.bodies.length := hlen ▸ (List.getElem?_eq_some_iff.1 hc').1
  have hsize : (w.state.chunks.map ChunkRef.size)[i]? = some c.size := by
    rw [List.getElem?_map, hc]
    rfl
  rw [h.laid.map_size, List.getElem?_map] at hsize
  obtain ⟨body, hbody, hsize⟩ := Option.map_eq_some_iff.1 hsize
  rw [← hsize]
  apply h.inner
  have hinner : w.bodies.dropLast[i]? = some body := by
    rw [List.getElem?_dropLast, if_pos (by omega), hbody]
  exact List.mem_of_getElem? hinner

end ReceptionSession

theorem finishReception_ok {svc : ReceptionService} {r : Reception}
    (h : svc.finishReception now io r = .ok (m, s')) :
    m = svc.cfg.newManifest (svc.finishArgs r.state) now := by
  obtain ⟨-, -, h⟩ := bind_ok.1 h
  obtain ⟨-, -, h⟩ := bind_ok.1 h
  cases io with
  | failed gone chunks => cases h
  | done => exact finalizeReception_manifest h

theorem ReceptionSession.Sound.laidOut (h : w.Sound crypto objectId) {ctx : CallContext}
    (hf : (ctx.service crypto objectId).finishReception ctx.now ctx.io (w.reception ctx) =
      .ok (m, s')) : LaidOut crypto objectId w m := by
  rw [finishReception_ok hf]
  refine ⟨h.laid, ?_, fun i c c' => h.sizes, h.final⟩
  show (w.state.chunks.map ChunkRef.size).sum = _
  rw [h.laid.sum_size, ReceptionSession.bodies, List.flatten_filter_not_isEmpty]

/-- An upload in which no data is sent after the final chunk is laid out as it was sent. -/
theorem resumable_layout_of_no_late_data (crypto : Crypto) (objectId : Uuid) :
    ResumableLayout crypto objectId (Guarded (ReceiveStep crypto objectId) NoLateData) := by
  intro past w hw ctx m s' hf
  exact (ReceptionSession.sound_of_run hw).laidOut hf

end Layout

def openSession : ReceptionSession := { state := openReception.state }

def callContext (s : MetadataStore) : CallContext where
  cfg := { storageChatId := "-1001", keyId := "k1" }
  stagingBudget := 1000
  store := s
  now := instant 1
  io := .done

structure TwoCalls where
  first : Bytes × Bool
  second : Bytes × Bool

namespace TwoCalls
variable (t : TwoCalls)

def call₁ : ReceiveCall :=
  { callContext openReception.store with offset := 0, bytes := t.first.1, final := t.first.2 }

def after₁ : ReceptionSession := t.call₁.apply taggingCrypto ⟨1⟩ openSession

def call₂ : ReceiveCall :=
  { callContext (t.call₁.run taggingCrypto ⟨1⟩ openSession).1.store with
    offset := t.first.1.length, bytes := t.second.1, final := t.second.2 }

def after₂ : ReceptionSession := t.call₂.apply taggingCrypto ⟨1⟩ t.after₁

def finish : CallContext := callContext (t.call₂.run taggingCrypto ⟨1⟩ t.after₁).1.store

def outcome : Except ObjectFormatError (ObjectManifest × MetadataStore) :=
  (t.finish.service taggingCrypto ⟨1⟩).finishReception t.finish.now t.finish.io
    (t.after₂.reception t.finish)

theorem outcome_ok (h : t.outcome.toOption.isSome = true) : ∃ m s', t.outcome = .ok (m, s') := by
  obtain ⟨⟨m, s'⟩, hx⟩ := Option.isSome_iff_exists.1 h
  exact ⟨m, s', ok_of_toOption hx⟩

theorem opened : openSession.Opened := ⟨⟨rfl, rfl, rfl⟩, rfl⟩

theorem run (C : ReceiveCall → ReceptionSession → Prop) (hfirst : C t.call₁ openSession)
    (hsecond : C t.call₂ t.after₁) :
    Run ReceptionSession.Opened (Guarded (ReceiveStep taggingCrypto ⟨1⟩) C)
      [t.after₁, openSession] t.after₂ :=
  .step (.step (.init opened) ⟨rfl, hfirst⟩) ⟨rfl, hsecond⟩

end TwoCalls

/-- A full chunk and a shorter final one are laid out as they were sent. -/
theorem orderly_upload_laid_out :
    ∃ m, LaidOut taggingCrypto ⟨1⟩ (TwoCalls.after₂ ⟨([1, 2, 3, 4], false), ([5, 6], true)⟩) m := by
  let t : TwoCalls := ⟨([1, 2, 3, 4], false), ([5, 6], true)⟩
  obtain ⟨m, s', hf⟩ := t.outcome_ok (by decide +kernel)
  have hr := t.run NoLateData (fun h => absurd h (by decide +kernel))
    (fun h => absurd h (by decide +kernel))
  exact ⟨m, resumable_layout_of_no_late_data taggingCrypto ⟨1⟩ _ _ hr t.finish m s' hf⟩

/-- Data that is sent after a short final chunk is accepted. -/
theorem data_after_final_accepted :
    ¬ ResumableLayout taggingCrypto ⟨1⟩ (ReceiveStep taggingCrypto ⟨1⟩) := by
  intro h
  let t : TwoCalls := ⟨([1], true), ([2, 3], true)⟩
  obtain ⟨m, s', hf⟩ := t.outcome_ok (by decide +kernel)
  have hr := (t.run (fun _ _ => True) trivial trivial).mono fun _ _ _ hs => hs.1
  have hlate := (h _ _ hr t.finish m s' hf).final
  have haccepted : t.after₂.accepted = [([1], true), ([2, 3], true)] := by decide +kernel
  rw [haccepted, List.pairwise_cons] at hlate
  cases hlate.1 ([2, 3], true) (List.mem_singleton.2 rfl) rfl

end TelegramS3
