import TelegramS3.Receptions

namespace TelegramS3
open Relational Fallible Transition MetadataStore
set_option autoImplicit true

/-- A resumable upload between two calls. -/
structure Reception where
  store : MetadataStore
  state : ReceptionState
  dir : Option StagingDir

def StagingDir.put (d : StagingDir) (order : Nat) (f : Bytes) : StagingDir :=
  { d with chunks := (order, f) :: d.chunks.filter (·.1 != order) }

namespace ReceptionService
variable (svc : ReceptionService)

/-- The part of `stage_transfer_chunk` behind the reservation; what was done before an error
stays. -/
def sealChunk (io : DiskOutcome) (bytes : Bytes) (r : Reception) :
    Reception × Except ObjectFormatError Unit :=
  let order := r.state.chunks.length
  match svc.crypto.encryptChunk svc.objectId order bytes, r.dir, io with
  | .error e, _, _ => (r, .error e)
  | .ok _, none, _ =>
    (r, .error (.io { kind := .notFound, message := "No such file or directory" }))
  | .ok _, some _, .failed .. =>
    (r, .error (.io { kind := .other, message := "staging write failed" }))
  | .ok encrypted, some dir, .done =>
    let r := { r with
      dir := some (dir.put order encrypted)
      state := { r.state with hashed := r.state.hashed ++ bytes } }
    match svc.cfg.storageChat with
    | .error e => (r, .error e)
    | .ok chat =>
      let chunk := svc.crypto.localChunk svc.objectId chat order r.state.offset bytes
      ({ r with state := { r.state with
          chunks := r.state.chunks ++ [chunk], offset := r.state.offset + bytes.length } }, .ok ())

/-- `stage_transfer_chunk` on the state of an upload. -/
def stageChunk (now : OffsetDateTime) (io : DiskOutcome) (bytes : Bytes) (r : Reception) :
    Reception × Except ObjectFormatError Unit :=
  if r.state.chunks.length < 2 ^ 32 then
    match r.store.reserveStaging svc.objectId (bytes.length + 16) svc.stagingBudget
      now.unixTimestamp with
    | .error e => (r, .error (.metadata e))
    | .ok s => svc.sealChunk io bytes { r with store := s }
  else (r, .error (.invalidPlan "too many chunks"))

/-- A whole call that meets no other one; it answers with the offset reached. -/
def receiveReceptionChunk (now : OffsetDateTime) (io : DiskOutcome) (offset : Nat) (bytes : Bytes)
    (final : Bool) (r : Reception) : Reception × Except ObjectFormatError Nat :=
  match r.state.checkChunk offset bytes final with
  | .error e => (r, .error e)
  | .ok () =>
    match if bytes.isEmpty then (r, .ok ()) else svc.stageChunk now io bytes r with
    | (r, .error e) => (r, .error e)
    | (r, .ok ()) => ({ r with state := r.state.setFinal final }, .ok r.state.offset)

def reserved (s : MetadataStore) : Option Nat :=
  (s.transferJobs.get? svc.objectId).map TransferJob.bytes

end ReceptionService

def ReceptionWorld.reception (w : ReceptionWorld) : Reception := ⟨w.store, w.state, w.dir⟩

def ReceptionAnswer.of : Except ObjectFormatError Nat → ReceptionAnswer
  | .ok received => .status received
  | .error e => .error e

def ReceptionWorld.calling (w : ReceptionWorld) (phase : ReceptionPhase) : ReceptionWorld :=
  { w with calls := w.calls ++ [phase] }

def ReceptionWorld.after (w : ReceptionWorld) (r : Reception) (answer : ReceptionAnswer)
    (received : List Bytes) : ReceptionWorld :=
  { w with
    store := r.store, state := r.state, dir := r.dir, received
    calls := w.calls ++ [.answered answer] }

section Steps
variable {svc : ReceptionService} {w u : ReceptionWorld}

theorem ReceptionWorld.calling_move (w : ReceptionWorld) (p q : ReceptionPhase) :
    (w.calling p).move w.calls.length q = w.calling q := by
  simp [calling, move]

theorem advance_calling (h : Run (fun v => v = w) (ReceptionStep svc) past (u.calling p))
    (now : OffsetDateTime) (io : DiskOutcome)
    (ha : svc.advance (u.calling p) u.calls.length now io p = some u') :
    Run (fun v => v = w) (ReceptionStep svc) (u.calling p :: past) u' := by
  have hp : (u.calling p).calls[u.calls.length]? = some p := List.getElem?_concat_length
  have hs : ReceptionStep svc (.advance u.calls.length now io) (u.calling p) u' := by
    rw [ReceptionStep, ReceptionAction.apply, hp]
    exact ha
  exact .step h hs

theorem ReceptionWorld.calling_answer (w : ReceptionWorld) (p : ReceptionPhase)
    (a : ReceptionAnswer) :
    (w.calling p).answer w.calls.length a = w.after w.reception a w.received :=
  w.calling_move p (.answered a)

/-- The step that writes the file is the part of the call behind the reservation. -/
theorem writeChunk_eq (io : DiskOutcome) (bytes : Bytes) (final : Bool) :
    svc.writeChunk (w.calling (.writing bytes final)) w.calls.length bytes final io =
      match svc.sealChunk io bytes w.reception with
      | (r, .error e) => w.unlock.after r (.error e) w.received
      | (r, .ok ()) => w.unlock.after { r with state := r.state.setFinal final }
          (.status r.state.offset) (w.received ++ [bytes]) := by
  have hanswer (v : ReceptionWorld) (a : ReceptionAnswer)
      (hv : v.calls = w.calls ++ [.writing bytes final]) :
      v.answer w.calls.length a = { v with calls := w.calls ++ [.answered a] } := by
    rw [ReceptionWorld.answer, ReceptionWorld.move, hv]
    simp
  unfold ReceptionService.writeChunk ReceptionService.sealChunk
  simp only [ReceptionWorld.calling, ReceptionWorld.reception]
  cases svc.crypto.encryptChunk svc.objectId w.state.chunks.length bytes with
  | error e => exact hanswer _ _ rfl
  | ok encrypted =>
    cases w.dir with
    | none => exact hanswer _ _ rfl
    | some dir =>
      cases io with
      | failed gone chunks => exact hanswer _ _ rfl
      | done =>
        dsimp only
        cases svc.cfg.storageChat with
        | error e => exact hanswer _ _ rfl
        | ok chat => exact hanswer _ _ rfl

theorem stageChunk_steps (hf : w.holder = none) (h : Run (fun v => v = u) (ReceptionStep svc) past
      ((w.lock w.calls.length).calling (.staging bytes final)))
    (now : OffsetDateTime) (io : DiskOutcome) :
    ∃ past', Run (fun v => v = u) (ReceptionStep svc) past'
      (match svc.stageChunk now io bytes w.reception with
      | (r, .error e) => w.after r (.error e) w.received
      | (r, .ok ()) => w.after { r with state := r.state.setFinal final }
          (.status r.state.offset) (w.received ++ [bytes])) := by
  have hrefuse (e : ObjectFormatError)
      (ha : svc.advance ((w.lock w.calls.length).calling (.staging bytes final)) w.calls.length now
        io (.staging bytes final) =
          some (((w.lock w.calls.length).calling (.staging bytes final)).unlock.answer
            w.calls.length (.error e))) :
      ∃ past', Run (fun v => v = u) (ReceptionStep svc) past'
        (w.after w.reception (.error e) w.received) := by
    have hback : ((w.lock w.calls.length).calling (.staging bytes final)).unlock =
        w.calling (.staging bytes final) := by
      simp [ReceptionWorld.lock, ReceptionWorld.calling, ReceptionWorld.unlock, hf]
    rw [hback, w.calling_answer] at ha
    exact ⟨_, advance_calling h now io ha⟩
  unfold ReceptionService.stageChunk
  by_cases hlen : w.reception.state.chunks.length < 2 ^ 32
  · rw [if_pos hlen]
    cases hr : w.reception.store.reserveStaging svc.objectId (bytes.length + 16) svc.stagingBudget
      now.unixTimestamp with
    | error e =>
      have hr' : ((w.lock w.calls.length).calling (.staging bytes final)).store.reserveStaging
        svc.objectId (bytes.length + 16) svc.stagingBudget now.unixTimestamp = .error e := hr
      apply hrefuse
      refine (if_pos hlen).trans ?_
      rw [hr']
    | ok s =>
      have hr' : ((w.lock w.calls.length).calling (.staging bytes final)).store.reserveStaging
        svc.objectId (bytes.length + 16) svc.stagingBudget now.unixTimestamp = .ok s := hr
      let v : ReceptionWorld := { w.lock w.calls.length with store := s }
      have hstage : svc.advance ((w.lock w.calls.length).calling (.staging bytes final))
          w.calls.length now io (.staging bytes final) =
            some (v.calling (.writing bytes final)) := by
        refine (if_pos hlen).trans ?_
        rw [hr']
        exact congrArg some (v.calling_move _ _)
      have hwrite := advance_calling (advance_calling h now io hstage) now io rfl
      rw [writeChunk_eq] at hwrite
      have hv : v.reception = { w.reception with store := s } := rfl
      rw [hv] at hwrite
      have hu : ∀ r a received, v.unlock.after r a received = w.after r a received := by
        intro r a received
        simp [v, ReceptionWorld.after, ReceptionWorld.unlock, ReceptionWorld.lock, hf]
      simp only [hu] at hwrite
      exact ⟨_, hwrite⟩
  · rw [if_neg hlen]
    exact hrefuse _ (if_neg hlen)

/-- A call that has the mutex to itself runs to the answer of the whole call. -/
theorem receiveReceptionChunk_steps (hm : w.mapped = true) (hf : w.holder = none)
    (now : OffsetDateTime) (io : DiskOutcome) (offset : Nat) (bytes : Bytes) (final : Bool) :
    ∃ past received, Run (fun v => v = w) (ReceptionStep svc) past (w.after
      (svc.receiveReceptionChunk now io offset bytes final w.reception).1
      (.of (svc.receiveReceptionChunk now io offset bytes final w.reception).2) received) := by
  have hs : ReceptionStep svc (.start (.receive offset bytes final)) w
      (w.calling (.started (.receive offset bytes final))) := rfl
  have hwait := advance_calling (.step (.init rfl) hs) now io (if_pos hm)
  rw [w.calling_move] at hwait
  have hfree : ¬ (w.calling (.waiting (.receive offset bytes final))).holder.isSome = true := by
    rw [ReceptionWorld.calling, hf]
    exact Bool.false_ne_true
  have henter := advance_calling hwait now io (if_neg hfree)
  unfold ReceptionService.receiveReceptionChunk
  simp only [ReceptionService.enter, ReceptionWorld.reception] at henter ⊢
  have hstate : (w.calling (.waiting (.receive offset bytes final))).state = w.state := rfl
  rw [hstate] at henter
  cases hc : w.state.checkChunk offset bytes final with
  | error e =>
    rw [hc] at henter
    dsimp only at henter ⊢
    rw [w.calling_answer] at henter
    exact ⟨_, _, henter⟩
  | ok =>
    rw [hc] at henter
    dsimp only at henter ⊢
    by_cases hb : bytes.isEmpty = true
    · rw [if_pos hb] at henter ⊢
      let v : ReceptionWorld := { w with state := w.state.setFinal final }
      have hanswer := v.calling_answer (.waiting (.receive offset bytes final))
        (.status w.state.offset)
      exact ⟨_, w.received, hanswer ▸ henter⟩
    · rw [if_neg hb] at henter ⊢
      have hmove : ((w.calling (.waiting (.receive offset bytes final))).lock
          w.calls.length).move w.calls.length (.staging bytes final) =
            (w.lock w.calls.length).calling (.staging bytes final) :=
        (w.lock w.calls.length).calling_move _ _
      rw [hmove] at henter
      obtain ⟨past, hrun⟩ := stageChunk_steps hf henter now io
      simp only [ReceptionWorld.reception] at hrun
      cases hstage : svc.stageChunk now io bytes ⟨w.store, w.state, w.dir⟩ with
      | mk r x =>
        rw [hstage] at hrun
        cases x with
        | error e => exact ⟨past, w.received, hrun⟩
        | ok => exact ⟨past, w.received ++ [bytes], hrun⟩

end Steps

/-- A failed call leaves offset, chunks, hash and reservation as they were, and the call repeated
ends as if it were the first one. -/
structure LeavesNoTrace (svc : ReceptionService) (offset : Nat) (bytes : Bytes) (final : Bool)
    (r r' : Reception) : Prop where
  received : r'.state.offset = r.state.offset
  chunks : r'.state.chunks = r.state.chunks
  hashed : r'.state.hashed = r.state.hashed
  reserved : svc.reserved r'.store = svc.reserved r.store
  resent : ∀ (svc' : ReceptionService) now io, svc'.objectId = svc.objectId →
    svc'.finishArgs (svc'.receiveReceptionChunk now io offset bytes final r').1.state =
      svc'.finishArgs (svc'.receiveReceptionChunk now io offset bytes final r).1.state ∧
    (svc'.receiveReceptionChunk now io offset bytes final r').2 =
      (svc'.receiveReceptionChunk now io offset bytes final r).2

/-- The call is refused before anything is reserved for it. -/
def ReceptionService.Refuses (svc : ReceptionService) (now : OffsetDateTime) (offset : Nat)
    (bytes : Bytes) (final : Bool) (r : Reception) : Prop :=
  (∃ e, r.state.checkChunk offset bytes final = .error e) ∨
    2 ^ 32 ≤ r.state.chunks.length ∨
    ∃ e, r.store.reserveStaging svc.objectId (bytes.length + 16) svc.stagingBudget
      now.unixTimestamp = .error e

section Errors
variable {svc : ReceptionService} {r : Reception} {s s' : MetadataStore}

theorem reserved_of_reserveStaging (h : s.reserveStaging svc.objectId bytes budget now = .ok s') :
    ∃ n, svc.reserved s = some n ∧ svc.reserved s' = some (n + bytes) := by
  obtain ⟨hany, rfl⟩ := reserveStaging_ok h
  obtain ⟨j, hget, hstate⟩ := any_receivingJob hany
  have hp : receivingJob svc.objectId j = true :=
    receivingJob_iff.2 ⟨Table.key_of_get? hget, hstate⟩
  refine ⟨j.bytes, ?_, ?_⟩
  · rw [ReceptionService.reserved, hget]
    rfl
  · rw [ReceptionService.reserved, Table.get?_modify, hget, Option.map_some, if_pos hp]
    rfl

theorem sealChunk_store (svc : ReceptionService) (io : DiskOutcome) (bytes : Bytes)
    (r : Reception) : (svc.sealChunk io bytes r).1.store = r.store := by
  unfold ReceptionService.sealChunk
  dsimp only
  split
  · rfl
  · rfl
  · rfl
  · split <;> rfl

theorem receiveReceptionChunk_stage (hc : r.state.checkChunk offset bytes final = .ok ())
    (hb : bytes.isEmpty = false) :
    svc.receiveReceptionChunk now io offset bytes final r =
      match svc.stageChunk now io bytes r with
      | (r, .error e) => (r, .error e)
      | (r, .ok ()) => ({ r with state := r.state.setFinal final }, .ok r.state.offset) := by
  rw [ReceptionService.receiveReceptionChunk, hc, hb]
  rfl

theorem nonempty_of_error (hc : r.state.checkChunk offset bytes final = .ok ())
    (h : (svc.receiveReceptionChunk now io offset bytes final r).2 = .error e) :
    bytes.isEmpty = false := by
  cases hb : bytes.isEmpty with
  | false => rfl
  | true =>
    rw [ReceptionService.receiveReceptionChunk, hc, hb] at h
    cases h

theorem ReceptionService.Refuses.unchanged (hr : svc.Refuses now offset bytes final r)
    (h : (svc.receiveReceptionChunk now io offset bytes final r).2 = .error e) :
    (svc.receiveReceptionChunk now io offset bytes final r).1 = r := by
  cases hc : r.state.checkChunk offset bytes final with
  | error e => rw [receiveReceptionChunk, hc]
  | ok =>
    rw [receiveReceptionChunk_stage hc (nonempty_of_error hc h), stageChunk]
    rcases hr with ⟨e, he⟩ | hlen | ⟨e, he⟩
    · rw [hc] at he
      cases he
    · rw [if_neg (Nat.not_lt.2 hlen)]
    · by_cases hlen : r.state.chunks.length < 2 ^ 32
      · rw [if_pos hlen, he]
      · rw [if_neg hlen]

/-- A call with data that is not refused has reserved the bytes of its chunk, whatever it ends
with. -/
theorem receiveReceptionChunk_reserved (io : DiskOutcome) (hb : bytes.isEmpty = false)
    (hn : ¬ svc.Refuses now offset bytes final r) :
    ∃ n, svc.reserved r.store = some n ∧
      svc.reserved (svc.receiveReceptionChunk now io offset bytes final r).1.store =
        some (n + (bytes.length + 16)) := by
  cases hc : r.state.checkChunk offset bytes final with
  | error e => exact absurd (.inl ⟨e, hc⟩) hn
  | ok =>
    rw [receiveReceptionChunk_stage hc hb, ReceptionService.stageChunk]
    have hlen : r.state.chunks.length < 2 ^ 32 := Nat.not_le.1 fun h => hn (.inr (.inl h))
    rw [if_pos hlen]
    cases hs : r.store.reserveStaging svc.objectId (bytes.length + 16) svc.stagingBudget
      now.unixTimestamp with
    | error e => exact absurd (.inr (.inr ⟨e, hs⟩)) hn
    | ok s =>
      have hstore := sealChunk_store svc io bytes { r with store := s }
      obtain ⟨n, hn, hn'⟩ := reserved_of_reserveStaging hs
      refine ⟨n, hn, ?_⟩
      dsimp only
      cases hx : svc.sealChunk io bytes { r with store := s } with
      | mk r' x =>
        rw [hx] at hstore
        dsimp only at hstore
        cases x with
        | error e => rw [← hn', ← hstore]
        | ok => rw [← hn', ← hstore]

/-- A failed call leaves no trace exactly when it was refused before its reservation. -/
theorem failed_call_no_trace_iff
    (h : (svc.receiveReceptionChunk now io offset bytes final r).2 = .error e) :
    LeavesNoTrace svc offset bytes final r
        (svc.receiveReceptionChunk now io offset bytes final r).1 ↔
      svc.Refuses now offset bytes final r := by
  constructor
  · intro ht
    by_contra hn
    cases hc : r.state.checkChunk offset bytes final with
    | error e => exact hn (.inl ⟨e, hc⟩)
    | ok =>
      obtain ⟨n, hbefore, hafter⟩ :=
        receiveReceptionChunk_reserved io (nonempty_of_error hc h) hn
      rw [ht.reserved, hbefore] at hafter
      have hgrown : n = n + (bytes.length + 16) := Option.some.inj hafter
      omega
  · intro hr
    rw [hr.unchanged h]
    exact ⟨rfl, rfl, rfl, rfl, fun _ _ _ _ => ⟨rfl, rfl⟩⟩

end Errors

/-- A failed call on a resumable upload leaves no trace. -/
def ReceptionErrorsAtomic : Prop :=
  ∀ (svc : ReceptionService) now io offset bytes final r e,
    (svc.receiveReceptionChunk now io offset bytes final r).2 = .error e →
      LeavesNoTrace svc offset bytes final r
        (svc.receiveReceptionChunk now io offset bytes final r).1

def receivingService (chat : String) (stagingBudget : Nat) : ReceptionService where
  cfg := { storageChatId := chat, keyId := "k1" }
  crypto := taggingCrypto
  stagingBudget
  objectId := ⟨1⟩

def openReception : Reception where
  store := ((photosStore.beginTransfer ⟨1⟩ "photos" "a" (instant 1).unixTimestamp).toOption).getD {}
  state := { bucket := "photos", key := "a", contentType := "text/plain", expiresAt := none
             chunkSize := 4 }
  dir := some {}

theorem open_reception_steps : ∃ past received,
    Run (fun v => v = { openReception with }) (ReceptionStep (receivingService "-1" 99)) past
      (.after { openReception with }
        ((receivingService "-1" 99).receiveReceptionChunk (instant 1) .done 0 [1] true
          openReception).1 (.status 1) received) :=
  receiveReceptionChunk_steps rfl rfl _ _ _ _ _

/-- A chunk for which there is no staging space is refused without a trace. -/
theorem full_staging_leaves_no_trace :
    LeavesNoTrace (receivingService "-1001" 10) 0 [1, 2, 3] true openReception
      ((receivingService "-1001" 10).receiveReceptionChunk (instant 1) .done 0 [1, 2, 3] true
        openReception).1 := by
  have h : ((receivingService "-1001" 10).receiveReceptionChunk (instant 1) .done 0 [1, 2, 3] true
      openReception).2 = .error (.metadata (.invalidManifest "staging capacity exhausted")) := rfl
  exact (failed_call_no_trace_iff h).2 (.inr (.inr ⟨_, rfl⟩))

/-- A chunk that is sent again after the storage chat was missing is in the hash twice. -/
theorem missing_chat_corrupts_hash : ¬ ReceptionErrorsAtomic := by
  intro h
  have hfail : ((receivingService "" 1000).receiveReceptionChunk (instant 1) .done 0 [1, 2, 3] true
      openReception).2 =
        .error (.invalidPlan "telegram bootstrap settings are not configured") := rfl
  have hsame := (h _ _ _ _ _ _ _ _ hfail).resent (receivingService "-1001" 1000) (instant 1) .done
    rfl
  have hsum := congrArg ManifestBuildArgs.wholeChecksum hsame.1
  revert hsum
  decide +kernel

end TelegramS3
