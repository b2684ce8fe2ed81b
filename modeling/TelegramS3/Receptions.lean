import TelegramS3.Chunking
import TelegramS3.Run

namespace TelegramS3
open Relational Fallible Transition MetadataStore
set_option autoImplicit true

/-- What the calls on one resumable upload share behind its mutex. -/
structure ReceptionState where
  bucket : String
  key : String
  contentType : String
  expiresAt : Option OffsetDateTime
  chunks : List ChunkRef := []
  hashed : Bytes := []
  offset : Nat := 0
  finalReceived : Bool := false
  chunkSize : Nat

/-- The files of a staging directory: the manifest and the chunks by their order. -/
structure StagingDir where
  manifest : Option ObjectManifest := none
  chunks : List (Nat × Bytes) := []
  deriving DecidableEq

/-- How a file operation ends; a removal that fails may have removed the manifest or some chunks. -/
inductive DiskOutcome where
  | done
  | failed (manifestGone : Bool) (chunksGone : List Nat)

def StagingDir.without (d : StagingDir) (manifestGone : Bool) (chunksGone : List Nat) :
    StagingDir :=
  { manifest := if manifestGone then none else d.manifest
    chunks := d.chunks.filter fun f => !chunksGone.contains f.1 }

inductive ReceptionRequest where
  | receive (offset : Nat) (bytes : Bytes) (final : Bool)
  | finish
  | abort

inductive ReceptionAnswer where
  | status (received : Nat)
  | job
  | cancelled
  | error (e : ObjectFormatError)
  | dropped

/-- Where a call on the upload is. From `staging` to `queued` it holds the mutex. -/
inductive ReceptionPhase where
  | started (r : ReceptionRequest)
  | waiting (r : ReceptionRequest)
  | staging (bytes : Bytes) (final : Bool)
  | writing (bytes : Bytes) (final : Bool)
  | finalizing (args : ManifestBuildArgs)
  | written (m : ObjectManifest)
  | staged (m : ObjectManifest)
  | conditioned (m : ObjectManifest)
  | queued (m : ObjectManifest)
  | accepted (m : ObjectManifest)
  | failed (e : ObjectFormatError)
  | cleaning (e : ObjectFormatError) (removed : Bool)
  | forgetting (e : ObjectFormatError)
  | released
  | discarding
  | cancelling (removed : Bool)
  | answered (a : ReceptionAnswer)

/-- The service as the calls on the upload meet it. -/
structure ReceptionService where
  cfg : ServiceConfig
  crypto : Crypto
  stagingBudget : Nat
  objectId : Uuid

/-- An upload with its calls; the last two fields are history. -/
structure ReceptionWorld where
  store : MetadataStore
  mapped : Bool := true
  state : ReceptionState
  holder : Option Nat := none
  dir : Option StagingDir := some {}
  calls : List ReceptionPhase := []
  received : List Bytes := []
  taken : Bool := false

namespace ReceptionWorld
variable (w : ReceptionWorld)

def move (i : Nat) (phase : ReceptionPhase) : ReceptionWorld :=
  { w with calls := w.calls.set i phase }

def answer (i : Nat) (a : ReceptionAnswer) : ReceptionWorld :=
  w.move i (.answered a)

def lock (i : Nat) : ReceptionWorld := { w with holder := some i }

def unlock : ReceptionWorld := { w with holder := none }

def fail (i : Nat) (e : ObjectFormatError) : ReceptionWorld :=
  w.unlock.move i (.failed e)

def finalizeStep (i : Nat) (r : Except MetadataError MetadataStore)
    (next : ReceptionPhase) : ReceptionWorld :=
  match r with
  | .ok s => { w with store := s }.move i next
  | .error e => w.fail i (.metadata e)

def removeDir (io : DiskOutcome) : ReceptionWorld × Bool :=
  match io with
  | .done => ({ w with dir := none }, true)
  | .failed manifestGone chunksGone =>
    ({ w with dir := w.dir.map (·.without manifestGone chunksGone) }, w.dir.isNone)

/-- A call that is abandoned where it waits: for the mutex, a file or a removal. -/
def abandon (i : Nat) : ReceptionPhase → Option ReceptionWorld
  | .waiting _ | .failed _ | .discarding => some (w.answer i .dropped)
  | .writing _ _ => some (w.unlock.answer i .dropped)
  | _ => none

end ReceptionWorld

def ReceptionState.setFinal (st : ReceptionState) (final : Bool) : ReceptionState :=
  { st with finalReceived := st.finalReceived || final }

/-- The checks on a chunk before anything is written. -/
def ReceptionState.checkChunk (st : ReceptionState) (offset : Nat) (bytes : Bytes)
    (final : Bool) : Except ObjectFormatError Unit := do
  ensure (st.offset == offset) (.receptionOffsetMismatch st.offset)
  ensure (bytes.length ≤ st.chunkSize) .receptionChunkTooLarge
  ensure (final || bytes.length == st.chunkSize) .receptionChunkSizeMismatch

namespace ReceptionService
variable (svc : ReceptionService)

def finishArgs (st : ReceptionState) : ManifestBuildArgs :=
  { objectId := svc.objectId, bucket := st.bucket, key := st.key, contentType := st.contentType
    expiresAt := st.expiresAt, chunks := st.chunks
    wholeChecksum := svc.crypto.sha256Hex st.hashed }

def enter (w : ReceptionWorld) (i : Nat) : ReceptionRequest → ReceptionWorld
  | .receive offset bytes final =>
    match w.state.checkChunk offset bytes final with
    | .error e => w.answer i (.error e)
    | .ok () =>
      if bytes.isEmpty then
        { w with state := w.state.setFinal final }.answer i (.status w.state.offset)
      else (w.lock i).move i (.staging bytes final)
  | .finish =>
    if w.state.finalReceived then
      { w with state := { w.state with chunks := [], hashed := [] }, taken := true }.lock i |>.move i
        (.finalizing (svc.finishArgs w.state))
    else w.answer i (.error .receptionNotComplete)
  | .abort => w.move i .released

/-- The file of a chunk and the chunk in the shared state; the hasher is fed before the chat lookup.
-/
def writeChunk (w : ReceptionWorld) (i : Nat) (bytes : Bytes) (final : Bool)
    (io : DiskOutcome) : ReceptionWorld :=
  let order := w.state.chunks.length
  match svc.crypto.encryptChunk svc.objectId order bytes, w.dir, io with
  | .error e, _, _ => w.unlock.answer i (.error e)
  | .ok _, none, _ => w.unlock.answer i
      (.error (.io { kind := .notFound, message := "No such file or directory" }))
  | .ok _, some _, .failed .. => w.unlock.answer i
      (.error (.io { kind := .other, message := "staging write failed" }))
  | .ok encrypted, some dir, .done =>
    let w := { w with
      dir := some { dir with chunks := (order, encrypted) :: dir.chunks.filter (·.1 != order) }
      state := { w.state with hashed := w.state.hashed ++ bytes } }
    match svc.cfg.storageChat with
    | .error e => w.unlock.answer i (.error e)
    | .ok chat =>
      let chunk := svc.crypto.localChunk svc.objectId chat order w.state.offset bytes
      let state := { w.state with
        chunks := w.state.chunks ++ [chunk], offset := w.state.offset + bytes.length }
      { w with state := state.setFinal final, received := w.received ++ [bytes] }.unlock.answer i
        (.status state.offset)

/-- The manifest file of a finish; the directory is made again when it is gone. -/
def writeManifest (w : ReceptionWorld) (i : Nat) (args : ManifestBuildArgs)
    (now : OffsetDateTime) (io : DiskOutcome) : ReceptionWorld :=
  match ensureConnectionNotRemoving w.store, io with
  | .error e, _ => w.fail i e
  | .ok (), .failed .. => w.fail i
      (.io { kind := .other, message := "staging write failed" })
  | .ok (), .done =>
    let m := svc.cfg.newManifest args now
    { w with dir := some { (w.dir.getD {}) with manifest := some m } }.move i (.written m)

def advance (w : ReceptionWorld) (i : Nat) (now : OffsetDateTime) (io : DiskOutcome) :
    ReceptionPhase → Option ReceptionWorld
  | .started r =>
    if w.mapped then some (w.move i (.waiting r))
    else some (w.answer i (.error .receptionNotFound))
  | .waiting r => if w.holder.isSome then none else some (svc.enter w i r)
  | .staging bytes final =>
    if w.state.chunks.length < 2 ^ 32 then
      match w.store.reserveStaging svc.objectId (bytes.length + 16) svc.stagingBudget
        now.unixTimestamp with
      | .ok s => some ({ w with store := s }.move i (.writing bytes final))
      | .error e => some (w.unlock.answer i (.error (.metadata e)))
    else some (w.unlock.answer i (.error (.invalidPlan "too many chunks")))
  | .writing bytes final => some (svc.writeChunk w i bytes final io)
  | .finalizing args => some (svc.writeManifest w i args now io)
  | .written m => some (w.finalizeStep i (w.store.stageManifest .put m now) (.staged m))
  | .staged m => some (w.finalizeStep i
      (w.store.setTransferConditionals svc.objectId none now.unixTimestamp) (.conditioned m))
  | .conditioned m => some (w.finalizeStep i
      (w.store.queueTransfer svc.objectId svc.objectId m.chunks.length now.unixTimestamp)
      (.queued m))
  | .queued m =>
    if w.store.transferJobs.contains svc.objectId then some (w.unlock.move i (.accepted m))
    else some (w.fail i (.invalidPlan "queued transfer missing"))
  | .accepted _ => some ({ w with mapped := false }.answer i .job)
  | .failed e =>
    let (w, removed) := w.removeDir io
    some (w.move i (.cleaning e removed))
  | .cleaning e removed =>
    let s := (w.store.failReception svc.objectId removed
      "Upload reception failed before durable acceptance; resend the source file"
      now.unixTimestamp).2
    some ({ w with store := s }.move i (.forgetting e))
  | .forgetting e => some ({ w with mapped := false }.answer i (.error e))
  | .released => some ({ w with mapped := false }.move i .discarding)
  | .discarding =>
    let (w, removed) := w.removeDir io
    some (w.move i (.cancelling removed))
  | .cancelling removed =>
    let s := (w.store.failReception svc.objectId removed "resumable reception cancelled"
      now.unixTimestamp).2
    some ({ w with store := s }.answer i .cancelled)
  | .answered _ => none

end ReceptionService

inductive ReceptionAction where
  | start (r : ReceptionRequest)
  | advance (i : Nat) (now : OffsetDateTime) (io : DiskOutcome)
  | abandon (i : Nat)

def ReceptionAction.apply (svc : ReceptionService) (a : ReceptionAction) (w : ReceptionWorld) :
    Option ReceptionWorld :=
  match a with
  | .start r => some { w with calls := w.calls ++ [.started r] }
  | .advance i now io => w.calls[i]?.bind (svc.advance w i now io)
  | .abandon i => w.calls[i]?.bind (w.abandon i)

def ReceptionStep (svc : ReceptionService) (a : ReceptionAction) (w w' : ReceptionWorld) : Prop :=
  a.apply svc w = some w'

/-- An upload that `begin_reception` has just opened. -/
structure ReceptionWorld.Opened (svc : ReceptionService) (w : ReceptionWorld) : Prop where
  job : w.store.transferJobs.any (receivingJob svc.objectId) = true
  state : w.state.chunks = [] ∧ w.state.offset = 0
  holder : w.holder = none
  calls : w.calls = []
  received : w.received = []
  taken : w.taken = false

end TelegramS3
