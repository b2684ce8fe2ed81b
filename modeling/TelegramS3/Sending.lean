import TelegramS3.Connections
import TelegramS3.Leases
import TelegramS3.Run
import TelegramS3.Visibility

namespace TelegramS3
open Relational Fallible Transition MetadataStore
set_option autoImplicit true

/-- What a send failed with: the detail of an RPC error, if it was one, and the text kept of it. -/
structure SendError where
  rpc : Option String
  text : String

def containsText (text pattern : String) : Bool :=
  text.toList.tails.any fun t => pattern.toList.isPrefixOf t

def isFloodWaitError (detail : String) : Bool :=
  let upper := String.ofList (detail.toList.map asciiUpper)
  containsText upper "FLOOD_WAIT" || containsText upper "RPC ERROR 420"

def isExplicitFloodWait (e : SendError) : Bool := e.rpc.any isFloodWaitError

/-- A FLOOD_WAIT reply, as the worker recognizes it or as the stored text shows it later. -/
def SendError.floodWait (e : SendError) : Bool :=
  isExplicitFloodWait e || mentionsFloodWait (some e.text)

def ChunkRef.placed (c : ChunkRef) (l : TelegramLocation) : ChunkRef :=
  { c with
    telegramPeerId := l.peerId, telegramMessageId := l.messageId
    telegramDocumentId := l.documentId }

/-- The document a worker has to get published next: a chunk, or the manifest itself. -/
inductive SendTarget where
  | chunk (m : ObjectManifest) (done : List ChunkRef) (c : ChunkRef) (rest : List ChunkRef)
  | document (m : ObjectManifest)

def SendTarget.order : SendTarget → Nat
  | .chunk _ _ c _ => c.order
  | .document _ => manifestOrder

inductive WorkerPhase where
  | loading
  | chunks (m : ObjectManifest) (done rest : List ChunkRef)
  | absent (t : SendTarget)
  | sending (t : SendTarget) (attempt : Uuid)
  | answered (t : SendTarget) (attempt : Uuid) (reply : Except SendError TelegramLocation)
  | fenced (m : ObjectManifest)
  | ready (m : ObjectManifest)
  | finishing
  | stopped

def SendTarget.located (t : SendTarget) (l : TelegramLocation) : WorkerPhase :=
  match t with
  | .chunk m done c rest => .chunks m (done ++ [c.placed l]) rest
  | .document m => .ready { m with telegram := l, commitState := .staging }

structure Worker where
  job : Uuid
  objectId : Uuid
  lease : Uuid
  phase : WorkerPhase := .loading

namespace MetadataStore

def checkpointLocation (s : MetadataStore) (id : Uuid) (order : Nat) : Option TelegramLocation :=
  (s.transferChunks.get? (id, order)).map TransferChunkRow.location

/-- A document that is checkpointed is not sent again. -/
def lookUp (s : MetadataStore) (job : Uuid) (t : SendTarget) : WorkerPhase :=
  match s.checkpointLocation job t.order with
  | some l => t.located l
  | none => .absent t

end MetadataStore

def Worker.read (p : Worker) (s : MetadataStore) : WorkerPhase :=
  match p.phase with
  | .loading =>
    match s.getManifest p.objectId with
    | .ok (some m) => .chunks m [] m.chunks
    | _ => .stopped
  | .chunks m done (c :: rest) =>
    if c.referencesRemotePayload then
      if isBlank c.telegramPeerId || c.telegramMessageId ≤ 0 then .stopped
      else .chunks m (done ++ [c]) rest
    else s.lookUp p.job (.chunk m done c rest)
  | .fenced m => s.lookUp p.job (.document m)
  | phase => phase

inductive WorkerMove where
  | fence (now : Int)
  | begin (attempt : Uuid) (now : Int)
  | record (now : Int)
  | publish (now : OffsetDateTime)

def Worker.recordOp (p : Worker) (t : SendTarget) (attempt : Uuid) (now : Int) :
    Except SendError TelegramLocation → StoreOp × WorkerPhase
  | .ok l => (.finishSendAttempt p.job p.lease t.order attempt l now, t.located l)
  | .error e =>
    if isExplicitFloodWait e then
      (.markSendAttemptRetryable p.job p.lease t.order attempt "telegram_flood_wait" e.text now,
        .stopped)
    else
      (.markSendAttemptUnknown p.job p.lease t.order attempt "telegram_send" e.text now, .stopped)

def Worker.step (p : Worker) (s : MetadataStore) (mv : WorkerMove) :
    Option (StoreOp × WorkerPhase) :=
  match p.phase, mv with
  | .chunks m done [], .fence now =>
    some (.enterCommitting p.job p.lease now, .fenced { m with
      chunks := done.insertionSort fun a b => a.order ≤ b.order, commitState := .committed })
  | .absent t, .begin attempt now =>
    some (.beginSendAttempt p.job p.lease t.order attempt now, .sending t attempt)
  | .answered t attempt reply, .record now => some (p.recordOp t attempt now reply)
  | .ready m, .publish now =>
    if (s.multipartJob p.job).any fun part => part.2 != 0 then
      some (.updateManifest m, .finishing)
    else some (.commitTransferManifest p.job p.lease m now, .stopped)
  | .finishing, .publish now => some (.finishPartJob p.job p.lease now, .stopped)
  | _, _ => none

/-- An attempt by its job, its order and its id; the document sent for it carries them as token. -/
abbrev SendKey := Uuid × Nat × Uuid

def SendKey.Same (k l : SendKey) : Prop := k.1 = l.1 ∧ k.2.1 = l.2.1

structure Telegram where
  inFlight : List SendKey := []
  documents : List (SendKey × TelegramLocation) := []

namespace Telegram
variable (t : Telegram)

def keys : List SendKey := t.inFlight ++ t.documents.map Prod.fst

def gone (k : SendKey) : Bool := !t.keys.contains k

/-- A location for what was accepted, FLOOD_WAIT for what was not, another error at any time. -/
def mayReply (k : SendKey) : Except SendError TelegramLocation → Bool
  | .ok l => t.documents.contains (k, l)
  | .error e => !e.floodWait || t.gone k

/-- What the reconciliation of an attempt may find. -/
def mayFind (k : SendKey) : Option TelegramLocation → Bool
  | some l => t.documents.contains (k, l)
  | none => t.gone k

def accept (k : SendKey) (l : TelegramLocation) : Telegram :=
  { inFlight := t.inFlight.filter (· != k), documents := (k, l) :: t.documents }

def lose (k : SendKey) : Telegram :=
  { t with inFlight := t.inFlight.filter (· != k) }

def Accepted (job : Uuid) (order : Nat) (l : TelegramLocation) : Prop :=
  ∃ attempt, ((job, order, attempt), l) ∈ t.documents

/-- Every chunk the job staged itself is where its document was accepted. -/
def Places (job : Uuid) (chunks : List ChunkRef) : Prop :=
  ∀ c ∈ chunks, c.referencesRemotePayload = false → t.Accepted job c.order
    { peerId := c.telegramPeerId, messageId := c.telegramMessageId
      documentId := c.telegramDocumentId }

end Telegram

/-- The service with its workers; `issued` holds the job ids and leases drawn so far. -/
structure SendWorld where
  store : MetadataStore
  workers : List Worker := []
  issued : List Uuid := []
  telegram : Telegram := {}

inductive SendAction where
  | call (a : ConnectionAction)
  | claim (now : Int) (lease : Uuid)
  | read (i : Nat)
  | run (i : Nat) (mv : WorkerMove)
  | reply (i : Nat) (r : Except SendError TelegramLocation)
  | stop (i : Nat)
  | accept (k : SendKey) (l : TelegramLocation)
  | lose (k : SendKey)
  | resolve (k : SendKey) (found : Option TelegramLocation) (error : Option String) (now : Int)

/-- The calls that only workers and the reconciliation make. -/
def StoreOp.sends : StoreOp → Bool
  | .claimTransfer .. | .beginSendAttempt .. | .finishSendAttempt .. | .markSendAttemptUnknown ..
  | .markSendAttemptRetryable .. | .resolveSendAttempt .. | .commitTransferManifest .. => true
  | _ => false

def ConnectionAction.sends : ConnectionAction → Bool
  | .call op => op.sends
  | _ => false

def ConnectionAction.draws : ConnectionAction → List Uuid
  | .call (.beginTransfer objectId _ _ _) => [objectId]
  | _ => []

def StoreOp.launches : StoreOp → List SendKey
  | .beginSendAttempt id _ order attempt _ => [(id, order, attempt)]
  | _ => []

def SendAction.apply (fromStr : String → Option ETagCondition) (a : SendAction) (w : SendWorld) :
    Option SendWorld :=
  match a with
  | .call a =>
    if a.sends || a.draws.any w.issued.contains then none
    else (a.apply fromStr w.store).map fun s => { w with store := s, issued := a.draws ++ w.issued }
  | .claim now lease =>
    if w.issued.contains lease then none
    else
      let claimed := w.store.claimTransfer now lease
      some { w with
        store := claimed.2, issued := lease :: w.issued
        workers := w.workers ++
          claimed.1.toList.map fun j => { job := j.id, objectId := j.objectId, lease } }
  | .read i =>
    w.workers[i]?.map fun p =>
      { w with workers := w.workers.set i { p with phase := p.read w.store } }
  | .run i mv =>
    w.workers[i]?.bind fun p => (p.step w.store mv).bind fun (op, phase) =>
      (op.apply fromStr w.store).map fun s =>
        { w with
          store := s, workers := w.workers.set i { p with phase }
          telegram := { w.telegram with inFlight := op.launches ++ w.telegram.inFlight } }
  | .reply i r =>
    w.workers[i]?.bind fun p =>
      match p.phase with
      | .sending t attempt =>
        if w.telegram.mayReply (p.job, t.order, attempt) r then
          some { w with workers := w.workers.set i { p with phase := .answered t attempt r } }
        else none
      | _ => none
  | .stop i =>
    w.workers[i]?.map fun p => { w with workers := w.workers.set i { p with phase := .stopped } }
  | .accept k l =>
    if w.telegram.inFlight.contains k then some { w with telegram := w.telegram.accept k l }
    else none
  | .lose k => some { w with telegram := w.telegram.lose k }
  | .resolve k found error now =>
    if w.telegram.mayFind k found then
      (after (w.store.resolveSendAttempt k.1 k.2.1 k.2.2 found error now)).map fun s =>
        { w with store := s }
    else none

def SendStep (fromStr : String → Option ETagCondition) (a : SendAction) (w w' : SendWorld) :
    Prop :=
  a.apply fromStr w = some w'

structure SendWorld.Initial (w : SendWorld) : Prop where
  jobs : w.store.transferJobs = ∅
  attempts : w.store.sendAttempts = ∅
  chunks : w.store.transferChunks = ∅
  workers : w.workers = []
  telegram : w.telegram = {}

def AttemptState.ambiguous : AttemptState → Bool
  | .sending | .unknown => true
  | _ => false

/-- No document is accepted twice, one attempt of a job is open, and manifests name what was
accepted. -/
structure AtMostOnce (Step : SendAction → SendWorld → SendWorld → Prop) : Prop where
  accepted : ∀ past w, Run SendWorld.Initial Step past w →
    w.telegram.documents.Pairwise fun d e => ¬ SendKey.Same d.1 e.1
  open_unique : ∀ past w, Run SendWorld.Initial Step past w →
    ∀ a ∈ w.store.sendAttempts, ∀ b ∈ w.store.sendAttempts, a.jobId = b.jobId →
      a.state.ambiguous = true → b.state.ambiguous = true → a = b
  recorded : ∀ past w, Run SendWorld.Initial Step past w →
    ∀ i now w' p m, Step (.run i (.publish now)) w w' → w.workers[i]? = some p →
      p.phase = .ready m → w'.telegram.Places p.job m.chunks ∧
        w'.telegram.Accepted p.job manifestOrder m.telegram ∧
        ∀ r ∈ w'.store.objectManifests, r ∈ w.store.objectManifests ∨
          (r.manifest.chunks = m.chunks ∧ r.manifest.telegram = m.telegram)

end TelegramS3
