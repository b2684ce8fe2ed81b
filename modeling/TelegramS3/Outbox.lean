import TelegramS3.Store

namespace TelegramS3
open Relational
set_option autoImplicit true

def ObjectManifest.cleanupLocations (m : ObjectManifest) : List (String × Int) :=
  (m.chunks.map ChunkRef.location ++ [m.telegram.location]).filter fun l => decide (0 < l.2)

def MultipartPart.cleanupObjectId (part : MultipartPart) : Uuid :=
  (part.manifest.map ObjectManifest.objectId).getD part.uploadId

def MultipartPart.chunks (part : MultipartPart) : List ChunkRef :=
  (part.manifest.map ObjectManifest.chunks).getD []

def MultipartPart.cleanupLocations (part : MultipartPart) (retained : List (String × Int)) :
    List (String × Int) :=
  part.telegram.location ::
    (part.chunks.map ChunkRef.location).filter fun l => !decide (l ∈ retained)

namespace CleanupOutbox
variable (o : CleanupOutbox)

/-- `INSERT OR IGNORE INTO cleanup_targets`, unique by location. -/
def insertTarget (objectId : Uuid) (connectionId : String) (kind : TargetKind)
    (dueAt : Int) (l : String × Int) : CleanupOutbox :=
  if o.targets.contains l then o
  else
    { targets := o.targets.insertOrIgnore
        { id := o.sequence + 1, objectId, peerId := l.1, messageId := l.2, connectionId, kind, dueAt }
      sequence := o.sequence + 1 }

def insertEvidence (objectId : Uuid) (connectionId : String) (dueAt : Int) :
    CleanupOutbox :=
  o.insertTarget objectId connectionId .evidence dueAt ("evidence:" ++ objectId.text, 0)

def insertMessages (objectId : Uuid) (connectionId : String) (dueAt : Int)
    (locations : List (String × Int)) : CleanupOutbox :=
  locations.foldl (fun o l => o.insertTarget objectId connectionId .message dueAt l) o

/-- The evidence target of an object first, then one target for each location. -/
def enqueue (objectId : Uuid) (connectionId : String) (dueAt : Int)
    (locations : List (String × Int)) : CleanupOutbox :=
  (o.insertEvidence objectId connectionId dueAt).insertMessages objectId connectionId dueAt locations

def enqueueManifestCleanupAt (connectionId : String) (m : ObjectManifest)
    (dueAt : Int) : CleanupOutbox :=
  o.enqueue m.objectId connectionId dueAt m.cleanupLocations

def enqueuePartCleanupPreserving (connectionId : String)
    (retentionSecs now : Int) (retained : List (String × Int)) (part : MultipartPart) :
    CleanupOutbox :=
  o.enqueue part.cleanupObjectId connectionId (now + retentionSecs) (part.cleanupLocations retained)

def enqueuePartCleanup (connectionId : String) (retentionSecs now : Int)
    (part : MultipartPart) : CleanupOutbox :=
  o.enqueuePartCleanupPreserving connectionId retentionSecs now [] part

end CleanupOutbox

namespace MetadataStore
variable (s : MetadataStore)

/-- A target a worker may take: due, or left running by a worker whose lease ran out. -/
def cleanupClaimable (now : Int) (t : CleanupTargetRow) : Bool :=
  let waiting := (t.state = .pending || t.state = .retryWait) && t.dueAt ≤ now && t.nextRetry ≤ now
  let stale := t.state = .running && t.leaseUntil < now
  !t.completed && match t.kind with
    | .evidence => waiting || (stale && t.evidenceAttemptToken.isNone)
    | .message => (waiting || stale) && s.outbox.targets.any fun e =>
        e.objectId = t.objectId && e.kind = .evidence && e.completed

def claimCleanup (now : Int) (lease : Uuid) :
    Option CleanupTargetRow × MetadataStore :=
  let due (kind : TargetKind) := Table.firstBy CleanupTargetRow.id
    (s.outbox.targets.select fun t => t.kind = kind && s.cleanupClaimable now t)
  match (due .evidence).or (due .message) with
  | none => (none, s)
  | some t =>
    let claim (r : CleanupTargetRow) : CleanupTargetRow :=
      { r with
        state := .running, lease := some lease, leaseUntil := now + 120
        attempts := r.attempts + 1, error := none }
    (some (claim t),
      { s with outbox.targets := s.outbox.targets.modify (fun r => r.id = t.id && !r.completed) claim })

/-- A lease-fenced update of one running target; the flag tells whether a row changed. -/
def updateRunningTarget (id : Nat) (lease : Uuid)
    (f : CleanupTargetRow → CleanupTargetRow)
    (hf : ∀ r, Keyed.key (f r) = Keyed.key r := by intros; exact (show _ from rfl)) : Bool × MetadataStore :=
  let p (r : CleanupTargetRow) : Bool := r.id = id && r.lease = some lease && r.state = .running
  (s.outbox.targets.any p, { s with outbox.targets := s.outbox.targets.modify p f hf })

def completeCleanup (id : Nat) (lease : Uuid)
    (location : Option TelegramLocation) : Bool × MetadataStore :=
  s.updateRunningTarget id lease fun r =>
    { r with
      state := .completed, completed := true, lease := none, leaseUntil := 0, error := none
      evidenceLocation := location.or r.evidenceLocation }

def failCleanup (id : Nat) (lease : Uuid) (retryAfter now : Int)
    (message : String) : MetadataStore :=
  (s.updateRunningTarget id lease fun r =>
    { r with
      state := .retryWait, nextRetry := now + retryAfter, lease := none, leaseUntil := 0
      error := some message }).2

def quarantineCleanup (id : Nat) (lease : Uuid) (message : String) :
    MetadataStore :=
  (s.updateRunningTarget id lease fun r =>
    { r with
      state := .recoveryRequired, lease := none, leaseUntil := 0, error := some message }).2

/-- Notes the upload of the deletion evidence under a token of its own before it is sent. -/
def beginCleanupEvidenceAttempt (id : Nat) (lease objectId fresh : Uuid)
    (now : Int) : Except MetadataError ((String × Int) × MetadataStore) :=
  let token := "telegram-s3-cleanup-" ++ objectId.text ++ "-" ++ fresh.text ++ ".json"
  let p (r : CleanupTargetRow) : Bool :=
    r.id = id && r.lease = some lease && r.state = .running && !r.completed
  if s.outbox.targets.any p then
    .ok ((token, now),
      { s with
        outbox.targets := s.outbox.targets.modify p fun r =>
          { r with evidenceAttemptToken := some token, evidenceAttemptStartedAt := some now } })
  else .error (.preconditionFailed "cleanup evidence lease lost")

theorem beginCleanupEvidenceAttempt_ok {s s' : MetadataStore} {id : Nat} {r : String × Int}
    (h : s.beginCleanupEvidenceAttempt id lease objectId fresh now = .ok (r, s')) :
    s' = { s with
      outbox.targets := s.outbox.targets.modify
        (fun t => t.id = id && t.lease = some lease && t.state = .running && !t.completed)
        fun t => { t with evidenceAttemptToken := some r.1, evidenceAttemptStartedAt := some r.2 } } := by
  unfold beginCleanupEvidenceAttempt at h
  dsimp only at h
  split at h
  · cases h
    rfl
  · cases h

/-- Reconciliation found the evidence of an open attempt; the lease is not asked for. -/
def resolveCleanupEvidence (id : Nat) (location : TelegramLocation) :
    MetadataStore :=
  { s with
    outbox.targets := s.outbox.targets.modify
      (fun r => r.id = id && !r.completed && r.kind = .evidence)
      fun r =>
        { r with
          state := .completed, completed := true, lease := none, leaseUntil := 0, error := none
          evidenceLocation := some location } }

/-- Reconciliation found no evidence: the target is due again. -/
def retryCleanupEvidenceAfterReconciliation (id : Nat) (message : String)
    (now : Int) : MetadataStore :=
  { s with
    outbox.targets := s.outbox.targets.modify
      (fun r => r.id = id && !r.completed && r.kind = .evidence)
      fun r =>
        { r with
          state := .pending, dueAt := now, nextRetry := 0, lease := none, leaseUntil := 0
          error := some message } }

def makeCleanupDue (objectId : Uuid) (now : Int) : MetadataStore :=
  { s with
    outbox.targets := s.outbox.targets.modify
      (fun r => r.objectId = objectId && !r.completed &&
        (r.state = .pending || r.state = .retryWait))
      fun r => { r with dueAt := now, nextRetry := 0 } }

end MetadataStore
end TelegramS3
