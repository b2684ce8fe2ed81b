import Mathlib.Data.List.Sort
import TelegramS3.Outbox

namespace TelegramS3
open Relational Table
set_option autoImplicit true

namespace MetadataStore
variable (s : MetadataStore)

def updateJob (p : TransferJob → Bool) (f : TransferJob → TransferJob)
    (message : String) (hf : ∀ r, Keyed.key (f r) = Keyed.key r := by intros; exact (show _ from rfl)) :
    Except MetadataError MetadataStore :=
  if s.transferJobs.any p then .ok { s with transferJobs := s.transferJobs.modify p f hf }
  else .error (.invalidManifest message)

theorem updateJob_ok {s s' : MetadataStore} (h : s.updateJob p f message hf = .ok s') :
    s.transferJobs.any p = true ∧ s' = { s with transferJobs := s.transferJobs.modify p f hf } := by
  unfold updateJob at h
  split at h
  · rename_i hp
    cases h
    exact ⟨hp, rfl⟩
  · cases h

def receivingJob (id : Uuid) (j : TransferJob) : Bool := j.id = id && j.state = .receiving

theorem receivingJob_iff {id : Uuid} :
    receivingJob id j = true ↔ j.id = id ∧ j.state = .receiving := by
  simp [receivingJob]

theorem any_receivingJob {s : MetadataStore} {id : Uuid}
    (h : s.transferJobs.any (receivingJob id) = true) :
    ∃ j, s.transferJobs.get? id = some j ∧ j.state = .receiving := by
  obtain ⟨j, hj, hr⟩ := any_eq_true.1 h
  obtain ⟨hid, hstate⟩ := receivingJob_iff.1 hr
  exact ⟨j, get?_eq_some.2 ⟨hj, hid⟩, hstate⟩

def leasedJob (id lease : Uuid) (j : TransferJob) : Bool :=
  j.id = id && j.lease = some lease && j.state.leased

def newJob (objectId : Uuid) (bucket key : String) (now : Int) : TransferJob :=
  { sequence := s.transferSequence + 1, id := objectId, objectId
    connectionId := s.activeConnectionId, bucket, key
    createdAt := now, updatedAt := now, leaseUntil := now + 120 }

/-- A live bucket admits a new job; ids are unique and the sequence only grows. -/
def beginTransfer (objectId : Uuid) (bucket key : String) (now : Int) :
    Except MetadataError MetadataStore :=
  if !s.buckets.any (fun b => b.name = bucket && b.deletedAt.isNone) then
    .error (.bucketNotFound bucket)
  else if s.transferJobs.contains objectId then
    .error (.sqlite "UNIQUE constraint failed: transfer_jobs.id")
  else
    .ok { s with
      transferSequence := s.transferSequence + 1
      transferJobs := s.transferJobs.insertOrIgnore (s.newJob objectId bucket key now) }

theorem beginTransfer_ok {s s' : MetadataStore}
    (h : s.beginTransfer objectId bucket key now = .ok s') :
    s.transferJobs.get? objectId = none ∧ s' = { s with
        transferSequence := s.transferSequence + 1
        transferJobs := s.transferJobs.insertOrIgnore (s.newJob objectId bucket key now) } := by
  unfold beginTransfer at h
  split at h
  · cases h
  · split at h
    · cases h
    · rename_i hc
      cases h
      exact ⟨by simpa [Table.contains] using hc, rfl⟩

def stagedBytes : Nat :=
  ((s.transferJobs.select fun j => !j.state.published).map TransferJob.bytes).sum

def reserveStaging (id : Uuid) (bytes budget : Nat) (now : Int) :
    Except MetadataError MetadataStore :=
  if budget < min (s.stagedBytes + bytes) (2 ^ 64 - 1) then
    .error (.invalidManifest "staging capacity exhausted")
  else
    s.updateJob (receivingJob id)
      (fun j => { j with bytes := j.bytes + bytes, updatedAt := now, leaseUntil := now + 120 })
      "upload is no longer receiving"

theorem reserveStaging_ok {s s' : MetadataStore} {id : Uuid}
    (h : s.reserveStaging id bytes budget now = .ok s') :
    s.transferJobs.any (receivingJob id) = true ∧ s' = { s with
        transferJobs := s.transferJobs.modify (receivingJob id) fun j =>
          { j with bytes := j.bytes + bytes, updatedAt := now, leaseUntil := now + 120 } } := by
  unfold reserveStaging at h
  split at h
  · cases h
  · exact updateJob_ok h

def renewReceiving (id : Uuid) (now : Int) : MetadataStore :=
  { s with
    transferJobs := s.transferJobs.modify (receivingJob id)
      fun j => { j with leaseUntil := now + 120, updatedAt := now } }

def setTransferConditionals (id : Uuid)
    (conditionals : Option TransferWriteConditionals) (now : Int) :
    Except MetadataError MetadataStore :=
  s.updateJob (receivingJob id)
    (fun j => { j with writeConditionals := conditionals, updatedAt := now })
    "transfer conditionals could not be recorded"

def queueTransfer (id operation : Uuid) (chunks : Nat) (now : Int) :
    Except MetadataError MetadataStore :=
  s.updateJob (receivingJob id)
    (fun j =>
      { j with
        operationId := some operation, chunksTotal := chunks, state := .queued
        updatedAt := now, leaseUntil := 0 })
    "upload cannot be queued"

def deleteManifests (p : ManifestRow → Bool) : MetadataStore :=
  { s with
    objectManifests := s.objectManifests.delete p
    activeObjects := s.activeObjects.delete fun a =>
      s.objectManifests.any fun m => decide (m.objectId = a.objectId) && p m }

def discardStaged (id : Uuid) : MetadataStore :=
  deleteManifests
    { s with
      operationJournal := s.operationJournal.delete fun r => r.objectId = id && r.state = .staging }
    fun r => r.objectId = id && r.commitState = .staging

/-- Ends a job in one of `p`'s states without publication and drops what it staged. -/
def endReception (id : Uuid) (p : TransferState → Bool)
    (f : TransferJob → TransferJob)
    (hf : ∀ r, Keyed.key (f r) = Keyed.key r := by intros; exact (show _ from rfl)) : Bool × MetadataStore :=
  let live (j : TransferJob) : Bool := decide (j.id = id) && p j.state
  if s.transferJobs.any live then
    (true, discardStaged { s with transferJobs := s.transferJobs.modify live f hf } id)
  else (false, s)

def failReception (id : Uuid) (filesRemoved : Bool) (message : String)
    (now : Int) : Bool × MetadataStore :=
  s.endReception id (· = .receiving) fun j =>
    { j with
      state := if filesRemoved then .receptionFailed else .recoveryRequired
      bytes := if filesRemoved then 0 else j.bytes
      lease := none, leaseUntil := 0, error := some message, updatedAt := now }

def rejectTransferForQuota (id : Uuid) (message : String) (now : Int) :
    Bool × MetadataStore :=
  s.endReception id TransferState.leased fun j =>
    { j with
      state := .receptionFailed, bytes := 0, lease := none, leaseUntil := 0
      error := some message, updatedAt := now }

def multipartJob (id : Uuid) : Option (Uuid × Nat) :=
  (s.multipartJobs.get? id).map fun m => (m.uploadId, m.partNumber)

/-- Any older job of the key that has not reached a terminal state. -/
def olderPending (bucket key : String) (sequence : Nat) : Bool :=
  s.transferJobs.any fun j =>
    j.bucket = bucket && j.key = key && j.sequence < sequence && !j.state.terminal

/-- Any newer job of the key in state `completed` or `cleaned`. -/
def newerCommitted (bucket key : String) (sequence : Nat) : Bool :=
  s.transferJobs.any fun j =>
    j.bucket = bucket && j.key = key && sequence < j.sequence && j.state.published

/-- The upload of a multipart job accepts no more publications of its kind. -/
def closedMultipart (id : Uuid) : Bool :=
  s.multipartJobs.any fun p =>
    p.jobId = id && s.multipartUploads.any fun u => u.uploadId = p.uploadId &&
      !(u.state = .initiated || u.state = .uploading || (p.partNumber = 0 && u.state = .completing))

def expireReceptions (now : Int) : MetadataStore :=
  { s with
    transferJobs := s.transferJobs.modify (fun j => j.state = .receiving && j.leaseUntil < now)
      fun j =>
        { j with
          state := .recoveryRequired
          error := some "Reception interrupted; upload the source file again" } }

def retainAmbiguousSends (now : Int) : MetadataStore :=
  { s with
    transferJobs := s.transferJobs.modify
      (fun j => j.state.leased && j.leaseUntil < now && s.ambiguousSend j.id)
      fun j =>
        { j with
          state := .recoveryRequired, lease := none, leaseUntil := 0
          error := some
            "Telegram acknowledgement is unknown; automatic reconciliation is pending" } }

def normalizeSendAttempts (now : Int) : MetadataStore :=
  { s with
    sendAttempts := s.sendAttempts.modify
      (fun a => a.state = .sending && s.transferJobs.any fun j => j.id = a.jobId &&
        ((j.state = .recoveryRequired && j.lease.isNone) || (j.state.leased && j.leaseUntil < now)))
      fun a =>
        { a with
          state := .unknown, errorKind := some "lease_expired"
          error := some "Worker lease expired before Telegram acknowledgement"
          finishedAt := some now } }

def cancelClosedMultipart : MetadataStore :=
  { s with
    transferJobs := s.transferJobs.modify
      (fun j => j.state.waiting && s.closedMultipart j.id)
      fun j =>
        { j with
          state := .cancelled, lease := none, leaseUntil := 0
          error := some "Multipart session closed before transfer publication" } }

/-- An older retry never replaces a newer already-committed write for the same key. -/
def supersedeOlder : MetadataStore :=
  { s with
    transferJobs := s.transferJobs.modify
      (fun j => (j.state.waiting || j.state.leased) && s.newerCommitted j.bucket j.key j.sequence)
      fun j =>
        { j with
          state := .superseded, lease := none, leaseUntil := 0
          error := some "Superseded by a newer committed write" } }

def claimable (now : Int) (j : TransferJob) : Bool :=
  (((j.state = .queued || j.state = .retryWait) && j.nextRetry ≤ now) ||
      (j.state.leased && j.leaseUntil < now)) &&
    !s.ambiguousSend j.id && !s.olderPending j.bucket j.key j.sequence

/-- The recovery work `claim_transfer` makes durable before it looks for a candidate. -/
def normalizeTransfers (now : Int) : MetadataStore :=
  ((((s.expireReceptions now).retainAmbiguousSends now).normalizeSendAttempts
    now).cancelClosedMultipart).supersedeOlder

def TransferJob.claim (now : Int) (lease : Uuid) (j : TransferJob) : TransferJob :=
  { j with
    state := .uploading, lease := some lease, leaseUntil := now + 120
    attempts := j.attempts + 1, updatedAt := now }

def claimTransfer (now : Int) (lease : Uuid) :
    Option TransferJob × MetadataStore :=
  let s := s.normalizeTransfers now
  match firstBy TransferJob.sequence (s.transferJobs.select (s.claimable now)) with
  | none => (none, s)
  | some j =>
    (some (TransferJob.claim now lease j),
      { s with
        transferJobs := s.transferJobs.modify (fun r => r.id = j.id) (TransferJob.claim now lease) })

theorem normalizeTransfers_frame (now : Int) : ∃ jobs attempts,
      s.normalizeTransfers now = { s with transferJobs := jobs, sendAttempts := attempts } := by
  refine ⟨(s.normalizeTransfers now).transferJobs, (s.normalizeTransfers now).sendAttempts, ?_⟩
  unfold normalizeTransfers supersedeOlder cancelClosedMultipart normalizeSendAttempts
    retainAmbiguousSends expireReceptions
  rfl

theorem claimTransfer_frame (now : Int) (lease : Uuid) : ∃ jobs attempts,
      (s.claimTransfer now lease).2 = { s with transferJobs := jobs, sendAttempts := attempts } := by
  obtain ⟨jobs, attempts, hn⟩ := s.normalizeTransfers_frame now
  unfold claimTransfer
  dsimp only
  rw [hn]
  split
  · exact ⟨_, _, rfl⟩
  · exact ⟨_, _, rfl⟩

def renewTransfer (id lease : Uuid) (now : Int) : MetadataStore :=
  { s with
    transferJobs := s.transferJobs.modify (leasedJob id lease)
      fun j => { j with leaseUntil := now + 120, updatedAt := now } }

/-- The publication fence of `publish_transfer`. -/
def enterCommitting (id lease : Uuid) (now : Int) :
    Except MetadataError MetadataStore :=
  s.updateJob
    (fun j => j.id = id && j.lease = some lease && j.state = .uploading && now ≤ j.leaseUntil)
    (fun j => { j with state := .committing }) "publication fence lost"

def transferFailed (id lease : Uuid) (retryAfter : Option Nat)
    (message : String) (now : Int) : MetadataStore :=
  let ambiguous := s.ambiguousSend id
  { s with
    transferJobs := s.transferJobs.modify (leasedJob id lease) fun j =>
      { j with
        state := if !ambiguous && retryAfter.isSome then .retryWait else .recoveryRequired
        error := some (if ambiguous then
          "Telegram acknowledgement is unknown; automatic reconciliation is pending" else message)
        nextRetry := now + (retryAfter.getD 0 : Nat), lease := none, leaseUntil := 0
        updatedAt := now } }

def retryTransfer (id : Uuid) : MetadataStore :=
  { s with
    transferJobs := s.transferJobs.modify
      (fun j => j.id = id && (j.state = .retryWait || j.state = .recoveryRequired) &&
        j.operationId.isSome && !s.ambiguousSend id)
      fun j => { j with state := .queued, error := none, nextRetry := 0 } }

def checkpointLocations (id : Uuid) : List TelegramLocation :=
  (s.transferChunks.select fun c => c.jobId = id).map TransferChunkRow.location

/-- Operator cancellation: what the job already sent goes to the cleanup outbox. -/
def cancelTransfer (id : Uuid) (now : Int) : MetadataStore :=
  match s.transferJobs.get? id with
  | none => s
  | some job =>
    if !job.state.waiting then s
    else
      let locations := s.checkpointLocations id
      { s with
        outbox := if locations.isEmpty then s.outbox else
          s.outbox.enqueue job.objectId s.activeConnectionId now
            (locations.map TelegramLocation.location)
        transferJobs := s.transferJobs.modify (fun j => j.id = id && j.state.waiting) fun j =>
          { j with
            state := .cancelled, error := some "Cancelled; staged data queued for local discard"
            lease := none, leaseUntil := 0, updatedAt := now } }

def transferAction (id : Uuid) (action : String) (now : Int) : MetadataStore :=
  if action = "retry" then s.retryTransfer id
  else if action = "cancel" then s.cancelTransfer id now
  else s

theorem cancelTransfer_cases (id : Uuid) (now : Int) : s.cancelTransfer id now = s ∨
      ∃ job locations, s.transferJobs.get? id = some job ∧ job.state.waiting = true ∧
        locations = s.checkpointLocations id ∧
        s.cancelTransfer id now = { s with
          outbox := if locations.isEmpty then s.outbox else
            s.outbox.enqueue job.objectId s.activeConnectionId now
              (locations.map TelegramLocation.location)
          transferJobs := s.transferJobs.modify (fun j => j.id = id && j.state.waiting) fun j =>
            { j with
              state := .cancelled
              error := some "Cancelled; staged data queued for local discard"
              lease := none, leaseUntil := 0, updatedAt := now } } := by
  unfold cancelTransfer
  split
  · exact .inl rfl
  · rename_i job hj
    by_cases hw : job.state.waiting = true
    · refine .inr ⟨job, _, hj, hw, rfl, ?_⟩
      simp only [hw, Bool.not_true, Bool.false_eq_true, if_false]
    · left
      simp [hw]

def localCleanupState : TransferState → Bool
  | .completed | .cancelled | .receptionFailed | .superseded => true
  | _ => false

def transfersForLocalCleanup (limit : Nat) : List TransferJob :=
  ((s.transferJobs.select fun j => localCleanupState j.state).insertionSort
    fun a b => a.sequence ≤ b.sequence).take (min limit 100)

def markCleaned (id : Uuid) : MetadataStore :=
  { s with
    transferJobs := s.transferJobs.modify (fun j => j.id = id && localCleanupState j.state)
      fun j => { j with state := .cleaned, bytes := 0 } }

/-- Local cleanup of the listed jobs, until a directory cannot be removed after `removed` of them. -/
def cleanupCompletedStaging (removed : Nat) : MetadataStore :=
  ((s.transfersForLocalCleanup 100).take removed).foldl (fun s j => s.markCleaned j.id) s

theorem cleanupCompletedStaging_induction {s : MetadataStore} {P : MetadataStore → Prop} (h : P s)
    (hs : ∀ t j, P t → j ∈ (s.transfersForLocalCleanup 100).take n → P (t.markCleaned j.id)) :
    P (s.cleanupCompletedStaging n) :=
  List.foldlRecOn _ _ h fun t ht j hj => hs t j ht hj

theorem mem_transfersForLocalCleanup {s : MetadataStore}
    (h : j ∈ s.transfersForLocalCleanup limit) :
    j ∈ s.transferJobs ∧ localCleanupState j.state = true := by
  have hm := List.mem_of_mem_take h
  simpa using (List.perm_insertionSort _ _).mem_iff.1 hm

end MetadataStore
end TelegramS3
