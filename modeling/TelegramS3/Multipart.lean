import TelegramS3.Manifests

namespace TelegramS3
open Relational Fallible
set_option autoImplicit true

namespace MetadataStore
variable (s : MetadataStore)

def createMultipartSession (session : MultipartSession)
    (now : OffsetDateTime) : MetadataStore :=
  { s with
    multipartUploads := s.multipartUploads.upsertWith
      { uploadId := session.uploadId, connectionId := s.activeConnectionId
        bucket := session.bucket, objectKey := session.key, state := session.state, session
        createdAt := now, updatedAt := now }
      fun u =>
        { u with
          connectionId := s.activeConnectionId, bucket := session.bucket
          objectKey := session.key, state := session.state, session, updatedAt := now } }

/-- The part of a job: `multipart_jobs` gets its row right after `begin_transfer`. -/
def insertMultipartJob (row : MultipartJobRow) :
    Except MetadataError MetadataStore :=
  if s.multipartJobs.contains row.jobId || !s.transferJobs.contains row.jobId then
    .error (.sqlite "constraint failed: multipart_jobs")
  else .ok { s with multipartJobs := s.multipartJobs.insertOrIgnore row }

theorem insertMultipartJob_ok {s s' : MetadataStore} (h : s.insertMultipartJob row = .ok s') :
    s.multipartJobs.get? row.jobId = none ∧
      s' = { s with multipartJobs := s.multipartJobs.insertOrIgnore row } := by
  unfold insertMultipartJob at h
  split at h
  · cases h
  · rename_i hc
    cases h
    simp only [Bool.or_eq_true, not_or, Table.contains, Bool.not_eq_true,
      Option.isSome_eq_false_iff, Option.isNone_iff_eq_none] at hc
    exact ⟨hc.1, rfl⟩

def listMultipartParts (upload : Uuid) : List MultipartPart :=
  ((s.multipartParts.select fun p => p.uploadId = upload).insertionSort
    fun a b => a.partNumber ≤ b.partNumber).map PartRow.part

def getMultipartPart (upload : Uuid) (number : Nat) : Option MultipartPart :=
  (s.multipartParts.get? (upload, number)).map PartRow.part

/-- The job is attached to this part number of the upload. -/
def partOf (upload : Uuid) (number : Nat) (job : Uuid) : Bool :=
  s.multipartJobs.any fun m => m.uploadId = upload && m.partNumber = number && m.jobId = job

/-- Duplicates of a published part that have sent nothing to Telegram. -/
def supersedeDuplicates (id upload : Uuid) (number : Nat) (now : Int) :
    MetadataStore :=
  { s with
    transferJobs := s.transferJobs.modify
      (fun j => j.id != id && s.partOf upload number j.id &&
        (j.state = .receiving || j.state.waiting) &&
        !s.hasAttempt j.id fun st => st = .sending || st = .unknown || st = .checkpointed)
      fun j =>
        { j with
          state := .superseded, lease := none, leaseUntil := 0
          error := some "Superseded by successful multipart part publication", updatedAt := now } }

/-- Drops the staged rows of the published job and of its superseded duplicates. -/
def discardPart (id upload : Uuid) (number : Nat) : MetadataStore :=
  let gone (objectId : Uuid) : Bool := objectId = id || s.transferJobs.any fun j =>
    j.id != id && s.partOf upload number j.id && j.state = .superseded && j.objectId = objectId
  deleteManifests
    { s with operationJournal := s.operationJournal.delete fun r => gone r.objectId }
    fun r => gone r.objectId

def MultipartPart.ofManifest (upload : Uuid) (number : Nat) (m : ObjectManifest)
    (now : OffsetDateTime) : MultipartPart :=
  { uploadId := upload, partNumber := number, size := m.contentLength
    checksum := m.checksum.wholeObject, eTag := m.checksum.wholeObject, telegram := m.telegram
    manifest := some m, createdAt := now }

/-- The part row takes the place of an older one, whose documents go to the outbox. -/
def putPart (upload : Uuid) (number : Nat) (part : MultipartPart)
    (now : OffsetDateTime) : MetadataStore :=
  { s with
    outbox := match s.getMultipartPart upload number with
      | none => s.outbox
      | some old => s.outbox.enqueuePartCleanup s.activeConnectionId s.cleanupRetentionSecs
          now.unixTimestamp old
    multipartParts := s.multipartParts.upsert
      { uploadId := upload, partNumber := number, part, createdAt := now } }

def finishPartJob (fromStr : String → Option ETagCondition) (s : MetadataStore)
    (id lease upload : Uuid) (number : Nat) (now : OffsetDateTime) :
    Except MetadataError MetadataStore :=
  if number = 0 then
    match (s.transferJobs.get? id).bind TransferJob.operationId with
    | none => .error (.invalidManifest "completion operation missing")
    | some operation => (s.commitManifest fromStr operation now).map Prod.snd
  else
    match s.objectManifests.get? id with
    | none => .error (.sqlite "Query returned no rows")
    | some row => do
      ensure (s.multipartUploads.any fun u =>
          u.uploadId = upload && (u.state = .initiated || u.state = .uploading))
        (.invalidManifest "multipart session is closed")
      let s := s.putPart upload number (MultipartPart.ofManifest upload number row.manifest now) now
      let s ← s.updateJob (fun j => j.id = id && j.lease = some lease && j.state = .committing)
        (fun j => { j with state := .completed, lease := none, error := none }) "part lease lost"
      return (s.supersedeDuplicates id upload number now.unixTimestamp).discardPart id upload number

def publishedPart (id lease upload : Uuid) (number : Nat) (m : ObjectManifest)
    (now : OffsetDateTime) : MetadataStore :=
  { s.putPart upload number (MultipartPart.ofManifest upload number m now) now with
    transferJobs := s.transferJobs.modify
      (fun j => j.id = id && j.lease = some lease && j.state = .committing)
      fun j => { j with state := .completed, lease := none, error := none } }

theorem finishPartJob_ok {s s' : MetadataStore} (hn : number ≠ 0)
    (h : s.finishPartJob fromStr job lease upload number now = .ok s') :
    ∃ row, s.objectManifests.get? job = some row ∧ s.transferJobs.any
        (fun j => j.id = job && j.lease = some lease && j.state = .committing) = true ∧
      s' = ((s.publishedPart job lease upload number row.manifest now).supersedeDuplicates job
        upload number now.unixTimestamp).discardPart job upload number := by
  unfold finishPartJob at h
  rw [if_neg hn] at h
  split at h
  · cases h
  · rename_i row hr
    obtain ⟨_, -, h⟩ := bind_ok.1 h
    obtain ⟨s₁, hs, h⟩ := bind_ok.1 h
    obtain ⟨ha, rfl⟩ := updateJob_ok hs
    exact ⟨row, hr, ha, (pure_ok.1 h).symm⟩

theorem finishPartJob_zero {s s' : MetadataStore}
    (h : s.finishPartJob fromStr job lease upload 0 now = .ok s') :
    ∃ operation m', (s.transferJobs.get? job).bind TransferJob.operationId = some operation ∧
      s.commitManifest fromStr operation now = .ok (m', s') := by
  unfold finishPartJob at h
  rw [if_pos rfl] at h
  split at h
  · cases h
  · rename_i operation ho
    obtain ⟨⟨m', s₁⟩, hs, rfl⟩ := map_ok.1 h
    exact ⟨operation, m', ho, hs⟩

def jobOfUpload (upload : Uuid) (job : Uuid) : Bool :=
  s.multipartJobs.any fun m => m.uploadId = upload && m.jobId = job

/-- The upload goes, its parts to the outbox and its open jobs to `cancelled`. -/
def dropUpload (upload : Uuid) (now : Int) : MetadataStore :=
  { s with
    outbox := ((s.multipartParts.select fun p => p.uploadId = upload).map PartRow.part).foldl
      (fun o part => o.enqueuePartCleanup s.activeConnectionId s.cleanupRetentionSecs now part)
      s.outbox
    transferJobs := s.transferJobs.modify
      (fun j => s.jobOfUpload upload j.id && !j.state.published)
      fun j => { j with state := .cancelled, lease := none }
    multipartParts := s.multipartParts.delete fun p => p.uploadId = upload
    multipartUploads := s.multipartUploads.delete fun u => u.uploadId = upload }

def abortParts (upload : Uuid) (now : Int) :
    Except MetadataError MetadataStore := do
  ensure (!s.transferJobs.any fun j => s.jobOfUpload upload j.id && j.state.leased)
    (.invalidManifest "multipart publication in progress; retry abort")
  return s.dropUpload upload now

theorem abortParts_ok {s s' : MetadataStore} (h : s.abortParts upload now = .ok s') :
    (∀ j ∈ s.transferJobs, s.jobOfUpload upload j.id = true → j.state.leased = false) ∧
      s' = s.dropUpload upload now := by
  unfold abortParts at h
  obtain ⟨_, he, h⟩ := bind_ok.1 h
  simp only [ensure_ok, Bool.not_eq_true', Table.any_eq_false, Bool.and_eq_false_imp] at he
  exact ⟨he, (pure_ok.1 h).symm⟩

/-- Earlier completion jobs of the upload give way to the one being queued. -/
def supersedeCompletions (job upload : Uuid) (now : Int) : MetadataStore :=
  { s with
    transferJobs := s.transferJobs.modify
      (fun j => s.partOf upload 0 j.id && j.id != job &&
        (j.state = .receiving || j.state = .queued || j.state = .retryWait ||
          j.state = .receptionFailed || j.state = .cancelled ||
          (j.state = .recoveryRequired && !s.ambiguousSend j.id)))
      fun j =>
        { j with
          state := .superseded, lease := none, leaseUntil := 0
          error := some "Superseded by metadata-only multipart completion", updatedAt := now } }

def queueMultipartCompletion (job operation upload : Uuid)
    (now : OffsetDateTime) : Except MetadataError MetadataStore :=
  match s.multipartUploads.get? upload with
  | none => .error (.multipartSessionNotFound upload.text)
  | some row => do
    ensure (row.session.state = .initiated || row.session.state = .uploading ||
      row.session.state = .completing) (.invalidManifest "multipart completion session is closed")
    ensure (!s.transferJobs.any fun j => s.partOf upload 0 j.id && j.id != job &&
        (j.state.leased || (j.state = .recoveryRequired && s.ambiguousSend j.id)))
      (.invalidManifest "an earlier multipart completion still needs Telegram reconciliation")
    let s := s.supersedeCompletions job upload now.unixTimestamp
    let s ← s.updateJob (receivingJob job)
      (fun j =>
        { j with
          operationId := some operation, chunksTotal := 0, state := .queued
          updatedAt := now.unixTimestamp, leaseUntil := 0 })
      "multipart completion cannot be queued"
    let s ← s.insertMultipartJob
      { jobId := job, uploadId := upload, partNumber := 0, expectedChecksum := none }
    return { s with
      multipartUploads := s.multipartUploads.modify (fun u => u.uploadId = upload) fun u =>
        { u with
          state := .completing, updatedAt := now
          session := { u.session with state := .completing, updatedAt := now } } }

theorem queueMultipartCompletion_ok {s s' : MetadataStore}
    (h : s.queueMultipartCompletion job operation upload now = .ok s') :
    s.multipartJobs.get? job = none ∧ ∃ uploads, s' = { s with
        transferJobs := (s.supersedeCompletions job upload now.unixTimestamp).transferJobs.modify
          (receivingJob job) fun j =>
            { j with
              operationId := some operation, chunksTotal := 0, state := .queued
              updatedAt := now.unixTimestamp, leaseUntil := 0 }
        multipartJobs := s.multipartJobs.insertOrIgnore
          { jobId := job, uploadId := upload, partNumber := 0, expectedChecksum := none }
        multipartUploads := uploads } := by
  unfold queueMultipartCompletion at h
  split at h
  · cases h
  · obtain ⟨_, -, h⟩ := bind_ok.1 h
    obtain ⟨_, -, h⟩ := bind_ok.1 h
    obtain ⟨s₁, hs₁, h⟩ := bind_ok.1 h
    obtain ⟨s₂, hs₂, h⟩ := bind_ok.1 h
    obtain ⟨-, rfl⟩ := updateJob_ok hs₁
    obtain ⟨hn, rfl⟩ := insertMultipartJob_ok hs₂
    exact ⟨hn, _, (pure_ok.1 h).symm⟩

end MetadataStore
end TelegramS3
