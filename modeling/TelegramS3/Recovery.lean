import TelegramS3.Manifests

namespace TelegramS3
open Relational Fallible
set_option autoImplicit true

/-- `ORDER BY committed_at ASC, object_id ASC`: texts, the missing one first. -/
def ManifestRow.commitsBefore (a b : ManifestRow) : Bool :=
  match a.committedAt.map OffsetDateTime.text, b.committedAt.map OffsetDateTime.text with
  | none, some _ => true
  | some _, none => false
  | none, none => a.objectId.value ≤ b.objectId.value
  | some x, some y => x < y || (x = y && a.objectId.value ≤ b.objectId.value)

namespace MetadataStore
variable (s : MetadataStore)

def committedRows : List ManifestRow :=
  (s.objectManifests.select fun m => m.commitState = .committed).insertionSort
    fun a b => a.commitsBefore b

theorem mem_committedRows {s : MetadataStore} :
    r ∈ s.committedRows ↔ r ∈ s.objectManifests ∧ r.commitState = .committed := by
  unfold committedRows
  rw [(List.perm_insertionSort _ _).mem_iff]
  simp

/-- The active index recomputed from the committed manifests, later commits last. -/
def rebuildIndex (now : OffsetDateTime) : MetadataStore :=
  { s with
    activeObjects := s.committedRows.foldl
      (fun t m => t.upsert
        { bucket := m.bucket, objectKey := m.objectKey, objectId := m.objectId, updatedAt := now })
      ∅ }

theorem mem_rebuildIndex_active {s : MetadataStore} (h : a ∈ (s.rebuildIndex now).activeObjects) :
    ∃ r ∈ s.objectManifests, r.commitState = .committed ∧ r.objectId = a.objectId ∧
      r.bucket = a.bucket ∧ r.objectKey = a.objectKey := by
  rcases Table.mem_foldl_upsert h with h | ⟨r, hr, rfl⟩
  · cases h
  · obtain ⟨hm, hc⟩ := mem_committedRows.1 hr
    exact ⟨r, hm, hc, rfl, rfl, rfl⟩

/-- Cleanup targets for every tombstoned manifest, under the connection that is active now. -/
def backfillCleanupOutbox (now : Int) : MetadataStore :=
  { s with
    outbox := (s.objectManifests.select fun m => m.commitState = .tombstoned).foldl
      (fun o m => o.enqueueManifestCleanupAt s.activeConnectionId m.manifest
        (((m.tombstonedAt.map OffsetDateTime.unixTimestamp).getD now) + s.cleanupRetentionSecs))
      s.outbox }

/-- `MetadataStore::open` on an existing database. -/
def reopen (now : OffsetDateTime) : MetadataStore :=
  (s.backfillCleanupOutbox now.unixTimestamp).rebuildIndex now

/-- Pending writes of a deleted key are cancelled with it. -/
def cancelKey (bucket key : String) (now : Int) : MetadataStore :=
  { s with
    transferJobs := s.transferJobs.modify
      (fun j => j.bucket = bucket && j.key = key && (j.state = .receiving || j.state.waiting))
      fun j =>
        { j with
          state := .cancelled, lease := none, leaseUntil := 0
          error := some "Superseded by deletion", updatedAt := now } }

def deleteActiveKey (bucket key reason : String) (c : DeleteConditionals)
    (now : OffsetDateTime) : Except MetadataError (Option ObjectManifest × MetadataStore) :=
  if s.transferJobs.any fun j => j.bucket = bucket && j.key = key && j.state.leased then
    .error (.invalidManifest "object publication in progress; retry delete")
  else
    let s := s.cancelKey bucket key now.unixTimestamp
    match s.activeObjectId bucket key with
    | none => .ok (none, s)
    | some objectId => do
      match ← s.loadManifestByObjectId objectId with
      | none => throw (.manifestNotFound objectId.text)
      | some m =>
        enforceDeleteConditionalsSnapshot c m
        let s := s.tombstoneRows (fun r => r.objectId = objectId) m now
        let s := s.dropActive fun a =>
          a.bucket = bucket && a.objectKey = key && a.objectId = objectId
        return (some (m.withState .tombstoned), s.tombstoneJournal objectId reason now)

theorem deleteActiveKey_ok {s s' : MetadataStore}
    (h : s.deleteActiveKey bucket key reason c now = .ok (r, s')) :
    (∀ j ∈ s.transferJobs, j.bucket = bucket → j.key = key → j.state.leased = false) ∧
      ((s.activeObjectId bucket key = none ∧ s' = s.cancelKey bucket key now.unixTimestamp) ∨
        ∃ objectId m, s.activeObjectId bucket key = some objectId ∧
          s.loadManifestByObjectId objectId = .ok (some m) ∧
          s' = (((s.cancelKey bucket key now.unixTimestamp).tombstoneRows
            (fun r => r.objectId = objectId) m now).dropActive fun a =>
              a.bucket = bucket && a.objectKey = key && a.objectId = objectId).tombstoneJournal
                objectId reason now) := by
  unfold deleteActiveKey at h
  split at h
  · cases h
  · rename_i hl
    rw [Bool.not_eq_true, Table.any_eq_false] at hl
    constructor
    · intro j hj hb hk
      simpa [hb, hk] using hl j hj
    · dsimp only at h
      split at h
      · rename_i ha
        cases h
        exact .inl ⟨ha, rfl⟩
      · rename_i objectId ha
        obtain ⟨loaded, hm, h⟩ := bind_ok.1 h
        split at h
        · simp at h
        · rename_i m
          obtain ⟨_, -, h⟩ := bind_ok.1 h
          simp only [pure_ok, Prod.mk.injEq] at h
          exact .inr ⟨objectId, m, ha, hm, h.2.symm⟩

/-- The folder has other active objects or open transfers below it. -/
def folderOccupied (bucket folder : String) : Bool :=
  let below (key : String) : Bool := folder.toList.isPrefixOf key.toList && key != folder
  (s.activeObjects.any fun a => a.bucket = bucket && below a.objectKey) ||
    s.transferJobs.any fun j => j.bucket = bucket && below j.key &&
      j.state != .completed && j.state != .cancelled && j.state != .cleaned

def deleteEmptyFolder (bucket folder reason : String) (now : OffsetDateTime) :
    Except MetadataError (Option ObjectManifest × MetadataStore) :=
  if folder.toList.getLast? != some '/' then
    .error (.invalidManifest "folder key must end with '/'")
  else if s.folderOccupied bucket folder then .error (.folderNotEmpty folder)
  else s.deleteActiveKey bucket folder reason {} now

def removalInProgress : Bool :=
  s.connectionRemovalJobs.any fun j =>
    j.state = .pending || j.state = .running || j.state = .remoteCleanupPending

/-- The manifests a connection removal hides. -/
def removalManifests (connectionId : String) : List ManifestRow :=
  (s.objectManifests.select fun m =>
    m.connectionId = connectionId && m.commitState != .tombstoned).insertionSort
      fun a b => a.objectId.value ≤ b.objectId.value

def removalUploads (connectionId : String) : List UploadRow :=
  (s.multipartUploads.select fun u => u.connectionId = connectionId &&
    u.state != .completed && u.state != .aborted).insertionSort
      fun a b => a.uploadId.value ≤ b.uploadId.value

/-- What removing a connection with its files sends to the outbox. -/
def removalOutbox (connectionId : String) (now : Int) : CleanupOutbox :=
  let o := (s.removalManifests connectionId).foldl
    (fun o m => o.enqueueManifestCleanupAt connectionId m.manifest now) s.outbox
  let o := ((s.transferJobs.select fun j => j.connectionId = connectionId).insertionSort
      fun a b => a.sequence ≤ b.sequence).foldl
    (fun o j => o.enqueue j.objectId connectionId now
      (((s.checkpointLocations j.id).map TelegramLocation.location ++
        ((s.sendAttempts.select fun a => a.jobId = j.id).filterMap SendAttemptRow.location).map
          TelegramLocation.location).filter fun l => decide (0 < l.2))) o
  (s.removalUploads connectionId).foldl
    (fun o u => o.enqueue u.uploadId connectionId now
      ((((s.multipartParts.select fun p => p.uploadId = u.uploadId).insertionSort
        fun a b => a.partNumber ≤ b.partNumber).map fun p => p.part.telegram.location).filter
          fun l => decide (0 < l.2))) o

/-- The objects a removal job owns; an upload id listed twice violates the primary key. -/
def removalObjects (job : Uuid) (connectionId : String) :
    Except MetadataError (Table RemovalObjectRow) :=
  let owned := (s.removalManifests connectionId).foldl
    (fun t m => t.insertOrIgnore { jobId := job, objectId := m.objectId }) s.connectionRemovalObjects
  let owned := (s.transferJobs.select fun j => j.connectionId = connectionId).foldl
    (fun t j => t.insertOrIgnore { jobId := job, objectId := j.objectId }) owned
  let uploads := s.removalUploads connectionId
  if uploads.any fun u => owned.contains (job, u.uploadId) then
    .error (.sqlite "UNIQUE constraint failed: connection_removal_objects")
  else
    .ok (uploads.foldl (fun t u => t.insertOrIgnore { jobId := job, objectId := u.uploadId }) owned)

/-- The namespace of a connection disappears: manifests, index, buckets, jobs and uploads. -/
def hideConnection (job : Uuid) (deleteUploadedFiles : Bool)
    (objects : Table RemovalObjectRow) (now : OffsetDateTime) : MetadataStore :=
  let connectionId := s.activeConnectionId
  { s with
    connectionRemovalObjects := objects
    connectionRemovalJobs := s.connectionRemovalJobs.insertOrIgnore
      { id := job, connectionId, deleteUploadedFiles, state := .pending
        objectCount := (objects.select fun r => r.jobId = job).length
        requestedAt := now.unixTimestamp, updatedAt := now.unixTimestamp }
    outbox := if deleteUploadedFiles then s.removalOutbox connectionId now.unixTimestamp
      else s.outbox
    objectManifests := s.objectManifests.modify
      (fun r => r.connectionId = connectionId && r.commitState != .tombstoned) fun r =>
        { r with
          commitState := .tombstoned, manifest := r.manifest.withState .tombstoned
          tombstonedAt := some now }
    activeObjects := s.activeObjects.delete fun a => s.objectManifests.any fun m =>
      m.objectId = a.objectId && m.connectionId = connectionId
    buckets := s.buckets.modify (fun b => b.connectionId = connectionId && b.deletedAt.isNone)
      fun b => { b with deletedAt := some now }
    transferJobs := s.transferJobs.modify
      (fun j => j.connectionId = connectionId && j.state != .completed && j.state != .cancelled &&
        j.state != .cleaned) fun j =>
        { j with
          state := .cancelled, lease := none, leaseUntil := 0
          error := some "connection removed", updatedAt := now.unixTimestamp }
    multipartUploads := s.multipartUploads.modify
      (fun u => u.connectionId = connectionId && u.state != .completed && u.state != .aborted)
      fun u => { u with state := .aborted, updatedAt := now }
    operationJournal := s.operationJournal.modify
      (fun r => objects.contains (job, r.objectId) && r.state = .staging) fun r =>
        { r with state := .cancelled, error := some "connection removed", updatedAt := now } }

def beginConnectionRemoval (job : Uuid) (deleteUploadedFiles : Bool)
    (now : OffsetDateTime) : Except MetadataError MetadataStore := do
  ensure (!s.removalInProgress) .connectionRemovalInProgress
  ensure (!s.connectionRemovalJobs.contains job)
    (.sqlite "UNIQUE constraint failed: connection_removal_jobs.id")
  (s.removalManifests s.activeConnectionId).forM fun m =>
    match m.manifest.validate with
    | .error message => .error (.invalidManifest message)
    | .ok () => .ok ()
  let objects ← s.removalObjects job s.activeConnectionId
  return s.hideConnection job deleteUploadedFiles objects now

section
variable {s s' : MetadataStore} (h : s.beginConnectionRemoval job deleteUploadedFiles now = .ok s')
include h

theorem beginConnectionRemoval_objects : s.connectionRemovalJobs.get? job = none ∧
      ∃ objects, s.removalObjects job s.activeConnectionId = .ok objects ∧
        s' = s.hideConnection job deleteUploadedFiles objects now := by
  unfold beginConnectionRemoval at h
  obtain ⟨_, -, h⟩ := bind_ok.1 h
  obtain ⟨_, hn, h⟩ := bind_ok.1 h
  obtain ⟨_, -, h⟩ := bind_ok.1 h
  obtain ⟨objects, ho, h⟩ := bind_ok.1 h
  simp only [ensure_ok, Table.contains, Bool.not_eq_true', Option.isSome_eq_false_iff,
    Option.isNone_iff_eq_none] at hn
  exact ⟨hn, objects, ho, (pure_ok.1 h).symm⟩

theorem beginConnectionRemoval_ok :
    ∃ objects, s' = s.hideConnection job deleteUploadedFiles objects now := by
  obtain ⟨-, objects, -, he⟩ := beginConnectionRemoval_objects h
  exact ⟨objects, he⟩

end

end MetadataStore
end TelegramS3
