import TelegramS3.Transfers

namespace TelegramS3
open Relational Table Fallible
set_option autoImplicit true

inductive ETag where
  | strong (value : String)
  | weak (value : String)
  deriving DecidableEq

inductive ETagCondition where
  | any
  | etag (tag : ETag)
  deriving DecidableEq

def etagConditionMatches : ETagCondition → String → Bool
  | .any, _ => true
  | .etag (.strong value), actual => value = actual
  | .etag (.weak value), actual => value = actual

structure DeleteConditionals where
  ifMatch : Option ETagCondition := none
  ifMatchLastModifiedTime : Option OffsetDateTime := none
  ifMatchSize : Option Int := none

def toI64 (n : Nat) : Int :=
  let v : Nat := n % 2 ^ 64
  if v < 2 ^ 63 then (v : Int) else (v : Int) - 2 ^ 64

def enforceDeleteConditionalsSnapshot (c : DeleteConditionals) (m : ObjectManifest) :
    Except MetadataError Unit := do
  ensure (c.ifMatch.all (etagConditionMatches · m.checksum.wholeObject))
    (.preconditionFailed "if-match precondition failed")
  ensure (c.ifMatchLastModifiedTime.all fun t => m.createdAt = t)
    (.preconditionFailed "if-match-last-modified-time precondition failed")
  ensure (c.ifMatchSize.all fun n => toI64 m.contentLength = n)
    (.preconditionFailed "if-match-size precondition failed")

def ObjectManifest.withState (m : ObjectManifest) (state : CommitState) : ObjectManifest :=
  { m with commitState := state }

namespace MetadataStore
variable (s : MetadataStore)

def stagedDetails (kind : OperationKind) (m : ObjectManifest) : JournalDetails :=
  { operationId := m.objectId, objectId := m.objectId, bucket := m.bucket, objectKey := m.key
    operationKind := kind, state := .staging, reason := none }

def stagedRow (m : ObjectManifest) (now : OffsetDateTime) : ManifestRow :=
  { objectId := m.objectId, connectionId := s.activeConnectionId, bucket := m.bucket
    objectKey := m.key, versionId := m.versionId, commitState := .staging
    manifest := m.withState .staging, createdAt := now, committedAt := none, tombstonedAt := none }

def stageRows (kind : OperationKind) (m : ObjectManifest)
    (now : OffsetDateTime) : MetadataStore :=
  { s with
    objectManifests := s.objectManifests.upsert (s.stagedRow m now)
    operationJournal := s.operationJournal.upsertWith
      { operationId := m.objectId, objectId := m.objectId, bucket := m.bucket, objectKey := m.key
        operationKind := kind, state := .staging, details := stagedDetails kind m, error := none
        createdAt := now, updatedAt := now }
      fun r =>
        { r with
          objectId := m.objectId, bucket := m.bucket, objectKey := m.key, operationKind := kind
          state := .staging, details := stagedDetails kind m, error := none, updatedAt := now } }

def stageManifest (kind : OperationKind) (m : ObjectManifest)
    (now : OffsetDateTime) : Except MetadataError MetadataStore :=
  match m.validate with
  | .error message => .error (.invalidManifest message)
  | .ok () => .ok (s.stageRows kind m now)

theorem stageManifest_ok {s s' : MetadataStore} (h : s.stageManifest kind m now = .ok s') :
    m.validate = .ok () ∧ s' = s.stageRows kind m now := by
  unfold stageManifest at h
  split at h
  · cases h
  · rename_i hv
    cases h
    exact ⟨hv, rfl⟩

/-- Bytes an account holds: active committed objects and its physical replicas. -/
def accountUsage (account : String) : Nat :=
  let activeRows := s.activeObjects.rows.filterMap fun a => s.objectManifests.get? a.objectId
  let owned := (activeRows.filter fun m =>
    m.connectionId = account && m.commitState = .committed).map fun m => m.manifest.contentLength
  let replicas := (s.replicaLocations.select fun r =>
    r.accountId = account && r.mode = .replica).map fun r =>
      ((activeRows.filter fun m => m.objectId = r.objectId && m.commitState = .committed).map
        fun m => (m.manifest.chunks[r.chunkOrder]?.map ChunkRef.size).getD 0).sum
  owned.sum + replicas.sum

def enforceQuota (label : String) (quota : Option Nat) (used additional : Nat) :
    Except MetadataError Unit :=
  match quota with
  | none => .ok ()
  | some quota =>
    ensure (min (used + additional) (2 ^ 64 - 1) ≤ quota)
      (.quotaExceeded ("account " ++ label ++ " has " ++ toString used ++ " used of " ++
        toString quota ++ " and cannot receive " ++ toString additional ++ " more bytes"))

def enforceAccountQuota (account bucket key : String) (contentLength : Nat) :
    Except MetadataError Unit :=
  match s.telegramAccounts.get? account with
  | none => .ok ()
  | some row =>
    let current := ((s.activeObjectId bucket key).bind s.objectManifests.get?).filter fun m =>
      m.connectionId = account && m.commitState = .committed
    enforceQuota row.label row.quotaBytes (s.accountUsage account)
      (contentLength - (current.map fun m => m.manifest.contentLength).getD 0)

section Commit
variable (fromStr : String → Option ETagCondition) (s : MetadataStore)

/-- A stored header against the current object; the parser is the S3 library's. -/
def enforceWriteConditionalsSnapshot (c : TransferWriteConditionals)
    (current : Option ObjectManifest) : Except MetadataError Unit :=
  match current with
  | none => ensure c.ifMatch.isNone (.invalidManifest "if-match precondition failed")
  | some m =>
    match c.ifMatch, c.ifNoneMatch with
    | some raw, _ =>
      match fromStr raw with
      | none => .error (.invalidManifest "invalid stored if-match condition")
      | some condition => ensure (etagConditionMatches condition m.checksum.wholeObject)
          (.invalidManifest "if-match precondition failed")
    | none, some raw =>
      match fromStr raw with
      | none => .error (.invalidManifest "invalid stored if-none-match condition")
      | some condition => ensure (!etagConditionMatches condition m.checksum.wholeObject)
          (.invalidManifest "if-none-match precondition failed")
    | none, none => .ok ()

/-- The manifest to commit: the published one when its identity is the journal's. -/
def commitSubject (journal : JournalDetails) (published : Option ObjectManifest) :
    Except MetadataError ObjectManifest := do
  let stored ← s.loadManifestByObjectId journal.objectId
  match stored, published with
  | none, _ => throw (.manifestNotFound journal.objectId.text)
  | some m, none => return m
  | some _, some p =>
    match p.validate with
    | .error message => throw (.invalidManifest message)
    | .ok () =>
      ensure (p.objectId = journal.objectId && p.bucket = journal.bucket && p.key = journal.objectKey)
        (.invalidManifest "published manifest identity changed")
      return p

theorem commitSubject_ok {s : MetadataStore} (h : s.commitSubject journal published = .ok m) :
    ∃ row, s.objectManifests.get? journal.objectId = some row ∧
      (m = row.manifest ∨ (published = some m ∧ m.objectId = journal.objectId ∧
        m.bucket = journal.bucket ∧ m.key = journal.objectKey)) := by
  unfold commitSubject at h
  obtain ⟨stored, hs, h⟩ := bind_ok.1 h
  split at h
  · simp at h
  · obtain ⟨row, hr, rfl⟩ := loadManifestByObjectId_ok hs
    cases h
    exact ⟨row, hr, .inl rfl⟩
  · obtain ⟨row, hr, -⟩ := loadManifestByObjectId_ok hs
    split at h
    · simp at h
    · obtain ⟨_, he, h⟩ := bind_ok.1 h
      simp only [ensure_ok, Bool.and_eq_true, decide_eq_true_eq] at he
      cases h
      exact ⟨row, hr, .inr ⟨rfl, he.1.1, he.1.2, he.2⟩⟩

theorem commitSubject_published {s : MetadataStore}
    (h : s.commitSubject journal (some p) = .ok m) : m = p := by
  unfold commitSubject at h
  obtain ⟨stored, -, h⟩ := bind_ok.1 h
  cases stored with
  | none => simp at h
  | some r =>
    simp only at h
    split at h
    · simp at h
    · obtain ⟨_, -, h⟩ := bind_ok.1 h
      exact (pure_ok.1 h).symm

/-- Who may commit: the leased job in its per-key turn, or a job that is still publishing. -/
def commitFence (operation : Uuid) (transfer : Option (Uuid × Uuid))
    (now : Int) : Except MetadataError Unit :=
  match transfer with
  | some (jobId, lease) =>
    match s.transferJobs.get? jobId with
    | none => .error (.invalidManifest "transfer job missing")
    | some j => do
      ensure (j.state = .committing && j.lease = some lease && now ≤ j.leaseUntil &&
        j.operationId = some operation) (.invalidManifest "publication fence lost")
      ensure (!(s.olderPending j.bucket j.key j.sequence ||
        s.newerCommitted j.bucket j.key j.sequence))
        (.invalidManifest "per-key publication order changed")
  | none =>
    match s.transferJobs.rows.find? fun j => j.operationId = some operation with
    | none => .ok ()
    | some j => ensure j.state.leased (.invalidManifest "transfer cannot commit in current state")

theorem commitFence_job {s : MetadataStore}
    (h : s.commitFence operation (some (job, lease)) now = .ok ()) :
    ∃ j, s.transferJobs.get? job = some j ∧ j.state = .committing ∧ j.lease = some lease ∧
      j.operationId = some operation := by
  unfold commitFence at h
  dsimp only at h
  split at h
  · cases h
  · rename_i j hj
    obtain ⟨_, he, -⟩ := bind_ok.1 h
    simp only [ensure_ok, Bool.and_eq_true, decide_eq_true_eq] at he
    exact ⟨j, hj, he.1.1.1, he.1.1.2, he.2⟩

def commitConditionals (journal : JournalDetails)
    (transfer : Option (Uuid × Uuid)) : Except MetadataError Unit := do
  let current ← match s.activeObjectId journal.bucket journal.objectKey with
    | none => pure none
    | some objectId => s.loadManifestByObjectId objectId
  match transfer.bind fun t => (s.transferJobs.get? t.1).bind TransferJob.writeConditionals with
  | none => return ()
  | some c => enforceWriteConditionalsSnapshot fromStr c current

/-- The upload a job completes, when it is a multipart completion. -/
def completionUpload (job : Uuid) : Option Uuid :=
  ((s.multipartJobs.get? job).filter fun p => p.partNumber = 0).map MultipartJobRow.uploadId

def uploadAccepts (u : UploadRow) : Bool :=
  u.state = .initiated || u.state = .uploading || u.state = .completing

def commitQuota (journal : JournalDetails) (job : Uuid) (m : ObjectManifest) :
    Except MetadataError Unit :=
  if s.multipartJobs.any fun p => p.jobId = job && 0 < p.partNumber then .ok ()
  else
    let account := ((s.objectManifests.get? journal.objectId).map ManifestRow.connectionId).getD ""
    s.enforceAccountQuota account m.bucket m.key m.contentLength

/-- The manifest becomes committed and the active object of its key. -/
def publishManifest (operation : Uuid) (m : ObjectManifest)
    (now : OffsetDateTime) : MetadataStore :=
  { s with
    objectManifests := s.objectManifests.modify (fun r => r.objectId = m.objectId) fun r =>
      { r with
        commitState := .committed, manifest := m.withState .committed, committedAt := some now
        tombstonedAt := none }
    activeObjects := s.activeObjects.upsert
      { bucket := m.bucket, objectKey := m.key, objectId := m.objectId, updatedAt := now }
    operationJournal := s.operationJournal.modify (fun r => r.operationId = operation) fun r =>
      { r with state := .committed, updatedAt := now } }

def TransferJob.complete (now : Int) (j : TransferJob) : TransferJob :=
  { j with state := .completed, error := none, lease := none, leaseUntil := 0, updatedAt := now }

def completes (operation : Uuid) (transfer : Option (Uuid × Uuid)) (j : TransferJob) : Bool :=
  match transfer with
  | some (jobId, lease) => j.id = jobId && j.lease = some lease && j.state = .committing
  | none => j.operationId = some operation

def completeJob (operation : Uuid) (transfer : Option (Uuid × Uuid))
    (now : Int) : Except MetadataError MetadataStore :=
  if transfer.isSome && !s.transferJobs.any (completes operation transfer) then
    .error (.invalidManifest "publication fence lost")
  else
    .ok { s with
      transferJobs := s.transferJobs.modify (completes operation transfer)
        (TransferJob.complete now) }

theorem completeJob_ok {s s' : MetadataStore} (h : s.completeJob operation transfer now = .ok s') :
    s' = { s with
      transferJobs := s.transferJobs.modify (completes operation transfer)
        (TransferJob.complete now) } := by
  unfold completeJob at h
  split at h
  · cases h
  · cases h
    rfl

/-- A completion closes its session; the parts go, except the chunks the object keeps. -/
def closeUpload (upload : Uuid) (m : ObjectManifest) (now : Int) :
    MetadataStore :=
  { s with
    outbox := ((s.multipartParts.select fun p => p.uploadId = upload).map PartRow.part).foldl
      (fun o part => o.enqueuePartCleanupPreserving s.activeConnectionId s.cleanupRetentionSecs
        now (m.chunks.map ChunkRef.location) part) s.outbox
    multipartUploads := s.multipartUploads.modify (fun u => u.uploadId = upload && uploadAccepts u)
      fun u => { u with state := .completed, session := { u.session with state := .completed } }
    multipartParts := s.multipartParts.delete fun p => p.uploadId = upload }

def completeUpload (upload : Uuid) (m : ObjectManifest) (now : Int) :
    Except MetadataError MetadataStore := do
  ensure (s.multipartUploads.any fun u => u.uploadId = upload && uploadAccepts u)
    (.invalidManifest "multipart completion session is closed")
  return s.closeUpload upload m now

def commitManifestInner (operation : Uuid) (transfer : Option (Uuid × Uuid))
    (published : Option ObjectManifest) (now : OffsetDateTime) :
    Except MetadataError (ObjectManifest × MetadataStore) :=
  match s.operationJournal.get? operation with
  | none => .error (.journalNotFound operation.text)
  | some row => do
    let journal := row.details
    let stored ← s.commitSubject journal none
    if journal.state = .committed && stored.commitState = .committed then return (stored, s)
    let m ← s.commitSubject journal published
    s.commitFence operation transfer now.unixTimestamp
    s.commitConditionals fromStr journal transfer
    let job := (transfer.map Prod.fst).getD journal.objectId
    s.commitQuota journal job m
    let upload := s.completionUpload job
    ensure (upload.all fun id => s.multipartUploads.any fun u => u.uploadId = id && uploadAccepts u)
      (.invalidManifest "multipart completion session is closed")
    let s ← (s.publishManifest operation m now).completeJob operation transfer now.unixTimestamp
    match upload with
    | none => return (m.withState .committed, s)
    | some id =>
      let s ← s.completeUpload id m now.unixTimestamp
      return (m.withState .committed, s)

def commitManifest (operation : Uuid) (now : OffsetDateTime) :
    Except MetadataError (ObjectManifest × MetadataStore) :=
  s.commitManifestInner fromStr operation none none now

def commitTransferManifest (operation jobId lease : Uuid)
    (published : ObjectManifest) (now : OffsetDateTime) :
    Except MetadataError (ObjectManifest × MetadataStore) :=
  s.commitManifestInner fromStr operation (some (jobId, lease)) (some published) now

end Commit

/-- The manifest and journal rows, the active object and the jobs after a commit. -/
def committedStore (operation : Uuid) (transfer : Option (Uuid × Uuid))
    (m : ObjectManifest) (now : OffsetDateTime) : MetadataStore :=
  { s.publishManifest operation m now with
    transferJobs := s.transferJobs.modify (completes operation transfer)
      (TransferJob.complete now.unixTimestamp) }

section
variable {s s' : MetadataStore} {m' : ObjectManifest}
  (h : s.commitManifestInner fromStr operation transfer published now = .ok (m', s'))
include h

/-- What a commit that went through has checked and done. -/
theorem commitManifestInner_ok : ∃ row, s.operationJournal.get? operation = some row ∧
      ((row.details.state = .committed ∧ s' = s) ∨
        ∃ m, s.commitSubject row.details published = .ok m ∧
          s.commitFence operation transfer now.unixTimestamp = .ok () ∧
          (s.commitConditionals fromStr row.details transfer = .ok () ∧
            s.commitQuota row.details ((transfer.map Prod.fst).getD row.details.objectId) m =
              .ok ()) ∧
          ((s.completionUpload ((transfer.map Prod.fst).getD row.details.objectId) = none ∧
              s' = s.committedStore operation transfer m now) ∨
            ∃ upload, s.completionUpload ((transfer.map Prod.fst).getD row.details.objectId) =
                some upload ∧
              s' = (s.committedStore operation transfer m now).closeUpload upload m
                now.unixTimestamp)) := by
  unfold commitManifestInner at h
  split at h
  · cases h
  · rename_i row hrow
    refine ⟨row, hrow, ?_⟩
    obtain ⟨stored, -, h⟩ := bind_ok.1 h
    split at h
    · rename_i hc
      left
      simp only [Bool.and_eq_true, decide_eq_true_eq] at hc
      simp only [pure_ok, Prod.mk.injEq] at h
      exact ⟨hc.1, h.2.symm⟩
    · right
      obtain ⟨m, hm, h⟩ := bind_ok.1 h
      obtain ⟨_, hfence, h⟩ := bind_ok.1 h
      obtain ⟨_, hcond, h⟩ := bind_ok.1 h
      obtain ⟨_, hquota, h⟩ := bind_ok.1 h
      obtain ⟨_, -, h⟩ := bind_ok.1 h
      obtain ⟨s₁, hs₁, h⟩ := bind_ok.1 h
      have he := completeJob_ok hs₁
      refine ⟨m, hm, hfence, ⟨hcond, hquota⟩, ?_⟩
      split at h
      · rename_i hu
        simp only [pure_ok, Prod.mk.injEq] at h
        exact .inl ⟨hu, by rw [← h.2, he]; rfl⟩
      · rename_i upload hu
        obtain ⟨s₂, hs₂, h⟩ := bind_ok.1 h
        simp only [pure_ok, Prod.mk.injEq] at h
        unfold completeUpload at hs₂
        obtain ⟨_, -, hs₂⟩ := bind_ok.1 hs₂
        rw [pure_ok] at hs₂
        exact .inr ⟨upload, hu, by rw [← h.2, ← hs₂, he]; rfl⟩

theorem commitManifestInner_parts (hp : p ∈ s'.multipartParts) : p ∈ s.multipartParts := by
  obtain ⟨row, -, ⟨-, rfl⟩ | ⟨m, -, -, -, ⟨-, rfl⟩ | ⟨upload, -, rfl⟩⟩⟩ := commitManifestInner_ok h
  · exact hp
  · exact hp
  · exact (mem_delete.1 hp).1

end

/-- A write of a manifest as the caller holds it, whatever the row's state is. -/
def updateManifest (m : ObjectManifest) : MetadataStore :=
  { s with
    objectManifests := s.objectManifests.modify (fun r => r.objectId = m.objectId) fun r =>
      { r with commitState := m.commitState, manifest := m } }

def tombstoneJournal (objectId : Uuid) (reason : String)
    (now : OffsetDateTime) : MetadataStore :=
  { s with
    operationJournal := s.operationJournal.modify (fun r => r.objectId = objectId) fun r =>
      { r with state := .tombstoned, error := some reason, updatedAt := now } }

/-- Tombstones the rows `p` of an object and hands its locations to the cleanup outbox. -/
def tombstoneRows (p : ManifestRow → Bool) (m : ObjectManifest)
    (now : OffsetDateTime) : MetadataStore :=
  { s with
    outbox := s.outbox.enqueueManifestCleanupAt s.activeConnectionId m now.unixTimestamp
    objectManifests := s.objectManifests.modify p fun r =>
      { r with
        commitState := .tombstoned, manifest := m.withState .tombstoned
        tombstonedAt := some now } }

def dropActive (p : ActiveRow → Bool) : MetadataStore :=
  { s with activeObjects := s.activeObjects.delete p }

def tombstoneManifestWithConditionals (objectId : Uuid) (reason : String)
    (c : DeleteConditionals) (now : OffsetDateTime) :
    Except MetadataError (ObjectManifest × MetadataStore) := do
  match ← s.loadManifestByObjectId objectId with
  | none => throw (.manifestNotFound objectId.text)
  | some m =>
    enforceDeleteConditionalsSnapshot c m
    let s := s.tombstoneRows (fun r => r.objectId = objectId) m now
    let s := s.dropActive fun a =>
      a.bucket = m.bucket && a.objectKey = m.key && a.objectId = m.objectId
    return (m.withState .tombstoned, s.tombstoneJournal m.objectId reason now)

theorem tombstoneManifestWithConditionals_ok {s s' : MetadataStore}
    (h : s.tombstoneManifestWithConditionals objectId reason c now = .ok (m', s')) :
    ∃ m, s.loadManifestByObjectId objectId = .ok (some m) ∧
      s' = ((s.tombstoneRows (fun r => r.objectId = objectId) m now).dropActive fun a =>
        a.bucket = m.bucket && a.objectKey = m.key && a.objectId = m.objectId).tombstoneJournal
          m.objectId reason now := by
  unfold tombstoneManifestWithConditionals at h
  obtain ⟨loaded, hl, h⟩ := bind_ok.1 h
  split at h
  · simp at h
  · rename_i m
    obtain ⟨_, -, h⟩ := bind_ok.1 h
    simp only [pure_ok, Prod.mk.injEq] at h
    exact ⟨m, hl, h.2.symm⟩

def tombstoneManifest (objectId : Uuid) (reason : String)
    (now : OffsetDateTime) : Except MetadataError (ObjectManifest × MetadataStore) :=
  s.tombstoneManifestWithConditionals objectId reason {} now

/-- Rows of `active_objects` joined with committed manifests of the active connection. -/
def activeCommitted : List ManifestRow :=
  (s.activeObjects.rows.filterMap fun a => s.objectManifests.get? a.objectId).filter fun m =>
    m.commitState = .committed && m.connectionId = s.activeConnectionId

def tombstoneExpired (row : ManifestRow) (now : OffsetDateTime) :
    MetadataStore :=
  ((s.tombstoneRows (fun r => r.objectId = row.objectId && r.commitState = .committed)
    row.manifest now).dropActive fun a => a.objectId = row.objectId).tombstoneJournal
      row.objectId "object expired" now

def tombstoneExpiredActiveManifests (now : OffsetDateTime) : MetadataStore :=
  (s.activeCommitted.filter fun r => r.manifest.isExpired now).foldl
    (fun s r => s.tombstoneExpired r now) s

theorem activeObjectId_eq_some {s : MetadataStore} : s.activeObjectId bucket key = some object ↔
      ∃ a ∈ s.activeObjects, a.bucket = bucket ∧ a.objectKey = key ∧ a.objectId = object := by
  simp only [activeObjectId, Option.map_eq_some_iff, get?_eq_some, and_assoc]
  simp [Keyed.key, and_assoc]

theorem mem_activeCommitted {s : MetadataStore} (h : r ∈ s.activeCommitted) :
    r ∈ s.objectManifests ∧ r.commitState = .committed := by
  simp only [activeCommitted, List.mem_filter, List.mem_filterMap, Bool.and_eq_true,
    decide_eq_true_eq] at h
  obtain ⟨⟨a, -, hr⟩, hc, -⟩ := h
  exact ⟨mem_of_get? hr, hc⟩

theorem tombstoneExpiredActiveManifests_induction {s : MetadataStore} {P : MetadataStore → Prop}
    (h : P s) (hs : ∀ t r, P t → r ∈ s.activeCommitted → P (t.tombstoneExpired r now)) :
    P (s.tombstoneExpiredActiveManifests now) := by
  apply List.foldlRecOn _ _ h
  intro t ht r hr
  exact hs t r ht (List.mem_filter.1 hr).1

def getManifest (objectId : Uuid) :
    Except MetadataError (Option ObjectManifest) :=
  s.loadManifestByObjectId objectId

def getActiveManifest (bucket key : String) :
    Except MetadataError (Option ObjectManifest) :=
  match (s.activeObjectId bucket key).filter fun id =>
      s.objectManifests.any fun m => m.objectId = id && m.connectionId = s.activeConnectionId with
  | none => .ok none
  | some objectId => s.loadManifestByObjectId objectId

def readManifests (rows : List ManifestRow) : Except MetadataError (List ObjectManifest) :=
  rows.mapM fun r =>
    match r.manifest.validate with
    | .error message => .error (.invalidManifest message)
    | .ok () => .ok r.manifest

theorem mem_readManifests (h : readManifests stored = .ok l) (hm : m ∈ l) :
    ∃ r ∈ stored, r.manifest = m := by
  obtain ⟨r, hr, he⟩ := mem_of_mapM_ok h hm
  split at he
  · cases he
  · cases he
    exact ⟨r, hr, rfl⟩

def listBucketManifests (bucket : String) :
    Except MetadataError (List ObjectManifest) :=
  readManifests ((((s.activeObjects.select fun a => a.bucket = bucket).insertionSort
    fun a b => a.objectKey ≤ b.objectKey).filterMap fun a =>
      s.objectManifests.get? a.objectId).filter fun m => m.connectionId = s.activeConnectionId)

def listManifests : Except MetadataError (List ObjectManifest) :=
  readManifests ((s.objectManifests.select fun m =>
    m.connectionId = s.activeConnectionId).insertionSort fun a b =>
      a.createdAt.text < b.createdAt.text ∨
        a.createdAt.text = b.createdAt.text ∧ a.objectId.value ≤ b.objectId.value)

/-- The row takes the state; only a committed object stays in the active index. -/
def setManifestState (objectId : Uuid) (m : ObjectManifest)
    (state : CommitState) (now : OffsetDateTime) : MetadataStore :=
  { s with
    objectManifests := s.objectManifests.modify (fun r => r.objectId = objectId) fun r =>
      { r with commitState := state, manifest := m.withState state }
    activeObjects := if state = .committed then
        s.activeObjects.upsert
          { bucket := m.bucket, objectKey := m.key, objectId, updatedAt := now }
      else s.activeObjects.delete fun a => a.objectId = objectId }

def updateManifestState (objectId : Uuid) (state : CommitState)
    (now : OffsetDateTime) : Except MetadataError (ObjectManifest × MetadataStore) := do
  match ← s.loadManifestByObjectId objectId with
  | none => throw (.manifestNotFound objectId.text)
  | some m => return (m.withState state, s.setManifestState objectId m state now)

theorem updateManifestState_ok {s s' : MetadataStore}
    (h : s.updateManifestState objectId state now = .ok (m', s')) :
    ∃ m, s.loadManifestByObjectId objectId = .ok (some m) ∧
      s' = s.setManifestState objectId m state now := by
  unfold updateManifestState at h
  obtain ⟨loaded, hl, h⟩ := bind_ok.1 h
  split at h
  · simp at h
  · rename_i m
    simp only [pure_ok, Prod.mk.injEq] at h
    exact ⟨m, hl, h.2.symm⟩

end MetadataStore
end TelegramS3
