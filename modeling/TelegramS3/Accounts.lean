import TelegramS3.Manifests

namespace TelegramS3
open Relational Fallible
set_option autoImplicit true

namespace MetadataStore
variable (s : MetadataStore)

def rechunkRow (id : Uuid) (bucket key : String) (m : ManifestRow)
    (newChunkSize : Nat) (now : Int) : RechunkJobRow :=
  { id, bucket, key, objectId := m.objectId
    sourceAccountId := if m.connectionId = "legacy" then s.activeConnectionId else m.connectionId
    newChunkSize, createdAt := now, updatedAt := now }

def queueRechunk (id : Uuid) (bucket key : String) (newChunkSize : Nat)
    (now : Int) : Except MetadataError MetadataStore :=
  match (s.activeObjectId bucket key).bind s.objectManifests.get? with
  | none => .error (.manifestNotFound (bucket ++ "/" ++ key))
  | some m =>
    if s.rechunkJobs.contains id then
      .error (.sqlite "UNIQUE constraint failed: rechunk_jobs.id")
    else if s.rechunkLocks.contains m.objectId then
      .error (.sqlite "UNIQUE constraint failed: rechunk_locks.object_id")
    else if s.rechunkLocks.any fun l => l.jobId = id then
      .error (.sqlite "UNIQUE constraint failed: rechunk_locks.job_id")
    else
      .ok { s with
        rechunkJobs := s.rechunkJobs.insertOrIgnore (s.rechunkRow id bucket key m newChunkSize now)
        rechunkLocks := s.rechunkLocks.insertOrIgnore
          { objectId := m.objectId, jobId := id, createdAt := now } }

theorem queueRechunk_ok {s s' : MetadataStore}
    (h : s.queueRechunk job bucket key newChunkSize now = .ok s') :
    ∃ m, (s.activeObjectId bucket key).bind s.objectManifests.get? = some m ∧
      s.rechunkJobs.get? job = none ∧
      s' = { s with
        rechunkJobs := s.rechunkJobs.insertOrIgnore (s.rechunkRow job bucket key m newChunkSize now)
        rechunkLocks := s.rechunkLocks.insertOrIgnore
          { objectId := m.objectId, jobId := job, createdAt := now } } := by
  unfold queueRechunk at h
  split at h
  · cases h
  · rename_i m hm
    split at h
    · cases h
    · rename_i hn
      split at h
      · cases h
      · split at h
        · cases h
        · cases h
          exact ⟨m, hm, by simpa [Table.contains] using hn, rfl⟩

def objectRechunkLocked (objectId : Uuid) : Bool :=
  s.rechunkLocks.contains objectId

def claimRechunkJob (now : Int) : Option RechunkJobRow × MetadataStore :=
  match Table.firstBy (fun j => j.createdAt.toNat)
      (s.rechunkJobs.select fun j => j.state = .queued) with
  | none => (none, s)
  | some j =>
    let claim (r : RechunkJobRow) : RechunkJobRow :=
      { r with state := .processing, updatedAt := now }
    (some (claim j),
      { s with
        rechunkJobs := s.rechunkJobs.modify (fun r => r.id = j.id && r.state = .queued) claim })

def finishRechunk (id : Uuid) (state : RechunkState) (error : Option String)
    (now : Int) : MetadataStore :=
  { s with
    rechunkJobs := s.rechunkJobs.modify (fun r => r.id = id) fun r =>
      { r with state, error, updatedAt := now }
    rechunkLocks := s.rechunkLocks.delete fun l => l.jobId = id }

def insertReplicaLocation (row : ReplicaLocationRow) : MetadataStore :=
  { s with replicaLocations := s.replicaLocations.upsert row }

def removeReplicaLocation (objectId : Uuid) (chunkOrder : Nat)
    (accountId : String) : MetadataStore :=
  { s with
    replicaLocations := s.replicaLocations.delete fun r =>
      r.objectId = objectId && r.chunkOrder = chunkOrder && r.accountId = accountId }

/-- Inserts the account, or updates what is given of it; the quota column is an `i64`. -/
def upsertTelegramAccount (id label : String) (downloadEnabled : Option Bool)
    (quotaBytes : Option (Option Nat)) : Except MetadataError MetadataStore := do
  ensure (quotaBytes.all fun q => q.all fun n => n < 2 ^ 63)
    (.invalidManifest "account quota is too large")
  return { s with
    telegramAccounts := s.telegramAccounts.upsertWith
      { id, label := trim label, quotaBytes := quotaBytes.getD none
        downloadEnabled := downloadEnabled.getD true }
      fun r => { r with
        label := trim label, downloadEnabled := downloadEnabled.getD r.downloadEnabled
        quotaBytes := quotaBytes.getD r.quotaBytes } }

/-- Checks the capacity of an account before a physical replica is copied to it. -/
def ensureAccountQuotaForAdditionalBytes (account : String)
    (additionalBytes : Nat) : Except MetadataError Unit :=
  match s.telegramAccounts.get? account with
  | none => .ok ()
  | some row => enforceQuota row.label row.quotaBytes (s.accountUsage account) additionalBytes

end MetadataStore
end TelegramS3
