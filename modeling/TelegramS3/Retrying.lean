import TelegramS3.Claiming
import TelegramS3.Removal

namespace TelegramS3
open Relational Table Fallible Transition MetadataStore
set_option autoImplicit true

/-- What a completion meets: files, the staging budget, manifest sizes and the clock. -/
structure CompletionEnv where
  createDir : Except IoError Unit := .ok ()
  writeFile : Except IoError Unit := .ok ()
  dirRemoved : Bool := true
  jsonLength : ObjectManifest → Nat
  stagingBudget : Nat
  now : OffsetDateTime

def storeCall (s : MetadataStore) (x : Except MetadataError MetadataStore)
    (next : MetadataStore → MetadataStore × Except ObjectFormatError α) :
    MetadataStore × Except ObjectFormatError α :=
  match x with
  | .error e => (s, .error (.metadata e))
  | .ok s' => next s'

def fileCall (s : MetadataStore) (x : Except IoError Unit)
    (next : MetadataStore × Except ObjectFormatError α) :
    MetadataStore × Except ObjectFormatError α :=
  match x with
  | .error e => (s, .error (.io e))
  | .ok () => next

inductive CompletionAnswer where
  | object (m : ObjectManifest)
  | wait (job : Uuid)

namespace ObjectFormat

def queueCompletion (env : CompletionEnv) (uploadId : Uuid) (m : ObjectManifest)
    (s : MetadataStore) : MetadataStore × Except ObjectFormatError Uuid :=
  fileCall s env.createDir <|
    storeCall s (s.reserveStaging m.objectId (env.jsonLength m) env.stagingBudget
      env.now.unixTimestamp) fun s =>
    fileCall s env.writeFile <|
      storeCall s (s.stageManifest .put m env.now) fun s =>
      storeCall s (s.queueMultipartCompletion m.objectId m.objectId uploadId env.now) fun s =>
      match s.transferJobs.get? m.objectId with
      | some job => (s, .ok job.id)
      | none => (s, .error (.invalidPlan "queued multipart completion missing"))

/-- `complete_multipart_upload` up to the job it waits for. -/
def completionCall (cfg : ServiceConfig) (sha256Hex : Bytes → String) (env : CompletionEnv)
    (s : MetadataStore) (plan : MultipartCompletionPlan) :
    MetadataStore × Except ObjectFormatError CompletionAnswer :=
  match completeMultipartUpload cfg sha256Hex s plan env.now with
  | .error e => (s, .error e)
  | .ok (.visible found) => (s, found.map .object)
  | .ok (.waitFor job) => (s, .ok (.wait job))
  | .ok (.publish m) =>
    storeCall s (s.beginTransfer m.objectId m.bucket m.key env.now.unixTimestamp) fun s =>
    match queueCompletion env plan.uploadId m s with
    | (s, .ok job) => (s, .ok (.wait job))
    | (s, .error e) =>
      ((s.failReception m.objectId env.dirRemoved
        "Multipart completion could not be durably queued" env.now.unixTimestamp).2, .error e)

end ObjectFormat

/-- From the store on, calls can follow after which a wait for the job returns the manifest. -/
def Publishes.Possible (fromStr : String → Option ETagCondition) (s : MetadataStore) (job : Uuid)
    (m : ObjectManifest) : Prop :=
  ∃ later t, Run (Eq s) (StoreStep fromStr) later t ∧
    WaitState.read t job (WaitState.read t job (WaitState.read t job .polling)) =
      .returned none (.ok m)

/-- A manifest staged for its commit, with a readable object in place and no quota. -/
structure StagedObject (s : MetadataStore) (job : Uuid) (m : ObjectManifest) : Prop where
  journal : ∃ e, s.operationJournal.get? job = some e ∧ e.details = stagedDetails .put m
  row : ∃ r, s.objectManifests.get? job = some r ∧ r.manifest.validate = .ok () ∧
    r.connectionId = s.activeConnectionId
  objectId : m.objectId = job
  valid : m.validate = .ok ()
  readable : ∀ object, s.activeObjectId m.bucket m.key = some object →
    ∃ found, s.loadManifestByObjectId object = .ok found
  quota : ∀ row, s.telegramAccounts.get? s.activeConnectionId = some row → row.quotaBytes = none

/-- Everything a completion has prepared for its commit. -/
structure StagedCompletion (s : MetadataStore) (job upload : Uuid) (m : ObjectManifest) : Prop
    extends StagedObject s job m where
  part : s.multipartJob job = some (upload, 0)
  session : ∃ u ∈ s.multipartUploads, u.uploadId = upload ∧ u.state = .completing

namespace StagedCompletion
variable {s : MetadataStore} {job upload : Uuid} {m : ObjectManifest}

section
variable (h : StagedCompletion s job upload m)
include h

theorem subject : ∃ r, s.objectManifests.get? job = some r ∧
      s.commitSubject (stagedDetails .put m) none = .ok r.manifest ∧
      s.commitSubject (stagedDetails .put m) (some m) = .ok m := by
  obtain ⟨r, hr, hv, -⟩ := h.row
  have hl : s.loadManifestByObjectId m.objectId = .ok (some r.manifest) := by
    rw [loadManifestByObjectId, h.objectId, hr]
    dsimp only
    rw [hv]
  refine ⟨r, hr, ?_, ?_⟩
  · simp only [commitSubject, stagedDetails, hl]
    rfl
  · simp only [commitSubject, stagedDetails, hl, bind, Except.bind, h.valid, ensure]
    simp

theorem conditionals (hj : s.transferJobs.get? job = some j) (hc : j.writeConditionals = none) :
    s.commitConditionals fromStr (stagedDetails .put m) (some (job, lease)) = .ok () := by
  have hn : ((some (job, lease)).bind fun t =>
      (s.transferJobs.get? t.1).bind TransferJob.writeConditionals) = none := by
    rw [Option.bind_some, hj, Option.bind_some, hc]
  unfold commitConditionals
  rw [hn]
  dsimp only
  cases ha : s.activeObjectId m.bucket m.key with
  | none =>
    simp only [stagedDetails, ha]
    rfl
  | some object =>
    obtain ⟨found, hf⟩ := h.readable object ha
    simp only [stagedDetails, ha, hf]
    rfl

theorem quotaFree : s.commitQuota (stagedDetails .put m) job m = .ok () := by
  obtain ⟨r, hr, -, hc⟩ := h.row
  have hid : (stagedDetails .put m).objectId = job := h.objectId
  unfold commitQuota
  split
  · rfl
  · simp only [hid, hr, Option.map_some, Option.getD_some, hc]
    unfold enforceAccountQuota
    split
    · rfl
    · rename_i row hrow
      simp only [h.quota row hrow, enforceQuota]

theorem completion : s.completionUpload job = some upload := by
  obtain ⟨row, hrow, hp⟩ := Option.map_eq_some_iff.1 h.part
  simp only [Prod.mk.injEq] at hp
  simp [completionUpload, hrow, hp, Option.filter]

theorem accepts :
    s.multipartUploads.any (fun u => u.uploadId = upload && uploadAccepts u) = true := by
  obtain ⟨u, hu, hid, hst⟩ := h.session
  exact any_eq_true.2 ⟨u, hu, by simp [hid, uploadAccepts, hst]⟩

end

theorem commit (fromStr : String → Option ETagCondition) (h : StagedCompletion s j.id upload m)
    (hj : j ∈ s.transferJobs) (ha : Alone s j) (hst : j.state = .committing)
    (hl : j.lease = some lease)
    (hn : now.unixTimestamp ≤ j.leaseUntil) (ho : j.operationId = some j.id)
    (hc : j.writeConditionals = none) :
    s.commitTransferManifest fromStr j.id j.id lease m now =
      .ok (m.withState .committed, (s.committedStore j.id (some (j.id, lease)) m now).closeUpload
        upload m now.unixTimestamp) := by
  have hget := mem_iff_get?.1 hj
  obtain ⟨e, he, hd⟩ := h.journal
  obtain ⟨r, hr, hs, hs'⟩ := h.subject
  have hfence : s.commitFence j.id (some (j.id, lease)) now.unixTimestamp = .ok () := by
    simp only [commitFence]
    rw [show s.transferJobs.get? j.id = some j from hget]
    simp [hst, hl, hn, ho, ha.older hj, ha.newer, ensure, bind, Except.bind]
  have hcomplete : (s.publishManifest j.id m now).transferJobs.any
      (completes j.id (some (j.id, lease))) = true :=
    any_eq_true.2 ⟨j, hj, by simp [completes, hl, hst]⟩
  unfold commitTransferManifest commitManifestInner
  rw [he]
  dsimp only
  rw [hd]
  refine bind_ok.2 ⟨r.manifest, hs, ?_⟩
  rw [if_neg (by simp [stagedDetails])]
  refine bind_ok.2 ⟨m, hs', bind_ok.2 ⟨(), hfence, bind_ok.2 ⟨(), h.conditionals hget hc, ?_⟩⟩⟩
  refine bind_ok.2 ⟨(), h.quotaFree, bind_ok.2 ⟨(), ?_, ?_⟩⟩
  · simp only [Option.map_some, Option.getD_some, h.completion, ensure_ok, Option.all_some]
    exact h.accepts
  · refine bind_ok.2 ⟨s.committedStore j.id (some (j.id, lease)) m now, ?_, ?_⟩
    · unfold completeJob
      rw [if_neg]
      · rfl
      · simp [hcomplete]
    · simp only [Option.map_some, Option.getD_some, h.completion]
      refine bind_ok.2 ⟨_, bind_ok.2 ⟨(), ?_, rfl⟩, rfl⟩
      exact ensure_ok.2 h.accepts

theorem frame (h : StagedCompletion s job upload m)
    (hs : s' = { s with transferJobs := jobs, sendAttempts := attempts }) :
    StagedCompletion s' job upload m := by
  subst hs
  exact ⟨⟨h.journal, h.row, h.objectId, h.valid, h.readable, h.quota⟩, h.part, h.session⟩

theorem waited (h : StagedCompletion s j.id upload m) (hj : j ∈ s.transferJobs)
    (hob : j.objectId = j.id) (hst : j.state = .committing) (hl : j.lease = some lease)
    (ht : t = (s.committedStore j.id (some (j.id, lease)) m now).closeUpload upload m
      now.unixTimestamp) :
    WaitState.read t j.id (WaitState.read t j.id (WaitState.read t j.id .polling)) =
      .returned none (.ok (m.withState .committed)) := by
  have hget := mem_iff_get?.1 hj
  have hjob : t.transferJobs.get? j.id = some (TransferJob.complete now.unixTimestamp j) := by
    rw [ht]
    simp only [closeUpload, committedStore, get?_modify]
    rw [show s.transferJobs.get? j.id = some j from hget]
    simp [completes, hl, hst]
  have hpart : t.multipartJob j.id = some (upload, 0) := by
    rw [ht]
    exact h.part
  obtain ⟨r, hr, -, -⟩ := h.row
  have hm : t.getManifest j.id = .ok (some (m.withState .committed)) := by
    rw [ht]
    simp only [getManifest, loadManifestByObjectId, closeUpload, committedStore, publishManifest,
      get?_modify, hr]
    have hid : r.objectId = j.id := key_of_get? hr
    have hv : (m.withState .committed).validate = .ok () := h.valid
    simp [hid, h.objectId, hv]
  simp only [WaitState.read, hjob, WaitState.polled, TransferJob.complete]
  simp only [hpart, Option.filter]
  simp [hob, hm]

theorem possible {now : OffsetDateTime} (h : StagedCompletion s j.id upload m)
    (hr : Ready s now.unixTimestamp j) (ha : Alone s j) (ho : j.operationId = some j.id)
    (hob : j.objectId = j.id) (hc : j.writeConditionals = none) (lease : Uuid) :
    Publishes.Possible fromStr s j.id (m.withState .committed) := by
  let claimed := (s.claimTransfer now.unixTimestamp lease).2
  let j₁ := TransferJob.claim now.unixTimestamp lease j
  have hj₁ : j₁ ∈ claimed.transferJobs := hr.claim ha lease
  have ha₁ : Alone claimed j₁ :=
    (ha.moves (s.claimTransfer_jobs now.unixTimestamp lease).rows).congr rfl rfl
  have hle : now.unixTimestamp ≤ now.unixTimestamp + 120 := by omega
  obtain ⟨jobs, hs₂, hj₂, hm⟩ := enterCommitting_claimed hj₁ rfl rfl hle
  let entered : MetadataStore := { claimed with transferJobs := jobs }
  let j₂ : TransferJob := { j₁ with state := .committing }
  have hm : Table.Rel JobMove claimed.transferJobs entered.transferJobs := hm
  have ha₂ : Alone entered j₂ := (ha₁.moves hm).congr rfl rfl
  have h₂ : StagedCompletion entered j₂.id upload m := by
    obtain ⟨jobs', attempts, he⟩ := s.claimTransfer_frame now.unixTimestamp lease
    have h₁ : StagedCompletion claimed j₂.id upload m := h.frame he
    exact h₁.frame rfl
  have hcommit := h₂.commit fromStr hj₂ ha₂ rfl rfl hle ho hc
  have hclaim : StoreStep fromStr (.claimTransfer now.unixTimestamp lease) s claimed := rfl
  have henter : StoreStep fromStr (.enterCommitting j.id lease now.unixTimestamp) claimed
      entered := after_eq_some.2 hs₂
  have hlast : StoreStep fromStr (.commitTransferManifest j₂.id lease m now) entered _ :=
    after_eq_some.2 (map_ok.2 ⟨_, hcommit, rfl⟩)
  exact ⟨_, _, .step (.step (.step (.init rfl) hclaim) henter) hlast, h₂.waited hj₂ hob rfl rfl rfl⟩

end StagedCompletion

/-- The rows that refer to jobs refer to rows, and sequences number the jobs. -/
structure Linked (s : MetadataStore) : Prop where
  numbered : ∀ j ∈ s.transferJobs, j.sequence ≤ s.transferSequence
  attempts : ∀ a ∈ s.sendAttempts, s.transferJobs.get? a.jobId ≠ none
  parts : ∀ p ∈ s.multipartJobs, s.transferJobs.get? p.jobId ≠ none

/-- The resources a completion needs are there, and no other transfer is under way. -/
structure Available (env : CompletionEnv) (s : MetadataStore) (m : ObjectManifest) : Prop where
  createDir : env.createDir = .ok ()
  writeFile : env.writeFile = .ok ()
  capacity : s.stagedBytes + env.jsonLength m ≤ env.stagingBudget
  clock : 0 ≤ env.now.unixTimestamp
  bucket : s.buckets.any (fun b => b.name = m.bucket && b.deletedAt.isNone) = true
  idle : ∀ j ∈ s.transferJobs, j.state.terminal = true
  readable : ∀ object, s.activeObjectId m.bucket m.key = some object →
    ∃ found, s.loadManifestByObjectId object = .ok found
  quota : ∀ row, s.telegramAccounts.get? s.activeConnectionId = some row → row.quotaBytes = none

section Queueing
variable {s : MetadataStore} {env : CompletionEnv} {m : ObjectManifest} {upload : Uuid}

theorem stagedBytes_begun (s : MetadataStore) (objectId : Uuid) (bucket key : String) (now : Int) :
    ({ s with
      transferSequence := s.transferSequence + 1
      transferJobs := s.transferJobs.insertOrIgnore (s.newJob objectId bucket key now) } :
        MetadataStore).stagedBytes = s.stagedBytes := by
  unfold stagedBytes Table.select Table.insertOrIgnore
  dsimp only
  split
  · simp [newJob, TransferState.published]
  · rfl

theorem beginTransfer_alone (ha : Available env s m) (hl : Linked s)
    (hn : s.transferJobs.get? m.objectId = none) :
    ∃ s₁, s.beginTransfer m.objectId m.bucket m.key env.now.unixTimestamp = .ok s₁ ∧ s₁ = { s with
        transferSequence := s.transferSequence + 1
        transferJobs := s.transferJobs.insertOrIgnore
          (s.newJob m.objectId m.bucket m.key env.now.unixTimestamp) } ∧
      s.newJob m.objectId m.bucket m.key env.now.unixTimestamp ∈ s₁.transferJobs ∧
      Alone s₁ (s.newJob m.objectId m.bucket m.key env.now.unixTimestamp) := by
  refine ⟨_, ?_, rfl, mem_insertOrIgnore.2 (.inr ⟨rfl, hn⟩), ?_, ?_⟩
  · simp only [beginTransfer, ha.bucket, Table.contains, hn]
    rfl
  · intro i hi hid
    rcases mem_insertOrIgnore.1 hi with hi | ⟨rfl, -⟩
    · exact ha.idle i hi
    · exact absurd rfl hid
  · intro i hi
    rcases mem_insertOrIgnore.1 hi with hi | ⟨rfl, -⟩
    · have hb := hl.numbered i hi
      show i.sequence ≤ s.transferSequence + 1
      omega
    · exact Nat.le_refl _

theorem reserveStaging_fits (hj : j ∈ s.transferJobs) (hst : j.state = .receiving)
    (hc : s.stagedBytes + bytes ≤ budget) (now : Int) :
    ∃ jobs, s.reserveStaging j.id bytes budget now = .ok { s with transferJobs := jobs } ∧
      { j with bytes := j.bytes + bytes, updatedAt := now, leaseUntil := now + 120 } ∈ jobs ∧
      Table.Rel JobMove s.transferJobs jobs := by
  have hp : receivingJob j.id j = true := by simp [receivingJob, hst]
  have hany : s.transferJobs.any (receivingJob j.id) = true := any_eq_true.2 ⟨j, hj, hp⟩
  have hb : ¬ budget < min (s.stagedBytes + bytes) (2 ^ 64 - 1) := by omega
  refine ⟨_, (if_neg hb).trans (if_pos hany), ?_, ?_⟩
  · simp only [mem_modify]
    exact ⟨j, hj, if_pos hp⟩
  · exact .of_update rfl (fun _ _ h => h.same.id) JobMove.refl fun r _ _ => ⟨.of_columns rfl, .keep⟩

def TransferJob.completing (now : Int) (j : TransferJob) : TransferJob :=
  { j with
    operationId := some j.id, chunksTotal := 0, state := .queued, updatedAt := now
    leaseUntil := 0 }

def UploadRow.completing (now : OffsetDateTime) (u : UploadRow) : UploadRow :=
  { u with
    state := .completing, updatedAt := now
    session := { u.session with state := .completing, updatedAt := now } }

def completingStore (s : MetadataStore) (jobs : Table TransferJob) (job upload : Uuid)
    (now : OffsetDateTime) : MetadataStore :=
  { s with
    transferJobs := jobs
    multipartJobs := s.multipartJobs.insertOrIgnore
      { jobId := job, uploadId := upload, partNumber := 0, expectedChecksum := none }
    multipartUploads := s.multipartUploads.modify (fun u => u.uploadId = upload)
      (UploadRow.completing now) }

theorem queueMultipartCompletion_alone (hj : j ∈ s.transferJobs) (hst : j.state = .receiving)
    (ha : Alone s j) (hu : s.multipartUploads.get? upload = some row)
    (hs : row.session.state = .initiated ∨ row.session.state = .uploading)
    (hn : s.multipartJobs.get? j.id = none) (now : OffsetDateTime) :
    ∃ jobs, s.queueMultipartCompletion j.id j.id upload now =
        .ok (completingStore s jobs j.id upload now) ∧
      TransferJob.completing now.unixTimestamp j ∈ jobs ∧
      Table.Rel JobMove s.transferJobs jobs := by
  have hother : (s.transferJobs.any fun i => s.partOf upload 0 i.id && i.id != j.id &&
      (i.state.leased || (i.state = .recoveryRequired && s.ambiguousSend i.id))) = false := by
    refine any_eq_false.2 ?_
    intro i hi
    by_cases hid : i.id = j.id
    · simp [hid]
    · have ht := ha.ended i hi hid
      have hl : i.state.leased = false := by
        by_contra hl
        rw [TransferState.terminal_of_leased (by simpa using hl)] at ht
        cases ht
      have hr : i.state ≠ .recoveryRequired := by
        intro hr
        rw [hr] at ht
        cases ht
      simp [hl, hr]
  have hp : receivingJob j.id j = true := by simp [receivingJob, hst]
  have hsup : j ∈ (s.supersedeCompletions j.id upload now.unixTimestamp).transferJobs :=
    mem_of_update_false rfl hj (by simp)
  have hany : (s.supersedeCompletions j.id upload now.unixTimestamp).transferJobs.any
      (receivingJob j.id) = true := any_eq_true.2 ⟨j, hsup, hp⟩
  have hopen : (decide (row.session.state = .initiated) ||
      decide (row.session.state = .uploading) || decide (row.session.state = .completing)) = true := by
    rcases hs with hs | hs <;> simp [hs]
  let jobs : Table TransferJob := (s.supersedeCompletions j.id upload
    now.unixTimestamp).transferJobs.modify (receivingJob j.id) fun i =>
      { i with
        operationId := some j.id, chunksTotal := 0, state := .queued
        updatedAt := now.unixTimestamp, leaseUntil := 0 }
  have hin : TransferJob.completing now.unixTimestamp j ∈ jobs := by
    simp only [jobs, mem_modify]
    exact ⟨j, hsup, if_pos hp⟩
  refine ⟨jobs, ?_, hin, ?_⟩
  · unfold queueMultipartCompletion
    rw [hu]
    refine bind_ok.2 ⟨(), ensure_ok.2 hopen, bind_ok.2 ⟨(), ?_, bind_ok.2 ⟨_, if_pos hany, ?_⟩⟩⟩
    · rw [ensure_ok, hother]
      rfl
    · refine bind_ok.2 ⟨_, if_neg ?_, rfl⟩
      have hc : s.multipartJobs.contains j.id = false := by simp [Table.contains, hn]
      have hjob : jobs.contains j.id = true := contains_eq_true.2 ⟨_, hin, rfl⟩
      show ¬ (s.multipartJobs.contains j.id || !jobs.contains j.id) = true
      rw [hc, hjob]
      exact Bool.false_ne_true
  · have ht : ∀ a b c, JobMove a b → JobMove b c → JobMove a c := fun _ _ _ => JobMove.trans
    apply Table.Rel.trans ht (s.supersedeCompletions_jobs j.id upload now.unixTimestamp).rows
    refine .of_update rfl (fun _ _ h => h.same.id) JobMove.refl ?_
    intro i _ hi
    rw [receivingJob_iff] at hi
    exact ⟨⟨rfl, rfl, rfl, rfl, .inr (by rw [hi.1]), rfl⟩, .live (by rw [hi.2]; rfl) rfl⟩

theorem stageRows_get? (s : MetadataStore) (kind : OperationKind) (m : ObjectManifest)
    (now : OffsetDateTime) (object : Uuid) :
    (s.stageRows kind m now).objectManifests.get? object =
      if m.objectId = object then some (s.stagedRow m now) else s.objectManifests.get? object := by
  simp only [stageRows, get?_upsert]
  rfl

theorem stageRows_staged (hv : m.validate = .ok ())
    (hr : ∀ object, s.activeObjectId m.bucket m.key = some object →
      ∃ found, s.loadManifestByObjectId object = .ok found)
    (hq : ∀ row, s.telegramAccounts.get? s.activeConnectionId = some row → row.quotaBytes = none)
    (now : OffsetDateTime) : StagedObject (s.stageRows .put m now) m.objectId m where
  journal := by
    simp only [stageRows, get?_upsertWith]
    refine ⟨_, if_pos rfl, ?_⟩
    cases s.operationJournal.get? m.objectId <;> rfl
  row := ⟨s.stagedRow m now, by rw [stageRows_get?, if_pos rfl], hv, rfl⟩
  objectId := rfl
  valid := hv
  readable := by
    intro object ho
    obtain ⟨found, hf⟩ := hr object ho
    unfold loadManifestByObjectId
    rw [stageRows_get?]
    by_cases hid : m.objectId = object
    · rw [if_pos hid]
      have hv' : (m.withState .staging).validate = .ok () := hv
      refine ⟨some (m.withState .staging), ?_⟩
      simp [stagedRow, hv']
    · rw [if_neg hid]
      exact ⟨found, hf⟩
  quota := hq

theorem StagedObject.queue (h : StagedObject s j.id m) (hj : j ∈ s.transferJobs)
    (hst : j.state = .receiving) (ha : Alone s j) (hob : j.objectId = j.id)
    (hc : j.writeConditionals = none) (hd : j.nextRetry ≤ now.unixTimestamp)
    (hu : s.multipartUploads.get? upload = some u)
    (hs : u.session.state = .initiated ∨ u.session.state = .uploading)
    (hn : s.multipartJobs.get? j.id = none) (hsent : ∀ a ∈ s.sendAttempts, a.jobId ≠ j.id)
    (fromStr : String → Option ETagCondition) (lease : Uuid) :
    ∃ s', s.queueMultipartCompletion j.id j.id upload now = .ok s' ∧
      (∃ i, s'.transferJobs.get? j.id = some i ∧ i.id = j.id) ∧
      Publishes.Possible fromStr s' j.id (m.withState .committed) := by
  obtain ⟨jobs, hq, hin, hm⟩ := queueMultipartCompletion_alone hj hst ha hu hs hn now
  let s' := completingStore s jobs j.id upload now
  let j' := TransferJob.completing now.unixTimestamp j
  refine ⟨s', hq, ⟨j', mem_iff_get?.1 hin, rfl⟩, ?_⟩
  have hm' : Table.Rel JobMove s.transferJobs s'.transferJobs := hm
  have ha' : Alone s' j' := (ha.moves hm').congr rfl rfl
  have hpart : s'.multipartJobs.get? j.id = some
      { jobId := j.id, uploadId := upload, partNumber := 0, expectedChecksum := none } :=
    get?_insertOrIgnore_self hn
  have hopen : ∀ u ∈ s'.multipartUploads, u.uploadId = upload → u.state = .completing := by
    intro u hu hid
    simp only [s', completingStore] at hu
    obtain ⟨o, -, -, rfl⟩ | ⟨-, hne⟩ := of_mem_modify hu
    · rfl
    · exact absurd hid (of_decide_eq_false hne)
  have hready : Ready s' now.unixTimestamp j' := by
    refine ⟨hin, rfl, hd, any_eq_false.2 ?_, any_eq_false.2 ?_, ha'.newer⟩
    · intro a ha
      rw [Bool.and_eq_false_iff]
      exact .inl (decide_eq_false (hsent a ha))
    · intro p hp
      rw [Bool.and_eq_false_iff]
      by_cases hid : p.jobId = j.id
      · obtain rfl := eq_of_key_eq hp (mem_of_get? hpart) hid
        refine .inr (any_eq_false.2 ?_)
        intro u hu
        by_cases hup : u.uploadId = upload
        · simp [hup, hopen u hu hup]
        · simp [hup]
      · exact .inl (decide_eq_false hid)
  have hstaged : StagedCompletion s' j'.id upload m := by
    refine ⟨⟨h.journal, h.row, h.objectId, h.valid, h.readable, h.quota⟩, ?_, ?_⟩
    · exact congrArg (Option.map fun p : MultipartJobRow => (p.uploadId, p.partNumber)) hpart
    · refine ⟨u.completing now, ?_, key_of_get? hu, rfl⟩
      simp only [s', completingStore, mem_modify]
      exact ⟨u, mem_of_get? hu, if_pos (decide_eq_true (key_of_get? hu))⟩
  exact hstaged.possible hready ha' rfl hob hc lease

/-- With its resources, a completion without a job is queued and can be published. -/
theorem completionCall_queued {cfg : ServiceConfig} {sha256Hex : Bytes → String}
    (hp : ObjectFormat.completeMultipartUpload cfg sha256Hex s plan env.now = .ok (.publish m))
    (ha : Available env s m) (hl : Linked s) (hn : s.transferJobs.get? plan.uploadId = none)
    (fromStr : String → Option ETagCondition) (lease : Uuid) :
    ∃ s', ObjectFormat.completionCall cfg sha256Hex env s plan = (s', .ok (.wait plan.uploadId)) ∧
      Publishes.Possible fromStr s' plan.uploadId (m.withState .committed) := by
  obtain ⟨session, hsession, hstate, hbuilt⟩ := completeMultipartUpload_publish hp
  obtain ⟨hvalid, ⟨hplan, hid, -, -⟩, -⟩ := completionManifest_ok hbuilt
  obtain ⟨row, hrow, rfl⟩ := Option.map_eq_some_iff.1 hsession
  rw [hplan] at hid
  rw [← hid] at hn hrow
  obtain ⟨s₁, hs₁, he₁, hj₁, ha₁⟩ := beginTransfer_alone ha hl hn
  have hc₁ : s₁.stagedBytes + env.jsonLength m ≤ env.stagingBudget := by
    rw [he₁, stagedBytes_begun]
    exact ha.capacity
  obtain ⟨jobs, hs₂, hj₂, hm₂⟩ := reserveStaging_fits hj₁ rfl hc₁ env.now.unixTimestamp
  let s₂ : MetadataStore := { s₁ with transferJobs := jobs }
  have hm₂ : Table.Rel JobMove s₁.transferJobs s₂.transferJobs := hm₂
  let j₂ : TransferJob := { s.newJob m.objectId m.bucket m.key env.now.unixTimestamp with
    bytes := 0 + env.jsonLength m, updatedAt := env.now.unixTimestamp
    leaseUntil := env.now.unixTimestamp + 120 }
  have ha₂ : Alone s₂ j₂ := (ha₁.moves hm₂).congr rfl rfl
  have hs₃ : s₂.stageManifest .put m env.now = .ok (s₂.stageRows .put m env.now) := by
    rw [stageManifest, hvalid]
  have hstaged : StagedObject (s₂.stageRows .put m env.now) j₂.id m := by
    apply stageRows_staged hvalid
    · subst he₁
      exact ha.readable
    · subst he₁
      exact ha.quota
  have ha₃ : Alone (s₂.stageRows .put m env.now) j₂ := ⟨ha₂.ended, ha₂.newest⟩
  have hu : (s₂.stageRows .put m env.now).multipartUploads.get? m.objectId = some row := by
    subst he₁
    exact hrow
  have hnone : (s₂.stageRows .put m env.now).multipartJobs.get? m.objectId = none := by
    subst he₁
    rw [get?_eq_none]
    intro p hp he
    have he : p.jobId = m.objectId := he
    exact hl.parts p hp (by rw [he]; exact hn)
  have hsent : ∀ a ∈ (s₂.stageRows .put m env.now).sendAttempts, a.jobId ≠ m.objectId := by
    subst he₁
    intro a ha he
    exact hl.attempts a ha (by rw [he]; exact hn)
  obtain ⟨s', hs', ⟨i, hi, hii⟩, hpossible⟩ :=
    hstaged.queue hj₂ rfl ha₃ rfl rfl ha.clock hu hstate hnone hsent fromStr lease
  refine ⟨s', ?_, hid ▸ hpossible⟩
  have hreserve : s₁.reserveStaging m.objectId (env.jsonLength m) env.stagingBudget
      env.now.unixTimestamp = .ok s₂ := hs₂
  have hqueue : (s₂.stageRows .put m env.now).queueMultipartCompletion m.objectId m.objectId
      plan.uploadId env.now = .ok s' := hid ▸ hs'
  have hjob : s'.transferJobs.get? m.objectId = some i := hi
  simp only [ObjectFormat.completionCall, hp, hs₁, storeCall, ObjectFormat.queueCompletion,
    fileCall, ha.createDir, ha.writeFile, hreserve, hs₃, hqueue, hjob]
  rw [hii]
  show (s', Except.ok (CompletionAnswer.wait m.objectId)) = _
  rw [hid]

end Queueing

section Claim
variable (fromStr : String → Option ETagCondition) (cfg : ServiceConfig)
  (sha256Hex : Bytes → String)

/-- The call gets its job queued, and the job can be published as the object of the upload. -/
def CanComplete (env : CompletionEnv) (s : MetadataStore) (plan : MultipartCompletionPlan) : Prop :=
  ∃ s' job m, ObjectFormat.completionCall cfg sha256Hex env s plan = (s', .ok (.wait job)) ∧
    Publishes.Possible fromStr s' job m ∧ m.objectId = plan.uploadId

/-- A manifest the call answers with is that of the upload. -/
def AnswersOwn (env : CompletionEnv) (s : MetadataStore) (plan : MultipartCompletionPlan) : Prop :=
  ∀ s' m, ObjectFormat.completionCall cfg sha256Hex env s plan = (s', .ok (.object m)) →
    m.objectId = plan.uploadId

/-- After a failure, a call with the same plan, valid by then, can succeed. -/
def CompletionRetryable : Prop :=
  ∀ past s, Run EmptyStore (StoreStep fromStr) past s → ∀ env plan s₁ e,
    ObjectFormat.completionCall cfg sha256Hex env s plan = (s₁, .error e) → ∀ env' m,
      ObjectFormat.completeMultipartUpload cfg sha256Hex s₁ plan env'.now = .ok (.publish m) →
        Available env' s₁ m → CanComplete fromStr cfg sha256Hex env' s₁ plan

/-- A call for a completed upload never answers with another object. -/
def CompletionIdempotent : Prop :=
  ∀ past s, Run EmptyStore (StoreStep fromStr) past s → ∀ env plan session,
    s.getMultipartSession plan.uploadId = some session → session.state = .completed →
      AnswersOwn cfg sha256Hex env s plan

end Claim

def ShowsOnly (s : MetadataStore) (bucket key : String) (object : Uuid) : Prop :=
  ∀ row ∈ s.objectManifests, s.activeObjectId bucket key = some row.objectId →
    row.connectionId = s.activeConnectionId → row.manifest.validate = .ok () →
      row.objectId = object

theorem getActiveManifest_eq_some {s : MetadataStore} :
    s.getActiveManifest bucket key = .ok (some m) ↔
      ∃ row ∈ s.objectManifests, s.activeObjectId bucket key = some row.objectId ∧
        row.connectionId = s.activeConnectionId ∧ row.manifest.validate = .ok () ∧
        row.manifest = m := by
  unfold getActiveManifest
  split
  · rename_i hn
    rw [Option.filter_eq_none_iff] at hn
    constructor
    · intro h
      cases h
    · rintro ⟨row, hr, ha, hc, -, -⟩
      refine absurd ?_ (hn _ ha)
      exact any_eq_true.2 ⟨row, hr, by simp [hc]⟩
  · rename_i object hs
    rw [Option.filter_eq_some_iff] at hs
    obtain ⟨ha, hp⟩ := hs
    obtain ⟨o, ho, hp⟩ := any_eq_true.1 hp
    simp only [Bool.and_eq_true, decide_eq_true_eq] at hp
    rw [loadManifestByObjectId_eq_some]
    constructor
    · rintro ⟨row, hr, hv, hm⟩
      have hid : row.objectId = object := key_of_get? hr
      have he : o = row := eq_of_key_eq ho (mem_of_get? hr) (hp.1.trans hid.symm)
      exact ⟨row, mem_of_get? hr, hid ▸ ha, he ▸ hp.2, hv, hm⟩
    · rintro ⟨row, hr, ha', -, hv, hm⟩
      have hid : object = row.objectId := Option.some.inj (ha.symm.trans ha')
      exact ⟨row, hid ▸ mem_iff_get?.1 hr, hv, hm⟩

theorem completionCall_completed {cfg : ServiceConfig} {sha256Hex : Bytes → String}
    (hs : s.getMultipartSession plan.uploadId = some session) (hst : session.state = .completed)
    (hb : session.bucket = plan.bucket) (hk : session.key = plan.key) :
    ObjectFormat.completionCall cfg sha256Hex env s plan = (s', .ok (.object m)) ↔
      s' = s ∧ s.getActiveManifest plan.bucket plan.key = .ok (some m) := by
  simp only [ObjectFormat.completionCall, ObjectFormat.completeMultipartUpload, hs, hst, hb, hk]
  cases hg : s.getActiveManifest plan.bucket plan.key with
  | error e => simp [Except.map]
  | ok found =>
    cases found with
    | none => simp [Except.map]
    | some found => simp [Except.map, eq_comm]

theorem Coherent.of_run
    (hr : Run EmptyStore (fun op s s' => StoreOp.serve fromStr op s = some s') past s) :
    Coherent s := by
  refine hr.invariant (fun _ h => h.objects.coherent) ?_
  intro op s s' h hs
  obtain ⟨hs, hw⟩ := StoreOp.serve_eq_some hs
  exact h.step hs hw

def roomFor (budget : Nat) : CompletionEnv :=
  { jsonLength := fun _ => 1, stagingBudget := budget, now := instant 4 }

def crampedStore : MetadataStore :=
  (ObjectFormat.completionCall sampleStorage (fun _ => "c0ffee") (roomFor 0) onePartStore
    onePartPlan).1

def completionOps : List StoreOp :=
  let now := (instant 4).unixTimestamp
  partOps ++
    [.beginTransfer ⟨9⟩ "photos" "a.jpg" now, .stageManifest .put onePartObject (instant 4),
      .queueMultipartCompletion ⟨9⟩ ⟨9⟩ (instant 4), .claimTransfer now ⟨8⟩,
      .enterCommitting ⟨9⟩ ⟨8⟩ now, .commitTransferManifest ⟨9⟩ ⟨8⟩ onePartObject (instant 4)]

def completedRun : List MetadataStore × MetadataStore :=
  (exec (StoreOp.serve fun _ => none) [] photosStore completionOps).get (by decide)

def replacedUploadRun : List MetadataStore × MetadataStore :=
  (exec (StoreOp.apply fun _ => none) [] photosStore
    (completionOps ++ uploadOps (emptyObject ⟨2⟩ "photos" "a.jpg") ⟨7⟩ 5)).get (by decide)

theorem roomy_available (hs : s = onePartStore ∨ s = crampedStore) :
    Available (roomFor 1) s onePartObject := by
  have ha : s.activeObjectId "photos" "a.jpg" = none := by
    rcases hs with rfl | rfl <;> decide
  have hq : s.telegramAccounts = ∅ := by
    rcases hs with rfl | rfl <;> rfl
  refine ⟨rfl, rfl, ?_, by decide, ?_, ?_, ?_, ?_⟩
  · rcases hs with rfl | rfl <;> decide
  · rcases hs with rfl | rfl <;> decide
  · rcases hs with rfl | rfl <;> decide
  · intro object ho
    rw [show onePartObject.bucket = "photos" from rfl, show onePartObject.key = "a.jpg" from rfl,
      ha] at ho
    cases ho
  · intro row hr
    rw [hq] at hr
    cases hr

end TelegramS3
