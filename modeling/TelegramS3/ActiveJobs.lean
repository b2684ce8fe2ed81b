import TelegramS3.Publication

namespace TelegramS3
open Relational Table Fallible MetadataStore
set_option autoImplicit true

/-- The calls of uploads, moves, deletes and their workers; the others publish without a job. -/
def StoreOp.requested : StoreOp → Bool
  | .commitManifest .. | .updateManifestState .. | .reopen .. => false
  | _ => true

def StoreOp.publishes : StoreOp → Option Uuid
  | .commitManifest operation _ => some operation
  | .commitTransferManifest id .. => some id
  | .finishPartJob id .. => some id
  | _ => none

def JobPublished (s : MetadataStore) (object : Uuid) : Prop :=
  ∃ j, s.transferJobs.get? object = some j ∧ j.state.published = true

theorem JobPublished.step (h : JobPublished s object) (hs : StoreStep fromStr op s s') :
    JobPublished s' object := by
  obtain ⟨j, hj, hp⟩ := h
  obtain ⟨j', hj', hstep⟩ := StoreOp.job_step hs hj
  exact ⟨j', hj', hstep.published hp⟩

def JobLeased (s : MetadataStore) (object : Uuid) : Prop :=
  ∃ j, s.transferJobs.get? object = some j ∧ j.state.leased = true

theorem JobPublished.not_leased (h : JobPublished s object) : ¬ JobLeased s object := by
  rintro ⟨j, hj, hl⟩
  obtain ⟨i, hi, hp⟩ := h
  rw [hj] at hi
  cases hi
  rw [TransferState.published_of_leased hl] at hp
  cases hp

namespace ManifestRow

def tombstone (now : OffsetDateTime) (r : ManifestRow) : ManifestRow :=
  { r with
    commitState := .tombstoned, manifest := r.manifest.withState .tombstoned
    tombstonedAt := some now }

def publish (m : ObjectManifest) (now : OffsetDateTime) (r : ManifestRow) : ManifestRow :=
  { r with
    commitState := .committed, manifest := m.withState .committed, committedAt := some now
    tombstonedAt := none }

/-- The active row is about the object of the manifest row, under its key. -/
structure ShownBy (r : ManifestRow) (a : ActiveRow) : Prop where
  object : a.objectId = r.objectId
  bucket : a.bucket = r.bucket
  key : a.objectKey = r.objectKey

end ManifestRow

variable {s s' : MetadataStore}

/-- Who commits an object: its leased job, which is completed with it, or nobody's job. -/
inductive Commits (op : StoreOp) (s s' : MetadataStore) (object : Uuid) : Prop where
  | job : JobLeased s object → JobPublished s' object → Commits op s s' object
  | jobless (now : OffsetDateTime) : op = .commitManifest object now →
      (∀ j ∈ s.transferJobs, j.operationId ≠ some object) → Commits op s s' object

namespace MetadataStore

theorem publishManifest_activeObjectId (s : MetadataStore) (operation : Uuid) (m : ObjectManifest)
    (now : OffsetDateTime) (bucket key : String) :
    (s.publishManifest operation m now).activeObjectId bucket key =
      if m.bucket = bucket ∧ m.key = key then some m.objectId
      else s.activeObjectId bucket key := by
  simp only [activeObjectId, publishManifest, get?_upsert]
  split <;> simp_all [Keyed.key]

theorem committedStore_job (ho : ∀ j ∈ s.transferJobs, j.OneId)
    (hf : s.commitFence operation transfer now.unixTimestamp = .ok ())
    (hj : s.transferJobs.get? operation = some j) (hcj : completes operation transfer j = true)
    (m : ObjectManifest) : JobLeased s operation ∧
      ∃ j', (s.committedStore operation transfer m now).transferJobs.get? operation = some j' ∧
        j'.state.published = true := by
  obtain ⟨-, i, hi, hio, hl⟩ := completes_operation hf (mem_of_get? hj) hcj
  have hik : i.id = operation := ((ho i hi).operation operation hio).symm
  refine ⟨⟨i, get?_eq_some.2 ⟨hi, hik⟩, hl⟩, TransferJob.complete now.unixTimestamp j, ?_, rfl⟩
  simp [committedStore, hj, hcj]

theorem commitFence_completes (h : s.commitFence operation (some (job, lease)) now = .ok ()) :
    ∃ j, s.transferJobs.get? job = some j ∧ completes operation (some (job, lease)) j = true := by
  obtain ⟨j, hj, hstate, hlease, -⟩ := commitFence_job h
  have hid : j.id = job := key_of_get? hj
  exact ⟨j, hj, by simp [completes, hid, hstate, hlease]⟩

/-- A commit publishes the row of its operation, and completes its job if it has one. -/
structure CommitsRow (s s' : MetadataStore) (operation : Uuid) (transfer : Option (Uuid × Uuid))
    (subject : Option ObjectManifest) (now : OffsetDateTime) (r : ManifestRow)
    (m : ObjectManifest) : Prop where
  row : r ∈ s.objectManifests
  own : r.objectId = operation
  about : m = r.manifest ∨ subject = some m
  job : JobLeased s operation ∧ JobPublished s' operation ∨
    transfer = none ∧ ∀ j ∈ s.transferJobs, j.operationId ≠ some operation
  rows : s'.objectManifests = (s.publishManifest operation m now).objectManifests
  active : s'.activeObjects = (s.publishManifest operation m now).activeObjects
  object : m.objectId = operation
  bucket : m.bucket = r.bucket
  key : m.key = r.objectKey
  fits : (∀ p ∈ s.multipartJobs, p.jobId = operation → p.partNumber = 0) →
    s.enforceAccountQuota r.connectionId m.bucket m.key m.contentLength = .ok ()

theorem commitQuota_fits (h : s.commitQuota journal job m = .ok ())
    (hr : s.objectManifests.get? journal.objectId = some r)
    (hp : ∀ p ∈ s.multipartJobs, p.jobId = job → p.partNumber = 0) :
    s.enforceAccountQuota r.connectionId m.bucket m.key m.contentLength = .ok () := by
  unfold commitQuota at h
  split at h
  · rename_i hany
    obtain ⟨p, hm, hj⟩ := any_eq_true.1 hany
    simp only [Bool.and_eq_true, decide_eq_true_eq] at hj
    have hz := hp p hm hj.1
    omega
  · rw [hr] at h
    exact h

theorem commitManifestInner_commits (h : Coherent s) (ho : ∀ j ∈ s.transferJobs, j.OneId)
    (hj : ∀ job lease, transfer = some (job, lease) → job = operation)
    (hc : s.commitManifestInner fromStr operation transfer subject now = .ok (m', s')) :
    s' = s ∨ ∃ r m, CommitsRow s s' operation transfer subject now r m := by
  obtain ⟨e, he, ⟨-, rfl⟩ | ⟨m, hm, hf, ⟨-, hq⟩, hs⟩⟩ := commitManifestInner_ok hc
  · exact .inl rfl
  · obtain ⟨row, hrow, hid, hb, hk⟩ := commitSubject_row h he hm
    obtain ⟨row', hrow', hsub⟩ := commitSubject_ok hm
    have hd := (h.operation e (mem_of_get? he)).2.1
    have hop : e.operationId = operation := key_of_get? he
    rw [hd, hop, hrow] at hrow'
    cases hrow'
    have hp : s'.objectManifests = (s.publishManifest operation m now).objectManifests ∧
        s'.activeObjects = (s.publishManifest operation m now).activeObjects ∧
        s'.transferJobs = (s.committedStore operation transfer m now).transferJobs := by
      rcases hs with ⟨-, rfl⟩ | ⟨upload, -, rfl⟩
      · exact ⟨rfl, rfl, rfl⟩
      · exact ⟨rfl, rfl, rfl⟩
    have hjob : (∃ j, s.transferJobs.get? operation = some j ∧
        completes operation transfer j = true) ∨
        transfer = none ∧ ∀ j ∈ s.transferJobs, j.operationId ≠ some operation := by
      cases transfer with
      | some t =>
        obtain ⟨job, lease⟩ := t
        obtain rfl := hj job lease rfl
        exact .inl (commitFence_completes hf)
      | none =>
        by_cases hex : ∃ j ∈ s.transferJobs, j.operationId = some operation
        · obtain ⟨j, hjm, hjo⟩ := hex
          have hk : j.id = operation := ((ho j hjm).operation operation hjo).symm
          exact .inl ⟨j, get?_eq_some.2 ⟨hjm, hk⟩, decide_eq_true hjo⟩
        · exact .inr ⟨rfl, fun j hj hjo => hex ⟨j, hj, hjo⟩⟩
    have hown : (transfer.map Prod.fst).getD e.details.objectId = operation := by
      cases ht : transfer with
      | none => exact hd.trans hop
      | some t => exact hj t.1 t.2 ht
    refine .inr ⟨row, m, mem_of_get? hrow, key_of_get? hrow, ?_, ?_, hp.1, hp.2.1, hid, hb, hk, ?_⟩
    · exact hsub.imp_right And.left
    · rcases hjob with ⟨j, hj, hcj⟩ | hn
      · obtain ⟨hl, j', hj', hp'⟩ := committedStore_job ho hf hj hcj m
        exact .inl ⟨hl, j', hp.2.2 ▸ hj', hp'⟩
      · exact .inr hn
    · intro hz
      apply commitQuota_fits hq
      · rw [hd, hop, hrow]
      · rw [hown]
        exact hz

theorem CommitsRow.of_mem
    (h : CommitsRow s s' operation transfer subject now r m) (hr : r' ∈ s'.objectManifests) :
    r' ∈ s.objectManifests ∨ r' = r.publish m now := by
  rw [h.rows] at hr
  simp only [publishManifest, mem_modify] at hr
  obtain ⟨o, ho, rfl⟩ := hr
  split
  · rename_i hp
    have he : o = r := eq_of_key_eq ho h.row
      ((of_decide_eq_true hp).trans (h.object.trans h.own.symm))
    exact .inr (by rw [he]; rfl)
  · exact .inl ho

theorem CommitsRow.active_of_mem
    (h : CommitsRow s s' operation transfer subject now r m) (ha : a ∈ s'.activeObjects) :
    a ∈ s.activeObjects ∨ r.ShownBy a := by
  rw [h.active] at ha
  rcases mem_upsert.1 ha with rfl | ⟨ha, -⟩
  · exact .inr ⟨h.object.trans h.own.symm, h.bucket, h.key⟩
  · exact .inl ha

theorem tombstoneExpiredActiveManifests_active :
    ∀ a ∈ (s.tombstoneExpiredActiveManifests now).activeObjects, a ∈ s.activeObjects :=
  tombstoneExpiredActiveManifests_induction
    (P := fun t => ∀ a ∈ t.activeObjects, a ∈ s.activeObjects) (fun _ ha => ha)
    fun _ _ ht _ a ha => ht a (mem_delete.1 ha).1

end MetadataStore

theorem CommitCall.own (h : CommitCall s now op operation transfer subject)
    (ho : ∀ j ∈ s.transferJobs, j.OneId) : op.publishes = some operation ∧
      ∀ job lease, transfer = some (job, lease) → job = operation := by
  cases h with
  | plain => exact ⟨rfl, nofun⟩
  | leased => exact ⟨rfl, fun _ _ ht => by cases ht; rfl⟩
  | completion _ hop =>
    obtain ⟨j, hj, hjo⟩ := Option.bind_eq_some_iff.1 hop
    refine ⟨?_, nofun⟩
    rw [(ho j (mem_of_get? hj)).operation _ hjo]
    exact congrArg some (key_of_get? hj).symm

theorem CommitCall.commits (hcall : CommitCall s now op operation transfer subject) (h : Coherent s)
    (ho : ∀ j ∈ s.transferJobs, j.OneId)
    (hc : s.commitManifestInner fromStr operation transfer subject now = .ok (m', s')) :
    s' = s ∨ ∃ r m, CommitsRow s s' operation transfer subject now r m ∧
      op.publishes = some r.objectId ∧ Commits op s s' r.objectId := by
  obtain ⟨hp, ht⟩ := hcall.own ho
  rcases commitManifestInner_commits h ho ht hc with he | ⟨r, m, hr⟩
  · exact .inl he
  · refine .inr ⟨r, m, hr, ?_⟩
    rw [hr.own]
    refine ⟨hp, ?_⟩
    rcases hr.job with hj | ⟨ht, hn⟩
    · exact .job hj.1 hj.2
    · cases hcall with
      | plain => exact .jobless now rfl hn
      | leased => cases ht
      | completion _ hop =>
        obtain ⟨j, hj, hjo⟩ := Option.bind_eq_some_iff.1 hop
        exact absurd hjo (hn j (mem_of_get? hj))

section
variable {op : StoreOp} (h : Coherent s) (ho : ∀ j ∈ s.transferJobs, j.OneId)
  (hs : StoreStep fromStr op s s')
include h ho hs

/-- Apart from rebuilds, a call makes active what it commits, under the key of its manifest. -/
theorem StoreOp.exposed_row (hn : ∀ now, op ≠ .reopen now) (ha : a ∈ s'.activeObjects) :
    a ∈ s.activeObjects ∨ ∃ r ∈ s.objectManifests, r.ShownBy a ∧
      (op.publishes = some r.objectId ∧ Commits op s s' r.objectId ∨
        ∃ now, op = .updateManifestState r.objectId .committed now) := by
  cases StoreOp.index_step hs with
  | kept hf =>
    rw [hf.active] at ha
    exact .inl ha
  | staged | written => exact .inl ha
  | discarded _ _ _ _ hact _ | tombstoned _ _ _ _ _ _ hact _ _ =>
    rw [hact] at ha
    exact .inl (mem_delete.1 ha).1
  | committed _ hcall hc =>
    rcases hcall.commits h ho hc with rfl | ⟨r, m, hm, hp, hw⟩
    · exact .inl ha
    · exact (hm.active_of_mem ha).imp_right fun hs => ⟨r, hm.row, hs, .inl ⟨hp, hw⟩⟩
  | moved object m state now hm =>
    obtain ⟨r, hr, rfl⟩ := loadManifestByObjectId_ok hm
    have hid : r.objectId = object := key_of_get? hr
    have hrow := h.rows r (mem_of_get? hr)
    simp only [setManifestState] at ha
    split at ha
    · rename_i hst
      rcases mem_upsert.1 ha with rfl | ⟨ha, -⟩
      · refine .inr ⟨r, mem_of_get? hr, ⟨hid.symm, hrow.bucket, hrow.key⟩, .inr ⟨now, ?_⟩⟩
        rw [hid, hst]
      · exact .inl ha
    · exact .inl (mem_delete.1 ha).1
  | expired => exact .inl (tombstoneExpiredActiveManifests_active a ha)
  | hidden => exact .inl (mem_delete.1 ha).1
  | reopened now => exact absurd rfl (hn now)

theorem StoreOp.active_step (hr : op.requested = true) (ha : a ∈ s'.activeObjects) :
    a ∈ s.activeObjects ∨ op.publishes = some a.objectId ∧ JobLeased s a.objectId ∧
      JobPublished s' a.objectId := by
  have hn : ∀ now, op ≠ .reopen now := by
    rintro now rfl
    cases hr
  rcases StoreOp.exposed_row h ho hs hn ha with ha | ⟨r, -, hsh, ⟨hp, hc⟩ | ⟨now, rfl⟩⟩
  · exact .inl ha
  · rw [hsh.object]
    cases hc with
    | job hl hj => exact .inr ⟨hp, hl, hj⟩
    | jobless now he _ =>
      subst he
      cases hr
  · cases hr

end

def StoreOp.exposes : StoreOp → Option Uuid
  | .updateManifestState objectId _ _ => some objectId
  | op => op.publishes

theorem StoreOp.active_origin (h : Coherent s) (ho : ∀ j ∈ s.transferJobs, j.OneId)
    (hs : StoreStep fromStr op s s') (ha : a ∈ s'.activeObjects) :
    a ∈ s.activeObjects ∨ op.exposes = some a.objectId ∨
      (∃ now, op = .reopen now) ∧ ∃ r ∈ s.objectManifests, r.objectId = a.objectId := by
  by_cases hre : ∃ now, op = .reopen now
  · obtain ⟨now, rfl⟩ := hre
    cases hs
    obtain ⟨r, hr, -, hid, -, -⟩ := mem_rebuildIndex_active ha
    exact .inr (.inr ⟨⟨now, rfl⟩, r, hr, hid⟩)
  · rcases StoreOp.exposed_row h ho hs (fun now he => hre ⟨now, he⟩) ha with
      ha | ⟨r, -, hsh, ⟨hp, -⟩ | ⟨now, rfl⟩⟩
    · exact .inl ha
    · rw [hsh.object]
      cases op with
      | updateManifestState => cases hp
      | _ => exact .inr (.inl hp)
    · rw [hsh.object]
      exact .inr (.inl rfl)

theorem JobCommitted.publishes (h : JobCommitted s operation j op)
    (ho : ∀ j ∈ s.transferJobs, j.OneId) (hid : operation = j.id) :
    op.publishes = some j.id := by
  cases h with
  | manifest => exact congrArg some hid
  | transfer => rfl
  | session hs =>
    obtain ⟨i, hi, hio⟩ := Option.bind_eq_some_iff.1 hs
    rw [← hid, (ho i (mem_of_get? hi)).operation _ hio]
    exact congrArg some (key_of_get? hi).symm

theorem JobUpdate.publishes (h : JobUpdate s op j j')
    (ho : ∀ j ∈ s.transferJobs, j.OneId) (hp : j'.state.published = true) :
    j.state.published = true ∨ op.publishes = some j.id ∨
      ∃ removed, op = .cleanupCompletedStaging removed := by
  cases h with
  | touch | reserve | conditionals | pause => exact .inl hp
  | drop _ _ _ _ _ _ hb => simp [TransferState.published_of_dropped hb] at hp
  | failReception filesRemoved => cases filesRemoved <;> cases hp
  | fail _ waits => cases waits <;> cases hp
  | requeue _ paused => cases paused <;> cases hp
  | clean => exact .inr (.inr ⟨_, rfl⟩)
  | completePart => exact .inr (.inl rfl)
  | complete _ hj hc hop => exact .inr (.inl (hc.publishes ho ((ho _ hj).operation _ hop)))
  | _ => cases hp

/-- A job gets published by the call that carries this out, or marked by local cleanup. -/
theorem StoreOp.published_by (ho : ∀ j ∈ s.transferJobs, j.OneId)
    (hs : StoreStep fromStr op s s') (hp : JobPublished s' job) :
    JobPublished s job ∨ op.publishes = some job ∨ ∃ removed,
      op = .cleanupCompletedStaging removed ∧
        ∃ j ∈ (s.transfersForLocalCleanup 100).take removed, j.id = job := by
  obtain ⟨j', hj', hp⟩ := hp
  have hl : JobLaw s op fun j j' => j'.id = j.id ∧ (j'.state.published = true →
      j.state.published = true ∨ op.publishes = some j.id ∨
        ∃ removed, op = .cleanupCompletedStaging removed) := by
    refine ⟨fun _ => ⟨rfl, .inl⟩, ?_, fun _ _ h => h.1, fun _ _ h => ⟨h.id, h.publishes ho⟩⟩
    intro a b c hab hbc
    refine ⟨hbc.1.trans hab.1, fun hc => ?_⟩
    rcases hbc.2 hc with hb | hb
    · exact hab.2 hb
    · exact .inr (hab.1 ▸ hb)
  rcases StoreOp.job_origin hs hl hj' with ⟨j, hj, -, h⟩ | ⟨bucket, key, now, -, -, rfl⟩
  · have hid : j.id = job := key_of_get? hj
    rcases h hp with hp | hp | ⟨removed, rfl⟩
    · exact .inl ⟨j, hj, hp⟩
    · exact .inr (.inl (hid ▸ hp))
    · cases hs
      obtain ⟨i, hi, -, he | ⟨⟨k, hk, hki⟩, -, -⟩⟩ :=
        (s.cleanupCompletedStaging_rows removed).some_right hj'
      · exact .inl ⟨i, hi, he ▸ hp⟩
      · exact .inr (.inr ⟨removed, rfl, k, hk, hki.trans (key_of_get? hi)⟩)
  · cases hp

end TelegramS3
