import TelegramS3.Run
import TelegramS3.Jobs
import TelegramS3.Visibility

namespace TelegramS3
open Relational Table Fallible Transition MetadataStore
set_option autoImplicit true

/-- In one of the states the job is completed and the manifest of its object committed. -/
def PublishedIn (states : List MetadataStore) (job object : Uuid) : Prop :=
  ∃ t ∈ states, (∃ j ∈ t.transferJobs, j.id = job ∧ j.objectId = object ∧ j.state = .completed) ∧
    ∃ r ∈ t.objectManifests, r.objectId = object ∧ r.commitState = .committed

theorem PublishedIn.cons (h : PublishedIn states job object) (s : MetadataStore) :
    PublishedIn (s :: states) job object := by
  obtain ⟨t, ht, hp⟩ := h
  exact ⟨t, List.mem_cons_of_mem _ ht, hp⟩

def PartJob (s : MetadataStore) (job : Uuid) : Prop :=
  ∃ upload number, number ≠ 0 ∧ s.multipartJob job = some (upload, number)

theorem PartJob.step (h : PartJob s job) (hs : StoreStep fromStr op s s') : PartJob s' job := by
  obtain ⟨upload, number, hn, hp⟩ := h
  exact ⟨upload, number, hn, StoreOp.multipartJob_step hs hp⟩

/-- A job, its object and its operation share one id. -/
structure TransferJob.OneId (j : TransferJob) : Prop where
  object : j.objectId = j.id
  operation : ∀ operation, j.operationId = some operation → operation = j.id

theorem TransferJob.OneId.same (h : j.OneId) (hs : SameJob j j') : j'.OneId where
  object := by rw [hs.objectId, hs.id, h.object]
  operation operation ho := by
    rw [hs.id]
    rcases hs.operation with he | he
    · exact h.operation operation (he ▸ ho)
    · rw [he] at ho
      exact (Option.some.inj ho).symm

theorem StoreOp.oneId_step (h : ∀ j ∈ s.transferJobs, j.OneId)
    (hs : StoreStep fromStr op s s') : ∀ j ∈ s'.transferJobs, j.OneId := by
  intro j' hj'
  rcases StoreOp.job_before hs hj' with ⟨j, hj, hstep⟩ | ⟨objectId, bucket, key, now, -, rfl⟩
  · exact (h j hj).same hstep.same
  · exact ⟨rfl, nofun⟩

/-- Cleanup takes an unpublished job only as a part or without a row; none is staged afterwards. -/
def CleansPublished (op : StoreOp) (s : MetadataStore) : Prop :=
  (∀ removed, op = .cleanupCompletedStaging removed →
    ∀ j ∈ (s.transfersForLocalCleanup 100).take removed,
      j.state = .completed ∨ PartJob s j.id ∨ s.objectManifests.get? j.objectId = none) ∧
  ∀ object, op.stagedObject = some object →
    ∀ j ∈ s.transferJobs, j.objectId = object → j.state ≠ .cleaned

/-- What the state of a job says about its object in the states passed so far. -/
structure PublicationTrail (states : List MetadataStore) (s : MetadataStore) : Prop where
  coherent : Coherent s
  oneId : ∀ j ∈ s.transferJobs, j.OneId
  completed : ∀ j ∈ s.transferJobs, j.state = .completed →
    PartJob s j.id ∨ PublishedIn states j.id j.objectId
  cleaned : ∀ j ∈ s.transferJobs, j.state = .cleaned →
    PartJob s j.id ∨ PublishedIn states j.id j.objectId ∨
      s.objectManifests.get? j.objectId = none

theorem PublicationTrail.cons (h : PublicationTrail states s) (t : MetadataStore) :
    PublicationTrail (t :: states) s :=
  ⟨h.coherent, h.oneId, fun j hj hst => (h.completed j hj hst).imp_right (·.cons t),
    fun j hj hst => (h.cleaned j hj hst).imp_right (·.imp_left (·.cons t))⟩

/-- A database without objects, transfers and parts. -/
structure EmptyStore (s : MetadataStore) : Prop where
  objects : NoObjects s
  jobs : s.transferJobs = ∅
  parts : s.multipartParts = ∅

theorem PublicationTrail.init (h : EmptyStore s) : PublicationTrail states s := by
  have hn : ∀ j, j ∉ s.transferJobs := by simp [h.jobs]
  exact ⟨h.objects.coherent, fun j hj => absurd hj (hn j), fun j hj => absurd hj (hn j),
    fun j hj => absurd hj (hn j)⟩

theorem Publishes.leased (h : Publishes s s' j) (hj : j ∈ s.transferJobs)
    (ho : ∀ j ∈ s.transferJobs, j.OneId) : j.state.leased = true := by
  cases h with
  | part _ _ _ hl _ => exact hl
  | commit operation e m subject now hop hl he hm hr =>
    obtain ⟨i, hi, hio, hl⟩ := hl
    have hij : i.id = j.id := by
      rw [← (ho i hi).operation operation hio]
      exact (ho j hj).operation operation hop
    have he : i = j := eq_of_key_eq hi hj hij
    rw [← he]
    exact hl

theorem Publishes.published (h : Publishes s s' j) (hc : Coherent s) (hj : j.OneId)
    (hj' : j' ∈ s'.transferJobs) (hs : SameJob j j') (hst : j'.state = .completed)
    (states : List MetadataStore) :
    PartJob s j.id ∨ PublishedIn (s' :: states) j'.id j'.objectId := by
  cases h with
  | part upload number hn _ hp => exact .inl ⟨upload, number, hn, hp⟩
  | commit operation e m subject now ho _ he hm hr =>
    right
    obtain ⟨row, hrow, hid, -, -⟩ := commitSubject_row hc he hm
    have hop := hj.operation operation ho
    have hg : s'.objectManifests.get? operation = some { row with
        commitState := .committed, manifest := m.withState .committed, committedAt := some now
        tombstonedAt := none } := by
      have hk : row.objectId = operation := key_of_get? hrow
      rw [hr]
      simp [publishManifest, hrow, hk, hid]
    refine ⟨s', List.mem_cons_self, ⟨j', hj', rfl, rfl, hst⟩, _, mem_of_get? hg, ?_, rfl⟩
    rw [hs.objectId, hj.object, ← hop]
    exact key_of_get? hg

theorem PublicationTrail.step (h : PublicationTrail states s) (hs : StoreStep fromStr op s s')
    (hw : WritesOwnManifest op s) (hc : CleansPublished op s) :
    PublicationTrail (s' :: states) s' where
  coherent := h.coherent.step hs hw
  oneId := StoreOp.oneId_step h.oneId hs
  completed j' hj' hst := by
    rcases StoreOp.job_before hs hj' with ⟨j, hj, hstep⟩ | ⟨objectId, bucket, key, now, -, rfl⟩
    · have hid := hstep.same.id
      have hob := hstep.same.objectId
      cases hstep with
      | move hm =>
        have he : j.state = j'.state := hm.move.published_right (by rw [hst]; rfl)
        rw [hid, hob]
        rcases h.completed j hj (he.trans hst) with hp | hp
        · exact .inl (hp.step hs)
        · exact .inr (hp.cons s')
      | publish hsame _ hp =>
        rcases hp.published h.coherent (h.oneId j hj) hj' hsame hst states with hp | hp
        · rw [hid]
          exact .inl (hp.step hs)
        · exact .inr hp
      | clean _ _ _ _ _ hcl =>
        rw [hst] at hcl
        cases hcl
    · cases hst
  cleaned j' hj' hst := by
    rcases StoreOp.job_before hs hj' with ⟨j, hj, hstep⟩ | ⟨objectId, bucket, key, now, -, rfl⟩
    · have hid := hstep.same.id
      have hob := hstep.same.objectId
      rw [hid, hob]
      cases hstep with
      | move hm =>
        have he : j.state = j'.state := hm.move.published_right (by rw [hst]; rfl)
        rcases h.cleaned j hj (he.trans hst) with hp | hp | hn
        · exact .inl (hp.step hs)
        · exact .inr (.inl (hp.cons s'))
        · have hns : op.stagedObject ≠ some j.objectId :=
            fun ho => hc.2 j.objectId ho j hj rfl (he.trans hst)
          exact .inr (.inr (StoreOp.absent_step h.coherent hs hw hns hn))
      | publish _ hst' _ =>
        rw [hst] at hst'
        cases hst'
      | clean removed hop hi _ hl _ =>
        obtain ⟨i, hi, hij⟩ := hi
        have him := mem_transfersForLocalCleanup (List.mem_of_mem_take hi)
        have he : i = j := eq_of_key_eq him.1 hj hij
        subst he
        rcases hc.1 removed hop i hi with hd | hp | hn
        · rcases h.completed i hj hd with hp | hp
          · exact .inl (hp.step hs)
          · exact .inr (.inl (hp.cons s'))
        · exact .inl (hp.step hs)
        · have hns : op.stagedObject ≠ some i.objectId := by
            rw [hop]
            exact nofun
          exact .inr (.inr (StoreOp.absent_step h.coherent hs hw hns hn))
    · cases hst

end TelegramS3
