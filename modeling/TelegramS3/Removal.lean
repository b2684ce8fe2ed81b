import TelegramS3.Detaching
import TelegramS3.Tags

namespace TelegramS3
open Relational Table Fallible Transition MetadataStore
set_option autoImplicit true

def MultipartState.open (state : MultipartState) : Bool :=
  state != .completed && state != .aborted

/-- Nothing of a connection can be listed, read, claimed or completed any more. -/
structure Hidden (connectionId : String) (s : MetadataStore) : Prop where
  manifests : ∀ m ∈ s.objectManifests, m.connectionId = connectionId → m.commitState = .tombstoned
  active : ∀ a ∈ s.activeObjects, ∀ m ∈ s.objectManifests, m.objectId = a.objectId →
    m.connectionId ≠ connectionId
  buckets : ∀ b ∈ s.buckets, b.connectionId = connectionId → b.deletedAt.isSome = true
  transfers : ∀ j ∈ s.transferJobs, j.connectionId = connectionId → j.state.terminal = true
  uploads : ∀ u ∈ s.multipartUploads, u.connectionId = connectionId → u.state.open = false

/-- Every manifest a removal has to hide can be read. -/
def RemovalReadable (s : MetadataStore) : Prop :=
  ∀ m ∈ s.removalManifests s.activeConnectionId, m.manifest.validate = .ok ()

structure FreshRemoval (s : MetadataStore) (job : Uuid) : Prop where
  jobs : s.connectionRemovalJobs.get? job = none
  objects : ∀ r ∈ s.connectionRemovalObjects, r.jobId ≠ job

/-- A removal that is asked for while none is in progress starts and hides the connection. -/
def RemovalAlwaysStarts (fromStr : String → Option ETagCondition) : Prop :=
  ∀ past s, Run EmptyDatabase (StoreStep fromStr) past s → s.removalInProgress = false →
    RemovalReadable s → ∀ job deleteUploadedFiles now, FreshRemoval s job →
      ∃ s', s.beginConnectionRemoval job deleteUploadedFiles now = .ok s' ∧
        Hidden s.activeConnectionId s'

/-- No open upload of the connection has the id of one of its transfers or live objects. -/
structure UploadsApart (s : MetadataStore) : Prop where
  transfers : ∀ u ∈ s.removalUploads s.activeConnectionId, ∀ j ∈ s.transferJobs,
    j.connectionId = s.activeConnectionId → j.objectId ≠ u.uploadId
  objects : ∀ u ∈ s.removalUploads s.activeConnectionId,
    ∀ m ∈ s.removalManifests s.activeConnectionId, m.objectId ≠ u.uploadId

theorem MetadataStore.hideConnection_hidden (s : MetadataStore) (job : Uuid)
    (deleteUploadedFiles : Bool) (objects : Table RemovalObjectRow) (now : OffsetDateTime) :
    Hidden s.activeConnectionId (s.hideConnection job deleteUploadedFiles objects now) where
  manifests := by
    intro m hm hc
    simp only [hideConnection] at hm
    obtain ⟨o, -, -, rfl⟩ | ⟨-, hn⟩ := of_mem_modify hm
    · rfl
    · simpa [hc] using hn
  active := by
    intro a ha m hm hid hc
    simp only [hideConnection, mem_delete, any_eq_false] at ha
    obtain ⟨-, ha⟩ := ha
    simp only [hideConnection] at hm
    obtain ⟨o, ho, -, rfl⟩ | ⟨hm, -⟩ := of_mem_modify hm
    · have hn := ha o ho
      simp_all
    · have hn := ha m hm
      simp_all
  buckets := by
    intro b hb hc
    simp only [hideConnection] at hb
    obtain ⟨o, -, -, rfl⟩ | ⟨-, hn⟩ := of_mem_modify hb
    · rfl
    · simpa [hc] using hn
  transfers := by
    intro j hj hc
    simp only [hideConnection] at hj
    obtain ⟨o, -, -, rfl⟩ | ⟨-, hn⟩ := of_mem_modify hj
    · rfl
    · cases hst : j.state <;> simp_all [TransferState.terminal]
  uploads := by
    intro u hu hc
    simp only [hideConnection] at hu
    obtain ⟨o, -, -, rfl⟩ | ⟨-, hn⟩ := of_mem_modify hu
    · rfl
    · simpa [hc, MultipartState.open] using hn

theorem UploadsApart.eq_ok (h : UploadsApart s) (hf : FreshRemoval s job) :
    ∃ objects, s.removalObjects job s.activeConnectionId = .ok objects := by
  unfold removalObjects
  dsimp only
  split
  · rename_i hu
    obtain ⟨u, hu, hc⟩ := List.any_eq_true.1 hu
    simp only [contains_foldl_insertOrIgnore] at hc
    rcases hc with (hc | ⟨m, hm, hk⟩) | ⟨j, hj, hk⟩
    · obtain ⟨r, hr, hk⟩ := contains_eq_true.1 hc
      exact absurd (congrArg Prod.fst hk) (hf.objects r hr)
    · exact absurd (congrArg Prod.snd hk) (h.objects u hu m hm)
    · obtain ⟨hj, hc⟩ := mem_select.1 hj
      exact absurd (congrArg Prod.snd hk) (h.transfers u hu j hj (of_decide_eq_true hc))
  · exact ⟨_, rfl⟩

theorem UploadsApart.of_ok
    (h : s.removalObjects job s.activeConnectionId = .ok owned) : UploadsApart s := by
  unfold removalObjects at h
  dsimp only at h
  split at h
  · cases h
  · rename_i hu
    simp only [List.any_eq_true, contains_foldl_insertOrIgnore, not_exists, not_and, not_or] at hu
    constructor
    · intro u hm j hj hc he
      refine (hu u hm).2 j ?_ (congrArg (Prod.mk job) he)
      exact mem_select.2 ⟨hj, decide_eq_true hc⟩
    · intro u hm m hmm he
      exact (hu u hm).1.2 m hmm (congrArg (Prod.mk job) he)

def completingRun : List MetadataStore × MetadataStore :=
  (exec (StoreOp.apply fun _ => none) [] photosStore (partOps ++
    [.beginTransfer ⟨9⟩ "photos" "a.jpg" (instant 4).unixTimestamp,
      .stageManifest .put onePartObject (instant 4),
      .queueMultipartCompletion ⟨9⟩ ⟨9⟩ (instant 4)])).get (by decide)

theorem photosStore_empty : EmptyDatabase photosStore :=
  ⟨⟨⟨rfl, rfl, rfl⟩, rfl, rfl⟩, rfl⟩

end TelegramS3
