import TelegramS3.Detaching
import TelegramS3.Handovers

namespace TelegramS3
open Relational Table Fallible Transition MetadataStore
set_option autoImplicit true

namespace MetadataStore

def ownsObject (s : MetadataStore) (connectionId : String) (object : Uuid) : Bool :=
  s.objectManifests.any fun m => m.objectId = object && m.connectionId = connectionId

def ownsUpload (s : MetadataStore) (connectionId : String) (upload : Uuid) : Bool :=
  s.multipartUploads.any fun u => u.uploadId = upload && u.connectionId = connectionId

end MetadataStore

/-- The rows of other connections are the same; rows follow their object, job or upload. -/
structure OthersUnchanged (connectionId : String) (s s' : MetadataStore) : Prop where
  objectManifests : (s'.objectManifests.select fun r => r.connectionId ≠ connectionId) =
    s.objectManifests.select fun r => r.connectionId ≠ connectionId
  activeObjects : (s'.activeObjects.select fun a => !s.ownsObject connectionId a.objectId) =
    s.activeObjects.select fun a => !s.ownsObject connectionId a.objectId
  buckets : (s'.buckets.select fun b => b.connectionId ≠ connectionId) =
    s.buckets.select fun b => b.connectionId ≠ connectionId
  transferJobs : (s'.transferJobs.select fun j => j.connectionId ≠ connectionId) =
    s.transferJobs.select fun j => j.connectionId ≠ connectionId
  transferChunks : (s'.transferChunks.select fun c => !s.ownsJob connectionId c.jobId) =
    s.transferChunks.select fun c => !s.ownsJob connectionId c.jobId
  sendAttempts : (s'.sendAttempts.select fun a => !s.ownsJob connectionId a.jobId) =
    s.sendAttempts.select fun a => !s.ownsJob connectionId a.jobId
  multipartUploads : (s'.multipartUploads.select fun u => u.connectionId ≠ connectionId) =
    s.multipartUploads.select fun u => u.connectionId ≠ connectionId
  multipartParts : (s'.multipartParts.select fun p => !s.ownsUpload connectionId p.uploadId) =
    s.multipartParts.select fun p => !s.ownsUpload connectionId p.uploadId

/-- A row of the connection records the location. -/
inductive RecordsLocation (s : MetadataStore) (connectionId : String) (l : String × Int) :
    Prop where
  | manifest : r ∈ s.objectManifests → r.connectionId = connectionId →
      l ∈ r.manifest.cleanupLocations → RecordsLocation s connectionId l
  | checkpoint : j ∈ s.transferJobs → j.connectionId = connectionId →
      c ∈ s.transferChunks → c.jobId = j.id → c.location.location = l →
      RecordsLocation s connectionId l
  | attempt : j ∈ s.transferJobs → j.connectionId = connectionId →
      a ∈ s.sendAttempts → a.jobId = j.id → a.location = some place → place.location = l →
      RecordsLocation s connectionId l
  | part : u ∈ s.multipartUploads → u.connectionId = connectionId →
      p ∈ s.multipartParts → p.uploadId = u.uploadId → p.part.telegram.location = l →
      RecordsLocation s connectionId l

/-- A manifest, a job or an upload of the connection stands for the object. -/
inductive RecordsObject (s : MetadataStore) (connectionId : String) (object : Uuid) : Prop where
  | manifest : r ∈ s.objectManifests → r.connectionId = connectionId →
      r.manifest.objectId = object → RecordsObject s connectionId object
  | job : j ∈ s.transferJobs → j.connectionId = connectionId → j.objectId = object →
      RecordsObject s connectionId object
  | upload : u ∈ s.multipartUploads → u.connectionId = connectionId → u.uploadId = object →
      RecordsObject s connectionId object

/-- A target under the connection for a message or the evidence of its own. -/
structure OwnTarget (s : MetadataStore) (connectionId : String) (t : CleanupTargetRow) : Prop where
  connection : t.connectionId = connectionId
  object : RecordsObject s connectionId t.objectId
  place : t.kind = .evidence ∧ t.peerId = "evidence:" ++ t.objectId.text ∧ t.messageId = 0 ∨
    t.kind = .message ∧ RecordsLocation s connectionId (t.peerId, t.messageId)

namespace MetadataStore
variable {s s' : MetadataStore}

theorem beginConnectionRemoval_others
    (h : s.beginConnectionRemoval job deleteUploadedFiles now = .ok s') :
    OthersUnchanged s.activeConnectionId s s' := by
  obtain ⟨objects, rfl⟩ := beginConnectionRemoval_ok h
  constructor
  · apply select_update rfl
    intro r hr
    simp only [Bool.and_eq_true, decide_eq_true_eq] at hr
    simp [hr.1]
  · apply select_delete
    intro a ha
    rw [Bool.not_eq_false']
    exact ha
  · apply select_update rfl
    intro b hb
    simp only [Bool.and_eq_true, decide_eq_true_eq] at hb
    simp [hb.1]
  · apply select_update rfl
    intro j hj
    simp only [Bool.and_eq_true, decide_eq_true_eq] at hj
    simp [hj.1.1.1]
  · rfl
  · rfl
  · apply select_update rfl
    intro u hu
    simp only [Bool.and_eq_true, decide_eq_true_eq] at hu
    simp [hu.1.1]
  · rfl

theorem purgeConnectionOperations_others (s : MetadataStore) (connectionId : String) :
    OthersUnchanged connectionId s (s.purgeConnectionOperations connectionId) := by
  constructor
  · rfl
  · rfl
  · rfl
  · apply select_delete
    intro j hj
    simpa using hj
  · apply select_delete
    intro c hc
    rw [Bool.not_eq_false']
    exact hc
  · apply select_delete
    intro a ha
    rw [Bool.not_eq_false']
    exact ha
  · apply select_delete
    intro u hu
    simpa using hu
  · apply select_delete
    intro p hp
    rw [Bool.not_eq_false']
    exact hp

theorem removalHandovers_own (hh : h ∈ s.removalHandovers now) :
    RecordsObject s s.activeConnectionId h.object ∧
      ∀ l ∈ h.locations, RecordsLocation s s.activeConnectionId l := by
  simp only [removalHandovers, removalManifests, removalUploads, List.mem_append, List.mem_map,
    List.mem_insertionSort, mem_select, Bool.and_eq_true, decide_eq_true_eq] at hh
  rcases hh with (⟨r, ⟨hr, hc, -⟩, rfl⟩ | ⟨j, ⟨hj, hc⟩, rfl⟩) | ⟨u, ⟨hu, ⟨hc, -⟩, -⟩, rfl⟩
  · exact ⟨.manifest hr hc rfl, fun l hl => .manifest hr hc hl⟩
  · refine ⟨.job hj hc rfl, ?_⟩
    intro l hl
    rcases List.mem_append.1 (List.mem_of_mem_filter hl) with hl | hl
    · obtain ⟨place, hp, rfl⟩ := List.mem_map.1 hl
      obtain ⟨c, hc', rfl⟩ := List.mem_map.1 hp
      obtain ⟨hcm, hid⟩ := mem_select.1 hc'
      exact .checkpoint hj hc hcm (of_decide_eq_true hid) rfl
    · obtain ⟨place, hp, rfl⟩ := List.mem_map.1 hl
      obtain ⟨a, ha, hplace⟩ := List.mem_filterMap.1 hp
      obtain ⟨ham, hid⟩ := mem_select.1 ha
      exact .attempt hj hc ham (of_decide_eq_true hid) hplace rfl
  · refine ⟨.upload hu hc rfl, ?_⟩
    intro l hl
    obtain ⟨p, hp, rfl⟩ := List.mem_map.1 (List.mem_of_mem_filter hl)
    obtain ⟨hpm, hid⟩ := mem_select.1 ((List.mem_insertionSort _).1 hp)
    exact .part hu hc hpm (of_decide_eq_true hid) rfl

theorem beginConnectionRemoval_targets
    (h : s.beginConnectionRemoval job deleteUploadedFiles now = .ok s')
    (ht : t ∈ s'.outbox.targets) :
    t ∈ s.outbox.targets ∨ OwnTarget s s.activeConnectionId t := by
  obtain ⟨objects, rfl⟩ := beginConnectionRemoval_ok h
  cases deleteUploadedFiles with
  | false => exact .inl ht
  | true =>
    have hi := s.handOver_inserts (s.removalHandovers now.unixTimestamp)
    rw [← removalOutbox_eq] at hi
    rcases hi.evolves.origin t ht with ⟨t', ht', rfl⟩ | hnew
    · exact .inl ht'
    · obtain ⟨h, hh, ht⟩ := hnew.target
      obtain ⟨hobject, hlocations⟩ := removalHandovers_own hh
      refine .inr ⟨ht.connectionId, ht.objectId ▸ hobject, ?_⟩
      rcases ht.place with ⟨hk, hp, hm⟩ | ⟨hk, hl⟩
      · exact .inl ⟨hk, ht.objectId ▸ hp, hm⟩
      · exact .inr ⟨hk, hlocations _ hl⟩

theorem beginConnectionRemoval_owners
    (h : s.beginConnectionRemoval job deleteUploadedFiles now = .ok s') (connectionId : String)
    (id : Uuid) :
    s'.ownsObject connectionId id = s.ownsObject connectionId id ∧
      s'.ownsJob connectionId id = s.ownsJob connectionId id ∧
      s'.ownsUpload connectionId id = s.ownsUpload connectionId id := by
  obtain ⟨objects, rfl⟩ := beginConnectionRemoval_ok h
  refine ⟨?_, ?_, ?_⟩
  · exact any_update rfl fun r => rfl
  · exact any_update rfl fun r => rfl
  · exact any_update rfl fun r => rfl

end MetadataStore

theorem OthersUnchanged.trans (h : OthersUnchanged connectionId s s₁)
    (h' : OthersUnchanged connectionId s₁ s₂)
    (ho : ∀ id, s₁.ownsObject connectionId id = s.ownsObject connectionId id ∧
      s₁.ownsJob connectionId id = s.ownsJob connectionId id ∧
      s₁.ownsUpload connectionId id = s.ownsUpload connectionId id) :
    OthersUnchanged connectionId s s₂ := by
  have hobject : ∀ id, s₁.ownsObject connectionId id = s.ownsObject connectionId id :=
    fun id => (ho id).1
  have hjob : ∀ id, s₁.ownsJob connectionId id = s.ownsJob connectionId id :=
    fun id => (ho id).2.1
  have hupload : ∀ id, s₁.ownsUpload connectionId id = s.ownsUpload connectionId id :=
    fun id => (ho id).2.2
  obtain ⟨h₁, h₂, h₃, h₄, h₅, h₆, h₇, h₈⟩ := h'
  simp only [hobject, hjob, hupload] at h₂ h₅ h₆ h₈
  exact ⟨h₁.trans h.objectManifests, h₂.trans h.activeObjects, h₃.trans h.buckets,
    h₄.trans h.transferJobs, h₅.trans h.transferChunks, h₆.trans h.sendAttempts,
    h₇.trans h.multipartUploads, h₈.trans h.multipartParts⟩

/-- A removal with its purge leaves the rows of others and enqueues for its connection only. -/
theorem removal_touches_one_connection {s s₁ : MetadataStore}
    (h : s.beginConnectionRemoval job deleteUploadedFiles now = .ok s₁) :
    OthersUnchanged s.activeConnectionId s (s₁.purgeConnectionOperations s.activeConnectionId) ∧
      ∀ t ∈ (s₁.purgeConnectionOperations s.activeConnectionId).outbox.targets,
        t ∈ s.outbox.targets ∨ OwnTarget s s.activeConnectionId t := by
  refine ⟨?_, fun t ht => beginConnectionRemoval_targets h ht⟩
  exact (beginConnectionRemoval_others h).trans (s₁.purgeConnectionOperations_others _)
    fun id => beginConnectionRemoval_owners h s.activeConnectionId id

def sharedStore : MetadataStore :=
  { connectedRun.2 with
    buckets := connectedRun.2.buckets.insertOrIgnore
      { name := "music", connectionId := "other", createdAt := instant 1 } }

theorem shared_connection_removed :
    ∃ s₁, sharedStore.beginConnectionRemoval ⟨50⟩ true (instant 2) = .ok s₁ ∧
      OthersUnchanged sharedStore.activeConnectionId sharedStore
        (s₁.purgeConnectionOperations sharedStore.activeConnectionId) ∧
      ∀ t ∈ (s₁.purgeConnectionOperations sharedStore.activeConnectionId).outbox.targets,
        t ∈ sharedStore.outbox.targets ∨
          OwnTarget sharedStore sharedStore.activeConnectionId t := by
  have hok : (after (sharedStore.beginConnectionRemoval ⟨50⟩ true (instant 2))).isSome = true := by
    decide +kernel
  obtain ⟨s₁, hs⟩ := Option.isSome_iff_exists.1 hok
  have h := after_eq_some.1 hs
  exact ⟨s₁, h, removal_touches_one_connection h⟩

end TelegramS3
