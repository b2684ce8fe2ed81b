import TelegramS3.Frame

namespace TelegramS3
open Relational Fallible MetadataStore
set_option autoImplicit true

/-- The three tables that decide which object a key shows are the same. -/
structure SameIndex (s s' : MetadataStore) : Prop where
  manifests : s'.objectManifests = s.objectManifests
  active : s'.activeObjects = s.activeObjects
  journal : s'.operationJournal = s.operationJournal

def StoreOp.writesIndex : StoreOp → Bool
  | .failReception .. | .rejectTransferForQuota .. | .stageManifest .. | .commitManifest ..
  | .commitTransferManifest .. | .updateManifest .. | .updateManifestState ..
  | .tombstoneManifest .. | .tombstoneExpiredActiveManifests .. | .deleteActiveKey ..
  | .finishPartJob .. | .beginConnectionRemoval .. | .reopen .. => true
  | _ => false

theorem StoreOp.index_frame (h : StoreStep fromStr op s s')
    (hw : op.writesIndex = false) : SameIndex s s' := by
  have hn : op.writes.contains .manifests = false ∧ op.writes.contains .active = false ∧
      op.writes.contains .journal = false := by
    cases op <;> first | exact ⟨rfl, rfl, rfl⟩ | cases hw
  have hf := StoreOp.frame h
  exact ⟨hf .manifests hn.1, hf .active hn.2.1, hf .journal hn.2.2⟩

/-- The calls that commit: the operation, its lease and the manifest they bring. -/
inductive CommitCall (s : MetadataStore) (now : OffsetDateTime) : StoreOp → Uuid →
    Option (Uuid × Uuid) → Option ObjectManifest → Prop where
  | plain : CommitCall s now (.commitManifest operation now) operation none none
  | leased : CommitCall s now (.commitTransferManifest job lease published now) job
      (some (job, lease)) (some published)
  | completion : s.multipartJob job = some (upload, 0) →
      (s.transferJobs.get? job).bind TransferJob.operationId = some operation →
      CommitCall s now (.finishPartJob job lease now) operation none none

/-- The calls that drop rows: the end of a reception, and the last call for a part. -/
inductive DiscardCall (fromStr : String → Option ETagCondition) (s s' : MetadataStore) :
    StoreOp → (ManifestRow → Bool) → Prop where
  | failed : DiscardCall fromStr s s' (.failReception job filesRemoved message now) fun r =>
      r.objectId = job && r.commitState = .staging
  | rejected : DiscardCall fromStr s s' (.rejectTransferForQuota job message now) fun r =>
      r.objectId = job && r.commitState = .staging
  | part (gone : ManifestRow → Bool) : s.multipartJob job = some (upload, number) → number ≠ 0 →
      s.finishPartJob fromStr job lease upload number now = .ok s' →
      DiscardCall fromStr s s' (.finishPartJob job lease now) gone

/-- The calls that tombstone one object, and the key at which they look for its active row. -/
inductive TombstoneCall (s : MetadataStore) (m : ObjectManifest) (now : OffsetDateTime) :
    StoreOp → Uuid → String × String × Uuid → Prop where
  | object : TombstoneCall s m now (.tombstoneManifest object reason c now) object
      (m.bucket, m.key, m.objectId)
  | key : s.activeObjectId bucket key = some object →
      TombstoneCall s m now (.deleteActiveKey bucket key reason c now) object
        (bucket, key, object)

/-- What a call makes of the manifests, the active index and the journal. -/
inductive IndexStep (fromStr : String → Option ETagCondition) (s : MetadataStore) :
    StoreOp → MetadataStore → Prop where
  | kept : SameIndex s s' → IndexStep fromStr s op s'
  | staged (kind : OperationKind) (m : ObjectManifest) (now : OffsetDateTime) :
      IndexStep fromStr s (.stageManifest kind m now) (s.stageRows kind m now)
  | discarded (gone : ManifestRow → Bool) (dropped : JournalRow → Bool) :
      DiscardCall fromStr s s' op gone → s'.objectManifests = s.objectManifests.delete gone →
      s'.activeObjects = s.activeObjects.delete (fun a =>
        s.objectManifests.any fun r => decide (r.objectId = a.objectId) && gone r) →
      s'.operationJournal = s.operationJournal.delete dropped → IndexStep fromStr s op s'
  | committed (now : OffsetDateTime) : CommitCall s now op operation transfer subject →
      s.commitManifestInner fromStr operation transfer subject now = .ok (m', s') →
      IndexStep fromStr s op s'
  | written (m : ObjectManifest) : IndexStep fromStr s (.updateManifest m) (s.updateManifest m)
  | moved (object : Uuid) (m : ObjectManifest) (state : CommitState) (now : OffsetDateTime) :
      s.loadManifestByObjectId object = .ok (some m) → IndexStep fromStr s
        (.updateManifestState object state now) (s.setManifestState object m state now)
  | tombstoned (object : Uuid) (m : ObjectManifest) (now : OffsetDateTime) :
      s.loadManifestByObjectId object = .ok (some m) →
      TombstoneCall s m now op object (bucket, key, shown) →
      s'.objectManifests =
        (s.tombstoneRows (fun r => r.objectId = object) m now).objectManifests →
      s'.activeObjects = s.activeObjects.delete (fun a =>
        a.bucket = bucket && a.objectKey = key && a.objectId = shown) →
      s'.operationJournal = (s.tombstoneJournal shown reason now).operationJournal →
      s'.outbox = s.outbox.enqueueManifestCleanupAt s.activeConnectionId m now.unixTimestamp →
      IndexStep fromStr s op s'
  | expired (now : OffsetDateTime) : IndexStep fromStr s
      (.tombstoneExpiredActiveManifests now) (s.tombstoneExpiredActiveManifests now)
  | hidden (now : OffsetDateTime) :
      IndexStep fromStr s (.beginConnectionRemoval job deleteUploadedFiles now)
        (s.hideConnection job deleteUploadedFiles objects now)
  | reopened (now : OffsetDateTime) : IndexStep fromStr s (.reopen now) (s.reopen now)

theorem IndexStep.endReception {s : MetadataStore} {id : Uuid} {hf}
    (h : ∀ s', DiscardCall fromStr s s' op fun r =>
      r.objectId = id && r.commitState = .staging) :
    IndexStep fromStr s op (s.endReception id p f hf).2 := by
  unfold MetadataStore.endReception
  dsimp only
  split
  · exact .discarded _ _ (h _) rfl rfl rfl
  · exact .kept ⟨rfl, rfl, rfl⟩

theorem StoreOp.index_step (h : StoreStep fromStr op s s') : IndexStep fromStr s op s' := by
  cases op with
  | stageManifest =>
    obtain ⟨-, rfl⟩ := stageManifest_ok (after_eq_some.1 h)
    exact .staged _ _ _
  | failReception =>
    cases h
    exact .endReception fun _ => .failed
  | rejectTransferForQuota =>
    cases h
    exact .endReception fun _ => .rejected
  | commitManifest =>
    obtain ⟨⟨m', s₁⟩, hc, rfl⟩ := map_ok.1 (after_eq_some.1 h)
    exact .committed _ .plain hc
  | commitTransferManifest =>
    obtain ⟨⟨m', s₁⟩, hc, rfl⟩ := map_ok.1 (after_eq_some.1 h)
    exact .committed _ .leased hc
  | finishPartJob =>
    obtain ⟨⟨upload, number⟩, hj, hf⟩ := Option.bind_eq_some_iff.1 h
    have hf := after_eq_some.1 hf
    by_cases hn : number = 0
    · subst hn
      obtain ⟨operation, m', ho, hc⟩ := finishPartJob_zero hf
      exact .committed _ (.completion hj ho) hc
    · obtain ⟨row, -, -, he⟩ := finishPartJob_ok hn hf
      have hd gone := DiscardCall.part gone hj hn hf
      subst he
      exact .discarded _ _ (hd _) rfl rfl rfl
  | updateManifest =>
    cases h
    exact .written _
  | updateManifestState =>
    obtain ⟨⟨m', s₁⟩, hc, rfl⟩ := map_ok.1 (after_eq_some.1 h)
    obtain ⟨m, hm, rfl⟩ := updateManifestState_ok hc
    exact .moved _ _ _ _ hm
  | tombstoneManifest =>
    obtain ⟨⟨m', s₁⟩, hc, rfl⟩ := map_ok.1 (after_eq_some.1 h)
    obtain ⟨m, hm, rfl⟩ := tombstoneManifestWithConditionals_ok hc
    exact .tombstoned _ _ _ hm .object rfl rfl rfl rfl
  | deleteActiveKey =>
    obtain ⟨⟨m', s₁⟩, hc, rfl⟩ := map_ok.1 (after_eq_some.1 h)
    obtain ⟨-, ⟨-, rfl⟩ | ⟨object, m, hact, hm, rfl⟩⟩ := deleteActiveKey_ok hc
    · exact .kept ⟨rfl, rfl, rfl⟩
    · exact .tombstoned _ _ _ hm (.key hact) rfl rfl rfl rfl
  | tombstoneExpiredActiveManifests =>
    cases h
    exact .expired _
  | beginConnectionRemoval =>
    obtain ⟨objects, rfl⟩ := beginConnectionRemoval_ok (after_eq_some.1 h)
    exact .hidden _
  | reopen =>
    cases h
    exact .reopened _
  | _ => exact .kept (StoreOp.index_frame h rfl)

end TelegramS3
