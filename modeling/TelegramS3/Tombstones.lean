import TelegramS3.Visibility

namespace TelegramS3
open Relational Table Fallible MetadataStore
set_option autoImplicit true

def Live (s : MetadataStore) (object : Uuid) : Prop :=
  ∀ r ∈ s.objectManifests, r.objectId = object → r.commitState ≠ .tombstoned

def Tombstoned (s : MetadataStore) (object : Uuid) : Prop :=
  ∃ r ∈ s.objectManifests, r.objectId = object ∧ r.commitState = .tombstoned

/-- Active rows agree with the manifests about the key, and show no tombstoned object. -/
structure Shown (s : MetadataStore) : Prop where
  keys : ∀ a ∈ s.activeObjects, ∀ r ∈ s.objectManifests, r.objectId = a.objectId →
    r.bucket = a.bucket ∧ r.objectKey = a.objectKey
  hidden : ∀ r ∈ s.objectManifests, r.commitState = .tombstoned →
    ∀ a ∈ s.activeObjects, a.objectId ≠ r.objectId

/-- The row keeps its object and key, and stays tombstoned if it was. -/
structure RowKept (r r' : ManifestRow) : Prop where
  objectId : r'.objectId = r.objectId
  bucket : r'.bucket = r.bucket
  key : r'.objectKey = r.objectKey
  tombstone : r.commitState = .tombstoned → r'.commitState = .tombstoned

theorem RowKept.refl (r : ManifestRow) : RowKept r r := ⟨rfl, rfl, rfl, id⟩

theorem RowKept.trans (a b c : ManifestRow) (h : RowKept a b) (h' : RowKept b c) : RowKept a c :=
  ⟨h'.objectId.trans h.objectId, h'.bucket.trans h.bucket, h'.key.trans h.key,
    h'.tombstone ∘ h.tombstone⟩

variable {s s' : MetadataStore}

/-- A step that undoes no tombstone: what becomes active was active or not tombstoned. -/
structure SparesTombstones (s s' : MetadataStore) : Prop where
  rows : Table.Descends RowKept s.objectManifests s'.objectManifests
  active : ∀ a' ∈ s'.activeObjects,
    (∃ a ∈ s.activeObjects, a.objectId = a'.objectId ∧ a.bucket = a'.bucket ∧
      a.objectKey = a'.objectKey) ∨
    ∃ r ∈ s.objectManifests, r.objectId = a'.objectId ∧ r.bucket = a'.bucket ∧
      r.objectKey = a'.objectKey ∧ r.commitState ≠ .tombstoned
  hidden : ∀ r' ∈ s'.objectManifests, r'.commitState = .tombstoned →
    ∀ a' ∈ s'.activeObjects, a'.objectId ≠ r'.objectId

namespace SparesTombstones

theorem shown (h : SparesTombstones s s') (hs : Shown s) : Shown s' := by
  refine ⟨?_, h.hidden⟩
  intro a' ha' r' hr' hid
  obtain ⟨r, hr, hk⟩ := h.rows r' hr'
  rw [hk.bucket, hk.key]
  have hid' : r.objectId = a'.objectId := hk.objectId.symm.trans hid
  rcases h.active a' ha' with ⟨a, ha, ho, hb, hkey⟩ | ⟨o, ho, hoid, hb, hkey, -⟩
  · rw [← hb, ← hkey]
    exact hs.keys a ha r hr (hid'.trans ho.symm)
  · have he : r = o := eq_of_key_eq hr ho (hid'.trans hoid.symm)
    subst he
    exact ⟨hb, hkey⟩

theorem of_subset (hs : Shown s) (hr : ∀ r ∈ s'.objectManifests, r ∈ s.objectManifests)
    (ha : ∀ a ∈ s'.activeObjects, a ∈ s.activeObjects) : SparesTombstones s s' where
  rows r' hr' := ⟨r', hr r' hr', .refl r'⟩
  active a' ha' := .inl ⟨a', ha a' ha', rfl, rfl, rfl⟩
  hidden r' hr' ht a' ha' := hs.hidden r' (hr r' hr') ht a' (ha a' ha')

theorem trans (h : SparesTombstones s t) (h' : SparesTombstones t u) : SparesTombstones s u where
  rows := .trans RowKept.trans h.rows h'.rows
  active a'' ha'' := by
    rcases h'.active a'' ha'' with ⟨a', ha', ho, hb, hk⟩ | ⟨r', hr', ho, hb, hk, ht⟩
    · rcases h.active a' ha' with ⟨a, ha, ho', hb', hk'⟩ | ⟨r, hr, ho', hb', hk', ht'⟩
      · exact .inl ⟨a, ha, ho'.trans ho, hb'.trans hb, hk'.trans hk⟩
      · exact .inr ⟨r, hr, ho'.trans ho, hb'.trans hb, hk'.trans hk, ht'⟩
    · obtain ⟨r, hr, hrk⟩ := h.rows r' hr'
      exact .inr ⟨r, hr, hrk.objectId.symm.trans ho, hrk.bucket.symm.trans hb,
        hrk.key.symm.trans hk, fun hn => ht (hrk.tombstone hn)⟩
  hidden := h'.hidden

theorem of_tombstone {p : ManifestRow → Bool} {f : ManifestRow → ManifestRow} (hs : Shown s)
    (hr : s'.objectManifests.rows = s.objectManifests.rows.map fun r => if p r then f r else r)
    (hf : ∀ r, RowKept r (f r)) (ha : ∀ a ∈ s'.activeObjects, a ∈ s.activeObjects)
    (hh : ∀ r ∈ s.objectManifests, p r = true → ∀ a ∈ s'.activeObjects, a.objectId ≠ r.objectId) :
    SparesTombstones s s' where
  rows := .of_update hr .refl fun r _ _ => hf r
  active a' ha' := .inl ⟨a', ha a' ha', rfl, rfl, rfl⟩
  hidden r' hr' ht a' ha' := by
    rw [mem_def, hr, List.mem_map] at hr'
    obtain ⟨r, hrm, rfl⟩ := hr'
    split
    · rw [(hf r).objectId]
      exact hh r hrm ‹_› a' ha'
    · rename_i hp
      rw [if_neg hp] at ht
      exact hs.hidden r hrm ht a' (ha a' ha')

theorem of_write {p : ManifestRow → Bool} {f : ManifestRow → ManifestRow}
    {object : Uuid} (hs : Shown s) (hl : Live s object)
    (hr : s'.objectManifests.rows = s.objectManifests.rows.map fun r => if p r then f r else r)
    (hp : ∀ r, p r = true → r.objectId = object)
    (hf : ∀ r, (f r).objectId = r.objectId ∧ (f r).bucket = r.bucket ∧
      (f r).objectKey = r.objectKey)
    (ha : ∀ a ∈ s'.activeObjects, a ∈ s.activeObjects ∨ ∃ r ∈ s.objectManifests,
      r.objectId = object ∧ r.objectId = a.objectId ∧ r.bucket = a.bucket ∧
        r.objectKey = a.objectKey)
    (hh : ∀ r, p r = true → (f r).commitState = .tombstoned →
      ∀ a ∈ s'.activeObjects, a.objectId ≠ object) : SparesTombstones s s' where
  rows := .of_update hr .refl fun r hrm hpr =>
    ⟨(hf r).1, (hf r).2.1, (hf r).2.2, fun ht => absurd ht (hl r hrm (hp r hpr))⟩
  active a' ha' := by
    rcases ha a' ha' with h | ⟨r, hrm, ho, hid, hb, hk⟩
    · exact .inl ⟨a', h, rfl, rfl, rfl⟩
    · exact .inr ⟨r, hrm, hid, hb, hk, hl r hrm ho⟩
  hidden r' hr' ht a' ha' := by
    rw [mem_def, hr, List.mem_map] at hr'
    obtain ⟨r, hrm, rfl⟩ := hr'
    split
    · rename_i hpr
      rw [if_pos hpr] at ht
      rw [(hf r).1, hp r hpr]
      exact hh r hpr ht a' ha'
    · rename_i hpr
      rw [if_neg hpr] at ht
      rcases ha a' ha' with h | ⟨o, ho, hoo, hid, -, -⟩
      · exact hs.hidden r hrm ht a' h
      · intro he
        exact hl r hrm (he.symm.trans (hid.symm.trans hoo)) ht

end SparesTombstones

def WritesLive (op : StoreOp) (s : MetadataStore) : Prop :=
  match op with
  | .commitManifest operation _ | .commitTransferManifest operation .. => Live s operation
  | .finishPartJob job .. => ∀ upload operation, s.multipartJob job = some (upload, 0) →
      (s.transferJobs.get? job).bind TransferJob.operationId = some operation → Live s operation
  | .updateManifest m => Live s m.objectId ∧ m.commitState ≠ .tombstoned
  | .updateManifestState object .. => Live s object
  | _ => True

theorem WritesLive.commit (h : WritesLive op s)
    (hc : CommitCall s now op operation transfer subject) : Live s operation := by
  cases hc with
  | plain | leased => exact h
  | completion hp hop => exact h _ _ hp hop

theorem commit_spares {m' : ObjectManifest} (h : Coherent s) (hs : Shown s) (hl : Live s operation)
    (hc : s.commitManifestInner fromStr operation transfer published now = .ok (m', s')) :
    SparesTombstones s s' := by
  have hcommit : ∀ e m, s.operationJournal.get? operation = some e →
      s.commitSubject e.details published = .ok m →
      SparesTombstones s (s.committedStore operation transfer m now) := by
    intro e m he hm
    obtain ⟨row, hr, ho, hb, hk⟩ := commitSubject_row h he hm
    refine .of_write hs hl rfl ?_ (fun _ => ⟨rfl, rfl, rfl⟩) ?_ ?_
    · intro r hp
      exact (of_decide_eq_true hp).trans ho
    · intro a ha
      rcases mem_upsert.1 ha with rfl | ⟨ha, -⟩
      · have hid : row.objectId = operation := key_of_get? hr
        exact .inr ⟨row, mem_of_get? hr, hid, hid.trans ho.symm, hb.symm, hk.symm⟩
      · exact .inl ha
    · intro r _ ht
      cases ht
  obtain ⟨e, he, ⟨-, rfl⟩ | ⟨m, hm, -, -, ⟨-, rfl⟩ | ⟨upload, -, rfl⟩⟩⟩ :=
    commitManifestInner_ok hc
  · exact .of_subset hs (fun _ hr => hr) fun _ ha => ha
  · exact hcommit e m he hm
  · have hk := hcommit e m he hm
    exact ⟨hk.rows, hk.active, hk.hidden⟩

theorem updateManifest_spares (hs : Shown s) (hl : Live s m.objectId)
    (hm : m.commitState ≠ .tombstoned) : SparesTombstones s (s.updateManifest m) := by
  refine .of_write hs hl rfl (fun _ hp => of_decide_eq_true hp) (fun _ => ⟨rfl, rfl, rfl⟩)
    (fun _ ha => .inl ha) ?_
  intro r _ ht
  exact absurd ht hm

theorem setManifestState_spares (h : Coherent s) (hs : Shown s)
    (hl : Live s object) (hm : s.loadManifestByObjectId object = .ok (some m)) :
    SparesTombstones s (s.setManifestState object m state now) := by
  obtain ⟨row, hr, rfl⟩ := loadManifestByObjectId_ok hm
  have hid : row.objectId = object := key_of_get? hr
  have hrow := mem_of_get? hr
  have hco := h.rows row hrow
  refine .of_write hs hl rfl (fun _ hp => of_decide_eq_true hp) (fun _ => ⟨rfl, rfl, rfl⟩) ?_ ?_
  · intro a ha
    simp only [setManifestState] at ha
    split at ha
    · rcases mem_upsert.1 ha with rfl | ⟨ha, -⟩
      · exact .inr ⟨row, hrow, hid, hid, hco.bucket.symm, hco.key.symm⟩
      · exact .inl ha
    · exact .inl (mem_delete.1 ha).1
  · intro r _ ht a ha
    simp only at ht
    simp only [setManifestState, ht] at ha
    simpa using (mem_delete.1 ha).2

theorem tombstone_spares (hs : Shown s) (hr : s.objectManifests.get? object = some row)
    (hm : s'.objectManifests.rows =
      (s.tombstoneRows (fun r => r.objectId = object) m now).objectManifests.rows)
    (ha : s'.activeObjects = (s.dropActive fun a => a.bucket = row.bucket &&
      a.objectKey = row.objectKey && a.objectId = object).activeObjects) :
    SparesTombstones s s' := by
  have hid : row.objectId = object := key_of_get? hr
  have hrow := mem_of_get? hr
  refine .of_tombstone hs hm (fun _ => ⟨rfl, rfl, rfl, fun _ => rfl⟩) ?_ ?_
  · intro a hact
    rw [ha] at hact
    exact (mem_delete.1 hact).1
  · intro r hrm hp a hact ho
    rw [ha] at hact
    obtain ⟨hact, hd⟩ := mem_delete.1 hact
    have hro : r.objectId = object := of_decide_eq_true hp
    have hao : a.objectId = object := ho.trans hro
    obtain ⟨hb, hk⟩ := hs.keys a hact row hrow (hid.trans hao.symm)
    simp [hb, hk, hao] at hd

theorem tombstoneExpired_spares (hs : Shown s) (row : ManifestRow)
    (now : OffsetDateTime) : SparesTombstones s (s.tombstoneExpired row now) := by
  refine .of_tombstone hs rfl (fun _ => ⟨rfl, rfl, rfl, fun _ => rfl⟩) ?_ ?_
  · exact fun a ha => (mem_delete.1 ha).1
  · intro r _ hp a ha ho
    simp only [Bool.and_eq_true, decide_eq_true_eq] at hp
    have hd := (mem_delete.1 ha).2
    simp [ho, hp.1] at hd

theorem hideConnection_spares (hs : Shown s) :
    SparesTombstones s (s.hideConnection job deleteUploadedFiles objects now) := by
  refine .of_tombstone hs rfl (fun _ => ⟨rfl, rfl, rfl, fun _ => rfl⟩) ?_ ?_
  · exact fun a ha => (mem_delete.1 ha).1
  · intro r hr hp a ha ho
    simp only [Bool.and_eq_true, decide_eq_true_eq] at hp
    have hd := (mem_delete.1 ha).2
    rw [any_eq_false] at hd
    simpa [ho, hp.1] using hd r hr

theorem rebuildIndex_spares (s : MetadataStore) (now : OffsetDateTime) :
    SparesTombstones s (s.rebuildIndex now) where
  rows := .refl .refl _
  active a' ha' := by
    obtain ⟨r, hr, hc, hid, hb, hk⟩ := mem_rebuildIndex_active ha'
    exact .inr ⟨r, hr, hid, hb, hk, by simp [hc]⟩
  hidden r' hr' ht a' ha' := by
    obtain ⟨r, hr, hc, hid, -, -⟩ := mem_rebuildIndex_active ha'
    intro he
    have hrr : r = r' := eq_of_key_eq hr hr' (hid.trans he)
    rw [hrr, ht] at hc
    cases hc

/-- Every call that writes live objects only, staging aside, undoes no tombstone. -/
theorem StoreOp.spares_tombstones (h : Coherent s) (hs : Shown s)
    (hop : StoreStep fromStr op s s') (hl : WritesLive op s)
    (hn : op.stagedObject = none) : SparesTombstones s s' := by
  cases StoreOp.index_step hop with
  | kept hf =>
    refine .of_subset hs ?_ ?_
    · rw [hf.manifests]
      exact fun _ hr => hr
    · rw [hf.active]
      exact fun _ ha => ha
  | staged => cases hn
  | discarded _ _ _ hr ha _ =>
    refine .of_subset hs ?_ ?_
    · rw [hr]
      exact fun _ hr => (mem_delete.1 hr).1
    · rw [ha]
      exact fun _ ha => (mem_delete.1 ha).1
  | committed _ hcall hc => exact commit_spares h hs (hl.commit hcall) hc
  | written => exact updateManifest_spares hs hl.1 hl.2
  | moved _ _ _ _ hm => exact setManifestState_spares h hs hl hm
  | tombstoned _ _ _ hm hcall hr ha _ _ =>
    obtain ⟨row, hrow, rfl, rfl, rfl⟩ := hcall.key_of_row h hm hs.keys
    exact tombstone_spares hs hrow (congrArg Table.rows hr) ha
  | expired now =>
    refine tombstoneExpiredActiveManifests_induction
      (.of_subset hs (fun _ hr => hr) fun _ ha => ha) ?_
    exact fun t row ht _ => ht.trans (tombstoneExpired_spares (ht.shown hs) row now)
  | hidden => exact hideConnection_spares hs
  | reopened now =>
    have hk := rebuildIndex_spares (s.backfillCleanupOutbox now.unixTimestamp) now
    exact ⟨hk.rows, hk.active, hk.hidden⟩

end TelegramS3
