import TelegramS3.ActiveJobs

namespace TelegramS3
open Relational Table Fallible MetadataStore
set_option autoImplicit true

inductive RowStep (op : StoreOp) (s s' : MetadataStore) (r' : ManifestRow) : Prop where
  | kept : r' ∈ s.objectManifests → RowStep op s s' r'
  | staged (kind : OperationKind) (m : ObjectManifest) (now : OffsetDateTime) :
      op = .stageManifest kind m now → r' = s.stagedRow m now → RowStep op s s' r'
  | published (r : ManifestRow) (m : ObjectManifest) (now : OffsetDateTime) :
      r ∈ s.objectManifests → op.publishes = some r.objectId → Commits op s s' r.objectId →
      (m = r.manifest ∨ ∃ lease, op = .commitTransferManifest r.objectId lease m now) →
      r' = r.publish m now → RowStep op s s' r'
  | tombstoned (r : ManifestRow) (now : OffsetDateTime) : r ∈ s.objectManifests →
      r' = r.tombstone now → RowStep op s s' r'
  | moved (r : ManifestRow) (state : CommitState) (now : OffsetDateTime) :
      r ∈ s.objectManifests → op = .updateManifestState r.objectId state now →
      r' = { r with commitState := state, manifest := r.manifest.withState state } →
      RowStep op s s' r'
  | written (r : ManifestRow) (m : ObjectManifest) : r ∈ s.objectManifests →
      op = .updateManifest m → r.objectId = m.objectId →
      r' = { r with commitState := m.commitState, manifest := m } → RowStep op s s' r'

theorem RowStep.before (h : RowStep op s s' r') (hn : op.stagedObject ≠ some r'.objectId) :
    ∃ r ∈ s.objectManifests, r.objectId = r'.objectId ∧ r.bucket = r'.bucket ∧
      r.objectKey = r'.objectKey := by
  cases h with
  | kept hr => exact ⟨r', hr, rfl, rfl, rfl⟩
  | staged kind m now ho he =>
    subst ho he
    exact absurd rfl hn
  | published r m now hr _ _ _ he => exact ⟨r, hr, he ▸ ⟨rfl, rfl, rfl⟩⟩
  | tombstoned r now hr he => exact ⟨r, hr, he ▸ ⟨rfl, rfl, rfl⟩⟩
  | moved r state now hr _ he => exact ⟨r, hr, he ▸ ⟨rfl, rfl, rfl⟩⟩
  | written r m hr _ _ he => exact ⟨r, hr, he ▸ ⟨rfl, rfl, rfl⟩⟩

variable {s s' : MetadataStore}

def StoreOp.shows : StoreOp → Option Uuid
  | .updateManifestState object .committed _ => some object
  | op => op.publishes

namespace MetadataStore

theorem loaded_manifest (hm : s.loadManifestByObjectId object = .ok (some m))
    (hr : r ∈ s.objectManifests) (hid : r.objectId = object) : r.manifest = m := by
  obtain ⟨row, hrow, rfl⟩ := loadManifestByObjectId_ok hm
  have he : r = row := eq_of_key_eq hr (mem_of_get? hrow) (hid.trans (key_of_get? hrow).symm)
  rw [he]

theorem mem_tombstoneRows (hp : ∀ r ∈ s.objectManifests, p r = true → r.manifest = m)
    (hr : r' ∈ (s.tombstoneRows p m now).objectManifests) :
    r' ∈ s.objectManifests ∨ ∃ r ∈ s.objectManifests, r' = r.tombstone now := by
  rcases of_mem_update rfl hr with ⟨r, hm, h, rfl⟩ | ⟨hr, -⟩
  · refine .inr ⟨r, hm, ?_⟩
    rw [ManifestRow.tombstone, hp r hm h]
  · exact .inl hr

theorem tombstoneExpiredActiveManifests_row :
    ∀ r' ∈ (s.tombstoneExpiredActiveManifests now).objectManifests,
      r' ∈ s.objectManifests ∨ ∃ r ∈ s.objectManifests, r' = r.tombstone now := by
  refine tombstoneExpiredActiveManifests_induction
    (P := fun t => ∀ r' ∈ t.objectManifests, r' ∈ s.objectManifests ∨
      ∃ r ∈ s.objectManifests, r' = r.tombstone now) (fun _ hr => .inl hr) ?_
  intro t row ht hrow r' hr'
  have hrow := (mem_activeCommitted hrow).1
  rcases of_mem_update rfl hr' with ⟨r, hr, hp, rfl⟩ | ⟨hr, -⟩
  · simp only [Bool.and_eq_true, decide_eq_true_eq] at hp
    rcases ht r hr with hr | ⟨o, -, rfl⟩
    · have he : r = row := eq_of_key_eq hr hrow hp.1
      exact .inr ⟨row, hrow, by rw [he]; rfl⟩
    · cases hp.2
  · exact ht r' hr

theorem finishPartJob_gone (hn : number ≠ 0)
    (hf : s.finishPartJob fromStr job lease upload number now = .ok s')
    (hr : r ∈ s'.objectManifests) : r.objectId ≠ job ∧ ∀ j ∈ s.transferJobs,
      s.supersededBy job upload number j = true → r.objectId ≠ j.objectId := by
  obtain ⟨row, -, -, rfl⟩ := finishPartJob_ok hn hf
  have hd := (mem_delete.1 hr).2
  rw [Bool.or_eq_false_iff] at hd
  refine ⟨of_decide_eq_false hd.1, ?_⟩
  intro j hj hsup hid
  have hne : j.id ≠ job := by
    simp only [supersededBy, Bool.and_eq_true, bne_iff_ne] at hsup
    exact hsup.1.1.1
  have hpub : j ∈ (s.publishedPart job lease upload number row.manifest now).transferJobs := by
    apply mem_of_update_false rfl hj
    rw [decide_eq_false hne]
    rfl
  have hafter : (_ : TransferJob) ∈ ((s.publishedPart job lease upload number
      row.manifest now).supersedeDuplicates job upload number now.unixTimestamp).transferJobs :=
    mem_of_update_true rfl hpub hsup
  have hfalse := any_eq_false.1 hd.2 _ hafter
  have hpart : s.partOf upload number j.id = true := by
    simp only [supersededBy, Bool.and_eq_true] at hsup
    exact hsup.1.1.2
  simp only [decide_eq_true hid.symm, bne_iff_ne.2 hne, decide_true, Bool.true_and,
    Bool.and_true] at hfalse
  exact Bool.false_ne_true (hfalse.symm.trans hpart)

end MetadataStore

/-- What a call can make of the manifest rows. -/
theorem StoreOp.row_step (h : Coherent s) (ho : ∀ j ∈ s.transferJobs, j.OneId)
    (hs : StoreStep fromStr op s s') (hr : r' ∈ s'.objectManifests) : RowStep op s s' r' := by
  cases StoreOp.index_step hs with
  | kept hf =>
    rw [hf.manifests] at hr
    exact .kept hr
  | staged kind m now =>
    rcases mem_upsert.1 hr with rfl | ⟨hr, -⟩
    · exact .staged kind m now rfl rfl
    · exact .kept hr
  | discarded _ _ _ hd _ _ =>
    rw [hd] at hr
    exact .kept (mem_delete.1 hr).1
  | committed now hcall hc =>
    rcases hcall.commits h ho hc with rfl | ⟨r, m, hm, hp, hw⟩
    · exact .kept hr
    · rcases hm.of_mem hr with hr | he
      · exact .kept hr
      · refine .published r m now hm.row hp hw (hm.about.imp_right fun hsub => ?_) he
        cases hcall with
        | plain | completion => cases hsub
        | leased =>
          cases hsub
          exact ⟨_, by rw [hm.own]⟩
  | written m =>
    rcases of_mem_update rfl hr with ⟨r, hrow, hp, rfl⟩ | ⟨hr, -⟩
    · exact .written r m hrow rfl (of_decide_eq_true hp) rfl
    · exact .kept hr
  | moved object m state now hm =>
    rcases of_mem_update rfl hr with ⟨r, hrow, hp, rfl⟩ | ⟨hr, -⟩
    · have hid : r.objectId = object := of_decide_eq_true hp
      refine .moved r state now hrow (by rw [hid]) ?_
      rw [loaded_manifest hm hrow hid]
    · exact .kept hr
  | tombstoned _ _ now hm _ ht _ _ _ =>
    rw [ht] at hr
    rcases mem_tombstoneRows (fun r hr hp => loaded_manifest hm hr (of_decide_eq_true hp)) hr with
      hr | ⟨r, hr, he⟩
    · exact .kept hr
    · exact .tombstoned r now hr he
  | expired now =>
    rcases tombstoneExpiredActiveManifests_row r' hr with hr | ⟨r, hr, he⟩
    · exact .kept hr
    · exact .tombstoned r now hr he
  | hidden now =>
    rcases of_mem_update rfl hr with ⟨r, hrow, -, rfl⟩ | ⟨hr, -⟩
    · exact .tombstoned r now hrow rfl
    · exact .kept hr
  | reopened => exact .kept hr

/-- A part after a call was there under another number or is the one the call publishes. -/
theorem StoreOp.part_step (hs : StoreStep fromStr op s s') (hp : p ∈ s'.multipartParts) :
    (p ∈ s.multipartParts ∧ ∀ job lease now upload number, op = .finishPartJob job lease now →
      s.multipartJob job = some (upload, number) → number ≠ 0 →
        (p.uploadId, p.partNumber) ≠ (upload, number)) ∨
      ∃ job lease now upload number row, op = .finishPartJob job lease now ∧
        s.multipartJob job = some (upload, number) ∧ number ≠ 0 ∧ JobLeased s job ∧
        s.objectManifests.get? job = some row ∧
        p = { uploadId := upload, partNumber := number
              part := MultipartPart.ofManifest upload number row.manifest now
              createdAt := now } := by
  cases op with
  | finishPartJob job lease now =>
    obtain ⟨⟨upload, number⟩, hj, hf⟩ := Option.bind_eq_some_iff.1 hs
    by_cases hn : number = 0
    · subst hn
      obtain ⟨operation, m', -, hc⟩ := finishPartJob_zero (after_eq_some.1 hf)
      refine .inl ⟨commitManifestInner_parts hc hp, ?_⟩
      intro id lease' now' upload' number' he hj' hn'
      cases he
      rw [hj] at hj'
      cases hj'
      exact absurd rfl hn'
    · obtain ⟨row, hr, hl, rfl⟩ := finishPartJob_ok hn (after_eq_some.1 hf)
      rcases mem_upsert.1 hp with rfl | ⟨hp, hk⟩
      · obtain ⟨j, hjm, hl⟩ := any_eq_true.1 hl
        simp only [Bool.and_eq_true, decide_eq_true_eq] at hl
        refine .inr ⟨job, lease, now, upload, number, row, rfl, hj, hn, ?_, hr, rfl⟩
        exact ⟨j, get?_eq_some.2 ⟨hjm, hl.1.1⟩, by rw [hl.2]; rfl⟩
      · refine .inl ⟨hp, ?_⟩
        intro id lease' now' upload' number' he hj' _
        cases he
        rw [hj] at hj'
        cases hj'
        exact hk
  | commitManifest | commitTransferManifest =>
    obtain ⟨⟨m', s₁⟩, hc, rfl⟩ := map_ok.1 (after_eq_some.1 hs)
    exact .inl ⟨commitManifestInner_parts hc hp, nofun⟩
  | abortParts upload now =>
    obtain ⟨-, rfl⟩ := abortParts_ok (after_eq_some.1 hs)
    exact .inl ⟨(mem_delete.1 hp).1, nofun⟩
  | _ =>
    have hf : s'.multipartParts = s.multipartParts := StoreOp.frame hs .parts rfl
    rw [hf] at hp
    exact .inl ⟨hp, nofun⟩

end TelegramS3
