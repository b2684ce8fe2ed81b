import TelegramS3.ActiveIndex
import TelegramS3.Connections
import TelegramS3.Rows
import TelegramS3.Tombstones

namespace TelegramS3
open Relational Table Fallible Transition MetadataStore
set_option autoImplicit true

structure EmptyDatabase (s : MetadataStore) : Prop extends EmptyStore s where
  targets : s.outbox.targets = ∅

theorem EmptyDatabase.numbered (h : EmptyDatabase s) : s.outbox.Numbered :=
  ⟨by simp [h.targets], by simp [h.targets]⟩

/-- In every run, a removal that keeps the files enqueues no target for what it tombstoned. -/
def RemoteFilesKept (Step : ConnectionAction → MetadataStore → MetadataStore → Prop) : Prop :=
  ∀ past s, Run EmptyDatabase Step past s → ∀ job now s',
    Step (.call (.beginConnectionRemoval job false now)) s s' →
      ∀ later t, Run (Eq s') Step later t → ∀ object, Tombstoned s' object →
        ¬ Tombstoned s object → ∀ u ∈ t.outbox.targets, u.objectId = object →
          ∃ u₀ ∈ s.outbox.targets, SameTarget u₀ u

def Kept (s : MetadataStore) (object : Uuid) : Prop :=
  ∃ j ∈ s.connectionRemovalJobs, j.deleteUploadedFiles = false ∧
    ∃ r ∈ s.connectionRemovalObjects, r.jobId = j.id ∧ r.objectId = object

structure OwnsNoKept (s : MetadataStore) : Prop where
  manifests : ∀ r ∈ s.objectManifests, r.connectionId = s.activeConnectionId → ¬ Kept s r.objectId
  jobs : ∀ j ∈ s.transferJobs, j.connectionId = s.activeConnectionId → ¬ Kept s j.id
  uploads : ∀ u ∈ s.multipartUploads, u.connectionId = s.activeConnectionId → ¬ Kept s u.uploadId

/-- No reopening, publication, cancellation or tombstone of a kept object, no removal with files
afterwards, and no staging under a stored part. -/
def RespectsKept (a : ConnectionAction) (s : MetadataStore) : Prop :=
  match a with
  | .call (.reopen _) => ∀ r ∈ s.objectManifests, ¬ Kept s r.objectId
  | .call (.tombstoneManifest id _ _ _) | .call (.updateManifestState id _ _)
  | .call (.commitManifest id _) | .call (.commitTransferManifest id _ _ _)
  | .call (.finishPartJob id _ _) | .call (.transferAction id _ _) => ¬ Kept s id
  | .call (.beginConnectionRemoval _ true _) => OwnsNoKept s
  | .call (.stageManifest _ m _) => ∀ p ∈ s.multipartParts, p.part.cleanupObjectId ≠ m.objectId
  | _ => True

/-- Stored parts have no manifest row of their own any more. -/
structure PartsDetached (s : MetadataStore) : Prop where
  coherent : Coherent s
  oneId : ∀ j ∈ s.transferJobs, j.OneId
  numbered : s.outbox.Numbered
  parts : ∀ p ∈ s.multipartParts, s.objectManifests.get? p.part.cleanupObjectId = none

namespace MetadataStore

section
variable {s : MetadataStore} {objects : Table RemovalObjectRow}
  (h : s.removalObjects job connectionId = .ok objects)
include h

theorem removalObjects_kept (hr : r ∈ s.connectionRemovalObjects) : r ∈ objects := by
  unfold removalObjects at h
  dsimp only at h
  split at h
  · cases h
  · cases h
    exact mem_foldl_insertOrIgnore (mem_foldl_insertOrIgnore (mem_foldl_insertOrIgnore hr))

theorem mem_removalObjects (hr : row ∈ s.removalManifests connectionId) :
    ∃ r ∈ objects, r.jobId = job ∧ r.objectId = row.objectId := by
  unfold removalObjects at h
  dsimp only at h
  split at h
  · cases h
  · cases h
    obtain ⟨r, hr, he⟩ := key_foldl_insertOrIgnore
      (g := fun m : ManifestRow => ({ jobId := job, objectId := m.objectId } : RemovalObjectRow))
      (t := s.connectionRemovalObjects) hr
    refine ⟨r, mem_foldl_insertOrIgnore (mem_foldl_insertOrIgnore hr), ?_⟩
    exact ⟨congrArg Prod.fst he, congrArg Prod.snd he⟩

end

end MetadataStore

theorem StoreOp.part_before (h : Coherent s) (hs : StoreStep fromStr op s s')
    (hp : p ∈ s'.multipartParts) : p ∈ s.multipartParts ∨
      ∃ id lease now, op = .finishPartJob id lease now ∧ p.part.cleanupObjectId = id ∧
        s'.objectManifests.get? id = none := by
  rcases StoreOp.part_step hs hp with ⟨hp, -⟩ | ⟨job, lease, now, upload, number, row, rfl, hj, hn,
    -, hr, rfl⟩
  · exact .inl hp
  · obtain ⟨_, hj', hf⟩ := Option.bind_eq_some_iff.1 hs
    rw [hj] at hj'
    cases hj'
    have hid : row.objectId = job := key_of_get? hr
    refine .inr ⟨job, lease, now, rfl, ?_, ?_⟩
    · exact (h.rows row (mem_of_get? hr)).objectId.trans hid
    · rw [get?_eq_none]
      intro r hr
      exact (finishPartJob_gone hn (after_eq_some.1 hf) hr).1

namespace PartsDetached

theorem init (h : EmptyDatabase s) : PartsDetached s where
  coherent := h.objects.coherent
  oneId := by simp [h.jobs]
  numbered := h.numbered
  parts := by simp [h.parts]

theorem step (h : PartsDetached s) (hs : ConnectionStep fromStr a s s')
    (hc : RespectsKept a s) : PartsDetached s' := by
  rcases hs.cases with ⟨op, rfl, hs, hw⟩ | hr
  · refine ⟨h.coherent.step hs hw, StoreOp.oneId_step h.oneId hs,
      StoreOp.numbered_step h.numbered hs, ?_⟩
    intro p hp
    rcases StoreOp.part_before h.coherent hs hp with hp | ⟨id, lease, now, -, hid, hn⟩
    · apply StoreOp.absent_step h.coherent hs hw _ (h.parts p hp)
      intro hst
      obtain ⟨kind, m, now, rfl, hm⟩ := StoreOp.stagedObject_eq_some hst
      exact hc p hp hm.symm
    · rw [hid]
      exact hn
  · refine ⟨hr.coherent h.coherent, hr.oneId h.oneId, hr.outbox ▸ h.numbered, ?_⟩
    intro p hp
    have hn := h.parts p (hr.parts p hp)
    rw [get?_eq_none] at hn ⊢
    intro r' hr'
    obtain ⟨r, hrm, he⟩ := hr.rows r' hr'
    rcases he with rfl | he
    · exact hn _ hrm
    · rw [he]
      exact hn r hrm

end PartsDetached

theorem Kept.step (h : Kept s object) (hs : ConnectionStep fromStr a s s') : Kept s' object := by
  obtain ⟨j, hj, hd, r, hr, hrj, hro⟩ := h
  rcases hs.cases with ⟨op, rfl, hs, -⟩ | hrel
  · cases op with
    | beginConnectionRemoval job deleteUploadedFiles now =>
      obtain ⟨-, objects, ho, rfl⟩ := beginConnectionRemoval_objects (after_eq_some.1 hs)
      exact ⟨j, mem_insertOrIgnore.2 (.inl hj), hd, r, removalObjects_kept ho hr, hrj, hro⟩
    | _ =>
      have hf := StoreOp.frame hs .removals rfl
      exact ⟨j, by rw [hf.1]; exact hj, hd, r, by rw [hf.2]; exact hr, hrj, hro⟩
  · obtain ⟨j', hj', hid, hd'⟩ := hrel.removals.some_left (mem_iff_get?.1 hj)
    rw [← hrel.objects] at hr
    exact ⟨j', mem_of_get? hj', hd'.trans hd, r, hr, hrj.trans hid.symm, hro⟩

/-- What holds of an object of a removal from then on. -/
structure StaysKept (s₀ : MetadataStore) (object : Uuid) (t : MetadataStore) : Prop where
  detached : PartsDetached t
  kept : Kept t object
  inactive : ∀ a ∈ t.activeObjects, a.objectId ≠ object
  parts : ∀ p ∈ t.multipartParts, p.part.cleanupObjectId ≠ object
  targets : ∀ u ∈ t.outbox.targets, u.objectId = object →
    ∃ u₀ ∈ s₀.outbox.targets, SameTarget u₀ u

/-- No call that respects kept objects enqueues one. -/
theorem StaysKept.not_handed_over (h : StaysKept s₀ object t)
    (hc : RespectsKept (.call op) t) (hx : x ∈ op.handovers t) : x.object ≠ object := by
  have hrow : ∀ r ∈ t.objectManifests, r.manifest.objectId = object → Kept t r.objectId := by
    intro r hr he
    rw [← (h.detached.coherent.rows r hr).objectId, he]
    exact h.kept
  have hjob : ∀ j ∈ t.transferJobs, j.objectId = object → Kept t j.id := by
    intro j hj he
    rw [← (h.detached.oneId j hj).object, he]
    exact h.kept
  have hpart : t.OfPart x → x.object ≠ object := by
    rintro ⟨p, hp, now, retained, rfl⟩
    exact h.parts p hp
  have hactive : ∀ a ∈ t.activeObjects, ∀ r, t.objectManifests.get? a.objectId = some r →
      r.manifest.objectId ≠ object := by
    intro a ha r hr he
    have hid : r.objectId = a.objectId := key_of_get? hr
    have hco := (h.detached.coherent.rows r (mem_of_get? hr)).objectId
    exact h.inactive a ha ((hid.symm.trans hco.symm).trans he)
  cases op with
  | transferAction id action now =>
    simp only [StoreOp.handovers] at hx
    split at hx
    · obtain ⟨j, hj, rfl⟩ := List.mem_map.1 hx
      obtain ⟨hj, -⟩ := Option.filter_eq_some_iff.1 (Option.mem_toList.1 hj)
      intro he
      have hk := hjob j (mem_of_get? hj) he
      have hid : j.id = id := key_of_get? hj
      exact hc (hid ▸ hk)
    · cases hx
  | tombstoneManifest id reason c now =>
    obtain ⟨r, hr, rfl⟩ := List.mem_map.1 hx
    have hr := Option.mem_toList.1 hr
    intro he
    have hk := hrow r (mem_of_get? hr) he
    have hid : r.objectId = id := key_of_get? hr
    exact hc (hid ▸ hk)
  | tombstoneExpiredActiveManifests now =>
    obtain ⟨r, hr, rfl⟩ := List.mem_map.1 hx
    obtain ⟨hr, -⟩ := List.mem_filter.1 (List.mem_filter.1 hr).1
    obtain ⟨a, ha, hr⟩ := List.mem_filterMap.1 hr
    exact hactive a ha r hr
  | deleteActiveKey bucket key reason c now =>
    obtain ⟨r, hr, rfl⟩ := List.mem_map.1 hx
    obtain ⟨id, ha, hr⟩ := Option.bind_eq_some_iff.1 (Option.mem_toList.1 hr)
    obtain ⟨a, hmem, -, -, rfl⟩ := activeObjectId_eq_some.1 ha
    exact hactive a hmem r hr
  | commitManifest => exact hpart (.commit hx)
  | commitTransferManifest => exact hpart (.completion hx)
  | finishPartJob => exact hpart (.finish hx)
  | abortParts => exact hpart (.upload hx)
  | beginConnectionRemoval job deleteUploadedFiles now =>
    simp only [StoreOp.handovers] at hx
    split at hx
    · rename_i hd
      subst hd
      have hown : OwnsNoKept t := hc
      simp only [removalHandovers, removalManifests, removalUploads, List.mem_append, List.mem_map,
        List.mem_insertionSort, mem_select, Bool.and_eq_true, decide_eq_true_eq] at hx
      rcases hx with (⟨r, hr, rfl⟩ | ⟨j, hj, rfl⟩) | ⟨u, hu, rfl⟩
      · exact fun he => hown.manifests r hr.1 hr.2.1 (hrow r hr.1 he)
      · exact fun he => hown.jobs j hj.1 hj.2 (hjob j hj.1 he)
      · rintro rfl
        exact hown.uploads u hu.1 hu.2.1.1 h.kept
    · cases hx
  | reopen now =>
    obtain ⟨r, hr, rfl⟩ := List.mem_map.1 hx
    have hr := (mem_select.1 hr).1
    exact fun he => hc r hr (hrow r hr he)
  | _ => cases hx

namespace StaysKept

theorem begin (h : PartsDetached s)
    (hs : StoreStep fromStr (.beginConnectionRemoval job false now) s s')
    (hd : PartsDetached s') (ht : Tombstoned s' object) (hn : ¬ Tombstoned s object) :
    StaysKept s object s' := by
  obtain ⟨hnew, objects, ho, rfl⟩ := beginConnectionRemoval_objects (after_eq_some.1 hs)
  obtain ⟨r', hr', hid, hst⟩ := ht
  simp only [hideConnection, mem_modify] at hr'
  obtain ⟨r, hr, rfl⟩ := hr'
  by_cases hp : (r.connectionId = s.activeConnectionId && r.commitState != .tombstoned) = true
  · simp only [hp, if_true] at hid
    have hmem : r ∈ s.removalManifests s.activeConnectionId := by
      simp only [removalManifests, List.mem_insertionSort, mem_select]
      exact ⟨hr, hp⟩
    obtain ⟨q, hq, hqj, hqo⟩ := mem_removalObjects ho hmem
    simp only [Bool.and_eq_true, decide_eq_true_eq] at hp
    refine ⟨hd, ?_, ?_, ?_, ?_⟩
    · exact ⟨_, mem_insertOrIgnore.2 (.inr ⟨rfl, hnew⟩), rfl, q, hq, hqj, hqo.trans hid⟩
    · intro a ha he
      obtain ⟨-, hdel⟩ := mem_delete.1 ha
      rw [any_eq_false] at hdel
      have hrow := hdel r hr
      simp [hid, he, hp.1] at hrow
    · intro p hpart he
      have hnone := h.parts p hpart
      rw [he, ← hid] at hnone
      exact get?_eq_none.1 hnone r hr rfl
    · intro u hu _
      exact ⟨u, hu, .refl u⟩
  · simp only [hp] at hid hst
    exact absurd ⟨r, hr, hid, hst⟩ hn

theorem step (h : StaysKept s₀ object t) (hs : ConnectionStep fromStr a t t')
    (hc : RespectsKept a t) : StaysKept s₀ object t' := by
  have hd := h.detached.step hs hc
  have hk := h.kept.step hs
  rcases hs.cases with ⟨op, rfl, hs, hw⟩ | hr
  · refine ⟨hd, hk, ?_, ?_, ?_⟩
    · intro a ha he
      rcases StoreOp.active_origin h.detached.coherent h.detached.oneId hs ha with
        ha | hexp | ⟨⟨now, rfl⟩, r, hr, hid⟩
      · exact h.inactive a ha he
      · rw [he] at hexp
        cases op with
        | updateManifestState | commitManifest | commitTransferManifest | finishPartJob =>
          cases hexp
          exact hc h.kept
        | _ => cases hexp
      · apply hc r hr
        rw [hid, he]
        exact h.kept
    · intro p hp he
      rcases StoreOp.part_before h.detached.coherent hs hp with hp | ⟨id, lease, now, rfl, hid, -⟩
      · exact h.parts p hp he
      · apply hc
        rw [← hid, he]
        exact h.kept
    · intro u' hu' he
      rcases (StoreOp.target_step h.detached.numbered hs).origin u' hu' with
        ⟨u, hu, hstep⟩ | ⟨⟨x, hx, hnew⟩, -⟩
      · obtain ⟨u₀, hu₀, hsame⟩ := h.targets u hu (hstep.same.objectId.symm.trans he)
        exact ⟨u₀, hu₀, hsame.trans hstep.same⟩
      · exact absurd (hnew.objectId.symm.trans he) (h.not_handed_over hc hx)
  · refine ⟨hd, hk, ?_, ?_, ?_⟩
    · rw [hr.active]
      exact h.inactive
    · intro p hp
      exact h.parts p (hr.parts p hp)
    · rw [hr.outbox]
      exact h.targets

end StaysKept

theorem remote_files_kept (fromStr : String → Option ETagCondition) :
    RemoteFilesKept (Guarded (ConnectionStep fromStr) RespectsKept) := by
  intro past s hr job now s' hs later t hlater object ht hn
  have hd : PartsDetached s := by
    apply hr.invariant (I := PartsDetached)
    · intro s hs
      exact .init hs
    · intro a s s' h hstep
      exact h.step hstep.1 hstep.2
  have hk : StaysKept s object t := by
    apply hlater.invariant (I := StaysKept s object)
    · rintro _ rfl
      exact .begin hd (StoreOp.serve_eq_some hs.1).1 (hd.step hs.1 hs.2) ht hn
    · intro a t t' h hstep
      exact h.step hstep.1 hstep.2
  exact hk.targets

def connectedRun : List MetadataStore × MetadataStore :=
  (exec (ConnectionAction.apply fun _ => none) [] photosStore
    (.setTelegramBootstrapSettings ⟨40⟩ (some "-1001") ::
      (uploadOps (emptyObject ⟨1⟩ "photos" "a.jpg") ⟨7⟩ 1).map .call)).get (by decide)

def keepingRemoval : ConnectionAction := .call (.beginConnectionRemoval ⟨50⟩ false (instant 2))

def afterKeeping : MetadataStore :=
  (keepingRemoval.apply (fun _ => none) connectedRun.2).get (by decide)

/-- The account is detached, the service starts again. -/
def restartedRun : List MetadataStore × MetadataStore :=
  (exec (ConnectionAction.apply fun _ => none) [] afterKeeping
    [.clearTelegramBootstrapSettings, .clearActiveConnectionId,
      .purgeConnectionOperations (Uuid.text ⟨40⟩), .finishConnectionRemoval ⟨50⟩ .completed 0,
      .setTelegramBootstrapSettings ⟨41⟩ (some "-1002"), .call (.reopen (instant 3))]).get
    (by decide)

/-- The restart hands the kept files to the cleanup worker. -/
theorem restart_enqueues_kept_files : ¬ RemoteFilesKept (ConnectionStep fun _ => none) := by
  intro h
  have hr : Run EmptyDatabase (ConnectionStep fun _ => none) connectedRun.1 connectedRun.2 :=
    Run.of_exec_isSome ⟨⟨⟨rfl, rfl, rfl⟩, rfl, rfl⟩, rfl⟩ (by decide)
  have hs : ConnectionStep (fun _ => none) keepingRemoval connectedRun.2 afterKeeping :=
    (Option.some_get _).symm
  have hi : afterKeeping = afterKeeping := rfl
  have hlater : Run (Eq afterKeeping) (ConnectionStep fun _ => none) restartedRun.1
      restartedRun.2 := Run.of_exec_isSome hi (by decide)
  have ht : ∃ r ∈ afterKeeping.objectManifests.rows,
      r.objectId = ⟨1⟩ ∧ r.commitState = .tombstoned := by decide
  have hn : ¬ ∃ r ∈ connectedRun.2.objectManifests.rows,
      r.objectId = ⟨1⟩ ∧ r.commitState = .tombstoned := by decide
  obtain ⟨u, hu, hid⟩ : ∃ u ∈ restartedRun.2.outbox.targets.rows, u.objectId = ⟨1⟩ := by decide
  obtain ⟨u₀, hu₀, -⟩ := h _ _ hr ⟨50⟩ (instant 2) afterKeeping hs _ _ hlater ⟨1⟩ ht hn u hu hid
  have hempty : connectedRun.2.outbox.targets.rows = [] := by decide
  rw [mem_def, hempty] at hu₀
  cases hu₀

end TelegramS3
