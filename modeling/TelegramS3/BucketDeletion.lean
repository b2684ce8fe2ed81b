import TelegramS3.ActiveIndex
import TelegramS3.Connections
import TelegramS3.Endings
import TelegramS3.Tracking

namespace TelegramS3
open Relational Table Fallible Transition MetadataStore
set_option autoImplicit true

def TransferState.settled : TransferState → Bool
  | .completed | .cancelled | .cleaned => true
  | _ => false

def CommitState.pending : CommitState → Bool
  | .committed | .staging | .orphaned | .recoveryRequired => true
  | _ => false

theorem BucketRow.key_deletedAt (now : OffsetDateTime) (b : BucketRow) :
    Keyed.key { b with deletedAt := some now } = Keyed.key b := rfl

namespace MetadataStore

def deleteBucket (s : MetadataStore) (bucket : String) (now : OffsetDateTime) :
    Except MetadataError MetadataStore := do
  ensure (!s.transferJobs.any fun j => j.bucket = bucket && !j.state.settled)
    (.bucketNotEmpty bucket)
  ensure (!(s.activeObjects.any (fun a => a.bucket = bucket) ||
      s.objectManifests.any fun r => r.bucket = bucket && r.commitState.pending))
    (.bucketNotEmpty bucket)
  let owned (b : BucketRow) : Bool :=
    b.name = bucket && b.deletedAt.isNone && b.connectionId = s.activeConnectionId
  ensure (s.buckets.any owned) (.bucketNotFound bucket)
  return { s with
    buckets := s.buckets.modify owned (fun b => { b with deletedAt := some now })
      (BucketRow.key_deletedAt now) }

/-- Every version in the bucket is tombstoned, every transfer ended and cleaned up locally. -/
structure Emptied (s : MetadataStore) (bucket : String) : Prop where
  versions : ∀ r ∈ s.objectManifests, r.bucket = bucket → r.commitState ≠ .staging →
    r.commitState = .tombstoned
  transfers : ∀ j ∈ s.transferJobs, j.bucket = bucket → j.state = .cleaned

def Owns (s : MetadataStore) (bucket : String) : Prop :=
  ∃ b ∈ s.buckets, b.name = bucket ∧ b.deletedAt = none ∧ b.connectionId = s.activeConnectionId

end MetadataStore

/-- An emptied bucket can be deleted by the connection that owns it. -/
def EmptiedDeletable (Step : ConnectionAction → MetadataStore → MetadataStore → Prop) : Prop :=
  ∀ past s, Run EmptyStore Step past s → ∀ bucket, s.Emptied bucket → s.Owns bucket →
    ∀ now, ∃ s', s.deleteBucket bucket now = .ok s'

def StoreOp.abandons (s : MetadataStore) (op : StoreOp) (j : TransferJob) : Bool :=
  match op with
  | .failReception .. | .rejectTransferForQuota .. | .finishPartJob .. => false
  | .transferAction id action _ => id = j.id && action = "cancel" && j.state.waiting
  | .beginConnectionRemoval .. => j.connectionId = s.activeConnectionId &&
    !s.objectManifests.any fun r => r.objectId = j.id && r.connectionId = s.activeConnectionId
  | op => op.endsTransfer s j

def MetadataStore.Staged (s : MetadataStore) (object : Uuid) : Prop :=
  ∃ r ∈ s.objectManifests, r.objectId = object ∧ r.commitState = .staging

def MetadataStore.Underway (s : MetadataStore) (object : Uuid) (bucket : String) : Prop :=
  ∃ j ∈ s.transferJobs, j.id = object ∧ j.bucket = bucket ∧ j.state.terminal = false

/-- Objects are staged for transfers under way while not active, and write-backs keep states. -/
def StoreOp.StagesUnderway (s : MetadataStore) : StoreOp → Prop
  | .stageManifest _ m _ => s.Underway m.objectId m.bucket ∧
    ∀ a ∈ s.activeObjects, a.objectId ≠ m.objectId
  | .updateManifest m => ∀ r ∈ s.objectManifests, r.objectId = m.objectId →
    m.commitState = r.commitState
  | .updateManifestState _ state _ => state ≠ .staging
  | _ => True

/-- No transfer is ended or dropped while it has a staged row that stays. -/
def EndsClean (a : ConnectionAction) (s : MetadataStore) : Prop :=
  match a with
  | .call op => op.StagesUnderway s ∧ ∀ j ∈ s.transferJobs, j.state.terminal = false →
    op.abandons s j = true → ¬ s.Staged j.id
  | .purgeConnectionOperations connectionId => ∀ j ∈ s.transferJobs, j.state.terminal = false →
    j.connectionId = connectionId → ¬ s.Staged j.id
  | _ => True

def ActiveCommitted (s : MetadataStore) : Prop :=
  ∀ a ∈ s.activeObjects, ∃ r ∈ s.objectManifests, r.ShownBy a ∧ r.commitState = .committed

def StagedUnderway (s : MetadataStore) : Prop :=
  ∀ r ∈ s.objectManifests, r.commitState = .staging → s.Underway r.objectId r.bucket

namespace ActiveCommitted

section
variable (h : ActiveCommitted s)
include h

theorem of_kept (ha : ∀ a ∈ s'.activeObjects, a ∈ s.activeObjects)
    (hr : ∀ a ∈ s'.activeObjects, ∀ r ∈ s.objectManifests, r.ShownBy a →
      r.commitState = .committed → ∃ r' ∈ s'.objectManifests, r'.ShownBy a ∧
      r'.commitState = .committed) : ActiveCommitted s' := by
  intro a ha'
  obtain ⟨r, hrm, hs, hc⟩ := h a (ha a ha')
  exact hr a ha' r hrm hs hc

theorem stage (hn : ∀ a ∈ s.activeObjects, a.objectId ≠ m.objectId) :
    ActiveCommitted (s.stageRows kind m now) := by
  intro a ha
  obtain ⟨r, hr, hs, hc⟩ := h a ha
  refine ⟨r, mem_upsert.2 (.inr ⟨hr, ?_⟩), hs, hc⟩
  exact fun he => hn a ha (hs.object.trans he)

theorem commit (hc : CommitsRow s s' operation transfer subject now r m) : ActiveCommitted s' := by
  have hrows : ∀ o ∈ s.objectManifests, o.commitState = .committed ∨ o = r →
      ∃ r' ∈ s'.objectManifests, (∀ a : ActiveRow, o.ShownBy a → r'.ShownBy a) ∧
        r'.commitState = .committed := by
    intro o ho hst
    by_cases hp : o.objectId = m.objectId
    · refine ⟨o.publish m now, ?_, fun a hs => ⟨hs.object, hs.bucket, hs.key⟩, rfl⟩
      rw [hc.rows]
      exact mem_of_update_true rfl ho (decide_eq_true hp)
    · refine ⟨o, ?_, fun a hs => hs, ?_⟩
      · rw [hc.rows]
        exact mem_of_update_false rfl ho (decide_eq_false hp)
      · rcases hst with hst | rfl
        · exact hst
        · exact absurd (hc.own.trans hc.object.symm) hp
  intro a ha
  rcases hc.active_of_mem ha with ha | hs
  · obtain ⟨o, ho, hs, hst⟩ := h a ha
    obtain ⟨r', hr', hsame, hst'⟩ := hrows o ho (.inl hst)
    exact ⟨r', hr', hsame a hs, hst'⟩
  · obtain ⟨r', hr', hsame, hst'⟩ := hrows r hc.row (.inr rfl)
    exact ⟨r', hr', hsame a hs, hst'⟩

theorem tombstone {p : ManifestRow → Bool} {f : ManifestRow → ManifestRow}
    (hr : s'.objectManifests.rows = s.objectManifests.rows.map fun r => if p r then f r else r)
    (ha : ∀ a ∈ s'.activeObjects, a ∈ s.activeObjects)
    (hh : ∀ a ∈ s'.activeObjects, ∀ r ∈ s.objectManifests, r.ShownBy a → p r = false) :
    ActiveCommitted s' := by
  apply h.of_kept ha
  intro a ha' r hrm hs hc
  exact ⟨r, mem_of_update_false hr hrm (hh a ha' r hrm hs), hs, hc⟩

theorem tombstoneExpired (row : ManifestRow) (now : OffsetDateTime) :
    ActiveCommitted (s.tombstoneExpired row now) := by
  apply h.tombstone rfl fun a ha => (mem_delete.1 ha).1
  intro a ha r _ hs
  have hd := (mem_delete.1 ha).2
  rw [decide_eq_false_iff_not, hs.object] at hd
  rw [decide_eq_false hd]
  rfl

theorem setManifestState (hc : Coherent s) (hm : s.loadManifestByObjectId object = .ok (some m)) :
    ActiveCommitted (s.setManifestState object m state now) := by
  obtain ⟨row, hg, rfl⟩ := loadManifestByObjectId_ok hm
  have hrow := mem_of_get? hg
  have hid : row.objectId = object := key_of_get? hg
  have hco := hc.rows row hrow
  have hother : ∀ a : ActiveRow, ∀ r ∈ s.objectManifests, r.ShownBy a →
      r.commitState = .committed → a.objectId ≠ object →
      ∃ r' ∈ (s.setManifestState object row.manifest state now).objectManifests, r'.ShownBy a ∧
        r'.commitState = .committed := by
    intro a r hr hs hst hne
    refine ⟨r, mem_of_update_false rfl hr (decide_eq_false ?_), hs, hst⟩
    exact fun he => hne (hs.object.trans he)
  by_cases hst : state = .committed
  · subst hst
    intro a ha
    have hpub : ∀ a : ActiveRow, row.ShownBy a →
        ∃ r' ∈ (s.setManifestState object row.manifest .committed now).objectManifests,
          r'.ShownBy a ∧ r'.commitState = .committed := by
      intro a hs
      exact ⟨_, mem_of_update_true rfl hrow (decide_eq_true hid),
        ⟨hs.object, hs.bucket, hs.key⟩, rfl⟩
    rcases mem_upsert.1 ha with rfl | ⟨ha, -⟩
    · exact hpub _ ⟨hid.symm, hco.bucket, hco.key⟩
    · obtain ⟨r, hr, hs, hst⟩ := h a ha
      by_cases he : a.objectId = object
      · have her : r = row := eq_of_key_eq hr hrow (hs.object.symm.trans (he.trans hid.symm))
        exact hpub a (her ▸ hs)
      · exact hother a r hr hs hst he
  · have hact : (s.setManifestState object row.manifest state now).activeObjects =
        s.activeObjects.delete fun a => a.objectId = object := if_neg hst
    intro a ha
    rw [hact] at ha
    obtain ⟨ha, hd⟩ := mem_delete.1 ha
    obtain ⟨r, hr, hs, hc'⟩ := h a ha
    exact hother a r hr hs hc' (of_decide_eq_false hd)

theorem discard (hr : s'.objectManifests = s.objectManifests.delete gone)
    (ha : s'.activeObjects = s.activeObjects.delete fun a =>
      s.objectManifests.any fun r => decide (r.objectId = a.objectId) && gone r) :
    ActiveCommitted s' := by
  intro a ha'
  rw [ha] at ha'
  obtain ⟨ham, hd⟩ := mem_delete.1 ha'
  obtain ⟨r, hrm, hs, hc⟩ := h a ham
  have hd := any_eq_false.1 hd r hrm
  rw [decide_eq_true hs.object.symm, Bool.true_and] at hd
  refine ⟨r, ?_, hs, hc⟩
  rw [hr]
  exact mem_delete.2 ⟨hrm, hd⟩

theorem keys (a : ActiveRow) (ha : a ∈ s.activeObjects) (r : ManifestRow)
    (hr : r ∈ s.objectManifests) (hid : r.objectId = a.objectId) :
    r.bucket = a.bucket ∧ r.objectKey = a.objectKey := by
  obtain ⟨o, ho, hs, -⟩ := h a ha
  obtain rfl : o = r := eq_of_key_eq ho hr (hs.object.symm.trans hid.symm)
  exact ⟨hs.bucket.symm, hs.key.symm⟩

theorem call {op : StoreOp} (hc : Coherent s) (ho : ∀ j ∈ s.transferJobs, j.OneId)
    (hs : StoreStep fromStr op s s') (hw : op.StagesUnderway s) : ActiveCommitted s' := by
  cases StoreOp.index_step hs with
  | kept hf =>
    intro a ha
    rw [hf.manifests]
    exact h a (hf.active ▸ ha)
  | staged => exact h.stage hw.2
  | discarded _ _ _ hr ha _ => exact h.discard hr ha
  | committed _ hcall hm =>
    rcases hcall.commits hc ho hm with rfl | ⟨r, m, hr, -, -⟩
    · exact h
    · exact h.commit hr
  | written m =>
    intro a ha
    obtain ⟨r, hr, hsh, hst⟩ := h a ha
    by_cases hid : r.objectId = m.objectId
    · exact ⟨_, mem_of_update_true rfl hr (decide_eq_true hid),
        ⟨hsh.object, hsh.bucket, hsh.key⟩, (hw r hr hid).trans hst⟩
    · exact ⟨r, mem_of_update_false rfl hr (decide_eq_false hid), hsh, hst⟩
  | moved _ _ _ _ hm => exact h.setManifestState hc hm
  | tombstoned _ _ _ hm hcall hrows ha _ _ =>
    obtain ⟨row, hrow, rfl, rfl, rfl⟩ := hcall.key_of_row hc hm h.keys
    apply h.tombstone (congrArg Table.rows hrows)
    · rw [ha]
      exact fun a ha => (mem_delete.1 ha).1
    · intro a ha' r hr hsh
      apply decide_eq_false
      intro hid
      obtain rfl : r = row :=
        eq_of_key_eq hr (mem_of_get? hrow) (hid.trans (key_of_get? hrow).symm)
      rw [ha] at ha'
      have hd := (mem_delete.1 ha').2
      simp [hsh.object, hsh.bucket, hsh.key, hid] at hd
  | expired now =>
    exact tombstoneExpiredActiveManifests_induction h fun _ r ht _ => ht.tombstoneExpired r now
  | hidden =>
    apply h.tombstone rfl fun a ha => (mem_delete.1 ha).1
    intro a ha r hr hsh
    have hd := any_eq_false.1 (mem_delete.1 ha).2 r hr
    rw [decide_eq_true hsh.object.symm, Bool.true_and] at hd
    rw [hd]
    rfl
  | reopened =>
    intro a ha
    obtain ⟨r, hr, hst, hid, hb, hk⟩ := mem_rebuildIndex_active ha
    exact ⟨r, hr, ⟨hid.symm, hb.symm, hk.symm⟩, hst⟩

end

end ActiveCommitted

namespace MetadataStore

theorem endReception_staged {s : MetadataStore} {id : Uuid} {hf}
    (hr : r ∈ (s.endReception id p f hf).2.objectManifests) (hst : r.commitState = .staging) :
    r.objectId ≠ id ∨ (s.endReception id p f hf).2 = s := by
  unfold endReception at hr ⊢
  dsimp only at hr ⊢
  split at hr
  · left
    intro hid
    have hd := (mem_delete.1 hr).2
    simp [hid, hst] at hd
  · rename_i hl
    rw [if_neg hl]
    exact .inr rfl

theorem CommitsRow.staged_ne
    (h : CommitsRow s s' operation transfer subject now r m) (hr : r' ∈ s'.objectManifests)
    (hst : r'.commitState = .staging) : r'.objectId ≠ operation := by
  intro hid
  have hp : r.publish m now ∈ s'.objectManifests := by
    rw [h.rows]
    exact mem_of_update_true rfl h.row (decide_eq_true (h.own.trans h.object.symm))
  have he : r' = r.publish m now := eq_of_key_eq hr hp (hid.trans h.own.symm)
  rw [he] at hst
  cases hst

end MetadataStore

theorem Survives.underway (h : Survives s' j) : s'.Underway j.id j.bucket := by
  obtain ⟨j', hj', he, hl⟩ := h
  simp only [Prod.mk.injEq] at he
  exact ⟨j', hj', he.1, he.2.1, hl⟩

namespace StagedUnderway

theorem committed (hc : Coherent s) (ho : ∀ j ∈ s.transferJobs, j.OneId)
    (ht : ∀ job lease, transfer = some (job, lease) → job = operation)
    (hm : s.commitManifestInner fromStr operation transfer subject now = .ok (m', s'))
    (hr : r ∈ s'.objectManifests) (hst : r.commitState = .staging) (hj : j ∈ s.transferJobs)
    (hid : r.objectId = operation) (hl : j.state.terminal = false) : Survives s' j := by
  rcases commitManifestInner_commits hc ho ht hm with rfl | ⟨o, m, hcr⟩
  · exact .of_eq rfl hj hl
  · exact absurd hid (hcr.staged_ne hr hst)

theorem survives {op : StoreOp} (hc : Coherent s) (ho : ∀ j ∈ s.transferJobs, j.OneId)
    (hs : StoreStep fromStr op s s') (hr : r ∈ s.objectManifests) (hr' : r ∈ s'.objectManifests)
    (hst : r.commitState = .staging) (hj : j ∈ s.transferJobs) (hid : r.objectId = j.id)
    (hl : j.state.terminal = false) (ha : op.abandons s j = false) : Survives s' j := by
  rcases StoreOp.job_survives ho hs hj hl with h | he
  · exact h
  cases he with
  | dropped hd =>
    cases op with
    | failReception | rejectTransferForQuota =>
      cases hs
      rcases endReception_staged hr' hst with hne | heq
      · exact absurd (hid.trans (of_decide_eq_true hd)) hne
      · exact .of_eq (congrArg MetadataStore.transferJobs heq) hj hl
    | finishPartJob id lease now =>
      obtain ⟨⟨upload, number⟩, hm, hf⟩ := Option.bind_eq_some_iff.1 hs
      simp only [StoreOp.endsTransfer, hm, Bool.and_eq_true, bne_iff_ne] at hd
      have hgone := (finishPartJob_gone hd.1 (after_eq_some.1 hf) hr').2 j hj hd.2
      exact absurd (hid.trans (ho j hj).object.symm) hgone
    | transferAction | beginConnectionRemoval => cases hd
    | _ => exact absurd (ha.symm.trans hd) Bool.false_ne_true
  | cancelled now hop hw =>
    subst hop
    simp [StoreOp.abandons, hw] at ha
  | removed job files now hop hcon =>
    subst hop
    obtain ⟨objects, rfl⟩ := beginConnectionRemoval_ok (after_eq_some.1 hs)
    simp only [StoreOp.abandons, hcon, decide_true, Bool.true_and, Bool.not_eq_false'] at ha
    obtain ⟨o, hom, hp⟩ := any_eq_true.1 ha
    simp only [Bool.and_eq_true, decide_eq_true_eq] at hp
    obtain rfl : o = r := eq_of_key_eq hom hr (hp.1.trans hid.symm)
    have hhid : (_ : ManifestRow) ∈ (s.hideConnection job files objects now).objectManifests :=
      mem_of_update_true rfl hr (by simp [hp.2, hst])
    rw [eq_of_key_eq hr' hhid rfl] at hst
    cases hst
  | published hp =>
    cases op with
    | commitManifest operation now =>
      obtain ⟨⟨m', s₁⟩, hm, rfl⟩ := map_ok.1 (after_eq_some.1 hs)
      exact committed hc ho (fun _ _ ht => by cases ht) hm hr' hst hj
        (hid.trans (Option.some.inj hp).symm) hl
    | commitTransferManifest id lease subject now =>
      obtain ⟨⟨m', s₁⟩, hm, rfl⟩ := map_ok.1 (after_eq_some.1 hs)
      exact committed hc ho (fun _ _ ht => by cases ht; rfl) hm hr' hst hj
        (hid.trans (Option.some.inj hp).symm) hl
    | finishPartJob id lease now =>
      obtain ⟨⟨upload, number⟩, -, hf⟩ := Option.bind_eq_some_iff.1 hs
      obtain rfl : id = j.id := Option.some.inj hp
      by_cases hn : number = 0
      · subst hn
        obtain ⟨operation, m', hop, hm⟩ := finishPartJob_zero (after_eq_some.1 hf)
        obtain ⟨i, hi, hio⟩ := Option.bind_eq_some_iff.1 hop
        obtain rfl : i = j :=
          eq_of_key_eq (mem_of_get? hi) hj (key_of_get? hi)
        have hown := (ho i hj).operation operation hio
        exact committed hc ho (fun _ _ ht => by cases ht) hm hr' hst hj (hid.trans hown.symm) hl
      · exact absurd hid (finishPartJob_gone hn (after_eq_some.1 hf) hr').1
    | _ => cases hp

theorem call {op : StoreOp} (h : StagedUnderway s) (hc : Coherent s)
    (ho : ∀ j ∈ s.transferJobs, j.OneId) (hs : StoreStep fromStr op s s')
    (hw : op.StagesUnderway s) (ha : ∀ j ∈ s.transferJobs, j.state.terminal = false →
      op.abandons s j = true → ¬ s.Staged j.id) : StagedUnderway s' := by
  intro r hr' hst
  cases StoreOp.row_step hc ho hs hr' with
  | kept hr =>
    obtain ⟨j, hj, hid, hb, hl⟩ := h r hr hst
    rw [← hid, ← hb]
    apply Survives.underway
    apply survives hc ho hs hr hr' hst hj hid.symm hl
    exact Bool.eq_false_iff.2 fun hab => ha j hj hl hab ⟨r, hr, hid.symm, hst⟩
  | staged kind m now hop he =>
    subst hop he
    have hj : s'.transferJobs = s.transferJobs := StoreOp.frame hs .jobs rfl
    obtain ⟨j, hjm, hid, hb, hl⟩ := hw.1
    exact ⟨j, hj ▸ hjm, hid, hb, hl⟩
  | published o m now _ _ _ _ he =>
    subst he
    cases hst
  | tombstoned o now _ he =>
    subst he
    cases hst
  | moved o state now _ hop he =>
    subst hop he
    exact absurd hst hw
  | written o m hom hop hid he =>
    subst hop he
    cases hs
    exact h o hom ((hw o hom hid).symm.trans hst)

end StagedUnderway

structure Tidy (s : MetadataStore) : Prop where
  coherent : Coherent s
  oneId : ∀ j ∈ s.transferJobs, j.OneId
  active : ActiveCommitted s
  staged : StagedUnderway s

namespace Tidy

theorem init (h : EmptyStore s) : Tidy s where
  coherent := h.objects.coherent
  oneId j hj := by
    rw [h.jobs] at hj
    cases hj
  active a ha := by
    rw [h.objects.active] at ha
    cases ha
  staged r hr := by
    rw [h.objects.manifests] at hr
    cases hr

theorem connect (h : Tidy s) : ActiveCommitted (s.setTelegramBootstrapSettings fresh chat) ∧
      StagedUnderway (s.setTelegramBootstrapSettings fresh chat) := by
  constructor
  · intro a ha
    obtain ⟨r, hr, hs, hc⟩ := h.active a ha
    cases hp : decide (r.connectionId = "legacy") with
    | true =>
      exact ⟨_, mem_of_update_true rfl hr hp, ⟨hs.object, hs.bucket, hs.key⟩, hc⟩
    | false => exact ⟨r, mem_of_update_false rfl hr hp, hs, hc⟩
  · have hjobs : ∀ object bucket, s.Underway object bucket →
        (s.setTelegramBootstrapSettings fresh chat).Underway object bucket := by
      rintro object bucket ⟨j, hj, hid, hb, hl⟩
      cases hp : decide (j.connectionId = "legacy") with
      | true => exact ⟨_, mem_of_update_true rfl hj hp, hid, hb, hl⟩
      | false => exact ⟨j, mem_of_update_false rfl hj hp, hid, hb, hl⟩
    intro r hr hst
    rcases of_mem_update rfl hr with ⟨o, ho, -, rfl⟩ | ⟨hr, -⟩
    · exact hjobs _ _ (h.staged o ho hst)
    · exact hjobs _ _ (h.staged r hr hst)

theorem step (h : Tidy s) (hs : ConnectionStep fromStr a s s') (hc : EndsClean a s) : Tidy s' := by
  rcases hs.cases with ⟨op, rfl, hop, hw⟩ | hre
  · exact ⟨h.coherent.step hop hw, StoreOp.oneId_step h.oneId hop,
      h.active.call h.coherent h.oneId hop hc.1,
      h.staged.call h.coherent h.oneId hop hc.1 hc.2⟩
  · suffices ActiveCommitted s' ∧ StagedUnderway s' from
      ⟨hre.coherent h.coherent, hre.oneId h.oneId, this.1, this.2⟩
    cases a with
    | call op =>
      obtain ⟨hop, -⟩ := StoreOp.serve_eq_some hs
      exact ⟨h.active.call h.coherent h.oneId hop hc.1,
        h.staged.call h.coherent h.oneId hop hc.1 hc.2⟩
    | setTelegramBootstrapSettings fresh chat =>
      cases hs
      exact h.connect
    | clearTelegramBootstrapSettings | clearActiveConnectionId | finishConnectionRemoval =>
      cases hs
      exact ⟨h.active, h.staged⟩
    | deleteTelegramAccount id =>
      obtain rfl := deleteTelegramAccount_ok (after_eq_some.1 hs)
      exact ⟨h.active, h.staged⟩
    | purgeConnectionOperations connectionId =>
      cases hs
      refine ⟨h.active, ?_⟩
      intro r hr hst
      obtain ⟨j, hj, hid, hb, hl⟩ := h.staged r hr hst
      refine ⟨j, mem_delete.2 ⟨hj, decide_eq_false ?_⟩, hid, hb, hl⟩
      exact fun hcon => hc j hj hl hcon ⟨r, hr, hid.symm, hst⟩

section
variable (h : Tidy s) (he : s.Emptied bucket)
include h he

theorem emptied_rows (hr : r ∈ s.objectManifests) (hb : r.bucket = bucket) :
    r.commitState = .tombstoned := by
  apply he.versions r hr hb
  intro hst
  obtain ⟨j, hj, -, hjb, hl⟩ := h.staged r hr hst
  rw [he.transfers j hj (hjb.trans hb)] at hl
  cases hl

theorem emptied_active (ha : a ∈ s.activeObjects) : a.bucket ≠ bucket := by
  intro hb
  obtain ⟨r, hr, hs, hc⟩ := h.active a ha
  rw [h.emptied_rows he hr (hs.bucket.symm.trans hb)] at hc
  cases hc

theorem deleteBucket (ho : s.Owns bucket) (now : OffsetDateTime) :
    ∃ s', s.deleteBucket bucket now = .ok s' := by
  have hj : (s.transferJobs.any fun j => j.bucket = bucket && !j.state.settled) = false := by
    apply any_eq_false.2
    intro j hj
    by_cases hb : j.bucket = bucket
    · rw [he.transfers j hj hb]
      exact Bool.and_false _
    · rw [decide_eq_false hb]
      rfl
  have ha : s.activeObjects.any (fun a => a.bucket = bucket) = false := by
    apply any_eq_false.2
    exact fun a ha => decide_eq_false (h.emptied_active he ha)
  have hr : (s.objectManifests.any fun r => r.bucket = bucket && r.commitState.pending) =
      false := by
    apply any_eq_false.2
    intro r hr
    by_cases hb : r.bucket = bucket
    · rw [h.emptied_rows he hr hb]
      exact Bool.and_false _
    · rw [decide_eq_false hb]
      rfl
  have hb : (s.buckets.any fun b => b.name = bucket && b.deletedAt.isNone &&
      b.connectionId = s.activeConnectionId) = true := by
    obtain ⟨b, hbm, hn, hd, hcon⟩ := ho
    refine any_eq_true.2 ⟨b, hbm, ?_⟩
    simp [hn, hd, hcon]
  unfold MetadataStore.deleteBucket
  simp only [hj, ha, hr, hb, Bool.not_false, Bool.or_self]
  exact ⟨_, rfl⟩

end

end Tidy

/-- In a run that ends its transfers without staged rows left, an emptied bucket can be deleted. -/
theorem emptied_bucket_deletable (fromStr : String → Option ETagCondition) :
    EmptiedDeletable (Guarded (ConnectionStep fromStr) EndsClean) := by
  intro past s hrun bucket he ho now
  have ht : Tidy s := hrun.invariant (fun _ => .init) fun _ _ _ h hs => h.step hs.1 hs.2
  exact ht.deleteBucket he ho now

def abandonedUpload : List ConnectionAction :=
  [.call (.beginTransfer ⟨1⟩ "photos" "a" 0),
    .call (.stageManifest .put (emptyObject ⟨1⟩ "photos" "a") (instant 0)),
    .call (.queueTransfer ⟨1⟩ 0 0), .call (.transferAction ⟨1⟩ "cancel" 1),
    .call (.cleanupCompletedStaging 1)]

def abandonedUploadRun : List MetadataStore × MetadataStore :=
  (exec (ConnectionAction.apply fun _ => none) [] photosStore abandonedUpload).get
    (by decide +kernel)

/-- The staged row of a cancelled upload keeps its bucket from being deleted. -/
theorem cancelled_upload_keeps_bucket : ¬ EmptiedDeletable (ConnectionStep fun _ => none) := by
  intro h
  have hr : Run EmptyStore (ConnectionStep fun _ => none) abandonedUploadRun.1
      abandonedUploadRun.2 := Run.of_exec_isSome ⟨⟨rfl, rfl, rfl⟩, rfl, rfl⟩ (by decide +kernel)
  have hv : ∀ r ∈ abandonedUploadRun.2.objectManifests.rows, r.bucket = "photos" →
      r.commitState ≠ .staging → r.commitState = .tombstoned := by decide +kernel
  have ht : ∀ j ∈ abandonedUploadRun.2.transferJobs.rows, j.bucket = "photos" →
      j.state = .cleaned := by decide +kernel
  have ho : ∃ b ∈ abandonedUploadRun.2.buckets.rows, b.name = "photos" ∧ b.deletedAt = none ∧
      b.connectionId = abandonedUploadRun.2.activeConnectionId := by decide +kernel
  obtain ⟨s', hs'⟩ := h _ _ hr "photos" ⟨hv, ht⟩ ho (instant 2)
  have hn : (after (abandonedUploadRun.2.deleteBucket "photos" (instant 2))).isSome = false := by
    decide +kernel
  rw [hs'] at hn
  cases hn

end TelegramS3
