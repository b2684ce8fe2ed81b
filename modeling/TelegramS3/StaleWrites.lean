import TelegramS3.Run
import TelegramS3.Tombstones

namespace TelegramS3
open Relational Table Fallible Transition MetadataStore
set_option autoImplicit true

/-- A worker between reading a manifest and writing it back. -/
inductive ManifestTask where
  | replicate (m : ObjectManifest)
  | inspect (m : ObjectManifest)
  | publish (m : ObjectManifest)
  deriving DecidableEq

def ManifestTask.manifest : ManifestTask → ObjectManifest
  | .replicate m | .inspect m | .publish m => m

/-- The last call of a task: a manifest written back with new locations, or a commit. -/
def ManifestTask.write (t : ManifestTask) (chunks : List ChunkRef) (telegram : TelegramLocation)
    (lease : Uuid) (now : OffsetDateTime) (s : MetadataStore) : Option StoreOp :=
  match t with
  | .replicate m => some (.updateManifest { m with chunks })
  | .inspect m => if chunks = m.chunks then none else some (.updateManifest { m with chunks })
  | .publish m =>
    let published := { m with chunks, telegram, commitState := .staging }
    if (s.multipartJob m.objectId).any fun part => 0 < part.2 then
      some (.updateManifest published)
    else some (.commitTransferManifest m.objectId lease published now)

structure ManifestWorld where
  store : MetadataStore := {}
  issued : List Uuid := []
  tasks : List ManifestTask := []

inductive ManifestAction where
  | call (op : StoreOp)
  | startReplication (bucket : String) (keys : List String) (now : OffsetDateTime)
  | startInspection
  | startPublication (object : Uuid)
  | finish (t : ManifestTask) (chunks : List ChunkRef) (telegram : TelegramLocation)
      (lease : Uuid) (now : OffsetDateTime)

/-- The calls that belong to a task, which has read what it writes. -/
def StoreOp.ofTask : StoreOp → Bool
  | .updateManifest .. | .commitTransferManifest .. => true
  | _ => false

/-- Manifests are written back by tasks only, and every object is staged under a fresh id. -/
def ManifestAction.apply (fromStr : String → Option ETagCondition) (a : ManifestAction)
    (w : ManifestWorld) : Option ManifestWorld :=
  match a with
  | .call op =>
    if op.ofTask || op.stagedObject.any (· ∈ w.issued) then none
    else (op.apply fromStr w.store).map fun s =>
      { w with store := s, issued := op.stagedObject.toList ++ w.issued }
  | .startReplication bucket keys now =>
    (after (w.store.listBucketManifests bucket)).map fun l =>
      { w with
        tasks := w.tasks ++ (l.filter fun m =>
          !m.isExpired now && (keys.isEmpty || m.key ∈ keys)).map ManifestTask.replicate }
  | .startInspection =>
    (after w.store.listManifests).map fun l =>
      { w with
        tasks := w.tasks ++ ((l.take 100).filter fun m =>
          m.commitState = .committed).map ManifestTask.inspect }
  | .startPublication object =>
    (after (w.store.getManifest object)).bind fun loaded => loaded.map fun m =>
      { w with tasks := w.tasks ++ [.publish m] }
  | .finish t chunks telegram lease now =>
    if t ∈ w.tasks then
      match t.write chunks telegram lease now w.store with
      | none => some { w with tasks := w.tasks.erase t }
      | some op => (op.apply fromStr w.store).map fun s =>
        { w with store := s, tasks := w.tasks.erase t }
    else none

def ManifestStep (fromStr : String → Option ETagCondition) (a : ManifestAction)
    (w w' : ManifestWorld) : Prop :=
  a.apply fromStr w = some w'

def ManifestWorld.Initial (w : ManifestWorld) : Prop := w = {}

/-- In every run, a tombstoned object is never committed or active again, even by a rebuild. -/
def TombstonesFinal (Step : ManifestAction → ManifestWorld → ManifestWorld → Prop) : Prop :=
  ∀ past w, Run ManifestWorld.Initial Step past w →
    ∀ t ∈ w :: past, ∀ object, Tombstoned t.store object →
      (∀ r ∈ w.store.objectManifests, r.objectId = object → r.commitState ≠ .committed) ∧
      (∀ a ∈ w.store.activeObjects, a.objectId ≠ object) ∧
      ∀ now, ∀ a ∈ (w.store.rebuildIndex now).activeObjects, a.objectId ≠ object

/-- Manifests are committed, set to a state and written back only while not tombstoned. -/
def WritesLiveOnly (a : ManifestAction) (w : ManifestWorld) : Prop :=
  match a with
  | .call op => WritesLive op w.store
  | .finish t .. => Live w.store t.manifest.objectId
  | _ => True

/-- What a task holds was read from the row of an object under the key it still has. -/
structure ManifestTask.Held (w : ManifestWorld) (t : ManifestTask) : Prop where
  issued : t.manifest.objectId ∈ w.issued
  keys : ∀ r ∈ w.store.objectManifests, r.objectId = t.manifest.objectId →
    t.manifest.bucket = r.bucket ∧ t.manifest.key = r.objectKey
  state : (∀ m, t ≠ .publish m) → t.manifest.commitState ≠ .tombstoned

structure ManifestWorld.Sound (w : ManifestWorld) : Prop where
  coherent : Coherent w.store
  shown : Shown w.store
  rows : ∀ r ∈ w.store.objectManifests, r.objectId ∈ w.issued
  active : ∀ a ∈ w.store.activeObjects, a.objectId ∈ w.issued
  tasks : ∀ t ∈ w.tasks, t.Held w

/-- The object was tombstoned, and nothing but tombstones is left of it. -/
structure ManifestWorld.Dead (w : ManifestWorld) (object : Uuid) : Prop where
  issued : object ∈ w.issued
  rows : ∀ r ∈ w.store.objectManifests, r.objectId = object → r.commitState = .tombstoned
  active : ∀ a ∈ w.store.activeObjects, a.objectId ≠ object

namespace ManifestWorld

theorem Sound.dead (h : Sound w) (ht : Tombstoned w.store object) : w.Dead object := by
  obtain ⟨r, hr, hid, hst⟩ := ht
  constructor
  · rw [← hid]
    exact h.rows r hr
  · intro r' hr' hid'
    have he : r' = r := eq_of_key_eq hr' hr (hid'.trans hid.symm)
    rw [he]
    exact hst
  · intro a ha
    rw [← hid]
    exact h.shown.hidden r hr hst a ha

theorem Sound.spare (h : Sound w) (hs : SparesTombstones w.store s')
    (hc : Coherent s') (ht : ∀ t ∈ l, t ∈ w.tasks) :
    Sound { w with store := s', tasks := l } where
  coherent := hc
  shown := hs.shown h.shown
  rows r' hr' := by
    obtain ⟨r, hr, hk⟩ := hs.rows r' hr'
    rw [hk.objectId]
    exact h.rows r hr
  active a' ha' := by
    rcases hs.active a' ha' with ⟨a, ha, ho, -, -⟩ | ⟨r, hr, ho, -, -, -⟩
    · rw [← ho]
      exact h.active a ha
    · rw [← ho]
      exact h.rows r hr
  tasks t htt := by
    have hh := h.tasks t (ht t htt)
    refine ⟨hh.issued, ?_, hh.state⟩
    intro r' hr' hid
    obtain ⟨r, hr, hk⟩ := hs.rows r' hr'
    rw [hk.bucket, hk.key]
    exact hh.keys r hr (hk.objectId.symm.trans hid)

theorem Dead.spare (h : Dead w object)
    (hs : SparesTombstones w.store s') : Dead { w with store := s', tasks := l } object where
  issued := h.issued
  rows r' hr' hid := by
    obtain ⟨r, hr, hk⟩ := hs.rows r' hr'
    exact hk.tombstone (h.rows r hr (hk.objectId.symm.trans hid))
  active a' ha' := by
    rcases hs.active a' ha' with ⟨a, ha, ho, -, -⟩ | ⟨r, hr, ho, -, -, ht⟩
    · rw [← ho]
      exact h.active a ha
    · intro he
      exact ht (h.rows r hr (ho.trans he))

theorem Sound.stage (h : Sound w) (hn : m.objectId ∉ w.issued) :
    Sound { w with store := w.store.stageRows kind m now, issued := m.objectId :: w.issued } where
  coherent := stageRows_coherent h.coherent kind m now
  shown := by
    constructor
    · intro a ha r hr hid
      rcases mem_upsert.1 hr with rfl | ⟨hr, -⟩
      · have hid' : m.objectId = a.objectId := hid
        exact absurd (hid' ▸ h.active a ha) hn
      · exact h.shown.keys a ha r hr hid
    · intro r hr ht
      rcases mem_upsert.1 hr with rfl | ⟨hr, -⟩
      · cases ht
      · exact h.shown.hidden r hr ht
  rows r hr := by
    rcases mem_upsert.1 hr with rfl | ⟨hr, -⟩
    · exact List.mem_cons_self
    · exact List.mem_cons_of_mem _ (h.rows r hr)
  active a ha := List.mem_cons_of_mem _ (h.active a ha)
  tasks t ht := by
    have hh := h.tasks t ht
    refine ⟨List.mem_cons_of_mem _ hh.issued, ?_, hh.state⟩
    intro r hr hid
    rcases mem_upsert.1 hr with rfl | ⟨hr, -⟩
    · have hid' : m.objectId = t.manifest.objectId := hid
      exact absurd (hid' ▸ hh.issued) hn
    · exact hh.keys r hr hid

theorem Dead.stage (h : Dead w object) (hn : m.objectId ∉ w.issued) :
    Dead { w with store := w.store.stageRows kind m now, issued := m.objectId :: w.issued }
      object where
  issued := List.mem_cons_of_mem _ h.issued
  rows r hr hid := by
    rcases mem_upsert.1 hr with rfl | ⟨hr, -⟩
    · have hid' : m.objectId = object := hid
      exact absurd (hid' ▸ h.issued) hn
    · exact h.rows r hr hid
  active := h.active

theorem Sound.held {t : ManifestTask} (h : Sound w) (hr : r ∈ w.store.objectManifests)
    (hm : r.manifest = t.manifest)
    (hst : (∀ m, t ≠ .publish m) → r.commitState ≠ .tombstoned) : t.Held w := by
  have hc := h.coherent.rows r hr
  constructor
  · rw [← hm, hc.objectId]
    exact h.rows r hr
  · intro r' hr' hid
    rw [← hm] at hid ⊢
    have he : r' = r := eq_of_key_eq hr' hr (hid.trans hc.objectId)
    rw [he]
    exact ⟨hc.bucket, hc.key⟩
  · rw [← hm, hc.state]
    exact hst

theorem Sound.read (h : Sound w) (hl : ∀ t ∈ l, t.Held w) :
    Sound { w with tasks := w.tasks ++ l } where
  coherent := h.coherent
  shown := h.shown
  rows := h.rows
  active := h.active
  tasks t ht := by
    have hh : t.Held w := by
      rcases List.mem_append.1 ht with ht | ht
      · exact h.tasks t ht
      · exact hl t ht
    exact ⟨hh.issued, hh.keys, hh.state⟩

end ManifestWorld

open ManifestWorld

theorem ManifestTask.Held.writesLive {t : ManifestTask} (h : t.Held w)
    (hl : Live w.store t.manifest.objectId)
    (hw : t.write chunks telegram lease now w.store = some op) :
    WritesLive op w.store ∧ WritesOwnManifest op w.store ∧ op.stagedObject = none := by
  have hk := h.keys
  cases t with
  | replicate m =>
    cases hw
    refine ⟨⟨hl, h.state nofun⟩, ?_, rfl⟩
    intro m' hm'
    cases hm'
    exact hk
  | inspect m =>
    simp only [write] at hw
    split at hw
    · cases hw
    · cases hw
      refine ⟨⟨hl, h.state nofun⟩, ?_, rfl⟩
      intro m' hm'
      cases hm'
      exact hk
  | publish m =>
    simp only [write] at hw
    split at hw
    · cases hw
      refine ⟨⟨hl, by simp⟩, ?_, rfl⟩
      intro m' hm'
      cases hm'
      exact hk
    · cases hw
      exact ⟨hl, fun _ hm => (by cases hm), rfl⟩

theorem ManifestWorld.Sound.step (h : Sound w) (hs : ManifestStep fromStr a w w')
    (hc : WritesLiveOnly a w) :
    Sound w' ∧ ∀ object, w.Dead object → w'.Dead object := by
  cases a with
  | startReplication bucket keys now =>
    obtain ⟨l, hl, rfl⟩ := Option.map_eq_some_iff.1 hs
    refine ⟨h.read ?_, fun _ hd => ⟨hd.issued, hd.rows, hd.active⟩⟩
    intro t ht
    obtain ⟨m, hm, rfl⟩ := List.mem_map.1 ht
    obtain ⟨r, hr, hrm⟩ := mem_readManifests (after_eq_some.1 hl) (List.mem_filter.1 hm).1
    obtain ⟨a, ha, hget⟩ := List.mem_filterMap.1 (List.mem_filter.1 hr).1
    have ham := (mem_select.1 ((List.perm_insertionSort _ _).mem_iff.1 ha)).1
    refine h.held (mem_of_get? hget) hrm ?_
    intro _ ht
    exact h.shown.hidden r (mem_of_get? hget) ht a ham (key_of_get? hget).symm
  | startInspection =>
    obtain ⟨l, hl, rfl⟩ := Option.map_eq_some_iff.1 hs
    refine ⟨h.read ?_, fun _ hd => ⟨hd.issued, hd.rows, hd.active⟩⟩
    intro t ht
    obtain ⟨m, hm, rfl⟩ := List.mem_map.1 ht
    obtain ⟨hm, hst⟩ := List.mem_filter.1 hm
    obtain ⟨r, hr, rfl⟩ := mem_readManifests (after_eq_some.1 hl) (List.mem_of_mem_take hm)
    have hrm := (mem_select.1 ((List.perm_insertionSort _ _).mem_iff.1 hr)).1
    refine h.held hrm rfl ?_
    intro _ ht
    have hco := (h.coherent.rows r hrm).state
    simp [hco, ht] at hst
  | startPublication object =>
    obtain ⟨loaded, hl, hs⟩ := Option.bind_eq_some_iff.1 hs
    obtain ⟨m, rfl, rfl⟩ := Option.map_eq_some_iff.1 hs
    refine ⟨h.read ?_, fun _ hd => ⟨hd.issued, hd.rows, hd.active⟩⟩
    intro t ht
    rw [List.mem_singleton.1 ht]
    obtain ⟨r, hr, hrm⟩ := loadManifestByObjectId_ok (after_eq_some.1 hl)
    exact h.held (mem_of_get? hr) hrm fun hn => absurd rfl (hn m)
  | finish t chunks telegram lease now =>
    simp only [ManifestStep, ManifestAction.apply] at hs
    split at hs
    · rename_i ht
      split at hs
      · cases hs
        have hsp : SparesTombstones w.store w.store :=
          .of_subset h.shown (fun _ hr => hr) fun _ ha => ha
        exact ⟨h.spare hsp h.coherent fun t ht => List.mem_of_mem_erase ht, fun _ hd => hd.spare hsp⟩
      · rename_i op hop
        obtain ⟨s', hs', rfl⟩ := Option.map_eq_some_iff.1 hs
        obtain ⟨hl, ho, hn⟩ := (h.tasks t ht).writesLive hc hop
        have hsp := StoreOp.spares_tombstones h.coherent h.shown hs' hl hn
        exact ⟨h.spare hsp (h.coherent.step hs' ho) fun t ht => List.mem_of_mem_erase ht,
          fun _ hd => hd.spare hsp⟩
    · cases hs
  | call op =>
    simp only [ManifestStep, ManifestAction.apply] at hs
    split at hs
    · cases hs
    · rename_i hn
      simp only [Bool.or_eq_true, not_or, Bool.not_eq_true] at hn
      obtain ⟨s', hs', rfl⟩ := Option.map_eq_some_iff.1 hs
      cases hst : op.stagedObject with
      | none =>
        have hw : op.writtenBack = none := by
          cases op with
          | updateManifest => cases hn.1
          | _ => rfl
        have hsp := StoreOp.spares_tombstones h.coherent h.shown hs' hc hst
        have hco := h.coherent.step hs' fun m hm => by rw [hw] at hm; cases hm
        exact ⟨h.spare hsp hco fun _ ht => ht, fun _ hd => hd.spare hsp⟩
      | some object =>
        obtain ⟨kind, m, now, rfl, rfl⟩ := StoreOp.stagedObject_eq_some hst
        obtain ⟨-, rfl⟩ := stageManifest_ok (after_eq_some.1 hs')
        have hf : m.objectId ∉ w.issued := by simpa [hst] using hn.2
        exact ⟨h.stage hf, fun _ hd => hd.stage hf⟩

theorem tombstones_final (fromStr : String → Option ETagCondition) :
    TombstonesFinal (Guarded (ManifestStep fromStr) WritesLiveOnly) := by
  intro past w hr t ht object hto
  have hi : w.Sound ∧ ∀ t ∈ past, ∀ object, Tombstoned t.store object → w.Dead object := by
    refine hr.history_invariant
      (I := fun past w => w.Sound ∧ ∀ t ∈ past, ∀ object, Tombstoned t.store object →
        w.Dead object) ?_ ?_
    · rintro w rfl
      have hn : NoObjects ({} : MetadataStore) := ⟨rfl, rfl, rfl⟩
      refine ⟨⟨hn.coherent, ⟨?_, ?_⟩, ?_, ?_, ?_⟩, ?_⟩ <;> intro x hx <;> cases hx
    · intro past a w w' ⟨hs, hd⟩ hstep
      obtain ⟨hs', hd'⟩ := hs.step hstep.1 hstep.2
      refine ⟨hs', ?_⟩
      intro t ht object hto
      rcases List.mem_cons.1 ht with rfl | ht
      · exact hd' object (hs.dead hto)
      · exact hd' object (hd t ht object hto)
  have hd : w.Dead object := by
    rcases List.mem_cons.1 ht with rfl | ht
    · exact hi.1.dead hto
    · exact hi.2 t ht object hto
  refine ⟨?_, hd.active, ?_⟩
  · intro r hr hid hc
    rw [hd.rows r hr hid] at hc
    cases hc
  · intro now a ha hid
    obtain ⟨r, hr, hc, ho, -, -⟩ := mem_rebuildIndex_active ha
    rw [hd.rows r hr (ho.trans hid)] at hc
    cases hc

/-- An object is deleted while a replication job that read it is under way. -/
def deletedDuringReplication : List ManifestAction :=
  let m := emptyObject ⟨1⟩ "photos" "a.jpg"
  [.call (.stageManifest .put m (instant 1)), .call (.commitManifest ⟨1⟩ (instant 2)),
    .startReplication "photos" [] (instant 3),
    .call (.deleteActiveKey "photos" "a.jpg" "deleted via S3" {} (instant 4)),
    .finish (.replicate (m.withState .committed)) [] m.telegram ⟨0⟩ (instant 5)]

def deletedDuringReplicationRun : List ManifestWorld × ManifestWorld :=
  (exec (ManifestAction.apply fun _ => none) [] {} deletedDuringReplication).get (by decide)

/-- The job writes its snapshot back and the deleted object is committed again. -/
theorem replication_revives_tombstone : ¬ TombstonesFinal (ManifestStep fun _ => none) := by
  intro h
  have hi : ManifestWorld.Initial {} := rfl
  have hr : Run ManifestWorld.Initial (ManifestStep fun _ => none)
      deletedDuringReplicationRun.1 deletedDuringReplicationRun.2 :=
    Run.of_exec_isSome hi (by decide)
  obtain ⟨t, ht, r, hrt, hid, hst⟩ : ∃ t ∈ deletedDuringReplicationRun.2 ::
      deletedDuringReplicationRun.1, ∃ r ∈ t.store.objectManifests.rows,
        r.objectId = ⟨1⟩ ∧ r.commitState = .tombstoned := by decide
  obtain ⟨r', hr', hid', hst'⟩ : ∃ r ∈ deletedDuringReplicationRun.2.store.objectManifests.rows,
      r.objectId = ⟨1⟩ ∧ r.commitState = .committed := by decide
  exact (h _ _ hr t ht ⟨1⟩ ⟨r, hrt, hid, hst⟩).1 r' hr' hid' hst'

end TelegramS3
