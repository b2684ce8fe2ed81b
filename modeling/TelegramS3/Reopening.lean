import TelegramS3.Run
import TelegramS3.ActiveIndex

namespace TelegramS3
open Relational Table Fallible Transition Versioned MetadataStore
set_option autoImplicit true

/-- If the object is what its key shows, no other version of the key is committed. -/
def SoleVersion (s : MetadataStore) (object : Uuid) : Prop :=
  ∀ a ∈ s.activeObjects, a.objectId = object → ∀ r ∈ s.objectManifests,
    r.commitState = .committed → r.bucket = a.bucket → r.objectKey = a.objectKey →
      r.objectId = object

/-- The row comes after the other committed versions of its key in the order of a rebuild. -/
def SortsLast (s : MetadataStore) (row : ManifestRow) : Prop :=
  ∀ r ∈ s.objectManifests, r.commitState = .committed → r.bucket = row.bucket →
    r.objectKey = row.objectKey → r.objectId ≠ row.objectId → r.commitsBefore row = true

/-- What the active objects of a connection hide all belongs to the connection. -/
def SoleConnection (s : MetadataStore) : Prop :=
  ∀ a ∈ s.activeObjects, ∀ row ∈ s.objectManifests, row.objectId = a.objectId →
    row.connectionId = s.activeConnectionId → ∀ r ∈ s.objectManifests,
      r.commitState = .committed → r.bucket = a.bucket → r.objectKey = a.objectKey →
        r.connectionId = s.activeConnectionId

/-- The calls that stage, commit, hide and index objects, and those that touch none of it. -/
def StoreOp.managesVisibility : StoreOp → Bool
  | .failReception .. | .rejectTransferForQuota .. | .updateManifest .. | .finishPartJob .. => false
  | _ => true

/-- A key loses only its last committed version and gains one only at the end of the order. -/
def KeepsLatest (op : StoreOp) (s : MetadataStore) : Prop :=
  match op with
  | .stageManifest _ m _ => ∀ a ∈ s.activeObjects, a.objectId ≠ m.objectId
  | .commitManifest operation now | .commitTransferManifest operation _ _ now =>
    ∀ row ∈ s.objectManifests, row.objectId = operation →
      SortsLast s { row with committedAt := some now }
  | .updateManifestState object state _ =>
    if state = .committed then ∀ row ∈ s.objectManifests, row.objectId = object → SortsLast s row
    else SoleVersion s object
  | .tombstoneManifest object .. => SoleVersion s object
  | .tombstoneExpiredActiveManifests now =>
    ∀ r ∈ s.activeCommitted, r.manifest.isExpired now = true → SoleVersion s r.objectId
  | .deleteActiveKey bucket key .. =>
    ∀ object, s.activeObjectId bucket key = some object → SoleVersion s object
  | .beginConnectionRemoval .. => SoleConnection s
  | _ => True

theorem SoleVersion.eq_of_committed (h : SoleVersion s object)
    (ha : s.versions.active k = some object) (hj : s.versions.committed j = some (k, rank)) :
    j = object := by
  obtain ⟨a, ha, hb, hk, hid⟩ := activeObjectId_eq_some.1 ha
  obtain ⟨r, hr, hco, hv⟩ := versions_committed.1 hj
  obtain ⟨hrb, hrk⟩ := Prod.mk.inj (Prod.mk.inj hv).1
  have ho := h a ha hid r (mem_of_get? hr) hco (hrb.trans hb.symm) (hrk.trans hk.symm)
  have hj' : r.objectId = j := key_of_get? hr
  exact hj'.symm.trans ho

theorem SoleVersion.retract (h : SoleVersion s object)
    (hc : s.versions.Consistent) : (s.versions.retract (· = object)).Consistent := by
  apply hc.retract
  intro k i hi hp j rank hj
  have hio : i = object := of_decide_eq_true hp
  subst hio
  exact decide_eq_true (h.eq_of_committed hi hj)

theorem SortsLast.publish (h : SortsLast s row) (hc : s.versions.Consistent)
    (ho : s.objectManifests.get? object = some old) (hid : row.objectId = object)
    (hb : row.bucket = old.bucket) (hk : row.objectKey = old.objectKey) :
    (s.versions.publish object (row.bucket, row.objectKey) row.rank).Consistent := by
  apply hc.publish
  · intro j rank hj hne
    obtain ⟨r, hr, hco, hv⟩ := versions_committed.1 hj
    obtain ⟨hkey, rfl⟩ := Prod.mk.inj hv
    obtain ⟨hrb, hrk⟩ := Prod.mk.inj hkey
    have hj' : r.objectId = j := key_of_get? hr
    have hne' : r.objectId ≠ row.objectId := by
      rw [hj', hid]
      exact hne
    exact ManifestRow.rank_lt (h r (mem_of_get? hr) hco hrb hrk hne') hne'
  · intro k ha
    rw [hb, hk]
    exact (key_of_active hc ha ho).symm

theorem committedStore_versions (h : Coherent s) (he : s.operationJournal.get? operation = some e)
    (hm : s.commitSubject e.details published = .ok m) (transfer : Option (Uuid × Uuid))
    (now : OffsetDateTime) :
    ∃ row, s.objectManifests.get? operation = some row ∧
      (s.committedStore operation transfer m now).versions = s.versions.publish operation
        (row.bucket, row.objectKey) { row with committedAt := some now }.rank := by
  obtain ⟨row, hr, ho, hb, hk⟩ := commitSubject_row h he hm
  have hid : row.objectId = operation := key_of_get? hr
  refine ⟨row, hr, ?_⟩
  refine versions_publish { row with
    commitState := .committed, manifest := m.withState .committed, committedAt := some now
    tombstonedAt := none } ?_ rfl ?_ ?_
  · simp [committedStore, publishManifest, hr, hid, ho]
  · intro id hne
    simp only [committedStore, publishManifest, get?_modify]
    apply map_update_of_not
    intro r hr'
    have hrid : r.objectId = id := key_of_get? hr'
    simp [hrid, ho, hne]
  · intro bucket key
    simp only [activeObjectId, committedStore, publishManifest, get?_upsert, Keyed.key, hb, hk]
    split
    · simp [ho]
    · rfl

theorem commit_consistent (h : Coherent s) (hc : s.versions.Consistent)
    (hl : ∀ row ∈ s.objectManifests, row.objectId = operation →
      SortsLast s { row with committedAt := some now })
    (hs : s.commitManifestInner fromStr operation transfer published now = .ok (m', s')) :
    s'.versions.Consistent := by
  obtain ⟨e, he, ⟨-, rfl⟩ | ⟨m, hm, -, -, hs'⟩⟩ := commitManifestInner_ok hs
  · exact hc
  · obtain ⟨row, hr, hv⟩ := committedStore_versions h he hm transfer now
    have hid : row.objectId = operation := key_of_get? hr
    have hp := (hl row (mem_of_get? hr) hid).publish hc hr hid rfl rfl
    rw [← hv] at hp
    obtain ⟨-, rfl⟩ | ⟨upload, -, rfl⟩ := hs'
    · exact hp
    · exact hp

theorem setManifestState_consistent (h : Coherent s)
    (hc : s.versions.Consistent) (hm : s.loadManifestByObjectId object = .ok (some m))
    (hl : if state = .committed then
        ∀ row ∈ s.objectManifests, row.objectId = object → SortsLast s row
      else SoleVersion s object) :
    (s.setManifestState object m state now).versions.Consistent := by
  obtain ⟨row, hr, rfl⟩ := loadManifestByObjectId_ok hm
  have hid : row.objectId = object := key_of_get? hr
  have hco := h.rows row (mem_of_get? hr)
  split at hl
  · rename_i hst
    have hp := (hl row (mem_of_get? hr) hid).publish hc hr hid rfl rfl
    rw [versions_publish (s := s) { row with
      commitState := state, manifest := row.manifest.withState state }]
    · exact hp
    · simp [setManifestState, hr, hid]
    · exact hst
    · intro id hne
      simp only [setManifestState, get?_modify]
      apply map_update_of_not
      intro r hr'
      have hrid : r.objectId = id := key_of_get? hr'
      simp [hrid, hne]
    · intro bucket key
      simp only [activeObjectId, setManifestState, hst, if_true, get?_upsert, Keyed.key,
        hco.bucket, hco.key]
      split <;> rfl
  · rename_i hst
    rw [versions_retract (s := s) (p := (· = object))]
    · exact SoleVersion.retract hl hc
    · intro id
      by_cases hio : id = object
      · right
        refine ⟨by simpa using hio, ?_⟩
        intro r hr'
        simp only [setManifestState, get?_modify, hio, hr, Option.map_some,
          Option.some.injEq] at hr'
        rw [← hr', if_pos (by simpa using hid)]
        exact hst
      · left
        refine ⟨?_, by simpa using hio⟩
        simp only [setManifestState, get?_modify]
        apply map_update_of_not
        intro r hr'
        have hrid : r.objectId = id := key_of_get? hr'
        simp [hrid, hio]
    · intro bucket key
      simp only [activeObjectId, setManifestState, hst, if_false, get?_delete]
      cases s.activeObjects.get? (bucket, key) with
      | none => rfl
      | some a => by_cases ha : a.objectId = object <;> simp [Option.filter_some, ha]

theorem hideConnection_versions (s : MetadataStore) (job : Uuid) (deleteUploadedFiles : Bool)
    (objects : Table RemovalObjectRow) (now : OffsetDateTime) :
    (s.hideConnection job deleteUploadedFiles objects now).versions =
      s.versions.retract fun id => s.objectManifests.any fun m =>
        m.objectId = id && m.connectionId = s.activeConnectionId := by
  apply versions_retract
  · intro id
    simp only [hideConnection, get?_modify]
    cases hr : s.objectManifests.get? id with
    | none =>
      left
      refine ⟨rfl, ?_⟩
      rw [any_eq_false]
      intro r hrm
      have hne : r.objectId ≠ id := get?_eq_none.1 hr r hrm
      simp [hne]
    | some row =>
      have hrow := mem_of_get? hr
      have hid : row.objectId = id := key_of_get? hr
      by_cases hcn : row.connectionId = s.activeConnectionId
      · right
        refine ⟨?_, ?_⟩
        · rw [any_eq_true]
          exact ⟨row, hrow, by simp [hid, hcn]⟩
        · intro r hr'
          rw [Option.map_some, Option.some.injEq] at hr'
          by_cases ht : row.commitState = .tombstoned
          · rw [← hr']
            simp [hcn, ht]
          · rw [← hr']
            simp [hcn, ht]
      · left
        refine ⟨by simp [hcn], ?_⟩
        rw [any_eq_false]
        intro r hrm
        by_cases hrid : r.objectId = id
        · have he : r = row := eq_of_key_eq hrm hrow (hrid.trans hid.symm)
          subst he
          simp [hcn]
        · simp [hrid]
  · intro bucket key
    simp only [activeObjectId, hideConnection, get?_delete]
    cases s.activeObjects.get? (bucket, key) with
    | none => rfl
    | some a =>
      cases hany : s.objectManifests.any fun m =>
          decide (m.objectId = a.objectId) && decide (m.connectionId = s.activeConnectionId) with
      | false => simp [Option.filter_some, hany]
      | true => simp [Option.filter_some, hany]

theorem SoleConnection.retract (h : SoleConnection s) (hc : s.versions.Consistent) :
    (s.versions.retract fun id => s.objectManifests.any fun m =>
      m.objectId = id && m.connectionId = s.activeConnectionId).Consistent := by
  apply hc.retract
  intro k i hi hp j rank hj
  obtain ⟨a, ha, hb, hk, hid⟩ := activeObjectId_eq_some.1 hi
  obtain ⟨r, hr, hco, hv⟩ := versions_committed.1 hj
  obtain ⟨hrb, hrk⟩ := Prod.mk.inj (Prod.mk.inj hv).1
  rw [any_eq_true] at hp
  obtain ⟨row, hrow, hp⟩ := hp
  simp only [Bool.and_eq_true, decide_eq_true_eq] at hp
  have hcn := h a ha row hrow (hp.1.trans hid.symm) hp.2 r (mem_of_get? hr) hco
    (hrb.trans hb.symm) (hrk.trans hk.symm)
  rw [any_eq_true]
  refine ⟨r, mem_of_get? hr, ?_⟩
  have hj' : r.objectId = j := key_of_get? hr
  simp [hj', hcn]

theorem tombstoneExpired_versions (s : MetadataStore) (row : ManifestRow) (now : OffsetDateTime) :
    (s.tombstoneExpired row now).versions = s.versions.retract (· = row.objectId) := by
  have hm : (s.tombstoneExpired row now).objectManifests.rows = (s.tombstoneRows
    (fun r => r.objectId = row.objectId && r.commitState = .committed) row.manifest
      now).objectManifests.rows := rfl
  apply tombstone_versions hm
  · intro r hne
    simp [hne]
  · intro r hid hco
    simp [hid, hco]
  · intro bucket key
    simp only [tombstoneExpired, tombstoneJournal, dropActive, tombstoneRows, activeObjectId,
      get?_delete]
    cases s.activeObjects.get? (bucket, key) with
    | none => rfl
    | some a => by_cases ha : a.objectId = row.objectId <;> simp [Option.filter_some, ha]

theorem tombstoneExpiredActiveManifests_versions (s : MetadataStore) (now : OffsetDateTime) :
    (s.tombstoneExpiredActiveManifests now).versions = s.versions.retract fun id =>
      (s.activeCommitted.filter fun r => r.manifest.isExpired now).any fun r => r.objectId = id := by
  unfold tombstoneExpiredActiveManifests
  generalize (s.activeCommitted.filter fun r => r.manifest.isExpired now) = l
  induction l generalizing s with
  | nil => simp [Index.retract_false]
  | cons row l ih =>
    rw [List.foldl_cons, ih, tombstoneExpired_versions, Index.retract_retract]
    congr 1
    funext id
    simp [eq_comm]

theorem tombstone_consistent {s s' : MetadataStore} (hc : s.versions.Consistent)
    (hl : SoleVersion s object) (hr : s.objectManifests.get? object = some row)
    (hm : s'.objectManifests.rows =
      (s.tombstoneRows (fun r => r.objectId = object) m now).objectManifests.rows)
    (ha : s'.activeObjects = (s.dropActive fun a => a.bucket = row.bucket &&
      a.objectKey = row.objectKey && a.objectId = object).activeObjects) :
    s'.versions.Consistent := by
  have hv : s'.versions = s.versions.retract (· = object) := by
    apply tombstone_versions hm
    · intro r hne
      simpa using hne
    · intro r hid _
      simpa using hid
    · intro bucket key
      rw [← dropActive_filter row.bucket row.objectKey]
      · simp only [activeObjectId, ha]
      · intro bucket' key' hact
        obtain ⟨hb, hk⟩ := Prod.mk.inj (key_of_active hc hact hr)
        exact ⟨hb.symm, hk.symm⟩
  rw [hv]
  exact hl.retract hc

/-- The index stays on the latest versions along the steps that keep them. -/
theorem consistent_step (h : Coherent s) (hc : s.versions.Consistent)
    (hs : StoreStep fromStr op s s') (hv : op.managesVisibility = true) (hl : KeepsLatest op s) :
    s'.versions.Consistent := by
  cases StoreOp.index_step hs with
  | kept hf =>
    rw [versions_eq hf.manifests hf.active]
    exact hc
  | staged =>
    rw [stageRows_versions hl]
    apply hc.retract
    intro k i hi hp
    obtain ⟨a, ha, -, -, hid⟩ := activeObjectId_eq_some.1 hi
    exact absurd (hid.trans (of_decide_eq_true hp)) (hl a ha)
  | discarded _ _ hcall _ _ _ => cases hcall <;> cases hv
  | committed _ hcall hcm =>
    cases hcall with
    | plain | leased => exact commit_consistent h hc hl hcm
    | completion => cases hv
  | written => cases hv
  | moved _ _ _ _ hm => exact setManifestState_consistent h hc hm hl
  | tombstoned object _ _ hm hcall hr ha _ _ =>
    have hsole : SoleVersion s object := by
      cases hcall with
      | object => exact hl
      | key hact => exact hl _ hact
    obtain ⟨row, hrow, rfl, rfl, rfl⟩ := hcall.key_of_row h hm fun a ha r hr hid => by
      have hact := activeObjectId_eq_some.2 ⟨a, ha, rfl, rfl, rfl⟩
      exact Prod.mk.inj (key_of_active hc hact (get?_eq_some.2 ⟨hr, hid⟩))
    exact tombstone_consistent hc hsole hrow (congrArg Table.rows hr) ha
  | expired =>
    rw [tombstoneExpiredActiveManifests_versions]
    apply hc.retract
    intro k i hi hp j rank hj
    simp only [List.any_eq_true, List.mem_filter, decide_eq_true_eq] at hp
    obtain ⟨r, ⟨hr, hex⟩, rfl⟩ := hp
    have hin := (hl r hr hex).eq_of_committed hi hj
    simp only [List.any_eq_true, List.mem_filter, decide_eq_true_eq]
    exact ⟨r, ⟨hr, hex⟩, hin.symm⟩
  | hidden =>
    rw [hideConnection_versions]
    exact SoleConnection.retract hl hc
  | reopened now => exact rebuildIndex_consistent _ now

theorem NoObjects.consistent (h : NoObjects s) : s.versions.Consistent := by
  constructor
  · intro k i hi
    simp [versions, activeObjectId, h.active] at hi
  · intro i k r hi
    simp [versions, h.manifests] at hi

abbrev VisibilityOp := { op : StoreOp // op.managesVisibility = true }

def VisibilityStep (fromStr : String → Option ETagCondition) (op : VisibilityOp) :
    MetadataStore → MetadataStore → Prop :=
  StoreStep fromStr op

/-- In every state reached, opening the database again leaves the active object of every key. -/
def ReopenSafe (Step : VisibilityOp → MetadataStore → MetadataStore → Prop) : Prop :=
  ∀ past s, Run NoObjects Step past s → ∀ now bucket key,
    (s.reopen now).activeObjectId bucket key = s.activeObjectId bucket key

theorem reopen_preserves_visibility (fromStr : String → Option ETagCondition) :
    ReopenSafe (Guarded (VisibilityStep fromStr) fun op => KeepsLatest op) := by
  intro past s hr now
  have hi : Coherent s ∧ s.versions.Consistent := by
    refine hr.invariant (I := fun s => Coherent s ∧ s.versions.Consistent) ?_ ?_
    · exact fun s h => ⟨h.coherent, h.consistent⟩
    · rintro ⟨op, hv⟩ s s' ⟨h, hc⟩ ⟨hs, hl⟩
      refine ⟨h.step hs ?_, consistent_step h hc hs hv hl⟩
      intro m hm
      cases op with
      | updateManifest => cases hv
      | _ => cases hm
  exact (s.reopen_keeps_iff now).2 hi.2

/-- A key is written twice and then deleted. -/
def overwriteAndDelete : List VisibilityOp :=
  [⟨.stageManifest .put (emptyObject ⟨1⟩ "photos" "a.jpg") (instant 1), rfl⟩,
    ⟨.commitManifest ⟨1⟩ (instant 2), rfl⟩,
    ⟨.stageManifest .put (emptyObject ⟨2⟩ "photos" "a.jpg") (instant 3), rfl⟩,
    ⟨.commitManifest ⟨2⟩ (instant 4), rfl⟩,
    ⟨.deleteActiveKey "photos" "a.jpg" "DeleteObject" {} (instant 5), rfl⟩]

def overwriteAndDeleteRun : List MetadataStore × MetadataStore :=
  (exec (fun op : VisibilityOp => op.1.apply fun _ => none) [] {} overwriteAndDelete).get
    (by decide)

/-- The first version, still committed, is shown again after the next start. -/
theorem deleted_key_reappears : ¬ ReopenSafe (VisibilityStep fun _ => none) := by
  intro h
  have hi : NoObjects {} := ⟨rfl, rfl, rfl⟩
  have hr : Run NoObjects (VisibilityStep fun _ => none) overwriteAndDeleteRun.1
      overwriteAndDeleteRun.2 := Run.of_exec_isSome hi (by decide)
  have ha := h _ _ hr (instant 6) "photos" "a.jpg"
  have hd : overwriteAndDeleteRun.2.activeObjectId "photos" "a.jpg" = none := by decide
  have hn : (overwriteAndDeleteRun.2.reopen (instant 6)).activeObjectId "photos" "a.jpg" =
      some ⟨1⟩ := by decide
  rw [hd, hn] at ha
  cases ha

end TelegramS3
