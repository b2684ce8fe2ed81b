import TelegramS3.IndexUpdates

namespace TelegramS3
open Relational Table Fallible MetadataStore
set_option autoImplicit true

/-- The stored JSON of a manifest has the object, bucket, key and state of its columns. -/
structure ManifestRow.Coherent (r : ManifestRow) : Prop where
  objectId : r.manifest.objectId = r.objectId
  bucket : r.manifest.bucket = r.bucket
  key : r.manifest.key = r.objectKey
  state : r.manifest.commitState = r.commitState

/-- Manifest and journal rows of one id speak of one object under one key. -/
structure Coherent (s : MetadataStore) : Prop where
  rows : ∀ r ∈ s.objectManifests, r.Coherent
  operation : ∀ e ∈ s.operationJournal, e.objectId = e.operationId ∧
    e.details.objectId = e.operationId ∧ e.details.state = .staging
  keys : ∀ e ∈ s.operationJournal, ∀ r ∈ s.objectManifests, r.objectId = e.operationId →
    r.bucket = e.details.bucket ∧ r.objectKey = e.details.objectKey

structure SameVersion (r r' : ManifestRow) : Prop where
  objectId : r'.objectId = r.objectId
  bucket : r'.bucket = r.bucket
  key : r'.objectKey = r.objectKey
  coherent : r.Coherent → r'.Coherent

theorem SameVersion.refl (r : ManifestRow) : SameVersion r r := ⟨rfl, rfl, rfl, id⟩

theorem SameVersion.trans (a b c : ManifestRow) (h : SameVersion a b) (h' : SameVersion b c) :
    SameVersion a c :=
  ⟨h'.objectId.trans h.objectId, h'.bucket.trans h.bucket, h'.key.trans h.key,
    h'.coherent ∘ h.coherent⟩

structure SameOperation (e e' : JournalRow) : Prop where
  operationId : e'.operationId = e.operationId
  objectId : e'.objectId = e.objectId
  details : e'.details = e.details

theorem SameOperation.refl (e : JournalRow) : SameOperation e e := ⟨rfl, rfl, rfl⟩

theorem SameOperation.trans (a b c : JournalRow) (h : SameOperation a b)
    (h' : SameOperation b c) : SameOperation a c :=
  ⟨h'.operationId.trans h.operationId, h'.objectId.trans h.objectId, h'.details.trans h.details⟩

/-- No manifest or journal row is new, and none changes what it is about. -/
structure KeepsIdentity (s s' : MetadataStore) : Prop where
  rows : Table.Descends SameVersion s.objectManifests s'.objectManifests
  journal : Table.Descends SameOperation s.operationJournal s'.operationJournal

theorem KeepsIdentity.refl (s : MetadataStore) : KeepsIdentity s s :=
  ⟨.refl .refl _, .refl .refl _⟩

theorem KeepsIdentity.trans (h : KeepsIdentity s t) (h' : KeepsIdentity t u) : KeepsIdentity s u :=
  ⟨.trans SameVersion.trans h.rows h'.rows, .trans SameOperation.trans h.journal h'.journal⟩

theorem SameIndex.identity (h : SameIndex s s') : KeepsIdentity s s' := by
  constructor
  · rw [h.manifests]
    exact .refl .refl _
  · rw [h.journal]
    exact .refl .refl _

variable {s s' : MetadataStore}

theorem Coherent.keep (h : Coherent s) (hk : KeepsIdentity s s') : Coherent s' := by
  constructor
  · intro r' hr'
    obtain ⟨r, hr, hv⟩ := hk.rows r' hr'
    exact hv.coherent (h.rows r hr)
  · intro e' he'
    obtain ⟨e, he, ho⟩ := hk.journal e' he'
    rw [ho.details, ho.operationId, ho.objectId]
    exact h.operation e he
  · intro e' he' r' hr' hid
    obtain ⟨r, hr, hv⟩ := hk.rows r' hr'
    obtain ⟨e, he, ho⟩ := hk.journal e' he'
    rw [hv.bucket, hv.key, ho.details]
    apply h.keys e he r hr
    rw [← hv.objectId, ← ho.operationId]
    exact hid

namespace MetadataStore

theorem stageRows_coherent (h : Coherent s) (kind : OperationKind) (m : ObjectManifest)
    (now : OffsetDateTime) : Coherent (s.stageRows kind m now) := by
  have hj : ∀ e ∈ (s.stageRows kind m now).operationJournal,
      (e.operationId = m.objectId ∧ e.objectId = m.objectId ∧ e.details = stagedDetails kind m) ∨
        (e ∈ s.operationJournal ∧ e.operationId ≠ m.objectId) := by
    intro e he
    rcases mem_upsertWith.1 he with rfl | ⟨he, hne⟩
    · left
      generalize ho : s.operationJournal.get? _ = o
      cases o with
      | none => exact ⟨rfl, rfl, rfl⟩
      | some o => exact ⟨key_of_get? ho, rfl, rfl⟩
    · exact .inr ⟨he, hne⟩
  constructor
  · intro r hr
    rcases mem_upsert.1 hr with rfl | ⟨hr, -⟩
    · exact ⟨rfl, rfl, rfl, rfl⟩
    · exact h.rows r hr
  · intro e he
    rcases hj e he with ⟨ho, hob, hd⟩ | ⟨he, -⟩
    · rw [ho, hob, hd]
      exact ⟨rfl, rfl, rfl⟩
    · exact h.operation e he
  · intro e he r hr hid
    rcases hj e he with ⟨ho, -, hd⟩ | ⟨he, hne⟩
    · rcases mem_upsert.1 hr with rfl | ⟨-, hn⟩
      · rw [hd]
        exact ⟨rfl, rfl⟩
      · exact absurd (hid.trans ho) hn
    · rcases mem_upsert.1 hr with rfl | ⟨hr, -⟩
      · exact absurd hid.symm hne
      · exact h.keys e he r hr hid

theorem commitSubject_row (h : Coherent s) (he : s.operationJournal.get? operation = some e)
    (hm : s.commitSubject e.details published = .ok m) :
    ∃ row, s.objectManifests.get? operation = some row ∧ m.objectId = operation ∧
      m.bucket = row.bucket ∧ m.key = row.objectKey := by
  have hej := mem_of_get? he
  have hop : e.operationId = operation := key_of_get? he
  obtain ⟨-, hd, -⟩ := h.operation e hej
  rw [hop] at hd
  obtain ⟨row, hr, hc⟩ := commitSubject_ok hm
  rw [hd] at hr
  have hrow := mem_of_get? hr
  have hid : row.objectId = operation := key_of_get? hr
  have hco := h.rows row hrow
  refine ⟨row, hr, ?_⟩
  rcases hc with rfl | ⟨-, ho, hb, hk⟩
  · exact ⟨hco.objectId.trans hid, hco.bucket, hco.key⟩
  · obtain ⟨hb', hk'⟩ := h.keys e hej row hrow (hid.trans hop.symm)
    exact ⟨ho.trans hd, hb.trans hb'.symm, hk.trans hk'.symm⟩

theorem sameVersion_of_manifest {m : ObjectManifest}
    (hid : r'.objectId = r.objectId) (hb : r'.bucket = r.bucket) (hk : r'.objectKey = r.objectKey)
    (hm : r'.manifest = m.withState r'.commitState) (ho : m.objectId = r.objectId)
    (hmb : m.bucket = r.bucket) (hmk : m.key = r.objectKey) : SameVersion r r' := by
  refine ⟨hid, hb, hk, fun _ => ⟨?_, ?_, ?_, ?_⟩⟩
  · rw [hm, hid, ← ho]
    rfl
  · rw [hm, hb, ← hmb]
    rfl
  · rw [hm, hk, ← hmk]
    rfl
  · rw [hm]
    rfl

theorem committedStore_identity (h : Coherent s) (he : s.operationJournal.get? operation = some e)
    (hm : s.commitSubject e.details published = .ok m) (transfer : Option (Uuid × Uuid))
    (now : OffsetDateTime) : KeepsIdentity s (s.committedStore operation transfer m now) := by
  obtain ⟨row, hr, ho, hb, hk⟩ := commitSubject_row h he hm
  constructor
  · refine .of_update rfl .refl ?_
    intro r hrm hp
    have hid : r.objectId = m.objectId := of_decide_eq_true hp
    have hrr : r = row := eq_of_key_eq hrm (mem_of_get? hr)
      ((hid.trans ho).trans (key_of_get? hr).symm)
    subst hrr
    exact sameVersion_of_manifest rfl rfl rfl rfl hid.symm hb hk
  · exact .of_update rfl .refl fun _ _ _ => ⟨rfl, rfl, rfl⟩

theorem commitManifestInner_identity (h : Coherent s)
    (hc : s.commitManifestInner fromStr operation transfer published now = .ok (m', s')) :
    KeepsIdentity s s' := by
  obtain ⟨e, he, ⟨-, rfl⟩ | ⟨m, hm, -, -, ⟨-, rfl⟩ | ⟨upload, -, rfl⟩⟩⟩ :=
    commitManifestInner_ok hc
  · exact .refl _
  · exact committedStore_identity h he hm transfer now
  · have hk := committedStore_identity h he hm transfer now
    exact ⟨hk.rows, hk.journal⟩

theorem tombstoneJournal_identity (s : MetadataStore) (objectId : Uuid) (reason : String)
    (now : OffsetDateTime) : KeepsIdentity s (s.tombstoneJournal objectId reason now) :=
  ⟨.refl .refl _, Table.Descends.of_update rfl .refl fun _ _ _ => ⟨rfl, rfl, rfl⟩⟩

theorem tombstoneRows_identity (hp : ∀ r ∈ s.objectManifests, p r = true →
      m.objectId = r.objectId ∧ m.bucket = r.bucket ∧ m.key = r.objectKey)
    (now : OffsetDateTime) : KeepsIdentity s (s.tombstoneRows p m now) := by
  refine ⟨Table.Descends.of_update rfl .refl ?_, .refl .refl _⟩
  intro r hr hpr
  obtain ⟨ho, hb, hk⟩ := hp r hr hpr
  exact sameVersion_of_manifest rfl rfl rfl rfl ho hb hk

theorem loaded_identity (h : Coherent s) (hm : s.loadManifestByObjectId objectId = .ok (some m)) :
    ∀ r ∈ s.objectManifests, decide (r.objectId = objectId) = true →
      m.objectId = r.objectId ∧ m.bucket = r.bucket ∧ m.key = r.objectKey := by
  intro r hr hid
  obtain ⟨row, hrow, rfl⟩ := loadManifestByObjectId_ok hm
  have hrr : r = row := eq_of_key_eq hr (mem_of_get? hrow)
    ((of_decide_eq_true hid).trans (key_of_get? hrow).symm)
  subst hrr
  have hc := h.rows r hr
  exact ⟨hc.objectId, hc.bucket, hc.key⟩

theorem tombstoneExpiredActiveManifests_identity (h : Coherent s) (now : OffsetDateTime) :
    KeepsIdentity s (s.tombstoneExpiredActiveManifests now) := by
  apply tombstoneExpiredActiveManifests_induction (.refl s)
  intro t row ht hrow
  have hrow := (mem_activeCommitted hrow).1
  have hco := h.rows row hrow
  have hp : ∀ r ∈ t.objectManifests,
      (decide (r.objectId = row.objectId) && decide (r.commitState = .committed)) = true →
      row.manifest.objectId = r.objectId ∧ row.manifest.bucket = r.bucket ∧
        row.manifest.key = r.objectKey := by
    intro r hr hpr
    simp only [Bool.and_eq_true, decide_eq_true_eq] at hpr
    obtain ⟨r₀, hr₀, hv⟩ := ht.rows r hr
    have he : r₀ = row := eq_of_key_eq hr₀ hrow (hv.objectId.symm.trans hpr.1)
    subst he
    rw [hv.objectId, hv.bucket, hv.key]
    exact ⟨hco.objectId, hco.bucket, hco.key⟩
  have h₁ := ht.trans (tombstoneRows_identity hp now)
  have h₂ := h₁.trans (tombstoneJournal_identity _ row.objectId "object expired" now)
  exact ⟨h₁.rows, h₂.journal⟩

end MetadataStore

/-- Both calls drop the active row of the object under the key of its manifest. -/
theorem TombstoneCall.key_of_row (h : TombstoneCall s m now op o (b, k, shown))
    (hc : Coherent s) (hm : s.loadManifestByObjectId o = .ok (some m))
    (hk : ∀ a ∈ s.activeObjects, ∀ r ∈ s.objectManifests, r.objectId = a.objectId →
      r.bucket = a.bucket ∧ r.objectKey = a.objectKey) :
    ∃ row, s.objectManifests.get? o = some row ∧ b = row.bucket ∧
      k = row.objectKey ∧ shown = o := by
  obtain ⟨row, hr, rfl⟩ := loadManifestByObjectId_ok hm
  have hrow := mem_of_get? hr
  have hid : row.objectId = o := key_of_get? hr
  refine ⟨row, hr, ?_⟩
  cases h with
  | object =>
    have hco := hc.rows row hrow
    exact ⟨hco.bucket, hco.key, hco.objectId.trans hid⟩
  | key hact =>
    obtain ⟨a, ha, rfl, rfl, hao⟩ := activeObjectId_eq_some.1 hact
    obtain ⟨hb, hkey⟩ := hk a ha row hrow (hid.trans hao.symm)
    exact ⟨hb.symm, hkey.symm, rfl⟩

def StoreOp.writtenBack : StoreOp → Option ObjectManifest
  | .updateManifest m => some m
  | _ => none

def StoreOp.stagedObject : StoreOp → Option Uuid
  | .stageManifest _ m _ => some m.objectId
  | _ => none

theorem StoreOp.stagedObject_eq_some {op : StoreOp} (h : op.stagedObject = some object) :
    ∃ kind m now, op = .stageManifest kind m now ∧ m.objectId = object := by
  cases op with
  | stageManifest kind m now =>
    cases h
    exact ⟨kind, m, now, rfl, rfl⟩
  | _ => cases h

def WritesOwnManifest (op : StoreOp) (s : MetadataStore) : Prop :=
  ∀ m, op.writtenBack = some m → ∀ r ∈ s.objectManifests, r.objectId = m.objectId →
    m.bucket = r.bucket ∧ m.key = r.objectKey

/-- A call that stages nothing changes what rows say, not what they are about. -/
theorem StoreOp.identity_step (h : Coherent s) (hs : StoreStep fromStr op s s')
    (hw : WritesOwnManifest op s) (hn : op.stagedObject = none) : KeepsIdentity s s' := by
  cases StoreOp.index_step hs with
  | kept hf => exact hf.identity
  | staged => cases hn
  | discarded _ _ _ hr _ hj =>
    constructor
    · rw [hr]
      exact .delete .refl
    · rw [hj]
      exact .delete .refl
  | committed _ _ hc => exact commitManifestInner_identity h hc
  | written m =>
    refine ⟨.of_update rfl .refl ?_, .refl .refl _⟩
    intro r hr hp
    have hid := of_decide_eq_true hp
    obtain ⟨hb, hk⟩ := hw m rfl r hr hid
    exact sameVersion_of_manifest rfl rfl rfl rfl hid.symm hb hk
  | moved _ _ _ _ hm =>
    refine ⟨.of_update rfl .refl ?_, .refl .refl _⟩
    intro r hr hp
    obtain ⟨ho, hb, hk⟩ := loaded_identity h hm r hr hp
    exact sameVersion_of_manifest rfl rfl rfl rfl ho hb hk
  | tombstoned _ _ now hm _ hr _ hj _ =>
    constructor
    · rw [hr]
      exact (tombstoneRows_identity (loaded_identity h hm) now).rows
    · rw [hj]
      exact (tombstoneJournal_identity ..).journal
  | expired now => exact tombstoneExpiredActiveManifests_identity h now
  | hidden =>
    refine ⟨.of_update rfl .refl ?_, .of_update rfl .refl fun _ _ _ => ⟨rfl, rfl, rfl⟩⟩
    intro r _ _
    exact ⟨rfl, rfl, rfl, fun hc => ⟨hc.objectId, hc.bucket, hc.key, rfl⟩⟩
  | reopened => exact ⟨.refl .refl _, .refl .refl _⟩

theorem Coherent.step (h : Coherent s) (hs : StoreStep fromStr op s s')
    (hw : WritesOwnManifest op s) : Coherent s' := by
  cases hn : op.stagedObject with
  | none => exact h.keep (StoreOp.identity_step h hs hw hn)
  | some object =>
    obtain ⟨kind, m, now, rfl, -⟩ := StoreOp.stagedObject_eq_some hn
    obtain ⟨-, rfl⟩ := stageManifest_ok (after_eq_some.1 hs)
    exact stageRows_coherent h kind m now

theorem StoreOp.absent_step {op : StoreOp} (h : Coherent s)
    (hs : StoreStep fromStr op s s') (hw : WritesOwnManifest op s)
    (hn : op.stagedObject ≠ some object) (ha : s.objectManifests.get? object = none) :
    s'.objectManifests.get? object = none := by
  rw [get?_eq_none] at ha ⊢
  intro r' hr'
  cases hst : op.stagedObject with
  | none =>
    obtain ⟨r, hr, hv⟩ := (StoreOp.identity_step h hs hw hst).rows r' hr'
    intro he
    exact ha r hr (hv.objectId.symm.trans he)
  | some staged =>
    obtain ⟨kind, m, now, rfl, rfl⟩ := StoreOp.stagedObject_eq_some hst
    obtain ⟨-, rfl⟩ := stageManifest_ok (after_eq_some.1 hs)
    rcases mem_upsert.1 hr' with rfl | ⟨hr, -⟩
    · intro he
      exact hn (congrArg some he)
    · exact ha r' hr

def StoreOp.writesOwn (op : StoreOp) (s : MetadataStore) : Bool :=
  op.writtenBack.all fun m => s.objectManifests.rows.all fun r =>
    r.objectId != m.objectId || (m.bucket = r.bucket && m.key = r.objectKey)

/-- A call as the service makes it: a manifest is written back to the row it was read from. -/
def StoreOp.serve (fromStr : String → Option ETagCondition) (op : StoreOp) (s : MetadataStore) :
    Option MetadataStore :=
  if op.writesOwn s then op.apply fromStr s else none

theorem StoreOp.serve_eq_some (h : op.serve fromStr s = some s') :
    StoreStep fromStr op s s' ∧ WritesOwnManifest op s := by
  simp only [serve, Option.ite_none_right_eq_some] at h
  obtain ⟨hw, h⟩ := h
  refine ⟨h, ?_⟩
  intro m hm r hr hid
  simp only [writesOwn, hm, Option.all_some, List.all_eq_true] at hw
  simpa [hid] using hw r hr

structure NoObjects (s : MetadataStore) : Prop where
  manifests : s.objectManifests = ∅
  active : s.activeObjects = ∅
  journal : s.operationJournal = ∅

theorem NoObjects.coherent (h : NoObjects s) : Coherent s := by
  constructor
  · simp [h.manifests]
  · simp [h.journal]
  · simp [h.journal]

def instant (n : Nat) : OffsetDateTime :=
  { year := 2024, month := 5, day := 1, hour := n % 24
    valid := by
      have hn : n % 24 < 24 := Nat.mod_lt _ (by decide)
      simp [hn] }

def emptyObject (objectId : Uuid) (bucket key : String) : ObjectManifest :=
  { schemaVersion := manifestSchemaVersion, commitState := .staging, objectId, bucket, key
    versionId := none, contentLength := 0, contentType := "application/octet-stream"
    userMetadata := [], tags := [], createdAt := instant 0, expiresAt := none
    checksum := { algorithm := "sha256", wholeObject := "e3b0c442" }
    encryption := { enabled := false, format := "none", keyId := none }
    telegram := { peerId := "-1001", messageId := 0, documentId := none }, chunks := [] }

def photosStore : MetadataStore :=
  { buckets := (∅ : Table BucketRow).insertOrIgnore { name := "photos", createdAt := default } }

def uploadOps (m : ObjectManifest) (lease : Uuid) (hour : Nat) : List StoreOp :=
  let now := (instant hour).unixTimestamp
  [.beginTransfer m.objectId m.bucket m.key now, .stageManifest .put m (instant hour),
    .queueTransfer m.objectId m.chunks.length now, .claimTransfer now lease,
    .enterCommitting m.objectId lease now,
    .commitTransferManifest m.objectId lease m (instant hour)]

end TelegramS3
