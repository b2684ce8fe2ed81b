import TelegramS3.Listing
import TelegramS3.Retrying
import TelegramS3.StableSort
import TelegramS3.WriteRequests

namespace TelegramS3
open Relational Table Fallible Transition MetadataStore StableSort
set_option autoImplicit true

structure ObjectVersion where
  key : String
  lastModified : OffsetDateTime
  eTag : String
  isLatest : Bool
  size : Int
  versionId : Uuid
  deriving DecidableEq

structure DeleteMarkerEntry where
  key : String
  lastModified : OffsetDateTime
  isLatest : Bool
  versionId : Uuid
  deriving DecidableEq

structure VersionsPage where
  name : String
  pfx : String
  versions : List ObjectVersion
  deleteMarkers : List DeleteMarkerEntry
  deriving DecidableEq

def ObjectManifest.NotOlder (a b : ObjectManifest) : Prop := b.createdAt.ble a.createdAt = true

instance : DecidableRel ObjectManifest.NotOlder := fun _ _ => inferInstanceAs (Decidable (_ = _))

instance : Std.Total ObjectManifest.NotOlder where
  total a b := by
    unfold ObjectManifest.NotOlder OffsetDateTime.ble
    rw [decide_eq_true_iff, decide_eq_true_iff]
    exact le_total b.createdAt.fields a.createdAt.fields

instance : IsTrans ObjectManifest ObjectManifest.NotOlder where
  trans a b c h h' := by
    unfold ObjectManifest.NotOlder OffsetDateTime.ble at *
    rw [decide_eq_true_iff] at *
    exact le_trans h' h

def latestKey (manifests : List ObjectManifest) : List (String × Uuid) :=
  manifests.foldl (fun latest m =>
    if (latest.lookup m.key).isSome then latest else (m.key, m.objectId) :: latest) []

def isLatest (latest : List (String × Uuid)) (key : String) (objectId : Uuid) : Bool :=
  ((latest.lookup key).map fun first => first == objectId).getD false

def ObjectManifest.objectVersion (latest : List (String × Uuid)) (m : ObjectManifest) :
    Option ObjectVersion :=
  if m.commitState = .committed then
    some { key := m.key, lastModified := m.createdAt, eTag := m.checksum.wholeObject
           isLatest := isLatest latest m.key m.objectId, size := toI64 m.contentLength
           versionId := m.objectId }
  else none

def ObjectManifest.deleteMarker (latest : List (String × Uuid)) (m : ObjectManifest) :
    Option DeleteMarkerEntry :=
  if m.commitState = .tombstoned then
    some { key := m.key, lastModified := m.createdAt
           isLatest := isLatest latest m.key m.objectId, versionId := m.objectId }
  else none

def versionManifests (bucket pfx : String) (now : OffsetDateTime)
    (manifests : List ObjectManifest) : List ObjectManifest :=
  ((manifests.filter fun m => m.bucket = bucket).filter fun m =>
    pfx = "" || decide (StartsWith m.key pfx)).filter fun m => !m.isExpired now

def listObjectVersions (s : MetadataStore) (bucket pfx : String) (now : OffsetDateTime) :
    Except S3Error VersionsPage := do
  ensure (bucketExists s bucket) (.s3 .noSuchBucket "bucket does not exist")
  let manifests ← s.listManifests.mapError fun e => .object (.metadata e)
  let manifests := (versionManifests bucket pfx now manifests).insertionSort ObjectManifest.NotOlder
  let latest := latestKey manifests
  return { name := bucket, pfx
           versions := manifests.filterMap (ObjectManifest.objectVersion latest)
           deleteMarkers := manifests.filterMap (ObjectManifest.deleteMarker latest) }

def ObjectManifest.settled (m : ObjectManifest) : Bool :=
  m.commitState = .committed || m.commitState = .tombstoned

def settledLatest (bucket pfx : String) (now : OffsetDateTime) (l : List ObjectManifest) :
    List (String × Uuid) :=
  latestKey (((versionManifests bucket pfx now l).filter ObjectManifest.settled).insertionSort
    ObjectManifest.NotOlder)

/-- The flags of a listing tell the current object of each key of the account in use. -/
structure MarksCurrent (s : MetadataStore) (bucket pfx : String) (now : OffsetDateTime)
    (l : List ObjectManifest) (p : VersionsPage) : Prop where
  versions : ∀ e ∈ p.versions,
    e.isLatest = true ↔ s.activeObjectId bucket e.key = some e.versionId
  deleteMarkers : ∀ m ∈ l, m.bucket = bucket → m.commitState = .tombstoned →
    (pfx = "" ∨ StartsWith m.key pfx) → s.activeObjectId bucket m.key = none →
      ∃! e, e ∈ p.deleteMarkers ∧ e.key = m.key ∧ e.isLatest = true
  otherVersions : ∀ e ∈ p.versions,
    e.isLatest = isLatest (settledLatest bucket pfx now l) e.key e.versionId
  otherMarkers : ∀ e ∈ p.deleteMarkers,
    e.isLatest = isLatest (settledLatest bucket pfx now l) e.key e.versionId

def Newest (l : List ObjectManifest) (key : String) (n : ObjectManifest) : Prop :=
  Leads ObjectManifest.NotOlder (fun m => m.key = key) l n

/-- The manifest of a key created last is its active object, or a tombstone where none is listed. -/
def NewestCurrent (s : MetadataStore) (bucket pfx : String) (now : OffsetDateTime)
    (l : List ObjectManifest) : Prop :=
  ∀ m ∈ l, m.bucket = bucket → (pfx = "" ∨ StartsWith m.key pfx) →
    (m.settled = true ∧ m.isExpired now = false ∨
      m.commitState = .tombstoned ∧ s.activeObjectId bucket m.key = none) →
    ∃ n, Newest (versionManifests bucket pfx now l) m.key n ∧
      (n.commitState = .committed ∧ s.activeObjectId bucket m.key = some n.objectId ∨
        n.commitState = .tombstoned ∧ ∀ c ∈ versionManifests bucket pfx now l,
          c.key = m.key → c.commitState = .committed →
            s.activeObjectId bucket m.key ≠ some c.objectId)

theorem lookup_latestKey (l : List ObjectManifest) (key : String) :
    (latestKey l).lookup key = (l.find? fun m => m.key = key).map ObjectManifest.objectId := by
  suffices h : ∀ acc : List (String × Uuid),
      (l.foldl (fun latest m => if (latest.lookup m.key).isSome then latest
        else (m.key, m.objectId) :: latest) acc).lookup key =
        (acc.lookup key).or ((l.find? fun m => m.key = key).map ObjectManifest.objectId) by
    exact h []
  induction l with
  | nil => simp
  | cons m l ih =>
    intro acc
    rw [List.foldl_cons, ih]
    by_cases hk : m.key = key
    · subst hk
      cases hl : acc.lookup m.key with
      | none => simp
      | some id => simp [hl]
    · have hk' : (key == m.key) = false := by simpa using fun h => hk h.symm
      rw [List.find?_cons_of_neg (by simpa using hk)]
      split
      · rfl
      · rw [List.lookup_cons, hk']

theorem isLatest_iff :
    isLatest (latestKey (l.insertionSort ObjectManifest.NotOlder)) key object = true ↔
      ∃ n, Newest l key n ∧ n.objectId = object := by
  unfold isLatest Newest
  rw [lookup_latestKey]
  simp only [← find?_insertionSort]
  cases (l.insertionSort ObjectManifest.NotOlder).find? fun m => m.key = key with
  | none => simp
  | some n => simp

theorem exists_newest (hm : m ∈ l) : ∃ n, Newest l m.key n := by
  cases hf : (l.insertionSort ObjectManifest.NotOlder).find? fun n => n.key = m.key with
  | none =>
    rw [List.find?_eq_none] at hf
    exact absurd (decide_eq_true rfl) (hf m ((List.mem_insertionSort _).2 hm))
  | some n => exact ⟨n, leads_of_find? hf⟩

theorem mem_versionManifests : m ∈ versionManifests bucket pfx now l ↔
    m ∈ l ∧ m.bucket = bucket ∧ (pfx = "" ∨ StartsWith m.key pfx) ∧ m.isExpired now = false := by
  simp only [versionManifests, List.mem_filter, decide_eq_true_eq, Bool.or_eq_true,
    Bool.not_eq_true', and_assoc]

theorem MetadataStore.listManifests_unique {s : MetadataStore}
    (hrows : ∀ r ∈ s.objectManifests, r.Coherent) (hl : s.listManifests = .ok l) (ha : a ∈ l)
    (hb : b ∈ l) (h : a.objectId = b.objectId) : a = b := by
  obtain ⟨r, hr, rfl⟩ := mem_readManifests hl ha
  obtain ⟨r', hr', rfl⟩ := mem_readManifests hl hb
  have hr := (mem_select.1 ((List.mem_insertionSort _).1 hr)).1
  have hr' := (mem_select.1 ((List.mem_insertionSort _).1 hr')).1
  rw [(hrows r hr).objectId, (hrows r' hr').objectId] at h
  rw [eq_of_key_eq hr hr' h]

section Flags
variable {V : List ObjectManifest} (hu : ∀ a ∈ V, ∀ b ∈ V, a.objectId = b.objectId → a = b)
include hu

theorem isLatest_iff_newest (hm : m ∈ V) :
    isLatest (latestKey (V.insertionSort ObjectManifest.NotOlder)) m.key m.objectId = true ↔
      Newest V m.key m := by
  rw [isLatest_iff]
  constructor
  · rintro ⟨n, hn, hid⟩
    cases hu n hn.mem m hm hid
    exact hn
  · intro h
    exact ⟨m, h, rfl⟩

end Flags

theorem newest_settled_iff (hn : Newest V key n)
    (hs : n.settled = true) : Newest (V.filter ObjectManifest.settled) key m ↔ m = n := by
  have hn' := hn.filter ObjectManifest.settled hs
  constructor
  · intro h
    exact h.unique hn'
  · rintro rfl
    exact hn'

section Page
variable {s : MetadataStore} {l : List ObjectManifest} {p : VersionsPage}
  (hrows : ∀ r ∈ s.objectManifests, r.Coherent) (hl : s.listManifests = .ok l)
  (h : listObjectVersions s bucket pfx now = .ok p)

include hl h in
theorem mem_versions : e ∈ p.versions ↔ ∃ m ∈ versionManifests bucket pfx now l,
    m.objectVersion (latestKey ((versionManifests bucket pfx now l).insertionSort
      ObjectManifest.NotOlder)) = some e := by
  unfold listObjectVersions at h
  obtain ⟨_, -, h⟩ := bind_ok.1 h
  rw [hl] at h
  cases h
  simp only [List.mem_filterMap, List.mem_insertionSort]

include hl h in
theorem mem_deleteMarkers : e ∈ p.deleteMarkers ↔ ∃ m ∈ versionManifests bucket pfx now l,
    m.deleteMarker (latestKey ((versionManifests bucket pfx now l).insertionSort
      ObjectManifest.NotOlder)) = some e := by
  unfold listObjectVersions at h
  obtain ⟨_, -, h⟩ := bind_ok.1 h
  rw [hl] at h
  cases h
  simp only [List.mem_filterMap, List.mem_insertionSort]

include hrows hl in
theorem versionManifests_unique : ∀ a ∈ versionManifests bucket pfx now l,
    ∀ b ∈ versionManifests bucket pfx now l, a.objectId = b.objectId → a = b := by
  intro a ha b hb
  exact listManifests_unique hrows hl (mem_versionManifests.1 ha).1 (mem_versionManifests.1 hb).1

include hrows hl h in
theorem version_flag (he : e ∈ p.versions) : ∃ m ∈ versionManifests bucket pfx now l,
    m.commitState = .committed ∧ e.key = m.key ∧ e.versionId = m.objectId ∧
      (e.isLatest = true ↔ Newest (versionManifests bucket pfx now l) m.key m) := by
  obtain ⟨m, hm, he⟩ := (mem_versions hl h).1 he
  unfold ObjectManifest.objectVersion at he
  split at he
  · rename_i hc
    cases he
    exact ⟨m, hm, hc, rfl, rfl, isLatest_iff_newest (versionManifests_unique hrows hl) hm⟩
  · cases he

include hrows hl h in
theorem version_of (hm : m ∈ versionManifests bucket pfx now l) (hc : m.commitState = .committed) :
    ∃ e ∈ p.versions, e.key = m.key ∧ e.versionId = m.objectId ∧
      (e.isLatest = true ↔ Newest (versionManifests bucket pfx now l) m.key m) :=
  ⟨_, (mem_versions hl h).2 ⟨m, hm, if_pos hc⟩, rfl, rfl,
    isLatest_iff_newest (versionManifests_unique hrows hl) hm⟩

include hrows hl h in
theorem marker_flag (he : e ∈ p.deleteMarkers) : ∃ m ∈ versionManifests bucket pfx now l,
    m.commitState = .tombstoned ∧ e.key = m.key ∧ e.versionId = m.objectId ∧
      (e.isLatest = true ↔ Newest (versionManifests bucket pfx now l) m.key m) := by
  obtain ⟨m, hm, he⟩ := (mem_deleteMarkers hl h).1 he
  unfold ObjectManifest.deleteMarker at he
  split at he
  · rename_i hc
    cases he
    exact ⟨m, hm, hc, rfl, rfl, isLatest_iff_newest (versionManifests_unique hrows hl) hm⟩
  · cases he

include hrows hl h in
theorem marker_of (hm : m ∈ versionManifests bucket pfx now l) (hc : m.commitState = .tombstoned) :
    ∃ e ∈ p.deleteMarkers, e.key = m.key ∧ e.versionId = m.objectId ∧
      (e.isLatest = true ↔ Newest (versionManifests bucket pfx now l) m.key m) :=
  ⟨_, (mem_deleteMarkers hl h).2 ⟨m, hm, if_pos hc⟩, rfl, rfl,
    isLatest_iff_newest (versionManifests_unique hrows hl) hm⟩

include hrows hl h in
theorem marker_unique (he : e ∈ p.deleteMarkers) (he' : e' ∈ p.deleteMarkers)
    (hid : e.versionId = e'.versionId) : e = e' := by
  obtain ⟨m, hm, he⟩ := (mem_deleteMarkers hl h).1 he
  obtain ⟨m', hm', he'⟩ := (mem_deleteMarkers hl h).1 he'
  unfold ObjectManifest.deleteMarker at he he'
  split at he
  · split at he'
    · cases he
      cases he'
      rw [versionManifests_unique hrows hl m hm m' hm' hid]
    · cases he'
  · cases he

include hrows hl h in
theorem MarksCurrent.newest_settled (hp : MarksCurrent s bucket pfx now l p)
    (hm : m ∈ versionManifests bucket pfx now l) (hs : m.settled = true) :
    ∃ n, Newest (versionManifests bucket pfx now l) m.key n ∧ n.settled = true := by
  obtain ⟨n, hn⟩ := exists_newest (List.mem_filter.2 ⟨hm, hs⟩)
  obtain ⟨hnV, hns⟩ := List.mem_filter.1 hn.mem
  have hkey : n.key = m.key := of_decide_eq_true hn.holds
  have hlatest : isLatest (settledLatest bucket pfx now l) m.key n.objectId = true :=
    isLatest_iff.2 ⟨n, hn, rfl⟩
  refine ⟨n, ?_, hns⟩
  rw [← hkey] at hlatest ⊢
  unfold ObjectManifest.settled at hns
  rw [Bool.or_eq_true, decide_eq_true_eq, decide_eq_true_eq] at hns
  rcases hns with hc | ht
  · obtain ⟨e, he, hk, hid, hflag⟩ := version_of hrows hl h hnV hc
    apply hflag.1
    rw [hp.otherVersions e he, hk, hid]
    exact hlatest
  · obtain ⟨e, he, hk, hid, hflag⟩ := marker_of hrows hl h hnV ht
    apply hflag.1
    rw [hp.otherMarkers e he, hk, hid]
    exact hlatest

include hrows hl h in
theorem MarksCurrent.newestCurrent (hp : MarksCurrent s bucket pfx now l p) :
    NewestCurrent s bucket pfx now l := by
  intro m hm hb hpfx hcase
  rcases hcase with ⟨hs, hx⟩ | ⟨ht, ha⟩
  · have hmV := mem_versionManifests.2 ⟨hm, hb, hpfx, hx⟩
    obtain ⟨n, hn, hns⟩ := hp.newest_settled hrows hl h hmV hs
    have hkey : n.key = m.key := of_decide_eq_true hn.holds
    refine ⟨n, hn, ?_⟩
    unfold ObjectManifest.settled at hns
    rw [Bool.or_eq_true, decide_eq_true_eq, decide_eq_true_eq] at hns
    rcases hns with hc | ht
    · obtain ⟨e, he, hk, hid, hflag⟩ := version_of hrows hl h hn.mem hc
      have hact := (hp.versions e he).1 (hflag.2 (hkey ▸ hn))
      rw [hk, hid, hkey] at hact
      exact .inl ⟨hc, hact⟩
    · refine .inr ⟨ht, ?_⟩
      intro c hcV hck hc hact
      obtain ⟨e, he, hk, hid, hflag⟩ := version_of hrows hl h hcV hc
      have hlead := hflag.1 ((hp.versions e he).2 (by rw [hk, hid, hck, hact]))
      rw [hck] at hlead
      cases hlead.unique hn
      cases hc.symm.trans ht
  · obtain ⟨e, ⟨he, hk, hflag⟩, -⟩ := hp.deleteMarkers m hm hb ht hpfx ha
    obtain ⟨n, hnV, hnt, hnk, -, hlead⟩ := marker_flag hrows hl h he
    have hn := hlead.1 hflag
    rw [← hnk, hk] at hn
    refine ⟨n, hn, .inr ⟨hnt, ?_⟩⟩
    intro c _ _ _ hact
    cases ha.symm.trans hact

include hrows hl in
theorem settledLatest_iff (hn : Newest (versionManifests bucket pfx now l) m.key n)
    (hns : n.settled = true) (hm : m ∈ versionManifests bucket pfx now l)
    (hs : m.settled = true) :
    isLatest (settledLatest bucket pfx now l) m.key m.objectId = true ↔
      Newest (versionManifests bucket pfx now l) m.key m := by
  have hu : ∀ a ∈ (versionManifests bucket pfx now l).filter ObjectManifest.settled,
      ∀ b ∈ (versionManifests bucket pfx now l).filter ObjectManifest.settled,
        a.objectId = b.objectId → a = b := by
    intro a ha b hb
    exact versionManifests_unique hrows hl a (List.mem_of_mem_filter ha) b
      (List.mem_of_mem_filter hb)
  unfold settledLatest
  rw [isLatest_iff_newest hu (List.mem_filter.2 ⟨hm, hs⟩), newest_settled_iff hn hns]
  constructor
  · rintro rfl
    exact hn
  · intro h
    exact h.unique hn

theorem NewestCurrent.newest (hn : NewestCurrent s bucket pfx now l)
    (hm : m ∈ versionManifests bucket pfx now l) (hs : m.settled = true) :
    ∃ n, Newest (versionManifests bucket pfx now l) m.key n ∧
      (n.commitState = .committed ∧ s.activeObjectId bucket m.key = some n.objectId ∨
        n.commitState = .tombstoned ∧ ∀ c ∈ versionManifests bucket pfx now l,
          c.key = m.key → c.commitState = .committed →
            s.activeObjectId bucket m.key ≠ some c.objectId) := by
  obtain ⟨hml, hb, hpfx, hx⟩ := mem_versionManifests.1 hm
  exact hn m hml hb hpfx (.inl ⟨hs, hx⟩)

include hrows hl in
theorem NewestCurrent.settledLatest (hn : NewestCurrent s bucket pfx now l)
    (hm : m ∈ versionManifests bucket pfx now l) (hs : m.settled = true) :
    isLatest (settledLatest bucket pfx now l) m.key m.objectId = true ↔
      Newest (versionManifests bucket pfx now l) m.key m := by
  obtain ⟨n, hnew, hc | hc⟩ := hn.newest hm hs
  · exact settledLatest_iff hrows hl hnew (by simp [ObjectManifest.settled, hc.1]) hm hs
  · exact settledLatest_iff hrows hl hnew (by simp [ObjectManifest.settled, hc.1]) hm hs

include hrows hl h in
theorem NewestCurrent.marksCurrent (hn : NewestCurrent s bucket pfx now l) :
    MarksCurrent s bucket pfx now l p := by
  constructor
  · intro e he
    obtain ⟨m, hm, hc, hk, hid, hflag⟩ := version_flag hrows hl h he
    rw [hflag, hk, hid]
    obtain ⟨n, hnew, ⟨-, hact⟩ | ⟨ht, hne⟩⟩ := hn.newest hm (by simp [ObjectManifest.settled, hc])
    · rw [hact]
      constructor
      · intro hlead
        rw [hlead.unique hnew]
      · intro hid
        cases versionManifests_unique hrows hl n hnew.mem m hm (Option.some.inj hid)
        exact hnew
    · constructor
      · intro hlead
        cases hlead.unique hnew
        cases hc.symm.trans ht
      · intro hact
        exact absurd hact (hne m hm rfl hc)
  · intro m hm hb ht hpfx ha
    obtain ⟨n, hnew, ⟨-, hact⟩ | ⟨hnt, -⟩⟩ := hn m hm hb hpfx (.inr ⟨ht, ha⟩)
    · cases ha.symm.trans hact
    · have hkey : n.key = m.key := of_decide_eq_true hnew.holds
      obtain ⟨e, he, hk, hid, hflag⟩ := marker_of hrows hl h hnew.mem hnt
      refine ⟨e, ⟨he, hk.trans hkey, hflag.2 (hkey ▸ hnew)⟩, ?_⟩
      rintro e' ⟨he', hk', hlatest⟩
      obtain ⟨m', hm', -, hmk, hid', hflag'⟩ := marker_flag hrows hl h he'
      have hlead := hflag'.1 hlatest
      rw [← hmk, hk'] at hlead
      apply marker_unique hrows hl h he' he
      rw [hid', hid, hlead.unique hnew]
  · intro e he
    obtain ⟨m, hm, hc, hk, hid, hflag⟩ := version_flag hrows hl h he
    rw [Bool.eq_iff_iff, hflag, hk, hid]
    exact (hn.settledLatest hrows hl hm (by simp [ObjectManifest.settled, hc])).symm
  · intro e he
    obtain ⟨m, hm, hc, hk, hid, hflag⟩ := marker_flag hrows hl h he
    rw [Bool.eq_iff_iff, hflag, hk, hid]
    exact (hn.settledLatest hrows hl hm (by simp [ObjectManifest.settled, hc])).symm

end Page

/-- The flags of a version listing are right exactly when creation order agrees with the active
index. -/
theorem versions_mark_current_iff {s : MetadataStore} (hrows : ∀ r ∈ s.objectManifests, r.Coherent)
    (hl : s.listManifests = .ok l) (h : listObjectVersions s bucket pfx now = .ok p) :
    MarksCurrent s bucket pfx now l p ↔ NewestCurrent s bucket pfx now l :=
  ⟨fun hp => hp.newestCurrent hrows hl h, fun hn => hn.marksCurrent hrows hl h⟩

def hourObject (objectId : Uuid) (hour : Nat) : ObjectManifest :=
  { emptyObject objectId "photos" "a" with createdAt := instant hour }

def overtakenOps : List StoreOp :=
  uploadOps (hourObject ⟨1⟩ 1) ⟨11⟩ 1 ++
    [.beginTransfer ⟨2⟩ "photos" "a" (instant 2).unixTimestamp,
      .stageManifest .put (hourObject ⟨2⟩ 2) (instant 2)]

def singleRun : List MetadataStore × MetadataStore :=
  (exec (StoreOp.serve fun _ => none) [] photosStore (uploadOps (hourObject ⟨1⟩ 1) ⟨11⟩ 1)).get
    (by decide +kernel)

def overtakenRun : List MetadataStore × MetadataStore :=
  (exec (StoreOp.serve fun _ => none) [] photosStore overtakenOps).get (by decide +kernel)

def versionPage (isLatest : Bool) : VersionsPage :=
  { name := "photos", pfx := ""
    versions :=
      [{ key := "a", lastModified := instant 1, eTag := "e3b0c442", isLatest, size := 0
         versionId := ⟨1⟩ }]
    deleteMarkers := [] }

def ServedRun (past : List MetadataStore) (s : MetadataStore) : Prop :=
  Run EmptyStore (fun op s s' => StoreOp.serve (fun _ => none) op s = some s') past s

theorem single_version_current : ServedRun singleRun.1 singleRun.2 ∧
      listObjectVersions singleRun.2 "photos" "" (instant 3) = .ok (versionPage true) ∧
      MarksCurrent singleRun.2 "photos" "" (instant 3) [(hourObject ⟨1⟩ 1).withState .committed]
        (versionPage true) := by
  have hi : EmptyStore photosStore := ⟨⟨rfl, rfl, rfl⟩, rfl, rfl⟩
  have hr : ServedRun singleRun.1 singleRun.2 := Run.of_exec_isSome hi (by decide +kernel)
  have hp : listObjectVersions singleRun.2 "photos" "" (instant 3) = .ok (versionPage true) := by
    decide +kernel
  have hact : singleRun.2.activeObjectId "photos" "a" = some ⟨1⟩ := by decide +kernel
  have hnew : NewestCurrent singleRun.2 "photos" "" (instant 3)
      [(hourObject ⟨1⟩ 1).withState .committed] := by
    intro m hm _ _ _
    cases List.mem_singleton.1 hm
    exact ⟨_, ⟨[], [], rfl, rfl, by simp, by simp⟩, .inl ⟨rfl, hact⟩⟩
  have hrows := (Coherent.of_run hr).rows
  exact ⟨hr, hp, (versions_mark_current_iff hrows (by decide +kernel) hp).2 hnew⟩

/-- The object in place is not marked as the latest once a later upload of its key is staged. -/
theorem staged_upload_hides_latest : ∃ past s l p, ServedRun past s ∧ s.listManifests = .ok l ∧
      listObjectVersions s "photos" "" (instant 3) = .ok p ∧
      s.activeObjectId "photos" "a" = some ⟨1⟩ ∧
      p.versions.map (fun e => (e.key, e.versionId, e.isLatest)) = [("a", ⟨1⟩, false)] ∧
      ¬ MarksCurrent s "photos" "" (instant 3) l p := by
  have hi : EmptyStore photosStore := ⟨⟨rfl, rfl, rfl⟩, rfl, rfl⟩
  have hr : ServedRun overtakenRun.1 overtakenRun.2 := Run.of_exec_isSome hi (by decide +kernel)
  have hl : overtakenRun.2.listManifests =
      .ok [(hourObject ⟨1⟩ 1).withState .committed, hourObject ⟨2⟩ 2] := by decide +kernel
  have hp : listObjectVersions overtakenRun.2 "photos" "" (instant 3) =
      .ok (versionPage false) := by decide +kernel
  have hact : overtakenRun.2.activeObjectId "photos" "a" = some ⟨1⟩ := by decide +kernel
  refine ⟨_, _, _, _, hr, hl, hp, hact, rfl, ?_⟩
  intro h
  cases (h.versions _ List.mem_cons_self).2 hact

end TelegramS3
