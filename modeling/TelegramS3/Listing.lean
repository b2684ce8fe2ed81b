import Mathlib.Data.List.Dedup
import Mathlib.Data.String.Basic
import TelegramS3.Paging
import TelegramS3.Patterns
import TelegramS3.Service

namespace TelegramS3
open Relational Table Fallible Patterns
set_option autoImplicit true

/-- `object_key LIKE prefix || '%'`. -/
def likePrefix (pfx key : String) : Bool := like (pfx.toList ++ ['%']) key.toList

def StartsWith (key pfx : String) : Prop := pfx.toList <+: key.toList

instance : Decidable (StartsWith key pfx) := inferInstanceAs (Decidable (_ <+: _))

def MetadataStore.listedRows (s : MetadataStore) (bucket pfx : String) : List ManifestRow :=
  (((s.activeObjects.select fun a => a.bucket = bucket && likePrefix pfx a.objectKey).insertionSort
    fun a b => a.objectKey ≤ b.objectKey).filterMap fun a =>
      s.objectManifests.get? a.objectId).filter fun r => r.connectionId = s.activeConnectionId

def MetadataStore.listBucketManifestsLike (s : MetadataStore) (bucket pfx : String) :
    Except MetadataError (List ObjectManifest) :=
  MetadataStore.readManifests (s.listedRows bucket pfx)

def ObjectFormat.listBucketManifestsLike (s : MetadataStore) (bucket pfx : String)
    (now : OffsetDateTime) : Except ObjectFormatError (List ObjectManifest) :=
  match s.listBucketManifestsLike bucket pfx with
  | .error e => .error (.metadata e)
  | .ok l => .ok (l.filter fun m => !m.isExpired now)

structure ListedObject where
  key : String
  lastModified : OffsetDateTime
  size : Nat
  eTag : String
  deriving DecidableEq

def ObjectManifest.listed (m : ObjectManifest) : ListedObject :=
  { key := m.key, lastModified := m.createdAt, size := m.contentLength
    eTag := m.checksum.wholeObject }

structure ListedBucketPage where
  objects : List ListedObject
  commonPrefixes : List String
  isTruncated : Bool
  nextMarker : Option String
  keyCount : Nat
  deriving DecidableEq

def rolledUp (pfx : String) (delimiter : Option String) (key : String) : Option String :=
  (delimiter.filter (· ≠ "")).bind fun d =>
    let relative := (strip pfx.toList key.toList).getD key.toList
    (find d.toList relative).map fun offset =>
      pfx ++ String.ofList (relative.take (offset + d.toList.length))

def afterMarker (marker : Option String) (key : String) : Bool :=
  (marker.filter (· ≠ "")).all fun m => m < key

section Page
variable (manifests : List ObjectManifest) (pfx : String) (delimiter : Option String)

def sortedManifests : List ObjectManifest :=
  manifests.insertionSort fun a b =>
    a.key < b.key ∨ a.key = b.key ∧ a.objectId.value ≤ b.objectId.value

def pageObjects : List ListedObject :=
  ((sortedManifests manifests).filter fun m => (rolledUp pfx delimiter m.key).isNone).map
    ObjectManifest.listed

def pagePrefixes : List String :=
  ((sortedManifests manifests).filterMap fun m =>
    rolledUp pfx delimiter m.key).dedup.insertionSort (· ≤ ·)

def mergedPage (resumeAfter : Option String) (maxKeys : Nat) :
    Paging.Page String ListedObject :=
  Paging.fill ListedObject.key maxKeys
    ((pageObjects manifests pfx delimiter).filter fun o => afterMarker resumeAfter o.key)
    ((pagePrefixes manifests pfx delimiter).filter fun c => afterMarker resumeAfter c)

def nextEntry (p : Paging.Page String ListedObject) : Option String :=
  match p.restLeft.head?, p.restRight.head? with
  | some o, some c => some (if o.key < c then o.key else c)
  | some o, none => some o.key
  | none, some c => some c
  | none, none => none

def ListedBucketPage.ofMerged (maxKeys : Nat) (p : Paging.Page String ListedObject) :
    ListedBucketPage :=
  let isTruncated := 0 < maxKeys && p.more
  { objects := p.left, commonPrefixes := p.right, isTruncated
    nextMarker := if isTruncated then p.last.or (nextEntry p) else none
    keyCount := p.size }

end Page

/-- `list_bucket_page` of the S3 backend. -/
def listBucketPage (s : MetadataStore) (bucket pfx : String) (delimiter resumeAfter : Option String)
    (maxKeys : Nat) (now : OffsetDateTime) : Except ObjectFormatError ListedBucketPage :=
  (ObjectFormat.listBucketManifestsLike s bucket pfx now).map fun manifests =>
    .ofMerged maxKeys (mergedPage manifests pfx delimiter resumeAfter maxKeys)

/-- Calling again with the marker of the page before, until a page is not truncated. -/
inductive Pages (call : Option String → Except ObjectFormatError ListedBucketPage) :
    Option String → List ListedBucketPage → Prop where
  | last : call r = .ok p → p.isTruncated = false → Pages call r [p]
  | next : call r = .ok p → p.isTruncated = true → Pages call p.nextMarker ps →
      Pages call r (p :: ps)

theorem Pages.unique (h : Pages call r ps) (h' : Pages call r qs) : ps = qs := by
  induction h generalizing qs with
  | last hc ht =>
    cases h' with
    | last hc' ht' =>
      rw [hc] at hc'
      cases hc'
      rfl
    | next hc' ht' hp =>
      rw [hc] at hc'
      cases hc'
      rw [ht] at ht'
      cases ht'
  | next hc ht hp ih =>
    cases h' with
    | last hc' ht' =>
      rw [hc] at hc'
      cases hc'
      rw [ht] at ht'
      cases ht'
    | next hc' ht' hp' =>
      rw [hc] at hc'
      cases hc'
      rw [ih hp']

theorem ObjectManifest.key_ne_empty_of_valid {m : ObjectManifest} (hv : m.validate = .ok ()) :
    m.key ≠ "" := by
  intro he
  simp only [ObjectManifest.validate] at hv
  obtain ⟨_, -, hv⟩ := bind_ok.1 hv
  obtain ⟨_, -, hv⟩ := bind_ok.1 hv
  obtain ⟨_, hk, -⟩ := bind_ok.1 hv
  rw [ensure_ok, he] at hk
  exact absurd hk (by decide)

namespace MetadataStore

theorem readManifests_valid (h : readManifests stored = .ok l) (hm : m ∈ l) :
    m.validate = .ok () := by
  obtain ⟨r, -, he⟩ := mem_of_mapM_ok h hm
  split at he
  · cases he
  · rename_i hv
    cases he
    exact hv

theorem readManifests_of_valid {rows : List ManifestRow}
    (h : ∀ r ∈ rows, r.manifest.validate = .ok ()) :
    readManifests rows = .ok (rows.map ManifestRow.manifest) := by
  induction rows with
  | nil => rfl
  | cons r rows ih =>
    have hr := h r List.mem_cons_self
    have ih := ih fun x hx => h x (List.mem_cons_of_mem _ hx)
    unfold readManifests at ih ⊢
    rw [List.mapM_cons, hr, ih]
    rfl

end MetadataStore

/-- The active index of the bucket names valid manifests under their keys. -/
def MetadataStore.indexes (s : MetadataStore) (bucket : String) : Bool :=
  (s.activeObjects.select fun a => a.bucket = bucket).all fun a =>
    (s.objectManifests.get? a.objectId).any fun r =>
      r.manifest.key = a.objectKey && r.manifest.validate.toBool

structure ListedBucket where
  store : MetadataStore
  name : String
  indexed : store.indexes name = true

namespace ListedBucket

theorem row (b : ListedBucket) (ha : a ∈ b.store.activeObjects) (hb : a.bucket = b.name) :
    ∃ r, b.store.objectManifests.get? a.objectId = some r ∧ r.manifest.key = a.objectKey ∧
      r.manifest.validate = .ok () := by
  have hi := b.indexed
  simp only [MetadataStore.indexes, List.all_eq_true, mem_select, decide_eq_true_eq,
    Option.any_eq_true, Bool.and_eq_true] at hi
  obtain ⟨r, hr, hk, hv⟩ := hi a ⟨ha, hb⟩
  refine ⟨r, hr, hk, ?_⟩
  cases hval : r.manifest.validate with
  | error e =>
    rw [hval] at hv
    cases hv
  | ok u => rfl

def Shows (b : ListedBucket) (now : OffsetDateTime) (key : String) : Prop :=
  ((b.store.activeObjects.get? (b.name, key)).bind fun a =>
    b.store.objectManifests.get? a.objectId).any (fun r =>
      r.connectionId = b.store.activeConnectionId && !r.manifest.isExpired now) = true

instance : Decidable (Shows b now key) := inferInstanceAs (Decidable (_ = true))

theorem shows_iff : Shows b now key ↔
    ∃ a ∈ b.store.activeObjects, a.bucket = b.name ∧ a.objectKey = key ∧
      ∃ r, b.store.objectManifests.get? a.objectId = some r ∧
        r.connectionId = b.store.activeConnectionId ∧ r.manifest.isExpired now = false := by
  simp only [Shows, Option.any_eq_true, Option.bind_eq_some_iff, get?_eq_some,
    Bool.and_eq_true, decide_eq_true_eq, Bool.not_eq_true']
  constructor
  · rintro ⟨r, ⟨a, ⟨ha, hk⟩, hr⟩, hc, he⟩
    exact ⟨a, ha, congrArg Prod.fst hk, congrArg Prod.snd hk, r, hr, hc, he⟩
  · rintro ⟨a, ha, hb, hk, r, hr, hc, he⟩
    exact ⟨r, ⟨a, ⟨ha, Prod.ext hb hk⟩, hr⟩, hc, he⟩

variable (b : ListedBucket) (pfx : String) (now : OffsetDateTime)

def manifests : List ObjectManifest :=
  ((b.store.listedRows b.name pfx).map ManifestRow.manifest).filter fun m => !m.isExpired now

theorem mem_listedRows : r ∈ b.store.listedRows b.name pfx ↔
    ∃ a ∈ b.store.activeObjects, a.bucket = b.name ∧ likePrefix pfx a.objectKey = true ∧
      b.store.objectManifests.get? a.objectId = some r ∧
      r.connectionId = b.store.activeConnectionId := by
  simp only [MetadataStore.listedRows, List.mem_filter, List.mem_filterMap,
    List.mem_insertionSort, mem_select, Bool.and_eq_true, decide_eq_true_eq]
  constructor
  · rintro ⟨⟨a, ⟨ha, hb, hl⟩, hr⟩, hc⟩
    exact ⟨a, ha, hb, hl, hr, hc⟩
  · rintro ⟨a, ha, hb, hl, hr, hc⟩
    exact ⟨⟨a, ⟨ha, hb, hl⟩, hr⟩, hc⟩

theorem listBucketManifestsLike_eq :
    ObjectFormat.listBucketManifestsLike b.store b.name pfx now = .ok (b.manifests pfx now) := by
  have hv : ∀ r ∈ b.store.listedRows b.name pfx, r.manifest.validate = .ok () := by
    intro r hr
    obtain ⟨a, ha, hb, -, hg, -⟩ := (b.mem_listedRows pfx).1 hr
    obtain ⟨r', hr', -, hv⟩ := b.row ha hb
    rw [hg] at hr'
    cases hr'
    exact hv
  rw [ObjectFormat.listBucketManifestsLike, MetadataStore.listBucketManifestsLike,
    MetadataStore.readManifests_of_valid hv]
  rfl

theorem mem_manifests :
    (∃ m ∈ b.manifests pfx now, m.key = key) ↔ b.Shows now key ∧ likePrefix pfx key = true := by
  simp only [manifests, List.mem_filter, List.mem_map, mem_listedRows, Bool.not_eq_true', shows_iff]
  constructor
  · rintro ⟨m, ⟨⟨r, ⟨a, ha, hb, hl, hr, hc⟩, rfl⟩, he⟩, rfl⟩
    obtain ⟨r', hr', hk, -⟩ := b.row ha hb
    rw [hr] at hr'
    cases hr'
    rw [hk]
    exact ⟨⟨a, ha, hb, rfl, r, hr, hc, he⟩, hl⟩
  · rintro ⟨⟨a, ha, hb, rfl, r, hr, hc, he⟩, hl⟩
    obtain ⟨r', hr', hk, -⟩ := b.row ha hb
    rw [hr] at hr'
    cases hr'
    exact ⟨r.manifest, ⟨⟨r, ⟨a, ha, hb, hl, hr, hc⟩, rfl⟩, he⟩, hk⟩

theorem keys_nodup : ((b.store.activeObjects.select fun a =>
    a.bucket = b.name && likePrefix pfx a.objectKey).map ActiveRow.objectKey).Nodup := by
  have hn := b.store.activeObjects.nodup
  rw [List.Nodup, List.pairwise_map] at hn ⊢
  refine (hn.filter _).imp_of_mem fun {a c} ha hc hne he => hne ?_
  simp only [mem_select, Bool.and_eq_true, decide_eq_true_eq] at ha hc
  exact Prod.ext (ha.2.1.trans hc.2.1.symm) he

theorem manifests_sorted : (b.manifests pfx now).Pairwise fun m n => m.key < n.key := by
  apply List.Pairwise.filter
  rw [List.pairwise_map]
  apply List.Pairwise.filter
  rw [List.pairwise_filterMap]
  refine (Paging.insertionSort_pairwise (b.keys_nodup pfx)).imp_of_mem ?_
  intro a c ha hc hlt r hr r' hr'
  simp only [List.mem_insertionSort, mem_select, Bool.and_eq_true, decide_eq_true_eq] at ha hc
  obtain ⟨x, hx, hxk, -⟩ := b.row ha.1 ha.2.1
  obtain ⟨y, hy, hyk, -⟩ := b.row hc.1 hc.2.1
  rw [hr] at hx
  rw [hr'] at hy
  cases hx
  cases hy
  rw [hxk, hyk]
  exact hlt

theorem sortedManifests_eq : sortedManifests (b.manifests pfx now) = b.manifests pfx now := by
  apply List.Pairwise.insertionSort_eq
  exact (b.manifests_sorted pfx now).imp .inl

theorem key_ne_empty (h : m ∈ b.manifests pfx now) : m.key ≠ "" := by
  simp only [manifests, List.mem_filter, List.mem_map, mem_listedRows] at h
  obtain ⟨⟨r, ⟨a, ha, hb, -, hr, -⟩, rfl⟩, -⟩ := h
  obtain ⟨r', hr', -, hv⟩ := b.row ha hb
  rw [hr] at hr'
  cases hr'
  exact ObjectManifest.key_ne_empty_of_valid hv

end ListedBucket

section Rolling
variable {pfx key c : String} {delimiter : Option String}

section
variable (h : rolledUp pfx delimiter key = some c) (hs : StartsWith key pfx)
include h hs

theorem rolledUp_eq_some : ∃ d r i, delimiter = some d ∧ d ≠ "" ∧ key.toList = pfx.toList ++ r ∧
      find d.toList r = some i ∧ c.toList = pfx.toList ++ r.take (i + d.toList.length) := by
  obtain ⟨r, hr⟩ := hs
  simp only [rolledUp, Option.bind_eq_some_iff, Option.map_eq_some_iff,
    Option.filter_eq_some_iff, decide_eq_true_eq] at h
  obtain ⟨d, ⟨hd, hne⟩, i, hi, rfl⟩ := h
  rw [← hr, strip_append] at hi
  refine ⟨d, r, i, hd, hne, hr.symm, hi, ?_⟩
  rw [← hr, strip_append]
  simp

theorem rolledUp_starts : StartsWith c pfx ∧ StartsWith key c := by
  obtain ⟨d, r, i, -, -, hk, -, hc⟩ := rolledUp_eq_some h hs
  unfold StartsWith
  rw [hc, hk]
  exact ⟨List.prefix_append _ _, List.prefix_append_right_inj _ |>.2 (List.take_prefix _ _)⟩

theorem rolledUp_again : (rolledUp pfx delimiter c).isSome = true := by
  obtain ⟨d, r, i, rfl, hne, -, hi, hc⟩ := rolledUp_eq_some h hs
  simp only [rolledUp, hc, strip_append, Option.getD_some]
  simp [Option.filter, hne, find_take hi]

end

theorem rolledUp_ne_empty (h : rolledUp pfx delimiter key = some c) : c ≠ "" := by
  simp only [rolledUp, Option.bind_eq_some_iff, Option.map_eq_some_iff,
    Option.filter_eq_some_iff, decide_eq_true_eq] at h
  obtain ⟨d, ⟨hd, hne⟩, i, hi, rfl⟩ := h
  intro he
  have hnil := congrArg String.toList he
  rw [String.toList_append, String.toList_ofList, String.toList_empty,
    List.append_eq_nil_iff] at hnil
  have hf := find_take hi
  rw [hnil.2] at hf
  simp [find, hne] at hf

theorem mem_pagePrefixes {manifests : List ObjectManifest} :
    c ∈ pagePrefixes manifests pfx delimiter ↔
      ∃ m ∈ manifests, rolledUp pfx delimiter m.key = some c := by
  simp only [pagePrefixes, sortedManifests, List.mem_insertionSort, List.mem_dedup,
    List.mem_filterMap]

theorem pagePrefixes_increasing (manifests : List ObjectManifest) (pfx : String)
    (delimiter : Option String) : (pagePrefixes manifests pfx delimiter).Pairwise (· < ·) := by
  have hn : ((sortedManifests manifests).filterMap fun m =>
      rolledUp pfx delimiter m.key).dedup.Nodup := List.nodup_dedup _
  rw [← List.map_id (List.dedup _)] at hn
  exact Paging.insertionSort_pairwise hn

end Rolling

namespace ListedBucket
variable (b : ListedBucket) (pfx : String) (delimiter : Option String) (now : OffsetDateTime)

def Rolls : Prop :=
  ∀ m ∈ b.manifests pfx now, ∀ c, rolledUp pfx delimiter m.key = some c → StartsWith m.key pfx

def objects : List ListedObject := pageObjects (b.manifests pfx now) pfx delimiter

def commonPrefixes : List String := pagePrefixes (b.manifests pfx now) pfx delimiter

theorem mem_objects : (∃ o ∈ b.objects pfx delimiter now, o.key = key) ↔
    (b.Shows now key ∧ likePrefix pfx key = true) ∧ rolledUp pfx delimiter key = none := by
  rw [← mem_manifests]
  simp only [objects, pageObjects, sortedManifests_eq, List.mem_map, List.mem_filter,
    Option.isNone_iff_eq_none]
  constructor
  · rintro ⟨o, ⟨m, ⟨hm, hn⟩, rfl⟩, rfl⟩
    exact ⟨⟨m, hm, rfl⟩, hn⟩
  · rintro ⟨⟨m, hm, rfl⟩, hn⟩
    exact ⟨m.listed, ⟨m, ⟨hm, hn⟩, rfl⟩, rfl⟩

theorem mem_commonPrefixes : c ∈ b.commonPrefixes pfx delimiter now ↔
    ∃ m ∈ b.manifests pfx now, rolledUp pfx delimiter m.key = some c :=
  mem_pagePrefixes

theorem entries_sorted (h : b.Rolls pfx delimiter now) :
    Paging.Sorted ListedObject.key (b.objects pfx delimiter now)
      (b.commonPrefixes pfx delimiter now) where
  left := by
    rw [objects, pageObjects, List.pairwise_map, sortedManifests_eq]
    exact (b.manifests_sorted pfx now).filter _
  right := pagePrefixes_increasing _ _ _
  apart := by
    intro o ho hc
    obtain ⟨m, hm, hr⟩ := (b.mem_commonPrefixes pfx delimiter now).1 hc
    have hs := rolledUp_again hr (h m hm _ hr)
    rw [((b.mem_objects pfx delimiter now).1 ⟨o, ho, rfl⟩).2] at hs
    cases hs

theorem entries_ne_empty (he : e ∈ Paging.entries ListedObject.key (b.objects pfx delimiter now)
      (b.commonPrefixes pfx delimiter now)) : e ≠ "" := by
  rcases (Paging.mem_entries _).1 he with ⟨o, ho, rfl⟩ | hc
  · obtain ⟨m, hm, hk⟩ := (b.mem_manifests pfx now).2
      ((b.mem_objects pfx delimiter now).1 ⟨o, ho, rfl⟩).1
    exact hk ▸ b.key_ne_empty pfx now hm
  · obtain ⟨m, hm, hr⟩ := (b.mem_commonPrefixes pfx delimiter now).1 hc
    exact rolledUp_ne_empty hr

theorem listBucketPage_eq (resumeAfter : Option String) (maxKeys : Nat) :
    listBucketPage b.store b.name pfx delimiter resumeAfter maxKeys now =
      .ok (.ofMerged maxKeys (Paging.fill ListedObject.key maxKeys
        ((b.objects pfx delimiter now).filter fun o => afterMarker resumeAfter o.key)
        ((b.commonPrefixes pfx delimiter now).filter fun c => afterMarker resumeAfter c))) := by
  rw [listBucketPage, listBucketManifestsLike_eq]
  rfl

def page (maxKeys : Nat) (resumeAfter : Option String) :
    Except ObjectFormatError ListedBucketPage :=
  listBucketPage b.store b.name pfx delimiter resumeAfter maxKeys now

theorem afterMarker_some (h : m ≠ "") : afterMarker (some m) e = decide (m < e) := by
  simp [afterMarker, Option.filter, h]

theorem afterMarker_trans (h : afterMarker r m = true) (hlt : m < e) : afterMarker r e = true := by
  unfold afterMarker at h ⊢
  cases hr : r.filter (· ≠ "") with
  | none => rfl
  | some k =>
    simp only [hr, Option.all_some, decide_eq_true_eq] at h ⊢
    exact h.trans hlt

theorem filter_resume {l : List γ} (key : γ → String) (hne : m ≠ "") (hm : afterMarker r m = true) :
    l.filter (fun x => afterMarker (some m) (key x)) =
      (l.filter fun x => afterMarker r (key x)).filter fun x => m < key x := by
  rw [List.filter_filter]
  apply List.filter_congr
  intro x _
  rw [afterMarker_some hne]
  cases hlt : decide (m < key x) with
  | false => rfl
  | true => rw [afterMarker_trans hm (of_decide_eq_true hlt), Bool.true_and]

variable {b pfx delimiter now}

theorem pages_of_drains (h : b.Rolls pfx delimiter now) (hn : 1 ≤ maxKeys)
    (hd : Paging.Drains ListedObject.key maxKeys xs ys ps)
    (hx : xs = (b.objects pfx delimiter now).filter fun o => afterMarker r o.key)
    (hy : ys = (b.commonPrefixes pfx delimiter now).filter fun c => afterMarker r c) :
    Pages (b.page pfx delimiter now maxKeys) r (ps.map (ListedBucketPage.ofMerged maxKeys)) := by
  induction hd generalizing r with
  | last hm =>
    subst hx hy
    refine .last (b.listBucketPage_eq pfx delimiter now r maxKeys) ?_
    simp [ListedBucketPage.ofMerged, hm]
  | @next xs ys ps hm hd ih =>
    have hs : Paging.Sorted ListedObject.key xs ys := by
      subst hx hy
      exact (b.entries_sorted pfx delimiter now h).filter (afterMarker r)
    obtain ⟨m, hl, hmem, hle⟩ := Paging.fill_last hs hn hm
    have hafter : afterMarker r m = true ∧ m ≠ "" := by
      have he := Paging.mem_of_entries hmem
      subst hx hy
      rw [Paging.mem_entries] at he
      rcases he with ⟨o, ho, rfl⟩ | hc
      · obtain ⟨ho, hr⟩ := List.mem_filter.1 ho
        exact ⟨hr, b.entries_ne_empty pfx delimiter now
          ((Paging.mem_entries _).2 (.inl ⟨o, ho, rfl⟩))⟩
      · obtain ⟨hc, hr⟩ := List.mem_filter.1 hc
        exact ⟨hr, b.entries_ne_empty pfx delimiter now ((Paging.mem_entries _).2 (.inr hc))⟩
    have hnext : (ListedBucketPage.ofMerged maxKeys
        (Paging.fill ListedObject.key maxKeys xs ys)).nextMarker = some m := by
      simp [ListedBucketPage.ofMerged, hm, hl, Nat.ne_of_gt hn]
    rw [List.map_cons]
    refine .next ?_ ?_ ?_
    · rw [hx, hy]
      exact b.listBucketPage_eq pfx delimiter now r maxKeys
    · simpa [ListedBucketPage.ofMerged, hm] using Nat.lt_of_lt_of_le Nat.zero_lt_one hn
    · rw [hnext]
      apply ih
      · rw [filter_resume ListedObject.key hafter.2 hafter.1, ← hx, Paging.resume_left hs hmem hle]
      · rw [filter_resume (fun c => c) hafter.2 hafter.1, ← hy, Paging.resume_right hs hmem hle]

end ListedBucket
end TelegramS3
