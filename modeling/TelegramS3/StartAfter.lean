import TelegramS3.BucketPages
import TelegramS3.StableSort
import TelegramS3.WriteRequests

namespace TelegramS3
open Relational Fallible Transition MetadataStore StableSort
set_option autoImplicit true

structure ListObjectsV2Input where
  bucket : String
  pfx : Option String := none
  delimiter : Option String := none
  maxKeys : Option Int := none
  startAfter : Option String := none
  continuationToken : Option String := none
  encodingType : Option String := none

structure ListObjectsV2Output where
  isTruncated : Bool
  keyCount : Nat
  maxKeys : Nat
  name : String
  pfx : String
  contents : List ListedObject
  commonPrefixes : List String
  delimiter : Option String
  encodingType : Option String
  nextContinuationToken : Option String
  continuationToken : Option String
  startAfter : Option String
  deriving DecidableEq

namespace ListObjectsV2Input
variable (input : ListObjectsV2Input)

def pageSize : Nat := (max 0 (min (input.maxKeys.getD 1000) 1000)).toNat

def resumeAfter : Option String :=
  match input.continuationToken, input.startAfter with
  | some token, some after => some (max token after)
  | some token, none => some token
  | none, some after => some after
  | none, none => none

end ListObjectsV2Input

def listObjectsV2 (s : MetadataStore) (input : ListObjectsV2Input) (now : OffsetDateTime) :
    Except S3Error ListObjectsV2Output := do
  ensure (bucketExists s input.bucket) (.s3 .noSuchBucket "bucket does not exist")
  let pfx := input.pfx.getD ""
  let page ← (listBucketPage s input.bucket pfx input.delimiter input.resumeAfter input.pageSize
    now).mapError .object
  return { isTruncated := page.isTruncated, keyCount := page.keyCount, maxKeys := input.pageSize
           name := input.bucket, pfx, contents := page.objects
           commonPrefixes := page.commonPrefixes, delimiter := input.delimiter
           encodingType := input.encodingType, nextContinuationToken := page.nextMarker
           continuationToken := input.continuationToken, startAfter := input.startAfter }

/-- A group is after the marker exactly when it has keys after the marker. -/
def GroupsFollow (manifests : List ObjectManifest) (pfx : String) (delimiter : Option String)
    (after : String) : Prop :=
  ∀ m ∈ manifests, ∀ c, rolledUp pfx delimiter m.key = some c →
    (after < m.key → after < c) ∧
    (after < c → ∃ n ∈ manifests, after < n.key ∧ rolledUp pfx delimiter n.key = some c)

def keysAfter (after : String) (manifests : List ObjectManifest) : List ObjectManifest :=
  manifests.filter fun m => after < m.key

section Listed
variable {manifests : List ObjectManifest} {pfx : String} {delimiter : Option String}

def KeyOrder (a b : ObjectManifest) : Prop :=
  a.key < b.key ∨ a.key = b.key ∧ a.objectId.value ≤ b.objectId.value

instance : DecidableRel KeyOrder := fun _ _ => inferInstanceAs (Decidable (_ ∨ _))

instance : Std.Total KeyOrder where
  total a b := by
    rcases lt_trichotomy a.key b.key with h | h | h
    · exact .inl (.inl h)
    · rcases BitVec.le_total a.objectId.value b.objectId.value with hv | hv
      · exact .inl (.inr ⟨h, hv⟩)
      · exact .inr (.inr ⟨h.symm, hv⟩)
    · exact .inr (.inl h)

instance : IsTrans ObjectManifest KeyOrder where
  trans a b c h h' := by
    rcases h with h | ⟨h, hv⟩
    · rcases h' with h' | ⟨h', -⟩
      · exact .inl (h.trans h')
      · exact .inl (h' ▸ h)
    · rcases h' with h' | ⟨h', hv'⟩
      · exact .inl (h ▸ h')
      · exact .inr ⟨h.trans h', BitVec.le_trans hv hv'⟩

theorem sortedManifests_keysAfter :
    sortedManifests (keysAfter start manifests) = keysAfter start (sortedManifests manifests) :=
  (filter_insertionSort (r := KeyOrder) _ manifests).symm

theorem afterMarker_of_ne (h : x ≠ "") : afterMarker (some start) x = decide (start < x) := by
  by_cases hs : start = ""
  · subst hs
    have hlt : "" < x := by
      rw [String.lt_iff_toList_lt]
      cases hx : x.toList with
      | nil => exact absurd (String.toList_eq_nil_iff.1 hx) h
      | cons c rest => exact List.Lex.nil
    simp [afterMarker, Option.filter, hlt]
  · exact ListedBucket.afterMarker_some hs

theorem pageObjects_keysAfter (hne : ∀ m ∈ manifests, m.key ≠ "") :
    (pageObjects manifests pfx delimiter).filter (fun o => afterMarker (some start) o.key) =
      pageObjects (keysAfter start manifests) pfx delimiter := by
  unfold pageObjects
  rw [sortedManifests_keysAfter, keysAfter, List.filter_map, List.filter_comm]
  congr 2
  apply List.filter_congr
  intro m hm
  exact afterMarker_of_ne (hne m ((List.mem_insertionSort _).1 hm))

theorem pagePrefixes_keysAfter_iff (manifests : List ObjectManifest) (pfx : String)
    (delimiter : Option String) (start : String) :
    (pagePrefixes manifests pfx delimiter).filter (afterMarker (some start)) =
        pagePrefixes (keysAfter start manifests) pfx delimiter ↔
      GroupsFollow manifests pfx delimiter start := by
  have hmem (c : String) :
      c ∈ (pagePrefixes manifests pfx delimiter).filter (afterMarker (some start)) ↔
        start < c ∧ ∃ m ∈ manifests, rolledUp pfx delimiter m.key = some c := by
    rw [List.mem_filter, mem_pagePrefixes, and_comm]
    apply and_congr_left
    rintro ⟨m, -, hr⟩
    rw [afterMarker_of_ne (rolledUp_ne_empty hr), decide_eq_true_eq]
  have hmem' (c : String) : c ∈ pagePrefixes (keysAfter start manifests) pfx delimiter ↔
      ∃ m ∈ manifests, start < m.key ∧ rolledUp pfx delimiter m.key = some c := by
    simp only [mem_pagePrefixes, keysAfter, List.mem_filter, decide_eq_true_eq, and_assoc]
  constructor
  · intro he m hm c hr
    have hc : (start < c ∧ ∃ m ∈ manifests, rolledUp pfx delimiter m.key = some c) ↔
        ∃ m ∈ manifests, start < m.key ∧ rolledUp pfx delimiter m.key = some c := by
      rw [← hmem, ← hmem', he]
    exact ⟨fun hlt => (hc.2 ⟨m, hm, hlt, hr⟩).1, fun hlt => hc.1 ⟨hlt, m, hm, hr⟩⟩
  · intro h
    apply List.Pairwise.eq_of_mem_iff ((pagePrefixes_increasing _ _ _).filter _)
      (pagePrefixes_increasing _ _ _)
    intro c
    rw [hmem, hmem']
    constructor
    · rintro ⟨hlt, m, hm, hr⟩
      exact (h m hm c hr).2 hlt
    · rintro ⟨m, hm, hlt, hr⟩
      exact ⟨(h m hm c hr).1 hlt, m, hm, hr⟩

end Listed

theorem ObjectFormat.listed_valid
    (hl : ObjectFormat.listBucketManifestsLike s bucket pfx now = .ok manifests)
    (hm : m ∈ manifests) : m.validate = .ok () := by
  unfold ObjectFormat.listBucketManifestsLike at hl
  split at hl
  · cases hl
  · rename_i l hread
    cases hl
    exact readManifests_valid hread (List.mem_of_mem_filter hm)

def entryCount (manifests : List ObjectManifest) (pfx : String) (delimiter : Option String)
    (marker : Option String) : Nat :=
  ((pageObjects manifests pfx delimiter).filter fun o => afterMarker marker o.key).length +
    ((pagePrefixes manifests pfx delimiter).filter (afterMarker marker)).length

theorem listObjectsV2_of_room {input : ListObjectsV2Input} (hb : bucketExists s input.bucket = true)
    (hl : ObjectFormat.listBucketManifestsLike s input.bucket (input.pfx.getD "") now =
      .ok manifests)
    (hroom : entryCount manifests (input.pfx.getD "") input.delimiter input.resumeAfter ≤
      input.pageSize) :
    ∃ out, listObjectsV2 s input now = .ok out ∧ out.isTruncated = false ∧
      out.contents = (pageObjects manifests (input.pfx.getD "") input.delimiter).filter
        (fun o => afterMarker input.resumeAfter o.key) ∧
      out.commonPrefixes = (pagePrefixes manifests (input.pfx.getD "") input.delimiter).filter
        (afterMarker input.resumeAfter) := by
  obtain ⟨hleft, hright, hmore⟩ := Paging.fill_of_le ListedObject.key hroom
  unfold listObjectsV2 listBucketPage
  dsimp only
  rw [hb, hl]
  exact ⟨_, rfl, by simp [ListedBucketPage.ofMerged, mergedPage, hmore], hleft, hright⟩

/-- A listing after a string is that of the later keys exactly when no group lies across it. -/
theorem start_after_selects_keys_iff {s : MetadataStore} {input : ListObjectsV2Input}
    (hb : bucketExists s input.bucket = true) (htoken : input.continuationToken = none)
    (hstart : input.startAfter = some start)
    (hl : ObjectFormat.listBucketManifestsLike s input.bucket (input.pfx.getD "") now =
      .ok manifests)
    (hroom : entryCount manifests (input.pfx.getD "") input.delimiter (some start) ≤
      input.pageSize) :
    (∃ out, listObjectsV2 s input now = .ok out ∧ out.isTruncated = false ∧ out.contents =
        pageObjects (keysAfter start manifests) (input.pfx.getD "") input.delimiter ∧
      out.commonPrefixes =
        pagePrefixes (keysAfter start manifests) (input.pfx.getD "") input.delimiter) ↔
      GroupsFollow manifests (input.pfx.getD "") input.delimiter start := by
  have hresume : input.resumeAfter = some start := by
    simp [ListObjectsV2Input.resumeAfter, htoken, hstart]
  rw [← hresume] at hroom
  obtain ⟨out, hout, htrunc, hobjects, hprefixes⟩ := listObjectsV2_of_room hb hl hroom
  rw [hresume] at hobjects hprefixes
  have hne : ∀ m ∈ manifests, m.key ≠ "" := by
    intro m hm
    exact ObjectManifest.key_ne_empty_of_valid (ObjectFormat.listed_valid hl hm)
  rw [← pagePrefixes_keysAfter_iff]
  constructor
  · rintro ⟨out', hout', -, -, hp⟩
    cases hout.symm.trans hout'
    rw [← hprefixes, hp]
  · intro hp
    exact ⟨out, hout, htrunc, hobjects.trans (pageObjects_keysAfter hne), hprefixes.trans hp⟩

def folderRun : List MetadataStore × MetadataStore :=
  (exec (StoreOp.apply fun _ => none) [] photosStore
    (uploadOps (emptyObject ⟨1⟩ "photos" "b/c") ⟨11⟩ 1 ++
      uploadOps (emptyObject ⟨2⟩ "photos" "b/d") ⟨12⟩ 2)).get (by decide +kernel)

def folderManifests : List ObjectManifest :=
  [(emptyObject ⟨1⟩ "photos" "b/c").withState .committed,
    (emptyObject ⟨2⟩ "photos" "b/d").withState .committed]

def foldersAfter (start : String) : ListObjectsV2Input :=
  { bucket := "photos", delimiter := some "/", startAfter := some start }

theorem folder_listed_after_earlier_key :
    ∃ out, listObjectsV2 folderRun.2 (foldersAfter "a") (instant 3) = .ok out ∧
      out.isTruncated = false ∧ out.contents = [] ∧ out.commonPrefixes = ["b/"] := by
  have hl : ObjectFormat.listBucketManifestsLike folderRun.2 "photos" "" (instant 3) =
      .ok folderManifests := by decide +kernel
  have hroll : ∀ m ∈ folderManifests, rolledUp "" (some "/") m.key = some "b/" := by
    decide +kernel
  have hgroups : GroupsFollow folderManifests "" (some "/") "a" := by
    intro m hm c hc
    cases (hroll m hm).symm.trans hc
    have hlater : ∀ m ∈ folderManifests, "a" < m.key := by decide +kernel
    exact ⟨fun _ => by decide +kernel, fun _ => ⟨m, hm, hlater m hm, hc⟩⟩
  have hb : bucketExists folderRun.2 (foldersAfter "a").bucket = true := by decide +kernel
  obtain ⟨out, hout, htrunc, hobjects, hprefixes⟩ :=
    (start_after_selects_keys_iff hb rfl rfl hl (by decide +kernel)).2 hgroups
  exact ⟨out, hout, htrunc, hobjects.trans (by decide +kernel), hprefixes.trans (by decide +kernel)⟩

/-- A folder is dropped from the listing although one of its keys is after the string. -/
theorem folder_dropped_after_its_first_key :
    ∃ past s out, Run NoObjects (StoreStep fun _ => none) past s ∧
      ObjectFormat.listBucketManifestsLike s "photos" "" (instant 3) = .ok folderManifests ∧
      listObjectsV2 s (foldersAfter "b/c") (instant 3) = .ok out ∧ out.isTruncated = false ∧
      out.contents = [] ∧ out.commonPrefixes = [] ∧
      pagePrefixes (keysAfter "b/c" folderManifests) "" (some "/") = ["b/"] := by
  have hi : NoObjects photosStore := ⟨rfl, rfl, rfl⟩
  have hr : Run NoObjects (StoreStep fun _ => none) folderRun.1 folderRun.2 :=
    Run.of_exec_isSome hi (by decide +kernel)
  have hl : ObjectFormat.listBucketManifestsLike folderRun.2 "photos" "" (instant 3) =
      .ok folderManifests := by decide +kernel
  have hb : bucketExists folderRun.2 (foldersAfter "b/c").bucket = true := by decide +kernel
  obtain ⟨out, hout, htrunc, hobjects, hprefixes⟩ :=
    listObjectsV2_of_room hb hl (by decide +kernel)
  exact ⟨_, _, out, hr, hl, hout, htrunc, hobjects.trans (by decide +kernel),
    hprefixes.trans (by decide +kernel), by decide +kernel⟩

end TelegramS3
