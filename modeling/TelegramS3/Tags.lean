import TelegramS3.ConditionalWrites
import TelegramS3.Provenance

namespace TelegramS3
open Relational Fallible Transition MetadataStore
set_option autoImplicit true

def ETag.value : ETag → String
  | .strong value | .weak value => value

structure CompletedPart where
  partNumber : Option Int
  eTag : Option ETag

structure CompletionInput where
  uploadId : Uuid
  bucket : String
  key : String
  parts : Option (List CompletedPart)
  headers : WriteHeaders := {}

def CompletedPart.parse (p : CompletedPart) : Except S3Error (Nat × String) :=
  match p.partNumber with
  | none => .error (.s3 .invalidPart "missing part number")
  | some number =>
    if number < 0 then .error (.s3 .invalidPart "invalid part number")
    else
      match p.eTag with
      | some tag => .ok (number.toNat, tag.value)
      | none => .error (.s3 .invalidPart "missing part etag")

def CompletionInput.listed (input : CompletionInput) : Except S3Error (List (Nat × String)) :=
  match input.parts with
  | none => .error (.s3 .invalidArgument "missing multipart parts")
  | some parts => parts.mapM CompletedPart.parse

def CompletionInput.frontDoor (input : CompletionInput) (s : MetadataStore)
    (now : OffsetDateTime) : Except S3Error WritePhase := do
  let listed ← input.listed
  WriteRequest.frontDoor
    { entry := .completeMultipartUpload input.uploadId (listed.map Prod.fst)
      bucket := input.bucket, key := input.key, headers := input.headers } s now

def TagsMatch (s : MetadataStore) (uploadId : Uuid) (listed : List (Nat × String)) : Prop :=
  ∀ p ∈ listed, ∃ part,
    (s.listMultipartParts uploadId).find? (fun part => part.partNumber = p.1) = some part ∧
      part.eTag = p.2

/-- A completion planned by the handler, composed of the stored parts, and queued. -/
structure CompletionStarted (cfg : ServiceConfig) (sha256Hex : Bytes → String)
    (input : CompletionInput) (planned composed queued : MetadataStore)
    (listed : List (Nat × String)) (m : ObjectManifest) : Prop where
  parsed : input.listed = .ok listed
  start : ∃ plan now now', input.frontDoor planned now = .ok (.planned plan) ∧
    ObjectFormat.completeMultipartUpload cfg sha256Hex composed plan now' = .ok (.publish m)
  queue : ∃ (before : MetadataStore) (now : OffsetDateTime),
    before.queueMultipartCompletion m.objectId m.objectId input.uploadId now = .ok queued

/-- Every part of an object that is being completed has the entity tag the client listed. -/
def PartTagsChecked (cfg : ServiceConfig) (sha256Hex : Bytes → String) : Prop :=
  ∀ input planned composed queued listed m,
    CompletionStarted cfg sha256Hex input planned composed queued listed m →
    TagsMatch composed input.uploadId listed

theorem composeParts_mem {parts : List MultipartPartPlan} {acc acc' : Composition}
    (h : parts.foldlM (composePart stored) acc = .ok acc') (hp : plan ∈ parts) :
    ∃ before part m, PartFits stored before plan part m := by
  induction parts generalizing acc with
  | nil => cases hp
  | cons first parts ih =>
    rw [List.foldlM_cons] at h
    obtain ⟨acc₁, hfirst, h⟩ := bind_ok.1 h
    rcases List.mem_cons.1 hp with rfl | hp
    · obtain ⟨part, m, hf, -⟩ := composePart_ok.1 hfirst
      exact ⟨acc, part, m, hf⟩
    · exact ih h hp

theorem frontDoor_planned {input : CompletionInput}
    (h : input.frontDoor s now = .ok (.planned plan)) (hl : input.listed = .ok listed) :
    plan.uploadId = input.uploadId ∧
      planParts (s.listMultipartParts input.uploadId) (listed.map Prod.fst) = .ok plan.parts := by
  obtain ⟨listed', hl', h⟩ := bind_ok.1 h
  rw [hl] at hl'
  cases hl'
  simp only [WriteRequest.frontDoor] at h
  split at h
  · cases h
  · obtain ⟨current, -, h⟩ := bind_ok.1 h
    obtain ⟨_, -, h⟩ := bind_ok.1 h
    obtain ⟨parts, hp, h⟩ := bind_ok.1 h
    cases h
    exact ⟨rfl, hp⟩

/-- A started completion composes parts with the tags stored when the handler listed them. -/
theorem CompletionStarted.stored
    (h : CompletionStarted cfg sha256Hex input planned composed queued listed m)
    (hp : p ∈ listed) :
    ∃ part part',
      (planned.listMultipartParts input.uploadId).find? (fun part => part.partNumber = p.1) =
        some part ∧
      (composed.listMultipartParts input.uploadId).find? (fun part => part.partNumber = p.1) =
        some part' ∧
      part'.eTag = part.eTag := by
  obtain ⟨plan, now, now', hplanned, hcomposed⟩ := h.start
  obtain ⟨hid, hparts⟩ := frontDoor_planned hplanned h.parsed
  obtain ⟨entry, hentry, hfound⟩ := exists_of_mapM_ok hparts (List.mem_map_of_mem hp)
  split at hfound
  · cases hfound
  · rename_i part hpart
    cases hfound
    obtain ⟨session, -, -, hbuilt⟩ := completeMultipartUpload_publish hcomposed
    obtain ⟨-, -, acc, hfold, -⟩ := completionManifest_ok hbuilt
    obtain ⟨before, part', pm, hfits⟩ := composeParts_mem hfold hentry
    rw [hid] at hfits
    exact ⟨part, part', hpart, hfits.found, hfits.eTag⟩

/-- Tags are right exactly when the client listed those stored when the handler looked, since the
handler hands on the stored ones. -/
theorem part_tags_exact
    (h : CompletionStarted cfg sha256Hex input planned composed queued listed m) :
    TagsMatch composed input.uploadId listed ↔ TagsMatch planned input.uploadId listed := by
  constructor
  · intro ht p hp
    obtain ⟨part, part', hpart, hpart', he⟩ := h.stored hp
    obtain ⟨found, hfound, htag⟩ := ht p hp
    rw [hpart'] at hfound
    cases hfound
    exact ⟨part, hpart, he ▸ htag⟩
  · intro ht p hp
    obtain ⟨part, part', hpart, hpart', he⟩ := h.stored hp
    obtain ⟨found, hfound, htag⟩ := ht p hp
    rw [hpart] at hfound
    cases hfound
    exact ⟨part', hpart', he.trans htag⟩

def onePartStore : MetadataStore :=
  ((exec (StoreOp.apply fun _ => none) [] photosStore partOps).get (by decide)).2

def onePartCompletion (tag : String) : CompletionInput :=
  { uploadId := ⟨9⟩, bucket := "photos", key := "a.jpg"
    parts := some [{ partNumber := some 1, eTag := some (.strong tag) }] }

def onePartPlan : MultipartCompletionPlan :=
  { uploadId := ⟨9⟩, objectId := ⟨9⟩, bucket := "photos", key := "a.jpg"
    contentType := "application/octet-stream", checksumAlgorithm := "sha256", contentLength := 0
    parts := [{ partNumber := 1, size := 0, checksum := "e3b0c442", eTag := "e3b0c442" }] }

def onePartObject : ObjectManifest :=
  { emptyObject ⟨9⟩ "photos" "a.jpg" with
    versionId := some (Uuid.text ⟨9⟩), createdAt := instant 4
    checksum := { algorithm := "sha256-parts-v1", wholeObject := "c0ffee" }
    telegram := sampleStorage.localManifest ⟨9⟩ }

def onePartStaged : MetadataStore :=
  ((exec (StoreOp.apply fun _ => none) [] onePartStore
    [.beginTransfer ⟨9⟩ "photos" "a.jpg" (instant 4).unixTimestamp,
      .stageManifest .put onePartObject (instant 4)]).get (by decide)).2

theorem onePart_started (tag : String) :
    ∃ queued, CompletionStarted sampleStorage (fun _ => "c0ffee") (onePartCompletion tag)
      onePartStore onePartStore queued [(1, tag)] onePartObject := by
  have hq : (after (onePartStaged.queueMultipartCompletion ⟨9⟩ ⟨9⟩ ⟨9⟩ (instant 4))).isSome := by
    decide
  obtain ⟨queued, hq⟩ := Option.isSome_iff_exists.1 hq
  refine ⟨queued, rfl, ⟨onePartPlan, instant 2, instant 4, rfl, ?_⟩, onePartStaged, instant 4,
    after_eq_some.1 hq⟩
  rfl

/-- A completion starts although its only part is listed with another entity tag. -/
theorem wrong_part_tag_starts : ¬ PartTagsChecked sampleStorage fun _ => "c0ffee" := by
  intro h
  obtain ⟨queued, hs⟩ := onePart_started "0bad"
  obtain ⟨part, hpart, htag⟩ := h _ _ _ _ _ _ hs (1, "0bad") (List.mem_singleton.2 rfl)
  have hfound : ((onePartStore.listMultipartParts ⟨9⟩).find? fun part => part.partNumber = 1).map
      MultipartPart.eTag = some "e3b0c442" := by decide
  have hstored : some "e3b0c442" = some part.eTag :=
    hfound.symm.trans (congrArg (Option.map MultipartPart.eTag) hpart)
  rw [htag] at hstored
  exact absurd hstored (by decide)

theorem right_part_tag_starts :
    ∃ queued, CompletionStarted sampleStorage (fun _ => "c0ffee") (onePartCompletion "e3b0c442")
        onePartStore onePartStore queued [(1, "e3b0c442")] onePartObject ∧
      TagsMatch onePartStore ⟨9⟩ [(1, "e3b0c442")] := by
  obtain ⟨queued, hs⟩ := onePart_started "e3b0c442"
  refine ⟨queued, hs, (part_tags_exact hs).2 ?_⟩
  intro p hp
  rw [List.mem_singleton.1 hp]
  exact ⟨_, rfl, rfl⟩

end TelegramS3
