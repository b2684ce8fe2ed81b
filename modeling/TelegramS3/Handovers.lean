import TelegramS3.Frame

namespace TelegramS3
open Relational Fallible MetadataStore
set_option autoImplicit true

/-- What a call hands to the outbox for one object, and the connection of its row. -/
structure Handover where
  object : Uuid
  owner : Option String
  dueAt : Int
  locations : List (String × Int)

def Handover.keys (h : Handover) : List (String × Int) :=
  ("evidence:" ++ h.object.text, 0) :: h.locations

def ManifestRow.handover (r : ManifestRow) (dueAt : Int) : Handover :=
  { object := r.manifest.objectId, owner := some r.connectionId, dueAt
    locations := r.manifest.cleanupLocations }

namespace MetadataStore
variable (s : MetadataStore)

def partHandover (now : Int) (retained : List (String × Int))
    (p : PartRow) : Handover :=
  { object := p.part.cleanupObjectId
    owner := (s.multipartUploads.get? p.uploadId).map UploadRow.connectionId
    dueAt := now + s.cleanupRetentionSecs, locations := p.part.cleanupLocations retained }

def uploadHandovers (upload : Uuid) (now : Int)
    (retained : List (String × Int)) : List Handover :=
  (s.multipartParts.select fun p => p.uploadId = upload).map (s.partHandover now retained)

def completionHandovers (job : Uuid) (m : ObjectManifest) (now : Int) :
    List Handover :=
  match s.completionUpload job with
  | none => []
  | some upload => s.uploadHandovers upload now (m.chunks.map ChunkRef.location)

def commitHandovers (operation : Uuid) (now : Int) : List Handover :=
  match s.operationJournal.get? operation with
  | none => []
  | some row =>
    match s.commitSubject row.details none with
    | .error _ => []
    | .ok m => s.completionHandovers row.details.objectId m now

def replacementHandovers (upload : Uuid) (number : Nat) (now : Int) :
    List Handover :=
  (s.multipartParts.get? (upload, number)).toList.map (s.partHandover now [])

def removalHandovers (now : Int) : List Handover :=
  let connectionId := s.activeConnectionId
  (s.removalManifests connectionId).map (ManifestRow.handover · now) ++
    ((s.transferJobs.select fun j => j.connectionId = connectionId).insertionSort
        fun a b => a.sequence ≤ b.sequence).map (fun j =>
      { object := j.objectId, owner := some j.connectionId, dueAt := now
        locations := ((s.checkpointLocations j.id).map TelegramLocation.location ++
          ((s.sendAttempts.select fun a => a.jobId = j.id).filterMap
            SendAttemptRow.location).map TelegramLocation.location).filter
              fun l => decide (0 < l.2) }) ++
    (s.removalUploads connectionId).map fun u =>
      { object := u.uploadId, owner := some u.connectionId, dueAt := now
        locations := (((s.multipartParts.select fun p => p.uploadId = u.uploadId).insertionSort
          fun a b => a.partNumber ≤ b.partNumber).map fun p => p.part.telegram.location).filter
            fun l => decide (0 < l.2) }

def handOver (hs : List Handover) : CleanupOutbox :=
  hs.foldl (fun o h => o.enqueue h.object s.activeConnectionId h.dueAt h.locations) s.outbox

end MetadataStore

def StoreOp.handovers (s : MetadataStore) : StoreOp → List Handover
  | .transferAction id action now =>
    if action = "cancel" && !(s.checkpointLocations id).isEmpty then
      ((s.transferJobs.get? id).filter fun j => j.state.waiting).toList.map fun j =>
        { object := j.objectId, owner := some j.connectionId, dueAt := now
          locations := (s.checkpointLocations id).map TelegramLocation.location }
    else []
  | .tombstoneManifest id _ _ now =>
    (s.objectManifests.get? id).toList.map (ManifestRow.handover · now.unixTimestamp)
  | .tombstoneExpiredActiveManifests now =>
    (s.activeCommitted.filter fun r => r.manifest.isExpired now).map
      (ManifestRow.handover · now.unixTimestamp)
  | .deleteActiveKey bucket key _ _ now =>
    ((s.activeObjectId bucket key).bind s.objectManifests.get?).toList.map
      (ManifestRow.handover · now.unixTimestamp)
  | .commitManifest operation now => s.commitHandovers operation now.unixTimestamp
  | .commitTransferManifest id _ published now =>
    s.completionHandovers id published now.unixTimestamp
  | .finishPartJob id _ now =>
    match s.multipartJob id with
    | none => []
    | some (upload, number) =>
      if number = 0 then
        match (s.transferJobs.get? id).bind TransferJob.operationId with
        | none => []
        | some operation => s.commitHandovers operation now.unixTimestamp
      else s.replacementHandovers upload number now.unixTimestamp
  | .abortParts upload now => s.uploadHandovers upload now []
  | .beginConnectionRemoval _ deleteUploadedFiles now =>
    if deleteUploadedFiles then s.removalHandovers now.unixTimestamp else []
  | .reopen now =>
    (s.objectManifests.select fun r => r.commitState = .tombstoned).map fun r =>
      r.handover (((r.tombstonedAt.map OffsetDateTime.unixTimestamp).getD now.unixTimestamp) +
        s.cleanupRetentionSecs)
  | _ => []

namespace MetadataStore

theorem closeUpload_outbox (s : MetadataStore) (operation upload : Uuid)
    (transfer : Option (Uuid × Uuid)) (m m' : ObjectManifest) (now : OffsetDateTime) :
    ((s.committedStore operation transfer m now).closeUpload upload m' now.unixTimestamp).outbox =
      s.handOver (s.uploadHandovers upload now.unixTimestamp
        (m'.chunks.map ChunkRef.location)) := by
  unfold handOver uploadHandovers
  rw [List.foldl_map]
  exact List.foldl_map

theorem dropUpload_outbox (s : MetadataStore) (upload : Uuid) (now : Int) :
    (s.dropUpload upload now).outbox = s.handOver (s.uploadHandovers upload now []) := by
  unfold handOver uploadHandovers
  rw [List.foldl_map]
  exact List.foldl_map

theorem commitManifest_outbox {s s' : MetadataStore}
    (h : s.commitManifest fromStr operation now = .ok (m', s')) :
    s'.outbox = s.outbox ∨
      s'.outbox = s.handOver (s.commitHandovers operation now.unixTimestamp) := by
  obtain ⟨row, hrow, ⟨-, rfl⟩ | ⟨m, hm, -, -, ⟨-, rfl⟩ | ⟨upload, hu, rfl⟩⟩⟩ :=
    commitManifestInner_ok h
  · exact .inl rfl
  · exact .inl rfl
  · right
    have hc : s.completionUpload row.details.objectId = some upload := hu
    simp only [commitHandovers, hrow, hm, completionHandovers, hc]
    exact s.closeUpload_outbox operation upload none m m now

theorem commitTransferManifest_outbox {s s' : MetadataStore}
    (h : s.commitTransferManifest fromStr operation job lease published now = .ok (m', s')) :
    s'.outbox = s.outbox ∨
      s'.outbox = s.handOver (s.completionHandovers job published now.unixTimestamp) := by
  obtain ⟨row, -, ⟨-, rfl⟩ | ⟨m, hm, -, -, ⟨-, rfl⟩ | ⟨upload, hu, rfl⟩⟩⟩ :=
    commitManifestInner_ok h
  · exact .inl rfl
  · exact .inl rfl
  · right
    have hc : s.completionUpload job = some upload := hu
    rw [commitSubject_published hm]
    simp only [completionHandovers, hc]
    exact s.closeUpload_outbox operation upload (some (job, lease)) published published now

theorem removalOutbox_eq (s : MetadataStore) (now : Int) :
    s.removalOutbox s.activeConnectionId now = s.handOver (s.removalHandovers now) := by
  unfold handOver removalHandovers removalOutbox
  simp only [List.foldl_append, List.foldl_map]
  rfl

/-- The handovers of a stored part. -/
def OfPart (s : MetadataStore) (x : Handover) : Prop :=
  ∃ p ∈ s.multipartParts, ∃ now retained, x = s.partHandover now retained p

theorem OfPart.upload {s : MetadataStore} {upload : Uuid}
    (h : x ∈ s.uploadHandovers upload now retained) :
    s.OfPart x := by
  obtain ⟨p, hp, rfl⟩ := List.mem_map.1 h
  exact ⟨p, (Table.mem_select.1 hp).1, now, retained, rfl⟩

theorem OfPart.completion {s : MetadataStore} (h : x ∈ s.completionHandovers job m now) :
    s.OfPart x := by
  unfold completionHandovers at h
  split at h
  · cases h
  · exact .upload h

theorem OfPart.commit {s : MetadataStore} (h : x ∈ s.commitHandovers operation now) :
    s.OfPart x := by
  unfold commitHandovers at h
  split at h
  · cases h
  · split at h
    · cases h
    · exact .completion h

theorem OfPart.finish {s : MetadataStore}
    (h : x ∈ (StoreOp.finishPartJob job lease now).handovers s) : s.OfPart x := by
  simp only [StoreOp.handovers] at h
  split at h
  · cases h
  · split at h
    · split at h
      · cases h
      · exact .commit h
    · obtain ⟨p, hp, rfl⟩ := List.mem_map.1 h
      exact ⟨p, Table.mem_of_get? (Option.mem_toList.1 hp), _, [], rfl⟩

theorem tombstoneExpired_outbox (l : List ManifestRow) (s t : MetadataStore)
    (now : OffsetDateTime) (hc : t.activeConnectionId = s.activeConnectionId) :
    (l.foldl (fun t r => t.tombstoneExpired r now) t).outbox =
      (l.map (ManifestRow.handover · now.unixTimestamp)).foldl
        (fun o h => o.enqueue h.object s.activeConnectionId h.dueAt h.locations) t.outbox := by
  induction l generalizing t with
  | nil => rfl
  | cons r l ih =>
    rw [List.foldl_cons, ih (t.tombstoneExpired r now) hc, List.map_cons, List.foldl_cons, ← hc]
    rfl

theorem finishPartJob_outbox {s s' : MetadataStore} (hn : number ≠ 0)
    (h : s.finishPartJob fromStr job lease upload number now = .ok s') :
    s'.outbox = s.handOver (s.replacementHandovers upload number now.unixTimestamp) := by
  obtain ⟨row, -, -, rfl⟩ := finishPartJob_ok hn h
  have ho : (((s.publishedPart job lease upload number row.manifest now).supersedeDuplicates job
      upload number now.unixTimestamp).discardPart job upload number).outbox =
      (s.putPart upload number (MultipartPart.ofManifest upload number row.manifest now)
        now).outbox := rfl
  rw [ho]
  unfold putPart replacementHandovers getMultipartPart
  cases s.multipartParts.get? (upload, number) with
  | none => rfl
  | some p => rfl

theorem transferAction_outbox (s : MetadataStore) (id : Uuid) (action : String) (now : Int) :
    (s.transferAction id action now).outbox = s.outbox ∨ (s.transferAction id action now).outbox =
        s.handOver ((StoreOp.transferAction id action now).handovers s) := by
  unfold transferAction
  split
  · exact .inl rfl
  · split
    · rename_i hc
      rcases s.cancelTransfer_cases id now with he | ⟨job, l, hj, hw, rfl, he⟩
      · rw [he]
        exact .inl rfl
      · rw [he]
        simp only [StoreOp.handovers, hc, hj, Option.filter, hw]
        cases hl : (s.checkpointLocations id).isEmpty with
        | true => exact .inl rfl
        | false => exact .inr rfl
    · exact .inl rfl

end MetadataStore

def StoreOp.cleansUp : StoreOp → Bool
  | .claimCleanup .. | .completeCleanup .. | .failCleanup .. | .quarantineCleanup ..
  | .beginCleanupEvidenceAttempt .. | .resolveCleanupEvidence .. | .retryCleanupEvidence ..
  | .makeCleanupDue .. => true
  | _ => false

/-- Outside the cleanup worker a call leaves the outbox alone or enqueues its handovers. -/
theorem StoreOp.outbox_step (h : StoreStep fromStr op s s') (hw : op.cleansUp = false) :
    s'.outbox = s.outbox ∨ s'.outbox = s.handOver (op.handovers s) := by
  cases op with
  | claimCleanup | completeCleanup | failCleanup | quarantineCleanup | makeCleanupDue
  | beginCleanupEvidenceAttempt | resolveCleanupEvidence | retryCleanupEvidence => cases hw
  | commitManifest =>
    obtain ⟨⟨m', s₁⟩, hc, rfl⟩ := map_ok.1 (after_eq_some.1 h)
    exact commitManifest_outbox hc
  | commitTransferManifest =>
    obtain ⟨⟨m', s₁⟩, hc, rfl⟩ := map_ok.1 (after_eq_some.1 h)
    exact commitTransferManifest_outbox hc
  | finishPartJob id lease now =>
    obtain ⟨⟨upload, number⟩, hm, hf⟩ := Option.bind_eq_some_iff.1 h
    simp only [StoreOp.handovers, hm]
    by_cases hn : number = 0
    · subst hn
      obtain ⟨operation, m', ho, hc⟩ := finishPartJob_zero (after_eq_some.1 hf)
      simp only [ho, if_true]
      exact commitManifest_outbox hc
    · rw [if_neg hn]
      exact .inr (finishPartJob_outbox hn (after_eq_some.1 hf))
  | transferAction id action now =>
    cases h
    exact s.transferAction_outbox id action now
  | tombstoneManifest id reason c now =>
    obtain ⟨⟨m', s₁⟩, hc, rfl⟩ := map_ok.1 (after_eq_some.1 h)
    obtain ⟨m, hm, rfl⟩ := tombstoneManifestWithConditionals_ok hc
    obtain ⟨row, hr, rfl⟩ := loadManifestByObjectId_ok hm
    right
    simp only [StoreOp.handovers, hr]
    rfl
  | tombstoneExpiredActiveManifests now =>
    cases h
    exact .inr (tombstoneExpired_outbox _ s s now rfl)
  | deleteActiveKey bucket key reason c now =>
    obtain ⟨⟨m', s₁⟩, hc, rfl⟩ := map_ok.1 (after_eq_some.1 h)
    obtain ⟨-, ⟨-, rfl⟩ | ⟨id, m, ha, hm, rfl⟩⟩ := deleteActiveKey_ok hc
    · exact .inl rfl
    · obtain ⟨row, hr, rfl⟩ := loadManifestByObjectId_ok hm
      right
      simp only [StoreOp.handovers, ha, Option.bind_some, hr]
      rfl
  | abortParts upload now =>
    obtain ⟨-, rfl⟩ := abortParts_ok (after_eq_some.1 h)
    exact .inr (s.dropUpload_outbox upload now)
  | beginConnectionRemoval job deleteUploadedFiles now =>
    obtain ⟨objects, rfl⟩ := beginConnectionRemoval_ok (after_eq_some.1 h)
    cases deleteUploadedFiles with
    | true => exact .inr (s.removalOutbox_eq now.unixTimestamp)
    | false => exact .inl rfl
  | reopen now =>
    cases h
    right
    unfold handOver StoreOp.handovers
    rw [List.foldl_map]
    rfl
  | _ => exact .inl (StoreOp.frame h .outbox rfl)

end TelegramS3
