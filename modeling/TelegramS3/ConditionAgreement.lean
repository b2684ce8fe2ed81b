import TelegramS3.ConditionalWrites

namespace TelegramS3
open Relational Table Fallible Transition MetadataStore
set_option autoImplicit true

namespace WriteRequest

def Accepted (r : WriteRequest) (s : MetadataStore) (now : OffsetDateTime) : Prop :=
  ∃ current, ObjectFormat.getActiveManifest s r.bucket r.key now = .ok current ∧
    r.headers.enforce current = .ok ()

/-- The front door takes the key for free although a hidden object is active and fails the commit.
-/
def Overlooks (r : WriteRequest) (s : MetadataStore) (now : OffsetDateTime) : Prop :=
  r.headers.ifMatch = none ∧ ∃ row ∈ s.objectManifests,
    s.activeObjectId r.bucket r.key = some row.objectId ∧
    (row.connectionId ≠ s.activeConnectionId ∨
      row.manifest.validate = .ok () ∧ row.manifest.isExpired now = true) ∧
    (row.manifest.validate ≠ .ok () ∨ r.entry.isPut = true ∧
      ∃ c, r.headers.ifNoneMatch = some c ∧
        etagConditionMatches c row.manifest.checksum.wholeObject = true)

end WriteRequest

variable {s s' : MetadataStore}

theorem MetadataStore.shown_eq_some : s.shown bucket key = some m ↔ ∃ row ∈ s.objectManifests,
      s.activeObjectId bucket key = some row.objectId ∧ row.manifest = m := by
  unfold shown
  simp only [Option.map_eq_some_iff, Option.bind_eq_some_iff]
  constructor
  · rintro ⟨row, ⟨object, ha, hr⟩, hm⟩
    have hid : row.objectId = object := key_of_get? hr
    exact ⟨row, mem_of_get? hr, hid ▸ ha, hm⟩
  · rintro ⟨row, hr, ha, hm⟩
    exact ⟨row, ⟨_, ha, mem_iff_get?.1 hr⟩, hm⟩

theorem MetadataStore.getActiveManifest_of_shown_none
    (h : s.shown bucket key = none) : s.getActiveManifest bucket key = .ok none := by
  unfold getActiveManifest
  split
  · rfl
  · rename_i object hs
    obtain ⟨ha, hp⟩ := Option.filter_eq_some_iff.1 hs
    obtain ⟨row, hr, hp⟩ := any_eq_true.1 hp
    simp only [Bool.and_eq_true, decide_eq_true_eq] at hp
    cases h.symm.trans (shown_eq_some.2 ⟨row, hr, hp.1 ▸ ha, rfl⟩)

theorem MetadataStore.getActiveManifest_of_row (hr : row ∈ s.objectManifests)
    (ha : s.activeObjectId bucket key = some row.objectId) :
    s.getActiveManifest bucket key =
      if row.connectionId = s.activeConnectionId then s.loadManifestByObjectId row.objectId
      else .ok none := by
  have hp : (s.objectManifests.any fun m =>
      m.objectId = row.objectId && m.connectionId = s.activeConnectionId) =
      decide (row.connectionId = s.activeConnectionId) := by
    rw [Bool.eq_iff_iff, any_eq_true]
    simp only [Bool.and_eq_true, decide_eq_true_eq]
    constructor
    · rintro ⟨m, hm, hid, hc⟩
      rwa [eq_of_key_eq hm hr hid] at hc
    · intro hc
      exact ⟨row, hr, rfl, hc⟩
  unfold getActiveManifest
  rw [ha, Option.filter_some, hp]
  by_cases hc : row.connectionId = s.activeConnectionId
  · simp [hc]
  · simp [hc]

theorem WriteHeaders.enforce_none {h : WriteHeaders} :
    h.enforce none = .ok () ↔ h.ifMatch = none := by
  simp [enforce]

theorem WriteHeaders.enforce_some_of_ifMatch_none {h : WriteHeaders} (hm : h.ifMatch = none) :
    h.enforce (some m) = .ok () ↔ ∀ c, h.ifNoneMatch = some c →
      etagConditionMatches c m.checksum.wholeObject = false := by
  unfold enforce
  rw [hm]
  cases hn : h.ifNoneMatch with
  | none => simp
  | some c => simp

namespace ObjectFormat
variable {s : MetadataStore} {row : ManifestRow}

theorem getActiveManifest_of_hidden (hr : row ∈ s.objectManifests)
    (ha : s.activeObjectId bucket key = some row.objectId)
    (h : row.connectionId ≠ s.activeConnectionId ∨
      row.manifest.validate = .ok () ∧ row.manifest.isExpired now = true) :
    getActiveManifest s bucket key now = .ok none := by
  unfold getActiveManifest
  rw [MetadataStore.getActiveManifest_of_row hr ha]
  by_cases hc : row.connectionId = s.activeConnectionId
  · obtain ⟨hv, he⟩ := h.resolve_left (absurd hc)
    have hget : s.objectManifests.get? row.objectId = some row := mem_iff_get?.1 hr
    have hl : s.loadManifestByObjectId row.objectId = .ok (some row.manifest) := by
      rw [loadManifestByObjectId_iff, hget]
      exact ⟨rfl, fun m hm => Option.some.inj hm ▸ hv⟩
    simp only [hc, hl, Option.filter_some, he, Bool.not_true, Bool.false_eq_true, if_true, if_false]
  · simp [hc]

theorem eq_some_of_getActiveManifest (h : getActiveManifest s bucket key now = .ok current)
    (hr : row ∈ s.objectManifests) (ha : s.activeObjectId bucket key = some row.objectId)
    (hc : row.connectionId = s.activeConnectionId) :
    row.manifest.validate = .ok () ∧
      (row.manifest.isExpired now = false → current = some row.manifest) := by
  unfold getActiveManifest at h
  rw [MetadataStore.getActiveManifest_of_row hr ha, if_pos hc] at h
  cases hl : s.loadManifestByObjectId row.objectId with
  | error e => simp [hl] at h
  | ok found =>
    obtain ⟨hm, hv⟩ := loadManifestByObjectId_iff.1 hl
    have hget : s.objectManifests.get? row.objectId = some row := mem_iff_get?.1 hr
    rw [hget] at hm
    subst hm
    refine ⟨hv _ rfl, ?_⟩
    intro he
    simp only [hl, Option.map_some, Option.filter_some, he, Bool.not_false, if_true] at h
    split at h
    · cases h
    · cases h
      rfl

end ObjectFormat

namespace WriteRequest
variable {r : WriteRequest} {s : MetadataStore} {row : ManifestRow}

theorem accepted_of_hidden (h : ObjectFormat.getActiveManifest s r.bucket r.key now = .ok none) :
    r.Accepted s now ↔ r.headers.ifMatch = none := by
  rw [← WriteHeaders.enforce_none]
  constructor
  · rintro ⟨current, hc, he⟩
    cases h.symm.trans hc
    exact he
  · intro he
    exact ⟨none, h, he⟩

theorem Accepted.enforced (h : r.Accepted s now) (hr : row ∈ s.objectManifests)
    (ha : s.activeObjectId r.bucket r.key = some row.objectId)
    (hno : ¬ r.Overlooks s now) :
    row.manifest.validate = .ok () ∧
      (r.entry.isPut = true → r.headers.enforce (some row.manifest) = .ok ()) := by
  by_cases hhid : row.connectionId ≠ s.activeConnectionId ∨
      row.manifest.validate = .ok () ∧ row.manifest.isExpired now = true
  · have hm := (accepted_of_hidden (ObjectFormat.getActiveManifest_of_hidden hr ha hhid)).1 h
    constructor
    · by_contra hv
      exact hno ⟨hm, row, hr, ha, hhid, .inl hv⟩
    · intro hput
      rw [WriteHeaders.enforce_some_of_ifMatch_none hm]
      intro c hc
      by_contra hmatch
      exact hno ⟨hm, row, hr, ha, hhid, .inr ⟨hput, c, hc, by simpa using hmatch⟩⟩
  · obtain ⟨current, hcur, he⟩ := h
    simp only [not_or, not_not, not_and, Bool.not_eq_true] at hhid
    obtain ⟨hv, hsome⟩ := ObjectFormat.eq_some_of_getActiveManifest hcur hr ha hhid.1
    rw [hsome (hhid.2 hv)] at he
    exact ⟨hv, fun _ => he⟩

theorem recorded_enforced (hv : r.entry.isPut = true → r.headers.enforce current = .ok ()) :
    ∀ c, r.recorded codec = some c →
      enforceWriteConditionalsSnapshot codec.fromStr c current = .ok () := by
  intro c hc
  cases hput : r.entry.isPut with
  | true =>
    rw [recorded_of_put hput] at hc
    exact WriteHeaders.snapshot_enforced.2 (hv hput) c hc
  | false =>
    unfold recorded at hc
    split at hc
    · rename_i he
      rw [he] at hput
      cases hput
    · cases hc

end WriteRequest

/-- The commit accepts what the front door did exactly when no object of the key was overlooked. -/
theorem commit_agrees_with_front_door {r : WriteRequest} {job : Uuid}
    (hkey : s'.shown r.bucket r.key = s.shown r.bucket r.key)
    (hb : journal.bucket = r.bucket) (hk : journal.objectKey = r.key)
    (hj : s'.transferJobs.get? job = some j) (hc : j.writeConditionals = r.recorded codec) :
    (r.Accepted s now → s'.commitConditionals codec.fromStr journal (some (job, lease)) = .ok ()) ↔
      ¬ r.Overlooks s now := by
  rw [commitConditionals_iff hj, hb, hk, hkey, hc]
  constructor
  · rintro hagree ⟨hm, row, hr, ha, hhid, hbad⟩
    have hacc := (WriteRequest.accepted_of_hidden
      (ObjectFormat.getActiveManifest_of_hidden hr ha hhid)).2 hm
    have hshown := shown_eq_some.2 ⟨row, hr, ha, rfl⟩
    obtain ⟨hv, he⟩ := hagree hacc
    rcases hbad with hbad | ⟨hput, c, hc, hmatch⟩
    · exact hbad (hv _ hshown)
    · rw [WriteRequest.recorded_of_put hput, WriteHeaders.snapshot_enforced, hshown,
        WriteHeaders.enforce_some_of_ifMatch_none hm] at he
      cases (he c hc).symm.trans hmatch
  · intro hno hacc
    cases hs : s.shown r.bucket r.key with
    | none =>
      have hnone : ObjectFormat.getActiveManifest s r.bucket r.key now = .ok none := by
        unfold ObjectFormat.getActiveManifest
        rw [getActiveManifest_of_shown_none hs]
        rfl
      have hm := (WriteRequest.accepted_of_hidden hnone).1 hacc
      refine ⟨fun m h => (by cases h), WriteRequest.recorded_enforced fun _ => ?_⟩
      exact WriteHeaders.enforce_none.2 hm
    | some m =>
      obtain ⟨row, hr, ha, rfl⟩ := shown_eq_some.1 hs
      obtain ⟨hv, he⟩ := hacc.enforced hr ha hno
      exact ⟨fun m h => Option.some.inj h ▸ hv, WriteRequest.recorded_enforced he⟩

def freeKeyPut : WriteRequest :=
  { entry := .putObject "application/octet-stream" none, bucket := "photos", key := "a.jpg"
    headers := { ifNoneMatch := some .any } }

def expiringUpload : List WriteAction :=
  (uploadOps { emptyObject ⟨2⟩ "photos" "a.jpg" with expiresAt := some (instant 3) } ⟨8⟩ 2).map
    .call ++ [.arrive freeKeyPut]

def lateServing : List WriteAction :=
  let now := (instant 5).unixTimestamp
  [.read 0 (.frontDoor (instant 5)), .run 0 (.begin ⟨9⟩ now),
    .run 0 (.stage { wholeChecksum := "e3b0c442" } (instant 5)), .run 0 (.setConditionals now),
    .run 0 (.queue (instant 5)), .call (.claimTransfer now ⟨5⟩),
    .call (.enterCommitting ⟨9⟩ ⟨5⟩ now)]

def expiredRun : List WriteWorld × WriteWorld :=
  (exec sampleWrite [] { store := photosStore } expiringUpload).get (by decide)


def lateRun : List WriteWorld × WriteWorld :=
  (exec sampleWrite expiredRun.1 expiredRun.2 lateServing).get (by decide)

def putJournal : JournalDetails :=
  stagedDetails .put (emptyObject ⟨9⟩ "photos" "a.jpg")

def freeRun : List WriteWorld × WriteWorld :=
  (exec sampleWrite [] { store := photosStore } (.arrive freeKeyPut :: lateServing)).get (by decide)

theorem free_key_put_accepted_at_commit :
    freeKeyPut.Accepted photosStore (instant 5) ∧ ¬ freeKeyPut.Overlooks photosStore (instant 5) ∧
      freeRun.2.store.commitConditionals httpCodec.fromStr putJournal (some (⟨9⟩, ⟨5⟩)) =
        .ok () := by
  have hacc : freeKeyPut.Accepted photosStore (instant 5) := ⟨none, rfl, rfl⟩
  have hno : ¬ freeKeyPut.Overlooks photosStore (instant 5) := by
    rintro ⟨-, row, -, ha, -⟩
    cases ha
  obtain ⟨j, hj, hc⟩ : ∃ j, freeRun.2.store.transferJobs.get? ⟨9⟩ = some j ∧
      j.writeConditionals = freeKeyPut.recorded httpCodec := ⟨_, rfl, rfl⟩
  have hkey : freeRun.2.store.shown "photos" "a.jpg" = photosStore.shown "photos" "a.jpg" := rfl
  exact ⟨hacc, hno, (commit_agrees_with_front_door hkey rfl rfl hj hc).2 hno hacc⟩

/-- A put for a free key passes while an expired object is active, and its commit is refused. -/
theorem expired_object_refuses_accepted_put : ∃ past v w j,
      Run WriteWorld.Initial (WriteStep httpCodec sampleConfig fun _ => "c0ffee") past w ∧
      v ∈ w :: past ∧ freeKeyPut.Accepted v.store (instant 5) ∧
      w.store.shown "photos" "a.jpg" = v.store.shown "photos" "a.jpg" ∧
      w.store.transferJobs.get? ⟨9⟩ = some j ∧ j.state = .committing ∧
      j.writeConditionals = freeKeyPut.recorded httpCodec ∧
      (w.store.operationJournal.get? ⟨9⟩).map JournalRow.details = some putJournal ∧
      w.store.commitConditionals httpCodec.fromStr putJournal (some (⟨9⟩, ⟨5⟩)) =
        .error (.invalidManifest "if-none-match precondition failed") := by
  have hi : WriteWorld.Initial { store := photosStore } :=
    ⟨⟨⟨rfl, rfl, rfl⟩, rfl, rfl⟩, rfl, rfl⟩
  have hr : Run WriteWorld.Initial (fun a w w' => sampleWrite a w = some w') expiredRun.1
      expiredRun.2 := Run.of_exec_isSome hi (by decide)
  have he : exec sampleWrite expiredRun.1 expiredRun.2 lateServing = some lateRun :=
    (Option.some_get _).symm
  obtain ⟨j, hj, hstate, hcond⟩ : ∃ j, lateRun.2.store.transferJobs.get? ⟨9⟩ = some j ∧
      j.state = .committing ∧ j.writeConditionals = freeKeyPut.recorded httpCodec :=
    ⟨_, rfl, rfl, rfl⟩
  exact ⟨lateRun.1, expiredRun.2, lateRun.2, j, Run.of_exec hr he,
    (exec_suffix he).subset List.mem_cons_self, ⟨none, rfl, rfl⟩, rfl, hj, hstate, hcond, rfl, rfl⟩

end TelegramS3
