import TelegramS3.Claiming
import TelegramS3.Publication

namespace TelegramS3
open Relational Table Fallible Transition MetadataStore
set_option autoImplicit true

/-- The object a commit finds in place of its key violates the condition stored with the job. -/
def MetadataStore.conditionViolated (fromStr : String → Option ETagCondition) (s : MetadataStore)
    (job : Uuid) : Bool :=
  match s.operationJournal.get? job, (s.transferJobs.get? job).bind TransferJob.writeConditionals with
  | some e, some c =>
    match (s.activeObjectId e.details.bucket e.details.objectKey).mapM s.loadManifestByObjectId with
    | .ok current => (after (enforceWriteConditionalsSnapshot fromStr c current.join)).isNone
    | .error _ => false
  | _, _ => false

/-- The jobs of a store with the part uploads that were begun and the jobs that were rejected. -/
structure KeyWorld where
  store : MetadataStore
  parts : List (Uuid × Uuid) := []
  rejected : List Uuid := []

/-- A store call, the first call for a part, or a commit that is given up for its condition. -/
inductive KeyAction where
  | call (op : StoreOp)
  | openPart (job upload : Uuid) (bucket key : String) (now : Int)
  | refuse (job lease : Uuid) (now : OffsetDateTime)

namespace KeyWorld

def receivesPart (w : KeyWorld) (upload : Uuid) (j : TransferJob) : Bool :=
  j.state = .receiving && (w.store.jobOfUpload upload j.id ||
    (w.parts.contains (j.id, upload) && (w.store.multipartJobs.get? j.id).isNone))

def expired (now : Int) (j : TransferJob) : Bool := j.state = .receiving && j.leaseUntil < now

/-- The jobs a call rejects: receptions that expired, parts whose upload is aborted. -/
def rejects (w : KeyWorld) : StoreOp → List Uuid
  | .claimTransfer now _ => (w.store.transferJobs.select (expired now)).map TransferJob.id
  | .abortParts upload _ => (w.store.transferJobs.select (w.receivesPart upload)).map TransferJob.id
  | _ => []

end KeyWorld

def KeyAction.apply (fromStr : String → Option ETagCondition) (a : KeyAction) (w : KeyWorld) :
    Option KeyWorld :=
  match a with
  | .call op => (op.apply fromStr w.store).map fun s =>
    { w with store := s, rejected := w.rejects op ++ w.rejected }
  | .openPart job upload bucket key now => (after (w.store.beginTransfer job bucket key now)).map
    fun s => { w with store := s, parts := (job, upload) :: w.parts }
  | .refuse job lease now =>
    if (after (w.store.commitFence job (some (job, lease)) now.unixTimestamp)).isSome &&
        w.store.conditionViolated fromStr job then
      some { w with
        store := w.store.transferFailed job lease none
          ("Transfer needs recovery: validate staged files and checksums, then retry or upload " ++
            "the source again.") now.unixTimestamp
        rejected := job :: w.rejected }
    else none

def KeyStep (fromStr : String → Option ETagCondition) (a : KeyAction) (w w' : KeyWorld) : Prop :=
  a.apply fromStr w = some w'

structure KeyWorld.Initial (w : KeyWorld) : Prop where
  store : EmptyStore w.store
  rejected : w.rejected = []

/-- A waiting transfer is claimable once the older ones that were not rejected have ended. -/
def RejectedFreeKey (Step : KeyAction → KeyWorld → KeyWorld → Prop) : Prop :=
  ∀ past w, Run KeyWorld.Initial Step past w → ∀ now j, Ready w.store now j →
    (∀ i ∈ w.store.transferJobs, i.bucket = j.bucket → i.key = j.key → i.sequence < j.sequence →
      i.id ∉ w.rejected → i.state.terminal = true) →
    (w.store.normalizeTransfers now).claimable now j = true

/-- No commit is refused for its condition, no reception expires unpublished before it is queued,
and no upload is aborted between the first two calls for a part. -/
def RejectsCleanly (a : KeyAction) (w : KeyWorld) : Prop :=
  match a with
  | .refuse .. => False
  | .call (.claimTransfer now _) => ∀ j ∈ w.store.transferJobs, KeyWorld.expired now j = true →
    w.store.closedMultipart j.id = true ∨
      w.store.newerCommitted j.bucket j.key j.sequence = true
  | .call (.abortParts upload _) => ∀ j ∈ w.store.transferJobs, (j.id, upload) ∈ w.parts →
    j.state = .receiving → w.store.multipartJobs.get? j.id ≠ none
  | _ => True

def RejectedEnded (w : KeyWorld) : Prop :=
  ∀ id ∈ w.rejected, ∃ j, w.store.transferJobs.get? id = some j ∧ j.state.terminal = true

theorem MetadataStore.newerCommitted_kept {s s' : MetadataStore} {sequence : Nat}
    (h : Table.Rel JobMove s.transferJobs s'.transferJobs)
    (hn : s.newerCommitted bucket key sequence = true) :
    s'.newerCommitted bucket key sequence = true := by
  rw [newerCommitted, any_eq_true] at hn ⊢
  obtain ⟨j, hj, hp⟩ := hn
  obtain ⟨j', hj', hm⟩ := h.some_left (mem_iff_get?.1 hj)
  simp only [Bool.and_eq_true, decide_eq_true_eq] at hp
  refine ⟨j', mem_of_get? hj', ?_⟩
  rw [hm.same.bucket, hm.same.key, hm.same.sequence, ← hm.move.published_left hp.2]
  simp [hp]

/-- A claim ends an expired reception whose upload is closed or that a newer write overtook. -/
theorem expired_ends {s : MetadataStore} (hj : j ∈ s.transferJobs)
    (he : KeyWorld.expired now j = true)
    (hc : s.closedMultipart j.id = true ∨ s.newerCommitted j.bucket j.key j.sequence = true) :
    ∃ i ∈ (s.normalizeTransfers now).transferJobs, i.id = j.id ∧ i.state.terminal = true := by
  let r : TransferJob := { j with
    state := .recoveryRequired
    error := some "Reception interrupted; upload the source file again" }
  have h₁ : r ∈ (s.expireReceptions now).transferJobs := by
    simp only [expireReceptions, mem_modify]
    exact ⟨j, hj, if_pos he⟩
  have h₂ : r ∈ ((s.expireReceptions now).retainAmbiguousSends now).transferJobs :=
    mem_of_update_false rfl h₁ rfl
  by_cases hm : s.closedMultipart j.id = true
  · obtain ⟨c, hc, hid, ht⟩ : ∃ c ∈ (s.recoverTransfers now).transferJobs,
        c.id = j.id ∧ c.state.terminal = true :=
      ⟨_, mem_of_update_true rfl h₂ hm, rfl, rfl⟩
    obtain ⟨i, hi, hs⟩ := (supersedeOlder_jobs _).rows.some_left (mem_iff_get?.1 hc)
    exact ⟨i, mem_of_get? hi, hs.same.id.trans hid, hs.move.terminal ht⟩
  · have h₃ : r ∈ (s.recoverTransfers now).transferJobs :=
      mem_of_update_false rfl h₂ (Bool.not_eq_true _ ▸ hm)
    have hn : (s.recoverTransfers now).newerCommitted r.bucket r.key r.sequence = true :=
      newerCommitted_kept (.mono (fun _ _ h => h.1) (s.recoverTransfers_rows now))
        (hc.resolve_left hm)
    exact ⟨_, mem_of_update_true rfl h₃ hn, rfl, rfl⟩

theorem rejects_end (hs : StoreStep fromStr op w.store s')
    (hc : RejectsCleanly (.call op) w) {job : Uuid} (hid : job ∈ w.rejects op) :
    ∃ j, s'.transferJobs.get? job = some j ∧ j.state.terminal = true := by
  cases op with
  | claimTransfer now lease =>
    obtain ⟨j, hj, rfl⟩ := List.mem_map.1 hid
    obtain ⟨hj, he⟩ := mem_select.1 hj
    obtain ⟨i, hi, hij, ht⟩ := expired_ends hj he (hc j hj he)
    obtain ⟨i', hi', hm⟩ := (w.store.claimTransfer_takes now lease).rows.some_left
      (mem_iff_get?.1 hi)
    cases hs
    exact ⟨i', hij ▸ hi', hm.move.terminal ht⟩
  | abortParts upload now =>
    obtain ⟨j, hj, rfl⟩ := List.mem_map.1 hid
    obtain ⟨hj, hp⟩ := mem_select.1 hj
    obtain ⟨-, rfl⟩ := abortParts_ok (after_eq_some.1 hs)
    simp only [KeyWorld.receivesPart, Bool.and_eq_true, Bool.or_eq_true, decide_eq_true_eq,
      List.contains_iff_mem, Option.isNone_iff_eq_none] at hp
    obtain ⟨hr, hu | ⟨hu, hn⟩⟩ := hp
    · have hd : (w.store.jobOfUpload upload j.id && !j.state.published) = true := by
        rw [hu, hr]
        rfl
      obtain ⟨i, hi, hid, ht⟩ : ∃ i ∈ (w.store.dropUpload upload now).transferJobs,
          i.id = j.id ∧ i.state.terminal = true :=
        ⟨_, mem_of_update_true rfl hj hd, rfl, rfl⟩
      exact ⟨i, hid ▸ mem_iff_get?.1 hi, ht⟩
    · exact absurd hn (hc j hj hu hr)
  | _ => cases hid

theorem RejectedEnded.call (h : RejectedEnded w) (hs : StoreStep fromStr op w.store s')
    (hid : job ∈ w.rejected) :
    ∃ j, s'.transferJobs.get? job = some j ∧ j.state.terminal = true := by
  obtain ⟨j, hj, ht⟩ := h job hid
  obtain ⟨j', hj', hm⟩ := StoreOp.job_step hs hj
  exact ⟨j', hj', hm.terminal ht⟩

theorem RejectedEnded.step (h : RejectedEnded w) (hs : KeyStep fromStr a w w')
    (hc : RejectsCleanly a w) : RejectedEnded w' := by
  intro id hid
  cases a with
  | call op =>
    obtain ⟨s', ho, rfl⟩ := Option.map_eq_some_iff.1 hs
    rcases List.mem_append.1 hid with hid | hid
    · exact rejects_end ho hc hid
    · exact h.call ho hid
  | openPart job upload bucket key now =>
    obtain ⟨s', ho, rfl⟩ := Option.map_eq_some_iff.1 hs
    have hb : StoreStep fromStr (.beginTransfer job bucket key now) w.store s' := ho
    exact h.call hb hid
  | refuse => cases hc

/-- In every run whose steps all meet the condition a rejected write leaves its key free. -/
theorem clean_rejections_free_key (fromStr : String → Option ETagCondition) :
    RejectedFreeKey (Guarded (KeyStep fromStr) RejectsCleanly) := by
  intro past w hr now j hj ho
  have he : RejectedEnded w := by
    apply hr.invariant
    · intro w hi id hid
      rw [hi.rejected] at hid
      cases hid
    · intro a w w' h hs
      exact h.step hs.1 hs.2
  apply hj.claimable
  refine any_eq_false.2 ?_
  intro i hi
  by_cases hb : i.bucket = j.bucket ∧ i.key = j.key ∧ i.sequence < j.sequence
  · have ht : i.state.terminal = true := by
      by_cases hid : i.id ∈ w.rejected
      · obtain ⟨i', hi', ht⟩ := he i.id hid
        rwa [← Option.some.inj ((mem_iff_get?.1 hi).symm.trans hi')] at ht
      · exact ho i hi hb.1 hb.2.1 hb.2.2 hid
    simp [ht]
  · simp only [Bool.and_eq_false_imp, Bool.and_eq_true, decide_eq_true_eq]
    intro h
    exact absurd ⟨h.1.1, h.1.2, h.2⟩ hb

def asterisk (text : String) : Option ETagCondition := if text = "*" then some .any else none

/-- A key is published, refused at the commit of a write that wants it empty, and queued again. -/
def refusedWrite : List KeyAction :=
  let now := (instant 2).unixTimestamp
  (uploadOps (emptyObject ⟨1⟩ "photos" "a") ⟨9⟩ 1).map KeyAction.call ++
    [.call (.beginTransfer ⟨2⟩ "photos" "a" now),
      .call (.stageManifest .put (emptyObject ⟨2⟩ "photos" "a") (instant 2)),
      .call (.setTransferConditionals ⟨2⟩ (some ⟨none, some "*"⟩) now),
      .call (.queueTransfer ⟨2⟩ 0 now), .call (.claimTransfer now ⟨8⟩),
      .call (.enterCommitting ⟨2⟩ ⟨8⟩ now), .refuse ⟨2⟩ ⟨8⟩ (instant 2),
      .call (.beginTransfer ⟨3⟩ "photos" "a" now),
      .call (.stageManifest .put (emptyObject ⟨3⟩ "photos" "a") (instant 2)),
      .call (.queueTransfer ⟨3⟩ 0 now)]

def refusedRun : List KeyWorld × KeyWorld :=
  (exec (KeyAction.apply asterisk) [] { store := photosStore } refusedWrite).get (by decide +kernel)

/-- The job waits for its turn, the jobs before it ended or were rejected, and it is not
claimable. -/
def KeyWorld.blocks (w : KeyWorld) (now : Int) (j : TransferJob) : Bool :=
  j.state = .queued && j.nextRetry ≤ now && !w.store.ambiguousSend j.id &&
    !w.store.closedMultipart j.id && !w.store.newerCommitted j.bucket j.key j.sequence &&
    (w.store.transferJobs.rows.all fun i => j.sequence ≤ i.sequence || w.rejected.contains i.id ||
      i.state.terminal) && !(w.store.normalizeTransfers now).claimable now j

/-- The third version is not claimable although the only older job left was refused. -/
theorem refused_write_blocks_key : ¬ RejectedFreeKey (KeyStep asterisk) := by
  intro h
  have hi : KeyWorld.Initial { store := photosStore } := ⟨⟨⟨rfl, rfl, rfl⟩, rfl, rfl⟩, rfl⟩
  have hr : Run KeyWorld.Initial (KeyStep asterisk) refusedRun.1 refusedRun.2 :=
    Run.of_exec_isSome hi _
  have hb : refusedRun.2.store.transferJobs.any
      (refusedRun.2.blocks (instant 2).unixTimestamp) = true := by decide +kernel
  obtain ⟨j, hj, hb⟩ := any_eq_true.1 hb
  simp only [KeyWorld.blocks, Bool.and_eq_true, Bool.not_eq_true', decide_eq_true_eq,
    List.all_eq_true, Bool.or_eq_true, List.contains_iff_mem] at hb
  obtain ⟨⟨⟨⟨⟨⟨hq, hd⟩, hs⟩, hm⟩, hn⟩, ho⟩, hc⟩ := hb
  have hf := h _ _ hr _ j ⟨hj, hq, hd, hs, hm, hn⟩ ?_
  · rw [hf] at hc
    cases hc
  · intro i hi _ _ hlt hnr
    rcases ho i hi with (hle | hr) | ht
    · omega
    · exact absurd hr hnr
    · exact ht

end TelegramS3
