import TelegramS3.JobUpdates

namespace TelegramS3
open Relational Table Fallible
set_option autoImplicit true

namespace TransferState

/-- The state changes of a job other than its publication and its local cleanup. -/
inductive Move : TransferState → TransferState → Prop where
  | keep : Move a a
  | live : a.terminal = false → b.terminal = false → Move a b
  | drop : a.published = false → b.dropped = true → Move a b

theorem Move.trans (h : Move a b) (h' : Move b c) : Move a c := by
  cases h with
  | keep => exact h'
  | live ha hb =>
    cases h' with
    | keep => exact .live ha hb
    | live _ hc => exact .live ha hc
    | drop _ hc => exact .drop (published_of_terminal ha) hc
  | drop ha hb =>
    cases h' with
    | keep => exact .drop ha hb
    | live hb' _ => simp [terminal_of_dropped hb] at hb'
    | drop _ hc => exact .drop ha hc

theorem Move.terminal (h : Move a b) (ha : a.terminal = true) : b.terminal = true := by
  cases h with
  | keep => exact ha
  | live ha' _ => simp [ha] at ha'
  | drop _ hb => exact terminal_of_dropped hb

theorem Move.published_right (h : Move a b) (hb : b.published = true) : a = b := by
  cases h with
  | keep => rfl
  | live _ hb' => simp [published_of_terminal hb'] at hb
  | drop _ hb' => simp [published_of_dropped hb'] at hb

theorem Move.published_left (h : Move a b) (ha : a.published = true) : a = b := by
  cases h with
  | keep => rfl
  | live ha' _ => simp [published_of_terminal ha'] at ha
  | drop ha' _ => simp [ha] at ha'

end TransferState

/-- The columns of a job that no statement rewrites, and its operation id, its own once set. -/
structure SameJob (j j' : TransferJob) : Prop where
  objectId : j'.objectId = j.objectId
  bucket : j'.bucket = j.bucket
  key : j'.key = j.key
  sequence : j'.sequence = j.sequence
  operation : j'.operationId = j.operationId ∨ j'.operationId = some j.id
  id : j'.id = j.id

theorem SameJob.of_columns
    (h : (j'.objectId, j'.bucket, j'.key, j'.sequence, j'.operationId, j'.id) =
      (j.objectId, j.bucket, j.key, j.sequence, j.operationId, j.id)) : SameJob j j' := by
  simp only [Prod.mk.injEq] at h
  obtain ⟨ho, hb, hk, hq, hop, hid⟩ := h
  exact ⟨ho, hb, hk, hq, .inl hop, hid⟩

theorem SameJob.refl (j : TransferJob) : SameJob j j := .of_columns rfl

theorem SameJob.trans (h : SameJob a b) (h' : SameJob b c) : SameJob a c where
  objectId := h'.objectId.trans h.objectId
  bucket := h'.bucket.trans h.bucket
  key := h'.key.trans h.key
  sequence := h'.sequence.trans h.sequence
  operation := by
    rcases h'.operation with ho | ho
    · rw [ho]
      exact h.operation
    · rw [ho, h.id]
      exact .inr rfl
  id := h'.id.trans h.id

structure JobMove (j j' : TransferJob) : Prop where
  same : SameJob j j'
  move : TransferState.Move j.state j'.state

theorem JobMove.refl (j : TransferJob) : JobMove j j := ⟨.refl j, .keep⟩

theorem JobMove.trans (h : JobMove a b) (h' : JobMove b c) : JobMove a c :=
  ⟨h.same.trans h'.same, h.move.trans h'.move⟩

/-- No job was added, and every job moved, if at all, without being published or cleaned. -/
structure JobsMove (s s' : MetadataStore) : Prop where
  rows : Table.Rel JobMove s.transferJobs s'.transferJobs
  sequence : s'.transferSequence = s.transferSequence

namespace JobsMove

theorem of_eq (h : s'.transferJobs = s.transferJobs)
    (hq : s'.transferSequence = s.transferSequence) : JobsMove s s' :=
  ⟨by rw [h]; exact .refl JobMove.refl _, hq⟩

theorem trans (h : JobsMove s t) (h' : JobsMove t u) : JobsMove s u :=
  ⟨Table.Rel.trans (R := JobMove) (S := JobMove) (fun _ _ _ => JobMove.trans) h.rows h'.rows,
    h'.sequence.trans h.sequence⟩

theorem of_rows {s s' : MetadataStore} {p : TransferJob → Bool} {f : TransferJob → TransferJob}
    (h : s'.transferJobs.rows = s.transferJobs.rows.map fun j => if p j then f j else j)
    (hq : s'.transferSequence = s.transferSequence)
    (hp : ∀ j ∈ s.transferJobs, p j = true → JobMove j (f j)) : JobsMove s s' :=
  ⟨Table.Rel.of_update h (fun _ _ hj => hj.same.id) JobMove.refl hp, hq⟩

end JobsMove

open TransferState

namespace MetadataStore
variable (s : MetadataStore)

theorem supersedeOlder_jobs : JobsMove s s.supersedeOlder := by
  refine .of_rows rfl rfl ?_
  intro j _ hj
  simp only [Bool.and_eq_true, Bool.or_eq_true] at hj
  have ht : j.state.terminal = false := hj.1.elim terminal_of_waiting terminal_of_leased
  exact ⟨.of_columns rfl, .drop (published_of_terminal ht) rfl⟩

theorem recoverTransfers_rows (now : Int) :
    Table.Rel (fun j j' => JobMove j j' ∧ (j'.state = .superseded → j.state = .superseded))
      s.transferJobs (s.recoverTransfers now).transferJobs := by
  let R (j j' : TransferJob) : Prop :=
    JobMove j j' ∧ (j'.state = .superseded → j.state = .superseded)
  have hk : ∀ a b, R a b → Keyed.key b = Keyed.key a := fun _ _ h => h.1.same.id
  have hn : ∀ j, R j j := fun j => ⟨.refl j, id⟩
  have ht : ∀ a b c, R a b → R b c → R a c := fun a b c h h' => ⟨h.1.trans h'.1, h.2 ∘ h'.2⟩
  have h₁ : Table.Rel R s.transferJobs (s.expireReceptions now).transferJobs := by
    refine .of_update rfl hk hn ?_
    intro j _ hj
    simp only [Bool.and_eq_true, decide_eq_true_eq] at hj
    exact ⟨⟨.of_columns rfl, .live (by rw [hj.1]; rfl) rfl⟩, by simp⟩
  have h₂ : ∀ t : MetadataStore,
      Table.Rel R t.transferJobs (t.retainAmbiguousSends now).transferJobs := by
    intro t
    refine .of_update rfl hk hn ?_
    intro j _ hj
    simp only [Bool.and_eq_true] at hj
    exact ⟨⟨.of_columns rfl, .live (terminal_of_leased hj.1.1) rfl⟩, by simp⟩
  have h₃ : ∀ t : MetadataStore,
      Table.Rel R t.transferJobs (t.cancelClosedMultipart).transferJobs := by
    intro t
    refine .of_update rfl hk hn ?_
    intro j _ hj
    simp only [Bool.and_eq_true] at hj
    exact ⟨⟨.of_columns rfl, .drop (published_of_terminal (terminal_of_waiting hj.1)) rfl⟩, by simp⟩
  exact .trans ht (.trans ht h₁ (h₂ _))
    (h₃ (((s.expireReceptions now).retainAmbiguousSends now).normalizeSendAttempts now))

theorem normalizeTransfers_jobs (now : Int) : JobsMove s (s.normalizeTransfers now) :=
  .trans ⟨.mono (fun _ _ h => h.1) (s.recoverTransfers_rows now), rfl⟩ (supersedeOlder_jobs _)

theorem claimable_live {s : MetadataStore} (h : s.claimable now j = true) :
    j.state.terminal = false := by
  simp only [claimable, Bool.and_eq_true, Bool.or_eq_true, decide_eq_true_eq] at h
  rcases h.1.1 with ⟨hs | hs, -⟩ | ⟨hs, -⟩
  · rw [hs]; rfl
  · rw [hs]; rfl
  · exact terminal_of_leased hs

theorem claimTransfer_takes (now : Int) (lease : Uuid) :
    JobsMove (s.normalizeTransfers now) (s.claimTransfer now lease).2 := by
  unfold claimTransfer
  dsimp only
  split
  · exact .of_eq rfl rfl
  · rename_i j hj
    have hm := firstBy_mem hj
    rw [mem_select] at hm
    refine .of_rows rfl rfl ?_
    intro r hr hid
    have he : r = j := eq_of_key_eq hr hm.1 (of_decide_eq_true hid)
    subst he
    exact ⟨.of_columns rfl, .live (claimable_live hm.2) rfl⟩

theorem claimTransfer_jobs (now : Int) (lease : Uuid) : JobsMove s (s.claimTransfer now lease).2 :=
  (s.normalizeTransfers_jobs now).trans (s.claimTransfer_takes now lease)

theorem supersedeCompletions_jobs (job upload : Uuid) (now : Int) :
    JobsMove s (s.supersedeCompletions job upload now) := by
  refine .of_rows rfl rfl ?_
  intro j _ hj
  simp only [Bool.and_eq_true, Bool.or_eq_true, decide_eq_true_eq] at hj
  refine ⟨.of_columns rfl, .drop ?_ rfl⟩
  rcases hj.2 with ((((hs | hs) | hs) | hs) | hs) | ⟨hs, -⟩ <;> rw [hs] <;> rfl

theorem supersedeDuplicates_jobs (id upload : Uuid) (number : Nat)
    (now : Int) : JobsMove s (s.supersedeDuplicates id upload number now) := by
  refine .of_rows rfl rfl ?_
  intro j _ hj
  simp only [Bool.and_eq_true, Bool.or_eq_true, decide_eq_true_eq] at hj
  refine ⟨.of_columns rfl, .drop ?_ rfl⟩
  rcases hj.1.2 with hs | hs
  · rw [hs]; rfl
  · exact published_of_terminal (terminal_of_waiting hs)

theorem markCleaned_jobs (id : Uuid) : Table.Rel (fun j j' => SameJob j j' ∧ (j'.state = j.state ∨
      (j.id = id ∧ localCleanupState j.state = true ∧ j'.state = .cleaned)))
      s.transferJobs (s.markCleaned id).transferJobs := by
  refine Table.Rel.of_update rfl (fun _ _ hj => hj.1.id) (fun j => ⟨.refl j, .inl rfl⟩) ?_
  intro j _ hj
  simp only [Bool.and_eq_true, decide_eq_true_eq] at hj
  exact ⟨.of_columns rfl, .inr ⟨hj.1, hj.2, rfl⟩⟩

end MetadataStore

inductive Publishes (s s' : MetadataStore) (j : TransferJob) : Prop where
  | commit (operation : Uuid) (e : JournalRow) (m : ObjectManifest)
      (subject : Option ObjectManifest) (now : OffsetDateTime) :
      j.operationId = some operation →
      (∃ i ∈ s.transferJobs, i.operationId = some operation ∧ i.state.leased = true) →
      s.operationJournal.get? operation = some e → s.commitSubject e.details subject = .ok m →
      s'.objectManifests = (s.publishManifest operation m now).objectManifests → Publishes s s' j
  | part (upload : Uuid) (number : Nat) : number ≠ 0 → j.state.leased = true →
      s.multipartJob j.id = some (upload, number) → Publishes s s' j

inductive JobStep (op : StoreOp) (s s' : MetadataStore) (j j' : TransferJob) : Prop where
  | move : JobMove j j' → JobStep op s s' j j'
  | publish : SameJob j j' → j'.state = .completed → Publishes s s' j → JobStep op s s' j j'
  | clean (removed : Nat) : op = .cleanupCompletedStaging removed →
      (∃ i ∈ (s.transfersForLocalCleanup 100).take removed, i.id = j.id) → SameJob j j' →
      MetadataStore.localCleanupState j.state = true → j'.state = .cleaned → JobStep op s s' j j'

theorem JobStep.same (h : JobStep op s s' j j') : SameJob j j' := by
  cases h with
  | move h => exact h.same
  | publish h _ _ => exact h
  | clean _ _ _ h _ _ => exact h

theorem JobStep.terminal (h : JobStep op s s' j j') (ht : j.state.terminal = true) :
    j'.state.terminal = true := by
  cases h with
  | move h => exact h.move.terminal ht
  | publish _ hc _ => rw [hc]; rfl
  | clean _ _ _ _ _ hc => rw [hc]; rfl

theorem JobStep.published (h : JobStep op s s' j j') (hp : j.state.published = true) :
    j'.state.published = true := by
  cases h with
  | move h => rw [← h.move.published_left hp]; exact hp
  | publish _ hc _ => rw [hc]; rfl
  | clean _ _ _ _ _ hc => rw [hc]; rfl

/-- No job was added; what happened to each of them. -/
structure JobsStep (op : StoreOp) (s s' : MetadataStore) : Prop where
  rows : Table.Rel (JobStep op s s') s.transferJobs s'.transferJobs
  sequence : s'.transferSequence = s.transferSequence

theorem JobsStep.of_mem (h : JobsStep op s s') (hj : j' ∈ s'.transferJobs) :
    ∃ j ∈ s.transferJobs, JobStep op s s' j j' := by
  obtain ⟨j, hj, hs⟩ := h.rows.some_right (mem_iff_get?.1 hj)
  exact ⟨j, mem_of_get? hj, hs⟩

theorem JobsMove.step (h : JobsMove s s') : JobsStep op s s' :=
  ⟨.mono (fun _ _ => .move) h.rows, h.sequence⟩

namespace MetadataStore

theorem commitManifestInner_jobs {s s' : MetadataStore}
    (h : s.commitManifestInner fromStr operation transfer subject now = .ok (m', s'))
    (op : StoreOp) : JobsStep op s s' := by
  obtain ⟨e, he, ⟨-, rfl⟩ | ⟨m, hm, hf, -, hs⟩⟩ := commitManifestInner_ok h
  · exact JobsMove.step (.of_eq rfl rfl)
  · have hp : s'.objectManifests = (s.publishManifest operation m now).objectManifests ∧
        s'.transferSequence = s.transferSequence ∧
        s'.transferJobs = (s.committedStore operation transfer m now).transferJobs := by
      rcases hs with ⟨-, rfl⟩ | ⟨upload, -, rfl⟩
      · exact ⟨rfl, rfl, rfl⟩
      · exact ⟨rfl, rfl, rfl⟩
    obtain ⟨hp, hq, ht⟩ := hp
    refine ⟨?_, hq⟩
    rw [ht]
    refine Table.Rel.of_update rfl (fun _ _ hj => hj.same.id) (fun j => .move (.refl j)) ?_
    intro j hj hc
    obtain ⟨ho, hl⟩ := completes_operation hf hj hc
    exact .publish (.of_columns rfl) rfl (.commit operation e m subject now ho hl he hm hp)

theorem finishPartJob_jobs {s s' : MetadataStore} (hp : s.multipartJob job = some (upload, number))
    (h : s.finishPartJob fromStr job lease upload number now = .ok s') (op : StoreOp) :
    JobsStep op s s' := by
  by_cases hn : number = 0
  · subst hn
    obtain ⟨operation, m', -, hc⟩ := finishPartJob_zero h
    exact commitManifestInner_jobs hc op
  · obtain ⟨row, -, -, he⟩ := finishPartJob_ok hn h
    have hr : Table.Rel (JobStep op s s') s.transferJobs
        (s.publishedPart job lease upload number row.manifest now).transferJobs := by
      refine Table.Rel.of_update rfl (fun _ _ hj => hj.same.id) (fun j => .move (.refl j)) ?_
      intro j _ hj
      simp only [Bool.and_eq_true, decide_eq_true_eq] at hj
      have hl : j.state.leased = true := by rw [hj.2]; rfl
      exact .publish (.of_columns rfl) rfl (.part upload number hn hl (hj.1.1 ▸ hp))
    have hd := (s.publishedPart job lease upload number row.manifest now).supersedeDuplicates_jobs
      job upload number now.unixTimestamp
    refine ⟨?_, by rw [he]; rfl⟩
    rw [he] at hr ⊢
    refine Table.Rel.trans ?_ hr hd.rows
    intro a b c hab hbc
    cases hab with
    | move hab => exact .move (hab.trans hbc)
    | publish hs hc hp =>
      have he : b.state = c.state := hbc.move.published_left (by rw [hc]; rfl)
      exact .publish (hs.trans hbc.same) (he ▸ hc) hp
    | clean removed ho hi hs hl hc =>
      have he : b.state = c.state := hbc.move.published_left (by rw [hc]; rfl)
      exact .clean removed ho hi (hs.trans hbc.same) hl (he ▸ hc)

theorem cleanupCompletedStaging_rows (s : MetadataStore) (removed : Nat) :
    Table.Rel (fun j j' => SameJob j j' ∧ (j'.state = j.state ∨
      ((∃ i ∈ (s.transfersForLocalCleanup 100).take removed, i.id = j.id) ∧
        localCleanupState j.state = true ∧ j'.state = .cleaned)))
      s.transferJobs (s.cleanupCompletedStaging removed).transferJobs := by
  apply cleanupCompletedStaging_induction (P := fun t => Table.Rel _ s.transferJobs t.transferJobs)
  · exact .refl (fun j => ⟨.refl j, .inl rfl⟩) _
  · intro t i ht hi
    refine Table.Rel.trans ?_ ht (t.markCleaned_jobs i.id)
    rintro a b c ⟨hab, ha⟩ ⟨hbc, hb⟩
    refine ⟨hab.trans hbc, ?_⟩
    rcases hb with hb | ⟨hid, hl, hc⟩
    · rw [hb]
      exact ha
    · rcases ha with ha | ⟨-, -, ha⟩
      · exact .inr ⟨⟨i, hi, hid.symm.trans hab.id⟩, ha ▸ hl, hc⟩
      · simp [ha, localCleanupState] at hl

theorem cleanupCompletedStaging_jobs (s : MetadataStore) (removed : Nat) :
    JobsStep (.cleanupCompletedStaging removed) s (s.cleanupCompletedStaging removed) := by
  refine ⟨.mono ?_ (s.cleanupCompletedStaging_rows removed), ?_⟩
  · rintro j j' ⟨hs, he | ⟨hi, hl, hc⟩⟩
    · exact .move ⟨hs, he ▸ .keep⟩
    · exact .clean removed rfl hi hs hl hc
  · exact cleanupCompletedStaging_induction
      (P := fun t => t.transferSequence = s.transferSequence) rfl fun _ _ ht _ => ht

end MetadataStore

open MetadataStore

/-- The calls that add a job, publish one or clean up after them. -/
def StoreOp.endsJobs : StoreOp → Bool
  | .beginTransfer .. | .cleanupCompletedStaging .. | .commitManifest ..
  | .commitTransferManifest .. | .finishPartJob .. => true
  | _ => false

theorem JobUpdate.move (h : JobUpdate s op j j') (hn : op.endsJobs = false) : JobMove j j' := by
  cases h with
  | touch | reserve | conditionals | pause => exact ⟨.of_columns rfl, .keep⟩
  | queue _ _ _ hst =>
    exact ⟨⟨rfl, rfl, rfl, rfl, .inr rfl, rfl⟩, .live (by rw [hst]; rfl) rfl⟩
  | failReception filesRemoved hst =>
    refine ⟨.of_columns rfl, ?_⟩
    rw [hst]
    cases filesRemoved
    · exact .live rfl rfl
    · exact .drop rfl rfl
  | reject hl => exact ⟨.of_columns rfl, .drop (published_of_leased hl) rfl⟩
  | expire _ hst => exact ⟨.of_columns rfl, .live (by rw [hst]; rfl) rfl⟩
  | retain _ hl _ => exact ⟨.of_columns rfl, .live (terminal_of_leased hl) rfl⟩
  | drop _ _ _ _ _ hp hb => exact ⟨.of_columns rfl, .drop hp hb⟩
  | claim hc => exact ⟨.of_columns rfl, .live (claimable_live hc) rfl⟩
  | commit hst => exact ⟨.of_columns rfl, .live (by rw [hst]; rfl) rfl⟩
  | fail _ waits hl _ =>
    refine ⟨.of_columns rfl, .live (terminal_of_leased (Bool.and_eq_true_iff.1 hl).2) ?_⟩
    cases waits <;> rfl
  | retry hst =>
    refine ⟨.of_columns rfl, .live ?_ rfl⟩
    rcases hst with hst | hst <;> rw [hst] <;> rfl
  | resume _ _ hst => exact ⟨.of_columns rfl, .live (by rw [hst]; rfl) rfl⟩
  | requeue _ paused hst _ =>
    refine ⟨.of_columns rfl, .live (by rw [hst]; rfl) ?_⟩
    cases paused <;> rfl
  | clean | completePart => cases hn
  | complete _ _ hc => cases hc <;> cases hn

section
variable {op : StoreOp} (h : StoreStep fromStr op s s')
include h

theorem StoreOp.jobs_move (hn : op.endsJobs = false) : JobsMove s s' := by
  have hb : ∀ objectId bucket key now, op ≠ .beginTransfer objectId bucket key now := by
    rintro _ _ _ _ rfl
    cases hn
  refine ⟨StoreOp.jobs_rel h ⟨.refl, fun _ _ _ => .trans, fun _ _ h => h.same.id,
    fun _ _ h => h.move hn⟩ hb, ?_⟩
  cases op with
  | beginTransfer => cases hn
  | _ => exact StoreOp.frame h .sequence rfl

/-- The only call that adds a job adds it under a fresh id, receiving. -/
theorem StoreOp.jobs_step : JobsStep op s s' ∨ ∃ objectId bucket key now,
      op = .beginTransfer objectId bucket key now ∧ s.transferJobs.get? objectId = none ∧
      s' = { s with
        transferSequence := s.transferSequence + 1
        transferJobs := s.transferJobs.insertOrIgnore (s.newJob objectId bucket key now) } := by
  cases op with
  | beginTransfer objectId bucket key now =>
    obtain ⟨hn, he⟩ := beginTransfer_ok (after_eq_some.1 h)
    exact .inr ⟨objectId, bucket, key, now, rfl, hn, he⟩
  | cleanupCompletedStaging removed =>
    cases h
    exact .inl (s.cleanupCompletedStaging_jobs removed)
  | commitManifest =>
    obtain ⟨⟨m', s₁⟩, hc, rfl⟩ := map_ok.1 (after_eq_some.1 h)
    exact .inl (commitManifestInner_jobs hc _)
  | commitTransferManifest =>
    obtain ⟨⟨m', s₁⟩, hc, rfl⟩ := map_ok.1 (after_eq_some.1 h)
    exact .inl (commitManifestInner_jobs hc _)
  | finishPartJob id lease now =>
    obtain ⟨⟨upload, number⟩, hp, hf⟩ := Option.bind_eq_some_iff.1 h
    exact .inl (finishPartJob_jobs hp (after_eq_some.1 hf) _)
  | _ => exact .inl (JobsMove.step (StoreOp.jobs_move h rfl))

theorem StoreOp.job_step (hj : s.transferJobs.get? job = some j) :
    ∃ j', s'.transferJobs.get? job = some j' ∧ JobStep op s s' j j' := by
  rcases StoreOp.jobs_step h with hs | ⟨objectId, bucket, key, now, -, hn, rfl⟩
  · exact hs.rows.some_left hj
  · exact ⟨j, get?_insertOrIgnore_of_some hj _, .move (.refl j)⟩

theorem StoreOp.job_before (hj : j' ∈ s'.transferJobs) :
    (∃ j ∈ s.transferJobs, JobStep op s s' j j') ∨
      ∃ objectId bucket key now, s.transferJobs.get? objectId = none ∧
        j' = s.newJob objectId bucket key now := by
  rcases StoreOp.jobs_step h with hs | ⟨objectId, bucket, key, now, -, hn, rfl⟩
  · exact .inl (hs.of_mem hj)
  · rcases mem_insertOrIgnore.1 hj with hj | ⟨rfl, -⟩
    · exact .inl ⟨j', hj, .move (.refl j')⟩
    · exact .inr ⟨objectId, bucket, key, now, hn, rfl⟩

/-- The rows of `multipart_jobs` stay; a call adds at most one, under a new id. -/
theorem StoreOp.multipartJobs_step :
    s'.multipartJobs = s.multipartJobs ∨ ∃ row, s.multipartJobs.get? row.jobId = none ∧
      s'.multipartJobs = s.multipartJobs.insertOrIgnore row ∧ (op = .insertMultipartJob row ∨
        row.partNumber = 0 ∧ ∃ upload now, op = .queueMultipartCompletion row.jobId upload now) := by
  cases op with
  | insertMultipartJob row =>
    obtain ⟨hn, rfl⟩ := insertMultipartJob_ok (after_eq_some.1 h)
    exact .inr ⟨row, hn, rfl, .inl rfl⟩
  | queueMultipartCompletion id upload now =>
    obtain ⟨hn, uploads, rfl⟩ := queueMultipartCompletion_ok (after_eq_some.1 h)
    exact .inr ⟨_, hn, rfl, .inr ⟨rfl, upload, now, rfl⟩⟩
  | _ => exact .inl (StoreOp.frame h .multipartJobs rfl)

end

theorem StoreOp.multipartRow_before (hs : StoreStep fromStr op s s') (hr : row ∈ s'.multipartJobs) :
    row ∈ s.multipartJobs ∨ op = .insertMultipartJob row ∨
      row.partNumber = 0 ∧ ∃ upload now, op = .queueMultipartCompletion row.jobId upload now := by
  rcases StoreOp.multipartJobs_step hs with he | ⟨row', -, he, hop⟩
  · exact .inl (he ▸ hr)
  · rw [he] at hr
    rcases mem_insertOrIgnore.1 hr with hr | ⟨rfl, -⟩
    · exact .inl hr
    · exact .inr hop

theorem StoreOp.multipartJob_step (h : StoreStep fromStr op s s')
    (hp : s.multipartJob job = some part) : s'.multipartJob job = some part := by
  obtain ⟨r, hr, hrp⟩ := Option.map_eq_some_iff.1 hp
  rcases StoreOp.multipartJobs_step h with he | ⟨row, -, he, -⟩
  · rw [multipartJob, he]
    exact hp
  · rw [multipartJob, he, get?_insertOrIgnore_of_some hr, ← hrp]
    rfl

end TelegramS3
