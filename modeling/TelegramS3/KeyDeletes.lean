import TelegramS3.PartUploads
import TelegramS3.Retrying
import TelegramS3.Serialization

namespace TelegramS3
open Relational Table Fallible Transition MetadataStore
set_option autoImplicit true

structure FreshStore (s : MetadataStore) : Prop extends EmptyStore s where
  attempts : s.sendAttempts = ∅
  multipartJobs : s.multipartJobs = ∅

def TransferJob.cancelledWith (bucket key : String) (j : TransferJob) : Bool :=
  j.bucket = bucket && j.key = key && (j.state = .receiving || j.state.waiting)

def JobKept (s' : MetadataStore) (j : TransferJob) : Prop :=
  ∃ j' ∈ s'.transferJobs, j'.id = j.id ∧ j'.state = j.state

section Uploads
variable (fromStr : String → Option ETagCondition) (cfg : ServiceConfig)
  (sha256Hex : Bytes → String)

/-- Uploads go on: part jobs keep their states, completable uploads stay so, completions go on. -/
structure UploadsKept (s s' : MetadataStore) : Prop where
  parts : ∀ u ∈ s.multipartUploads, u.session.state.closed = false → ∀ number, 0 < number →
    ∀ j ∈ s.transferJobs, s.partOf u.uploadId number j.id = true → JobKept s' j
  completes : ∀ env plan m,
    ObjectFormat.completeMultipartUpload cfg sha256Hex s plan env.now = .ok (.publish m) →
      s.transferJobs.get? plan.uploadId = none → Available env s' m →
        CanComplete fromStr cfg sha256Hex env s' plan
  waits : ∀ plan now job,
    ObjectFormat.completeMultipartUpload cfg sha256Hex s plan now = .ok (.waitFor job) →
      ∀ j ∈ s.transferJobs, j.id = job → JobKept s' j

/-- No delete changes the outcome of an upload in progress. -/
def DeletesKeepUploads : Prop :=
  ∀ past s, Run FreshStore (StoreStep fromStr) past s → ∀ bucket key reason c now deleted s',
    s.deleteActiveKey bucket key reason c now = .ok (deleted, s') →
      UploadsKept fromStr cfg sha256Hex s s'

end Uploads

/-- No job of a part of an open session, and no completion under way, is a pending write of the
key. -/
structure SparesUploads (s : MetadataStore) (bucket key : String) : Prop where
  parts : ∀ u ∈ s.multipartUploads, u.session.state.closed = false → ∀ number, 0 < number →
    ∀ j ∈ s.transferJobs, s.partOf u.uploadId number j.id = true →
      j.cancelledWith bucket key = false
  completions : ∀ u ∈ s.multipartUploads, u.session.state = .completing →
    ∀ j, s.multipartCompletionJob u.uploadId = some j → j.cancelledWith bucket key = false

theorem StoreOp.attempt_before (hs : StoreStep fromStr op s s')
    (ha : a' ∈ s'.sendAttempts) : (∃ a ∈ s.sendAttempts, a.jobId = a'.jobId) ∨
      ∃ j ∈ s.transferJobs, j.id = a'.jobId := by
  have hstep := StoreOp.attempt_step hs (Keyed.key a')
  rw [mem_iff_get?.1 ha] at hstep
  cases ho : s.sendAttempts.get? (Keyed.key a') with
  | some a => exact .inl ⟨a, mem_of_get? ho, (Prod.mk.inj (key_of_get? ho)).1⟩
  | none =>
    rw [ho] at hstep
    cases hstep with
    | launch hl =>
      obtain ⟨j, hj, hlj⟩ := any_eq_true.1 hl
      simp only [leasedJob, Bool.and_eq_true, decide_eq_true_eq] at hlj
      exact .inr ⟨j, hj, hlj.1.1⟩

variable {s s' : MetadataStore}

theorem insertMultipartJob_job (h : s.insertMultipartJob row = .ok s') :
    s.transferJobs.get? row.jobId ≠ none := by
  unfold insertMultipartJob at h
  split at h
  · cases h
  · rename_i hc
    rw [Bool.or_eq_true, not_or, Bool.not_eq_true', Bool.not_eq_false] at hc
    exact Option.isSome_iff_ne_none.1 hc.2

theorem queueMultipartCompletion_job
    (h : s.queueMultipartCompletion job operation upload now = .ok s') :
    s'.transferJobs.get? job ≠ none := by
  unfold queueMultipartCompletion at h
  split at h
  · cases h
  · obtain ⟨_, -, h⟩ := bind_ok.1 h
    obtain ⟨_, -, h⟩ := bind_ok.1 h
    obtain ⟨s₁, -, h⟩ := bind_ok.1 h
    obtain ⟨s₂, hs₂, h⟩ := bind_ok.1 h
    have hj := insertMultipartJob_job hs₂
    obtain ⟨-, rfl⟩ := insertMultipartJob_ok hs₂
    rw [← pure_ok.1 h]
    exact hj

theorem Linked.step (h : Linked s) (hs : StoreStep fromStr op s s') : Linked s' := by
  have hkept : ∀ job, s.transferJobs.get? job ≠ none → s'.transferJobs.get? job ≠ none := by
    intro job hj
    obtain ⟨j, hj⟩ := Option.ne_none_iff_exists'.1 hj
    obtain ⟨j', hj', -⟩ := StoreOp.job_step hs hj
    rw [hj']
    exact Option.some_ne_none j'
  constructor
  · intro j' hj'
    rcases StoreOp.jobs_step hs with hj | ⟨objectId, bucket, key, now, -, -, rfl⟩
    · obtain ⟨j, hjm, hstep⟩ := hj.of_mem hj'
      rw [hstep.same.sequence, hj.sequence]
      exact h.numbered j hjm
    · rcases mem_insertOrIgnore.1 hj' with hj' | ⟨rfl, -⟩
      · exact Nat.le_succ_of_le (h.numbered j' hj')
      · exact Nat.le_refl _
  · intro a' ha'
    apply hkept
    rcases StoreOp.attempt_before hs ha' with ⟨a, ha, he⟩ | ⟨j, hj, he⟩
    · rw [← he]
      exact h.attempts a ha
    · have hg : s.transferJobs.get? j.id = some j := get?_eq_some.2 ⟨hj, rfl⟩
      rw [← he, hg]
      exact Option.some_ne_none j
  · intro p hp
    rcases StoreOp.multipartRow_before hs hp with hp | rfl | ⟨-, upload, now, rfl⟩
    · exact hkept _ (h.parts p hp)
    · exact hkept _ (insertMultipartJob_job (after_eq_some.1 hs))
    · exact queueMultipartCompletion_job (after_eq_some.1 hs)

theorem Linked.init (h : FreshStore s) : Linked s := by
  refine ⟨?_, ?_, ?_⟩
  · intro j hj
    rw [h.jobs] at hj
    cases hj
  · intro a ha
    rw [h.attempts] at ha
    cases ha
  · intro p hp
    rw [h.multipartJobs] at hp
    cases hp

theorem Linked.of_run (hr : Run FreshStore (StoreStep fromStr) past s) : Linked s :=
  hr.invariant (fun _ h => .init h) fun _ _ _ h hs => h.step hs


/-- What a delete leaves of the tables that uploads use. -/
structure CancelsKey (s s' : MetadataStore) (bucket key : String) (now : Int) : Prop where
  jobs : s'.transferJobs = (s.cancelKey bucket key now).transferJobs
  uploads : s'.multipartUploads = s.multipartUploads
  parts : s'.multipartParts = s.multipartParts

theorem deleteActiveKey_cancels (h : s.deleteActiveKey bucket key reason c now = .ok (r, s')) :
    CancelsKey s s' bucket key now.unixTimestamp := by
  obtain ⟨-, ⟨-, rfl⟩ | ⟨object, m, -, -, rfl⟩⟩ := deleteActiveKey_ok h
  · exact ⟨rfl, rfl, rfl⟩
  · exact ⟨rfl, rfl, rfl⟩

namespace CancelsKey
variable {s s' : MetadataStore}

section
variable (h : CancelsKey s s' bucket key now)
include h

theorem job_kept (hj : j ∈ s.transferJobs) : JobKept s' j ↔ j.cancelledWith bucket key = false := by
  constructor
  · rintro ⟨j', hj', hid, hst⟩
    by_contra hc
    rw [Bool.not_eq_false] at hc
    rw [h.jobs] at hj'
    have hm : _ ∈ (s.cancelKey bucket key now).transferJobs :=
      mem_of_update_true rfl hj hc
    rw [eq_of_key_eq hj' hm hid] at hst
    have hst : TransferState.cancelled = j.state := hst
    unfold TransferJob.cancelledWith at hc
    rw [← hst] at hc
    simp [TransferState.waiting] at hc
  · intro hc
    refine ⟨j, ?_, rfl, rfl⟩
    rw [h.jobs]
    exact mem_of_update_false rfl hj hc

theorem get?_none (hn : s.transferJobs.get? job = none) : s'.transferJobs.get? job = none := by
  rw [get?_eq_none] at hn ⊢
  intro j' hj'
  rw [h.jobs] at hj'
  rcases of_mem_update rfl hj' with ⟨j, hj, -, rfl⟩ | ⟨hj, -⟩
  · exact hn j hj
  · exact hn j' hj

theorem publish
    (hp : ObjectFormat.completeMultipartUpload cfg sha256Hex s plan time = .ok (.publish m)) :
    ObjectFormat.completeMultipartUpload cfg sha256Hex s' plan time = .ok (.publish m) := by
  obtain ⟨session, hs, hst, hm⟩ := completeMultipartUpload_publish hp
  have hs' : s'.getMultipartSession plan.uploadId = some session := by
    unfold getMultipartSession
    rw [h.uploads]
    exact hs
  have hl : s'.listMultipartParts plan.uploadId = s.listMultipartParts plan.uploadId := by
    unfold listMultipartParts
    rw [h.parts]
  unfold ObjectFormat.completeMultipartUpload at hp ⊢
  rw [hs] at hp
  rw [hs', hl]
  dsimp only at hp ⊢
  split
  · rename_i hne
    rw [if_pos hne] at hp
    cases hp
  · rename_i hne
    rw [if_neg hne] at hp
    rcases hst with hst | hst
    · rw [hst] at hp ⊢
      exact hp
    · rw [hst] at hp ⊢
      exact hp

end

end CancelsKey

theorem mem_of_foldl {f : Option α → α → Option α} (hf : ∀ o a, f o a = some a ∨ f o a = o)
    {l : List α} (h : l.foldl f o = some a) : a ∈ l ∨ o = some a := by
  induction l generalizing o with
  | nil => exact .inr h
  | cons b l ih =>
    rcases ih h with hm | ho
    · exact .inl (List.mem_cons_of_mem _ hm)
    · rcases hf o b with hb | hb
      · rw [hb] at ho
        cases ho
        exact .inl List.mem_cons_self
      · exact .inr (hb.symm.trans ho)

theorem multipartCompletionJob_mem
    (h : s.multipartCompletionJob upload = some j) : j ∈ s.transferJobs := by
  unfold multipartCompletionJob at h
  have hmem := mem_of_foldl (o := none) (a := j) ?_ h
  · rcases hmem with hm | hn
    · exact (List.mem_filter.1 hm).1
    · cases hn
  · intro newest i
    cases newest with
    | none => exact .inl rfl
    | some n =>
      dsimp only
      split
      · exact .inl rfl
      · exact .inr rfl

theorem completeMultipartUpload_waitFor :
    (∃ plan, ObjectFormat.completeMultipartUpload cfg sha256Hex s plan now = .ok (.waitFor job)) ↔
      ∃ u ∈ s.multipartUploads, u.session.state = .completing ∧
        ∃ j, s.multipartCompletionJob u.uploadId = some j ∧ j.id = job := by
  constructor
  · rintro ⟨plan, h⟩
    unfold ObjectFormat.completeMultipartUpload at h
    split at h
    · cases h
    · rename_i session hs
      obtain ⟨u, hu, rfl⟩ := Option.map_eq_some_iff.1 hs
      obtain ⟨hu, hid⟩ := get?_eq_some.1 hu
      split at h
      · cases h
      · split at h
        · cases h
        · rename_i hst
          refine ⟨u, hu, hst, ?_⟩
          split at h
          · cases h
          · rename_i j hj
            cases h
            have hid : u.uploadId = plan.uploadId := hid
            rw [hid]
            exact ⟨j, hj, rfl⟩
        · cases h
        · cases h
        · cases h
        · obtain ⟨m, -, hm⟩ := map_ok.1 h
          cases hm
        · obtain ⟨m, -, hm⟩ := map_ok.1 h
          cases hm
  · rintro ⟨u, hu, hst, j, hj, rfl⟩
    refine ⟨{ uploadId := u.uploadId, objectId := u.uploadId, bucket := u.session.bucket
              key := u.session.key, contentType := "", checksumAlgorithm := ""
              contentLength := 0, parts := [] }, ?_⟩
    have hs : s.getMultipartSession u.uploadId = some u.session :=
      Option.map_eq_some_iff.2 ⟨u, get?_eq_some.2 ⟨hu, rfl⟩, rfl⟩
    unfold ObjectFormat.completeMultipartUpload
    simp [hs, hst, hj]

theorem storedPart_runs :
    (exec (StoreOp.apply fun _ => none) [] photosStore partOps).isSome = true := by
  decide

def storedPartRun : List MetadataStore × MetadataStore :=
  (exec (StoreOp.apply fun _ => none) [] photosStore partOps).get storedPart_runs

theorem photosStore_fresh : FreshStore photosStore := ⟨⟨⟨rfl, rfl, rfl⟩, rfl, rfl⟩, rfl, rfl⟩

def queuedPartRun : List MetadataStore × MetadataStore :=
  (exec (StoreOp.apply fun _ => none) [] photosStore (partOps.take 5)).get (by decide)

end TelegramS3
