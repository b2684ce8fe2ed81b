import TelegramS3.Run
import TelegramS3.Jobs
import TelegramS3.Visibility

namespace TelegramS3
open Relational Table Transition MetadataStore
set_option autoImplicit true

def NoTransfers (s : MetadataStore) : Prop := s.transferJobs = ∅

/-- In one of the states a newer job of the key of `j` is completed. -/
def NewerCompleted (states : List MetadataStore) (j : TransferJob) : Prop :=
  ∃ t ∈ states, ∃ n ∈ t.transferJobs,
    n.bucket = j.bucket ∧ n.key = j.key ∧ j.sequence < n.sequence ∧ n.state = .completed

/-- An upload is superseded or refused for a newer write only after a newer job was completed. -/
def SupersessionSafe (fromStr : String → Option ETagCondition)
    (Step : StoreOp → MetadataStore → MetadataStore → Prop) : Prop :=
  ∀ past s, Run NoTransfers Step past s →
    (∀ now lease s' id j j', StoreStep fromStr (.claimTransfer now lease) s s' →
      s.transferJobs.get? id = some j → s'.transferJobs.get? id = some j' →
      j.state ≠ .superseded → j'.state = .superseded → NewerCompleted (s :: past) j) ∧
    (∀ operation id lease now j, s.transferJobs.get? id = some j →
      s.commitFence operation (some (id, lease)) now =
        .error (.invalidManifest "per-key publication order changed") →
      s.newerCommitted j.bucket j.key j.sequence = true → NewerCompleted (s :: past) j)

/-- All older jobs of the key have reached a terminal state. -/
def OlderEnded (s : MetadataStore) (j : TransferJob) : Prop :=
  ∀ i ∈ s.transferJobs, i.bucket = j.bucket → i.key = j.key → i.sequence < j.sequence →
    i.state.terminal = true

/-- Cleanup takes an unpublished job only once every older job of its key has ended. -/
def CleansEndedOnly (op : StoreOp) (s : MetadataStore) : Prop :=
  ∀ removed, op = .cleanupCompletedStaging removed →
    ∀ j ∈ (s.transfersForLocalCleanup 100).take removed, j.state = .completed ∨ OlderEnded s j

def CompletedBefore (past : List MetadataStore) (j : TransferJob) : Prop :=
  ∃ t ∈ past, ∃ n ∈ t.transferJobs,
    n.bucket = j.bucket ∧ n.key = j.key ∧ n.sequence = j.sequence ∧ n.state = .completed

theorem CompletedBefore.mono (h : CompletedBefore past j) (s : MetadataStore)
    (hs : SameJob j j') : CompletedBefore (s :: past) j' := by
  obtain ⟨t, ht, n, hn, hb, hk, hq, hc⟩ := h
  exact ⟨t, List.mem_cons_of_mem _ ht, n, hn, hb.trans hs.bucket.symm, hk.trans hs.key.symm,
    hq.trans hs.sequence.symm, hc⟩

structure CleanedInvariant (past : List MetadataStore) (s : MetadataStore) : Prop where
  sequence : ∀ j ∈ s.transferJobs, j.sequence ≤ s.transferSequence
  cleaned : ∀ j ∈ s.transferJobs, j.state = .cleaned → CompletedBefore past j ∨ OlderEnded s j

theorem CleanedInvariant.init (h : NoTransfers s) : CleanedInvariant past s := by
  constructor
  · intro j hj
    simp [NoTransfers] at h
    simp [h] at hj
  · intro j hj
    simp [NoTransfers] at h
    simp [h] at hj

theorem OlderEnded.step (h : OlderEnded s j) (hs : JobsStep op s s') (hj : SameJob j j') :
    OlderEnded s' j' := by
  intro i' hi' hb hk hq
  obtain ⟨i, hi, hstep⟩ := hs.of_mem hi'
  apply hstep.terminal
  apply h i hi
  · rw [← hstep.same.bucket, hb, hj.bucket]
  · rw [← hstep.same.key, hk, hj.key]
  · rw [← hstep.same.sequence, ← hj.sequence]
    exact hq

section
variable (h : CleanedInvariant past s)
include h

theorem CleanedInvariant.jobs_step (hs : JobsStep op s s') (hc : CleansEndedOnly op s) :
    CleanedInvariant (s :: past) s' := by
  constructor
  · intro j' hj'
    obtain ⟨j, hj, hstep⟩ := hs.of_mem hj'
    rw [hstep.same.sequence, hs.sequence]
    exact h.sequence j hj
  · intro j' hj' hcl
    obtain ⟨j, hj, hstep⟩ := hs.of_mem hj'
    have hsame := hstep.same
    cases hstep with
    | move hm =>
      have he : j.state = j'.state := hm.move.published_right (by rw [hcl]; rfl)
      rcases h.cleaned j hj (he.trans hcl) with hb | ho
      · exact .inl (hb.mono s hsame)
      · exact .inr (ho.step hs hsame)
    | publish _ hp _ => rw [hp] at hcl; cases hcl
    | clean removed ho hi _ hl _ =>
      obtain ⟨i, hi, hid⟩ := hi
      have him := mem_transfersForLocalCleanup (List.mem_of_mem_take hi)
      have hij : i = j := eq_of_key_eq him.1 hj hid
      subst hij
      rcases hc removed ho i hi with hd | ho
      · exact .inl ⟨s, List.mem_cons_self, i, hj, hsame.bucket.symm, hsame.key.symm,
          hsame.sequence.symm, hd⟩
      · exact .inr (ho.step hs hsame)

theorem CleanedInvariant.begin_step : CleanedInvariant (s :: past) { s with
      transferSequence := s.transferSequence + 1
      transferJobs := s.transferJobs.insertOrIgnore (s.newJob objectId bucket key now) } := by
  constructor
  · intro j hj
    rcases mem_insertOrIgnore.1 hj with hj | ⟨rfl, -⟩
    · exact Nat.le_succ_of_le (h.sequence j hj)
    · exact Nat.le_refl _
  · intro j hj hcl
    rcases mem_insertOrIgnore.1 hj with hj | ⟨rfl, -⟩
    · rcases h.cleaned j hj hcl with hb | ho
      · exact .inl (hb.mono s (.refl j))
      · right
        intro i hi hb hk hq
        rcases mem_insertOrIgnore.1 hi with hi | ⟨rfl, -⟩
        · exact ho i hi hb hk hq
        · have hle := h.sequence j hj
          simp only [newJob] at hq
          omega
    · cases hcl

theorem CleanedInvariant.step (hs : StoreStep fromStr op s s') (hc : CleansEndedOnly op s) :
    CleanedInvariant (s :: past) s' := by
  rcases StoreOp.jobs_step hs with hj | ⟨objectId, bucket, key, now, -, -, rfl⟩
  · exact h.jobs_step hj hc
  · exact h.begin_step

end

theorem CleanedInvariant.of_run
    (hr : Run NoTransfers (Guarded (StoreStep fromStr) CleansEndedOnly) past s) :
    CleanedInvariant past s :=
  hr.history_invariant (fun _ => .init) fun _ _ _ _ h hs => h.step hs.1 hs.2

theorem CleanedInvariant.newer_completed (h : CleanedInvariant past s) (hj : j ∈ s.transferJobs)
    (hl : j.state.terminal = false) (hn : s.newerCommitted j.bucket j.key j.sequence = true) :
    NewerCompleted (s :: past) j := by
  simp only [newerCommitted, any_eq_true, Bool.and_eq_true, decide_eq_true_eq] at hn
  obtain ⟨n, hn, ⟨⟨hb, hk⟩, hq⟩, hp⟩ := hn
  by_cases hc : n.state = .completed
  · exact ⟨s, List.mem_cons_self, n, hn, hb, hk, hq, hc⟩
  · have hcl : n.state = .cleaned := by
      cases hs : n.state <;> simp_all [TransferState.published]
    rcases h.cleaned n hn hcl with ⟨t, ht, m, hm, hmb, hmk, hmq, hmc⟩ | ho
    · exact ⟨t, List.mem_cons_of_mem _ ht, m, hm, hmb.trans hb, hmk.trans hk, by omega, hmc⟩
    · have ht := ho j hj hb.symm hk.symm hq
      rw [hl] at ht
      cases ht

theorem claimTransfer_supersedes {s : MetadataStore} {now : Int} {lease job : Uuid}
    (hj : s.transferJobs.get? job = some j)
    (hj' : (s.claimTransfer now lease).2.transferJobs.get? job = some j')
    (hne : j.state ≠ .superseded) (hs : j'.state = .superseded) :
    j.state.terminal = false ∧ s.newerCommitted j.bucket j.key j.sequence = true := by
  have hclaim : ∃ j₂, (s.normalizeTransfers now).transferJobs.get? job = some j₂ ∧
      j₂.state = .superseded := by
    unfold claimTransfer at hj'
    dsimp only at hj'
    split at hj'
    · exact ⟨j', hj', hs⟩
    · simp only [get?_modify, Option.map_eq_some_iff] at hj'
      obtain ⟨j₂, hj₂, he⟩ := hj'
      refine ⟨j₂, hj₂, ?_⟩
      split at he
      · rw [← he] at hs
        cases hs
      · rw [he]
        exact hs
  obtain ⟨j₂, hj₂, hs₂⟩ := hclaim
  obtain ⟨j₁, hj₁, hm₁, hq₁⟩ := (s.recoverTransfers_rows now).some_left hj
  rw [normalizeTransfers_eq] at hj₂
  simp only [supersedeOlder, get?_modify, hj₁, Option.map_some, Option.some.injEq] at hj₂
  split at hj₂
  · rename_i hp
    simp only [Bool.and_eq_true, Bool.or_eq_true] at hp
    have hl₁ : j₁.state.terminal = false :=
      hp.1.elim TransferState.terminal_of_waiting TransferState.terminal_of_leased
    constructor
    · cases ht : j.state.terminal with
      | false => rfl
      | true => rw [hm₁.move.terminal ht] at hl₁; cases hl₁
    · simp only [newerCommitted, any_eq_true, Bool.and_eq_true, decide_eq_true_eq] at hp ⊢
      obtain ⟨-, n₁, hn₁, ⟨⟨hb, hk⟩, hq⟩, hpub⟩ := hp
      obtain ⟨n, hn, hm, -⟩ := (s.recoverTransfers_rows now).some_right (mem_iff_get?.1 hn₁)
      refine ⟨n, mem_of_get? hn, ⟨⟨?_, ?_⟩, ?_⟩, ?_⟩
      · rw [← hm.same.bucket, hb, hm₁.same.bucket]
      · rw [← hm.same.key, hk, hm₁.same.key]
      · rw [← hm.same.sequence, ← hm₁.same.sequence]
        exact hq
      · rw [hm.move.published_right hpub]
        exact hpub
  · rw [← hj₂] at hs₂
    exact absurd (hq₁ hs₂) hne

theorem commitFence_order_live {s : MetadataStore} {job : Uuid}
    (hj : s.transferJobs.get? job = some j)
    (h : s.commitFence operation (some (job, lease)) now =
      .error (.invalidManifest "per-key publication order changed")) :
    j.state.terminal = false := by
  simp only [commitFence, hj] at h
  by_cases hf : (decide (j.state = .committing) && decide (j.lease = some lease) &&
      decide (now ≤ j.leaseUntil) && decide (j.operationId = some operation)) = true
  · simp only [Bool.and_eq_true, decide_eq_true_eq] at hf
    rw [hf.1.1.1]
    rfl
  · simp [Fallible.ensure, hf, bind, Except.bind] at h

theorem supersession_safe (fromStr : String → Option ETagCondition) :
    SupersessionSafe fromStr (Guarded (StoreStep fromStr) CleansEndedOnly) := by
  intro past s hr
  have hi := CleanedInvariant.of_run hr
  constructor
  · intro now lease s' id j j' hs hj hj' hne hsup
    cases hs
    obtain ⟨hl, hn⟩ := claimTransfer_supersedes hj hj' hne hsup
    exact hi.newer_completed (mem_of_get? hj) hl hn
  · intro operation id lease now j hj hrefused hn
    exact hi.newer_completed (mem_of_get? hj) (commitFence_order_live hj hrefused) hn

/-- An accepted upload, and a newer one of its key that failed in reception and was cleaned up. -/
def failedReplacement : List StoreOp :=
  [.beginTransfer ⟨1⟩ "photos" "a.jpg" 10, .beginTransfer ⟨2⟩ "photos" "a.jpg" 20,
    .queueTransfer ⟨1⟩ 1 30, .failReception ⟨2⟩ true "client disconnected" 40,
    .cleanupCompletedStaging 1]

def failedReplacementRun : List MetadataStore × MetadataStore :=
  (exec (StoreOp.apply fun _ => none) [] photosStore failedReplacement).get (by decide)

theorem failedReplacementRun_run :
    Run NoTransfers (StoreStep fun _ => none) failedReplacementRun.1 failedReplacementRun.2 := by
  have hi : NoTransfers photosStore := rfl
  exact Run.of_exec_isSome hi (by decide)

/-- The next claim discards the accepted upload although no job was ever completed. -/
theorem failed_replacement_supersedes :
    ¬ SupersessionSafe (fun _ => none) (StoreStep fun _ => none) := by
  intro h
  obtain ⟨hclaim, -⟩ := h _ _ failedReplacementRun_run
  obtain ⟨j, hj, hne⟩ : ∃ j, failedReplacementRun.2.transferJobs.get? ⟨1⟩ = some j ∧
      j.state ≠ .superseded := ⟨_, rfl, by decide⟩
  obtain ⟨j', hj', hs⟩ : ∃ j',
      (failedReplacementRun.2.claimTransfer 50 ⟨9⟩).2.transferJobs.get? ⟨1⟩ = some j' ∧
      j'.state = .superseded := ⟨_, rfl, by decide⟩
  obtain ⟨t, ht, n, hn, -, -, -, hc⟩ := hclaim 50 ⟨9⟩ _ ⟨1⟩ j j' rfl hj hj' hne hs
  have hnone : ∀ t ∈ failedReplacementRun.2 :: failedReplacementRun.1,
      ∀ n ∈ t.transferJobs.rows, n.state ≠ .completed := by decide
  exact hnone t ht n hn hc

/-- A transfer keeps its row and its object, and stays ended or published. -/
def KeepsTransfers (Step : StoreOp → MetadataStore → MetadataStore → Prop) : Prop :=
  ∀ past s s' job j, Run (fun t => t = s) Step past s' → s.transferJobs.get? job = some j →
    ∃ j', s'.transferJobs.get? job = some j' ∧ SameJob j j' ∧
      (j.state.terminal = true → j'.state.terminal = true) ∧
      (j.state.published = true → j'.state.published = true)

end TelegramS3
