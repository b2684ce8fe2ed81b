import TelegramS3.Frame

namespace TelegramS3
open Relational Table Fallible MetadataStore TransferState
set_option autoImplicit true

namespace TransferState

def dropped : TransferState → Bool
  | .cancelled | .receptionFailed | .superseded => true
  | _ => false

theorem published_of_terminal {a : TransferState} (h : a.terminal = false) :
    a.published = false := by
  cases a <;> first | rfl | cases h

theorem terminal_of_dropped {a : TransferState} (h : a.dropped = true) : a.terminal = true := by
  cases a <;> first | rfl | cases h

theorem published_of_dropped {a : TransferState} (h : a.dropped = true) : a.published = false := by
  cases a <;> first | rfl | cases h

theorem terminal_of_leased {a : TransferState} (h : a.leased = true) : a.terminal = false := by
  cases a <;> first | rfl | cases h

theorem published_of_leased {a : TransferState} (h : a.leased = true) : a.published = false := by
  cases a <;> first | rfl | cases h

theorem terminal_of_waiting {a : TransferState} (h : a.waiting = true) : a.terminal = false := by
  cases a <;> first | rfl | cases h

end TransferState

def StoreOp.queues : StoreOp → Option Uuid
  | .queueTransfer id _ _ => some id
  | .queueMultipartCompletion job _ _ => some job
  | _ => none

namespace MetadataStore

def recoverTransfers (s : MetadataStore) (now : Int) : MetadataStore :=
  (((s.expireReceptions now).retainAmbiguousSends now).normalizeSendAttempts
    now).cancelClosedMultipart

theorem normalizeTransfers_eq (s : MetadataStore) (now : Int) :
    s.normalizeTransfers now = (s.recoverTransfers now).supersedeOlder := rfl

def supersededBy (s : MetadataStore) (id upload : Uuid) (number : Nat) (j : TransferJob) : Bool :=
  j.id != id && s.partOf upload number j.id && (j.state = .receiving || j.state.waiting) &&
    !s.hasAttempt j.id fun st => st = .sending || st = .unknown || st = .checkpointed

end MetadataStore

/-- Why a call ends a job, not yet published, of the store it starts from. -/
inductive JobDropped (s : MetadataStore) (j : TransferJob) : StoreOp → Prop where
  | closed : s.closedMultipart j.id = true → JobDropped s j (.claimTransfer now lease)
  | outdated : (s.recoverTransfers now).newerCommitted j.bucket j.key j.sequence = true →
      JobDropped s j (.claimTransfer now lease)
  | cancelled : j.state.waiting = true → JobDropped s j (.transferAction j.id "cancel" now)
  | deleted : JobDropped s j (.deleteActiveKey j.bucket j.key reason c now)
  | aborted : s.jobOfUpload upload j.id = true → JobDropped s j (.abortParts upload now)
  | completion : s.partOf upload 0 j.id = true → j.id ≠ job →
      JobDropped s j (.queueMultipartCompletion job upload now)
  | duplicate : s.multipartJob job = some (upload, number) → number ≠ 0 →
      s.supersededBy job upload number j = true → JobDropped s j (.finishPartJob job lease now)
  | removed : j.connectionId = s.activeConnectionId →
      JobDropped s j (.beginConnectionRemoval job deleteUploadedFiles now)

/-- The calls that commit an operation of a job. -/
inductive JobCommitted (s : MetadataStore) (operation : Uuid) (j : TransferJob) :
    StoreOp → Prop where
  | manifest : JobCommitted s operation j (.commitManifest operation now)
  | transfer : j.state = .committing →
      JobCommitted s operation j (.commitTransferManifest j.id lease m now)
  | session : (s.transferJobs.get? job).bind TransferJob.operationId = some operation →
      JobCommitted s operation j (.finishPartJob job lease now)

/-- What one statement of a call makes of a job it selects. -/
inductive JobUpdate (s : MetadataStore) : StoreOp → TransferJob → TransferJob → Prop where
  | touch (expiry now : Int) (done : Nat) : JobUpdate s op j
      { j with leaseUntil := expiry, updatedAt := now, chunksDone := done }
  | reserve : JobUpdate s (.reserveStaging j.id bytes budget now) j
      { j with bytes := j.bytes + bytes, updatedAt := now, leaseUntil := now + 120 }
  | conditionals : JobUpdate s (.setTransferConditionals j.id c now) j
      { j with writeConditionals := c, updatedAt := now }
  | queue (chunks : Nat) (now : Int) : op.queues = some j.id → j.state = .receiving →
      JobUpdate s op j
        { j with
          operationId := some j.id, chunksTotal := chunks, state := .queued, updatedAt := now
          leaseUntil := 0 }
  | failReception (filesRemoved : Bool) : j.state = .receiving →
      JobUpdate s (.failReception j.id filesRemoved message now) j
        { j with
          state := if filesRemoved then .receptionFailed else .recoveryRequired
          bytes := if filesRemoved then 0 else j.bytes
          lease := none, leaseUntil := 0, error := some message, updatedAt := now }
  | reject : j.state.leased = true → JobUpdate s (.rejectTransferForQuota j.id message now) j
      { j with
        state := .receptionFailed, bytes := 0, lease := none, leaseUntil := 0
        error := some message, updatedAt := now }
  | expire (error : String) : j.state = .receiving → JobUpdate s (.claimTransfer now lease) j
      { j with state := .recoveryRequired, error := some error }
  | retain (error : String) : j.state.leased = true → s.ambiguousSend j.id = true →
      JobUpdate s (.claimTransfer now lease) j
        { j with state := .recoveryRequired, lease := none, leaseUntil := 0, error := some error }
  | drop (b : TransferState) (expiry : Int) (error : Option String) (now : Int) :
      JobDropped s j op → j.state.published = false → b.dropped = true → JobUpdate s op j
        { j with state := b, lease := none, leaseUntil := expiry, error, updatedAt := now }
  | claim : (s.normalizeTransfers now).claimable now j = true →
      JobUpdate s (.claimTransfer now lease) j (TransferJob.claim now lease j)
  | commit : j.state = .uploading →
      JobUpdate s (.enterCommitting j.id lease now) j { j with state := .committing }
  | fail (error : String) (waits : Bool) : leasedJob j.id lease j = true →
      waits = (!s.ambiguousSend j.id && retryAfter.isSome) →
      JobUpdate s (.transferFailed j.id lease retryAfter message now) j
        { j with
          state := if waits then .retryWait else .recoveryRequired, error := some error
          nextRetry := now + (retryAfter.getD 0 : Nat), lease := none, leaseUntil := 0
          updatedAt := now }
  | retry : j.state = .retryWait ∨ j.state = .recoveryRequired →
      JobUpdate s (.transferAction j.id "retry" now) j
        { j with state := .queued, error := none, nextRetry := 0 }
  | clean : localCleanupState j.state = true → JobUpdate s (.cleanupCompletedStaging removed) j
      { j with state := .cleaned, bytes := 0 }
  | pause (retryAt : Int) : j.state = .recoveryRequired →
      JobUpdate s (.reclassifyFloodWaitAttempts retryAfter now) j
        { j with nextRetry := max j.nextRetry retryAt, updatedAt := now }
  | resume (retryAt : Int) (error : String) : j.state = .recoveryRequired →
      (s.relabelFloodWaits now).ambiguousSend j.id = false →
      (s.relabelFloodWaits now).floodWaiting j.id = true →
      JobUpdate s (.reclassifyFloodWaitAttempts retryAfter now) j
        { j with
          state := .retryWait, error := some error, nextRetry := max j.nextRetry retryAt
          lease := none, leaseUntil := 0, updatedAt := now }
  | requeue (error : String) (paused : Bool) : j.state = .recoveryRequired →
      paused = (s.floodWaiting j.id && decide (now < j.nextRetry)) →
      JobUpdate s (.queueAfterReconciliation j.id now) j
        { j with
          state := if paused then .retryWait else .queued, error := some error
          nextRetry := if paused then j.nextRetry else 0, updatedAt := now }
  | complete (now : Int) : j ∈ s.transferJobs → JobCommitted s operation j op →
      j.operationId = some operation →
      (∃ i ∈ s.transferJobs, i.operationId = some operation ∧ i.state.leased = true) →
      JobUpdate s op j (TransferJob.complete now j)
  | completePart : j.state = .committing → s.multipartJob j.id = some (upload, number) →
      number ≠ 0 → JobUpdate s (.finishPartJob j.id lease now) j
        { j with state := .completed, lease := none, error := none }

theorem JobUpdate.id (h : JobUpdate s op j j') : j'.id = j.id := by
  cases h <;> rfl

namespace MetadataStore

/-- The jobs a commit completes are those of its operation, and one of these is leased. -/
theorem completes_operation {s : MetadataStore}
    (hf : s.commitFence operation transfer now = .ok ()) (hj : j ∈ s.transferJobs)
    (hc : completes operation transfer j = true) : j.operationId = some operation ∧
      ∃ i ∈ s.transferJobs, i.operationId = some operation ∧ i.state.leased = true := by
  match transfer with
  | none =>
    have ho : j.operationId = some operation := of_decide_eq_true hc
    refine ⟨ho, ?_⟩
    simp only [commitFence] at hf
    split at hf
    · rename_i hn
      exact absurd ho (by simpa using List.find?_eq_none.1 hn j hj)
    · rename_i i hi
      have hio := List.find?_some hi
      exact ⟨i, List.mem_of_find?_eq_some hi, of_decide_eq_true hio, ensure_ok.1 hf⟩
  | some (job, lease) =>
    simp only [completes, Bool.and_eq_true, decide_eq_true_eq] at hc
    have hg : s.transferJobs.get? job = some j := get?_eq_some.2 ⟨hj, hc.1.1⟩
    simp only [commitFence, hg] at hf
    obtain ⟨_, he, -⟩ := bind_ok.1 hf
    simp only [ensure_ok, Bool.and_eq_true, decide_eq_true_eq] at he
    exact ⟨he.2, j, hj, he.2, by rw [hc.2]; rfl⟩

end MetadataStore

/-- A relation between the rows of `transfer_jobs` that every statement of a call keeps to. -/
structure JobLaw (s : MetadataStore) (op : StoreOp) (R : TransferJob → TransferJob → Prop) :
    Prop where
  refl : ∀ j, R j j
  trans : ∀ a b c, R a b → R b c → R a c
  id : ∀ a b, R a b → b.id = a.id
  update : ∀ j j', JobUpdate s op j j' → R j j'

namespace JobLaw
variable {s t t' : MetadataStore} {op : StoreOp} {R : TransferJob → TransferJob → Prop}

theorem rows {p : TransferJob → Bool} {f : TransferJob → TransferJob} (h : JobLaw s op R)
    (hr : t'.transferJobs.rows = t.transferJobs.rows.map fun j => if p j then f j else j)
    (hp : ∀ j ∈ t.transferJobs, p j = true → JobUpdate s op j (f j)) :
    Table.Rel R t.transferJobs t'.transferJobs :=
  .of_update hr h.id h.refl fun j hj hpj => h.update j (f j) (hp j hj hpj)

theorem same (h : JobLaw s op R) (he : t'.transferJobs = t.transferJobs) :
    Table.Rel R t.transferJobs t'.transferJobs := he ▸ .refl h.refl _

theorem chain (h : JobLaw s op R) {u : MetadataStore}
    (h₁ : Table.Rel R s.transferJobs t.transferJobs)
    (h₂ : Table.Rel R t.transferJobs u.transferJobs) :
    Table.Rel R s.transferJobs u.transferJobs := .trans h.trans h₁ h₂

theorem endReception {id : Uuid} {hf} (h : JobLaw s op R)
    (hp : ∀ j, j.id = id → p j.state = true → JobUpdate s op j (f j)) :
    Table.Rel R s.transferJobs (s.endReception id p f hf).2.transferJobs := by
  unfold MetadataStore.endReception
  dsimp only
  split
  · refine h.rows rfl fun j _ hj => ?_
    obtain ⟨hid, hpj⟩ := Bool.and_eq_true_iff.1 hj
    exact hp j (of_decide_eq_true hid) hpj
  · exact .refl h.refl _

theorem claimTransfer (h : JobLaw s (.claimTransfer now lease) R) :
    Table.Rel R s.transferJobs (s.claimTransfer now lease).2.transferJobs := by
  have h₁ : Table.Rel R s.transferJobs (s.expireReceptions now).transferJobs := by
    refine h.rows rfl fun j _ hj => ?_
    simp only [Bool.and_eq_true, decide_eq_true_eq] at hj
    exact .expire _ hj.1
  have h₂ : Table.Rel R (s.expireReceptions now).transferJobs
      ((s.expireReceptions now).retainAmbiguousSends now).transferJobs := by
    refine h.rows rfl fun j _ hj => ?_
    simp only [Bool.and_eq_true] at hj
    exact .retain _ hj.1.1 hj.2
  have h₃ : Table.Rel R ((s.expireReceptions now).retainAmbiguousSends now).transferJobs
      (s.recoverTransfers now).transferJobs := by
    refine h.rows (t := ((s.expireReceptions now).retainAmbiguousSends now).normalizeSendAttempts
      now) rfl fun j _ hj => ?_
    obtain ⟨hw, hc⟩ := Bool.and_eq_true_iff.1 hj
    exact .drop _ _ _ _ (.closed hc) (published_of_terminal (terminal_of_waiting hw)) rfl
  have h₄ : Table.Rel R (s.recoverTransfers now).transferJobs
      (s.normalizeTransfers now).transferJobs := by
    refine h.rows rfl fun j _ hj => ?_
    simp only [Bool.and_eq_true, Bool.or_eq_true] at hj
    have ht : j.state.terminal = false := hj.1.elim terminal_of_waiting terminal_of_leased
    exact .drop _ _ _ _ (.outdated hj.2) (published_of_terminal ht) rfl
  have hn : Table.Rel R s.transferJobs (s.normalizeTransfers now).transferJobs :=
    h.chain (h.chain (h.chain h₁ h₂) h₃) h₄
  unfold MetadataStore.claimTransfer
  dsimp only
  split
  · exact hn
  · rename_i j hj
    obtain ⟨hm, hc⟩ := mem_select.1 (firstBy_mem hj)
    refine h.chain hn (h.rows rfl fun r hr hid => ?_)
    have he : r = j := eq_of_key_eq hr hm (of_decide_eq_true hid)
    subst he
    exact .claim hc

theorem transferAction (h : JobLaw s (.transferAction job action now) R) :
    Table.Rel R s.transferJobs (s.transferAction job action now).transferJobs := by
  unfold MetadataStore.transferAction
  split
  · rename_i ha
    subst ha
    refine h.rows rfl fun j _ hj => ?_
    simp only [Bool.and_eq_true, Bool.or_eq_true, decide_eq_true_eq] at hj
    obtain ⟨⟨⟨rfl, hst⟩, -⟩, -⟩ := hj
    exact .retry hst
  · split
    · rename_i ha
      subst ha
      rcases s.cancelTransfer_cases job now with he | ⟨i, l, -, -, -, he⟩
      · rw [he]
        exact h.same rfl
      · rw [he]
        refine h.rows rfl fun j _ hj => ?_
        simp only [Bool.and_eq_true, decide_eq_true_eq] at hj
        obtain ⟨rfl, hw⟩ := hj
        exact .drop _ _ _ _ (.cancelled hw) (published_of_terminal (terminal_of_waiting hw)) rfl
    · exact h.same rfl

theorem reclassifyFloodWaitAttempts (h : JobLaw s (.reclassifyFloodWaitAttempts retryAfter now) R) :
    Table.Rel R s.transferJobs (s.reclassifyFloodWaitAttempts retryAfter now).transferJobs := by
  have hp (retryAt : Int) : Table.Rel R s.transferJobs
      ((s.relabelFloodWaits now).pauseFloodWaits retryAt now).transferJobs := by
    refine h.rows rfl fun j _ hj => ?_
    simp only [Bool.and_eq_true, decide_eq_true_eq] at hj
    exact .pause retryAt hj.1
  refine h.chain (hp _) (h.rows rfl fun j _ hj => ?_)
  simp only [Bool.and_eq_true, decide_eq_true_eq, Bool.not_eq_true'] at hj
  exact .resume _ _ hj.1.1 hj.1.2 hj.2

theorem commitManifestInner (h : JobLaw s op R)
    (hc : s.commitManifestInner fromStr operation transfer subject now = .ok (m', t))
    (ho : ∀ j, completes operation transfer j = true → JobCommitted s operation j op) :
    Table.Rel R s.transferJobs t.transferJobs := by
  obtain ⟨e, -, ⟨-, rfl⟩ | ⟨m, -, hf, -, hs⟩⟩ := commitManifestInner_ok hc
  · exact h.same rfl
  · have hj : t.transferJobs = (s.committedStore operation transfer m now).transferJobs := by
      rcases hs with ⟨-, rfl⟩ | ⟨upload, -, rfl⟩ <;> rfl
    rw [hj]
    refine h.rows rfl fun j hj hc => ?_
    obtain ⟨hop, hi⟩ := completes_operation hf hj hc
    exact .complete _ hj (ho j hc) hop hi

theorem finishPartJob (h : JobLaw s (.finishPartJob job lease now) R)
    (hp : s.multipartJob job = some (upload, number))
    (hs : s.finishPartJob fromStr job lease upload number now = .ok t) :
    Table.Rel R s.transferJobs t.transferJobs := by
  by_cases hn : number = 0
  · subst hn
    obtain ⟨operation, m', ho, hc⟩ := finishPartJob_zero hs
    exact h.commitManifestInner hc fun j _ => .session ho
  · obtain ⟨row, -, -, rfl⟩ := finishPartJob_ok hn hs
    have hc : Table.Rel R s.transferJobs
        (s.publishedPart job lease upload number row.manifest now).transferJobs := by
      refine h.rows rfl fun j _ hj => ?_
      simp only [Bool.and_eq_true, decide_eq_true_eq] at hj
      obtain ⟨⟨rfl, -⟩, hst⟩ := hj
      exact .completePart hst hp hn
    refine h.chain hc (h.rows rfl fun j _ hj => ?_)
    refine .drop _ _ _ _ (.duplicate hp hn hj) ?_ rfl
    simp only [Bool.and_eq_true, Bool.or_eq_true, decide_eq_true_eq] at hj
    rcases hj.1.2 with hst | hw
    · rw [hst]
      rfl
    · exact published_of_terminal (terminal_of_waiting hw)

theorem cleanupCompletedStaging (h : JobLaw s (.cleanupCompletedStaging removed) R) :
    Table.Rel R s.transferJobs (s.cleanupCompletedStaging removed).transferJobs := by
  apply cleanupCompletedStaging_induction (P := fun t => Table.Rel R s.transferJobs t.transferJobs)
  · exact h.same rfl
  · intro t i ht _
    refine h.chain ht (h.rows rfl fun j _ hj => ?_)
    exact .clean (Bool.and_eq_true_iff.1 hj).2

theorem queueMultipartCompletion (h : JobLaw s (.queueMultipartCompletion job upload now) R)
    (hs : s.queueMultipartCompletion job job upload now = .ok t) :
    Table.Rel R s.transferJobs t.transferJobs := by
  obtain ⟨-, uploads, rfl⟩ := queueMultipartCompletion_ok hs
  have hd : Table.Rel R s.transferJobs
      (s.supersedeCompletions job upload now.unixTimestamp).transferJobs := by
    refine h.rows rfl fun j _ hj => ?_
    simp only [Bool.and_eq_true, Bool.or_eq_true, decide_eq_true_eq, bne_iff_ne] at hj
    refine .drop _ _ _ _ (.completion hj.1.1 hj.1.2) ?_ rfl
    rcases hj.2 with ((((hs | hs) | hs) | hs) | hs) | ⟨hs, -⟩ <;> rw [hs] <;> rfl
  refine h.chain hd (h.rows rfl fun j _ hj => ?_)
  obtain ⟨rfl, hst⟩ := receivingJob_iff.1 hj
  exact .queue _ _ rfl hst

end JobLaw

/-- Every call but the one that opens a job keeps to the law of its statements. -/
theorem StoreOp.jobs_rel {op : StoreOp} {R : TransferJob → TransferJob → Prop}
    (h : StoreStep fromStr op s s') (hl : JobLaw s op R)
    (hn : ∀ objectId bucket key now, op ≠ .beginTransfer objectId bucket key now) :
    Table.Rel R s.transferJobs s'.transferJobs := by
  cases op with
  | beginTransfer objectId bucket key now => exact absurd rfl (hn objectId bucket key now)
  | reserveStaging =>
    obtain ⟨-, rfl⟩ := reserveStaging_ok (after_eq_some.1 h)
    refine hl.rows rfl fun j _ hj => ?_
    obtain ⟨rfl, -⟩ := receivingJob_iff.1 hj
    exact .reserve
  | renewReceiving | renewTransfer =>
    cases h
    exact hl.rows rfl fun j _ _ => .touch _ _ _
  | setTransferConditionals =>
    obtain ⟨-, rfl⟩ := updateJob_ok (after_eq_some.1 h)
    refine hl.rows rfl fun j _ hj => ?_
    obtain ⟨rfl, -⟩ := receivingJob_iff.1 hj
    exact .conditionals
  | queueTransfer =>
    obtain ⟨-, rfl⟩ := updateJob_ok (after_eq_some.1 h)
    refine hl.rows rfl fun j _ hj => ?_
    obtain ⟨rfl, hst⟩ := receivingJob_iff.1 hj
    exact .queue _ _ rfl hst
  | failReception =>
    cases h
    refine hl.endReception fun j hid hst => ?_
    subst hid
    exact .failReception _ (of_decide_eq_true hst)
  | rejectTransferForQuota =>
    cases h
    refine hl.endReception fun j hid hst => ?_
    subst hid
    exact .reject hst
  | claimTransfer =>
    cases h
    exact hl.claimTransfer
  | enterCommitting =>
    obtain ⟨-, rfl⟩ := updateJob_ok (after_eq_some.1 h)
    refine hl.rows rfl fun j _ hj => ?_
    simp only [Bool.and_eq_true, decide_eq_true_eq] at hj
    obtain ⟨⟨⟨rfl, -⟩, hst⟩, -⟩ := hj
    exact .commit hst
  | transferFailed id lease retryAfter message now =>
    cases h
    refine hl.rows rfl fun j _ hj => ?_
    have hid := hj
    simp only [leasedJob, Bool.and_eq_true, decide_eq_true_eq] at hid
    obtain ⟨⟨rfl, -⟩, -⟩ := hid
    exact .fail _ _ hj rfl
  | transferAction =>
    cases h
    exact hl.transferAction
  | cleanupCompletedStaging =>
    cases h
    exact hl.cleanupCompletedStaging
  | finishSendAttempt id lease order attempt location now =>
    obtain ⟨-, s₁, hs, rfl⟩ := finishSendAttempt_ok (after_eq_some.1 h)
    obtain ⟨rfl, -⟩ := updateAttempt_ok hs
    exact hl.rows rfl fun j _ _ => .touch _ _ _
  | resolveSendAttempt id order attempt location error now =>
    obtain ⟨s₁, hs, rfl⟩ := resolveSendAttempt_ok (after_eq_some.1 h)
    obtain ⟨rfl, -⟩ := updateAttempt_ok hs
    cases location <;> exact hl.rows rfl fun j _ _ => .touch _ _ _
  | reclassifyFloodWaitAttempts =>
    cases h
    exact hl.reclassifyFloodWaitAttempts
  | queueAfterReconciliation =>
    cases h
    refine hl.rows rfl fun j _ hj => ?_
    simp only [Bool.and_eq_true, decide_eq_true_eq] at hj
    obtain ⟨⟨rfl, hst⟩, -⟩ := hj
    exact .requeue _ _ hst rfl
  | commitManifest =>
    obtain ⟨⟨m', s₁⟩, hc, rfl⟩ := map_ok.1 (after_eq_some.1 h)
    exact hl.commitManifestInner hc fun j _ => .manifest
  | commitTransferManifest =>
    obtain ⟨⟨m', s₁⟩, hc, rfl⟩ := map_ok.1 (after_eq_some.1 h)
    refine hl.commitManifestInner hc fun j hj => ?_
    simp only [completes, Bool.and_eq_true, decide_eq_true_eq] at hj
    obtain ⟨⟨rfl, -⟩, hst⟩ := hj
    exact .transfer hst
  | deleteActiveKey bucket key reason c now =>
    obtain ⟨⟨m', s₁⟩, hc, rfl⟩ := map_ok.1 (after_eq_some.1 h)
    have hk : Table.Rel R s.transferJobs
        (s.cancelKey bucket key now.unixTimestamp).transferJobs := by
      refine hl.rows rfl fun j _ hj => ?_
      simp only [Bool.and_eq_true, Bool.or_eq_true, decide_eq_true_eq] at hj
      obtain ⟨⟨rfl, rfl⟩, hst⟩ := hj
      refine .drop _ _ _ _ .deleted ?_ rfl
      rcases hst with hst | hw
      · rw [hst]
        rfl
      · exact published_of_terminal (terminal_of_waiting hw)
    obtain ⟨-, ⟨-, rfl⟩ | ⟨objectId, m, -, -, rfl⟩⟩ := deleteActiveKey_ok hc
    · exact hk
    · exact hk
  | finishPartJob =>
    obtain ⟨⟨upload, number⟩, hp, hf⟩ := Option.bind_eq_some_iff.1 h
    exact hl.finishPartJob hp (after_eq_some.1 hf)
  | abortParts =>
    obtain ⟨-, rfl⟩ := abortParts_ok (after_eq_some.1 h)
    refine hl.rows rfl fun j _ hj => ?_
    simp only [Bool.and_eq_true, Bool.not_eq_true'] at hj
    exact .drop _ _ _ _ (.aborted hj.1) hj.2 rfl
  | queueMultipartCompletion => exact hl.queueMultipartCompletion (after_eq_some.1 h)
  | beginConnectionRemoval =>
    obtain ⟨objects, rfl⟩ := beginConnectionRemoval_ok (after_eq_some.1 h)
    refine hl.rows rfl fun j _ hj => ?_
    simp only [Bool.and_eq_true, bne_iff_ne, ne_eq, decide_eq_true_eq] at hj
    refine .drop _ _ _ _ (.removed hj.1.1.1) ?_ rfl
    cases hs : j.state <;> simp_all [published]
  | _ => exact hl.same (StoreOp.frame h .jobs rfl)

theorem StoreOp.job_kept (h : StoreStep fromStr op s s')
    (hl : JobLaw s op R) (hj : s.transferJobs.get? job = some j) :
    ∃ j', s'.transferJobs.get? job = some j' ∧ R j j' := by
  by_cases hb : ∃ objectId bucket key now, op = .beginTransfer objectId bucket key now
  · obtain ⟨objectId, bucket, key, now, rfl⟩ := hb
    obtain ⟨-, rfl⟩ := beginTransfer_ok (after_eq_some.1 h)
    exact ⟨j, get?_insertOrIgnore_of_some hj _, hl.refl j⟩
  · refine (StoreOp.jobs_rel h hl ?_).some_left hj
    exact fun objectId bucket key now he => hb ⟨objectId, bucket, key, now, he⟩

theorem StoreOp.job_origin (h : StoreStep fromStr op s s')
    (hl : JobLaw s op R) (hj : s'.transferJobs.get? job = some j') :
    (∃ j, s.transferJobs.get? job = some j ∧ R j j') ∨
      ∃ bucket key now, op = .beginTransfer job bucket key now ∧
        s.transferJobs.get? job = none ∧ j' = s.newJob job bucket key now := by
  by_cases hb : ∃ objectId bucket key now, op = .beginTransfer objectId bucket key now
  · obtain ⟨objectId, bucket, key, now, rfl⟩ := hb
    obtain ⟨hn, rfl⟩ := beginTransfer_ok (after_eq_some.1 h)
    have hid : j'.id = job := key_of_get? hj
    rcases mem_insertOrIgnore.1 (mem_of_get? hj) with hm | ⟨rfl, -⟩
    · exact .inl ⟨j', get?_eq_some.2 ⟨hm, hid⟩, hl.refl j'⟩
    · subst hid
      exact .inr ⟨bucket, key, now, rfl, hn, rfl⟩
  · refine .inl ((StoreOp.jobs_rel h hl ?_).some_right hj)
    exact fun objectId bucket key now he => hb ⟨objectId, bucket, key, now, he⟩

/-- An attempt is changed only while it is open, and opened only under a lease. -/
inductive AttemptStep (s : MetadataStore) (k : Uuid × Nat × Uuid) :
    Option SendAttemptRow → Option SendAttemptRow → Prop where
  | same : AttemptStep s k o o
  | update : a.state = .sending ∨ a.state = .unknown → AttemptStep s k (some a) (some a')
  | launch : s.transferJobs.any (leasedJob k.1 lease) = true → AttemptStep s k none o

namespace AttemptStep
variable {s : MetadataStore} {t : Table SendAttemptRow}

theorem of_rows {t' : Table SendAttemptRow} {p : SendAttemptRow → Bool}
    {f : SendAttemptRow → SendAttemptRow}
    (h : t'.rows = t.rows.map fun a => if p a then f a else a)
    (hf : ∀ a, Keyed.key (f a) = Keyed.key a)
    (hp : ∀ a, p a = true → a.state = .sending ∨ a.state = .unknown) (k : Uuid × Nat × Uuid) :
    AttemptStep s k (t.get? k) (t'.get? k) := by
  have hr := Table.Rel.of_update (R := fun a a' => Keyed.key a' = Keyed.key a ∧
    (a' = a ∨ a.state = .sending ∨ a.state = .unknown)) h (fun _ _ h => h.1)
    (fun _ => ⟨rfl, .inl rfl⟩) (fun a _ ha => ⟨hf a, .inr (hp a ha)⟩) k
  generalize t.get? k = o, t'.get? k = o' at hr
  cases hr with
  | none => exact .same
  | some h =>
    rcases h.2 with rfl | ho
    · exact .same
    · exact .update ho

theorem of_updateAttempt {hf} (h : s.updateAttempt job order attempt state f message hf = .ok s')
    (hst : state = .sending ∨ state = .unknown) (k : Uuid × Nat × Uuid) :
    AttemptStep s k (s.sendAttempts.get? k) (s'.sendAttempts.get? k) := by
  obtain ⟨rfl, -⟩ := updateAttempt_ok h
  refine of_rows rfl hf (fun a ha => ?_) k
  simp only [Bool.and_eq_true, decide_eq_true_eq] at ha
  rw [ha.2]
  exact hst

end AttemptStep

theorem StoreOp.attempt_step {op : StoreOp} (h : StoreStep fromStr op s s')
    (k : Uuid × Nat × Uuid) :
    AttemptStep s k (s.sendAttempts.get? k) (s'.sendAttempts.get? k) := by
  have hmark {st : AttemptState} {id lease attempt : Uuid} {order : Nat} {kind text message}
      {retryable now} (hm : s.markSendAttempt id lease order attempt st retryable kind text message
        now = .ok s') : AttemptStep s k (s.sendAttempts.get? k) (s'.sendAttempts.get? k) := by
    unfold markSendAttempt at hm
    split at hm
    · cases hm
    · exact .of_updateAttempt hm (.inl rfl) k
  cases op with
  | claimTransfer now lease =>
    cases h
    have hn : AttemptStep s k (s.sendAttempts.get? k)
        ((s.normalizeTransfers now).sendAttempts.get? k) := by
      refine AttemptStep.of_rows rfl ?_ (fun a ha => ?_) k
      · exact fun _ => rfl
      simp only [Bool.and_eq_true, decide_eq_true_eq] at ha
      exact .inl ha.1
    unfold MetadataStore.claimTransfer
    dsimp only
    split <;> exact hn
  | reclassifyFloodWaitAttempts retryAfter now =>
    cases h
    refine AttemptStep.of_rows rfl ?_ (fun a ha => ?_) k
    · exact fun _ => rfl
    simp only [Bool.and_eq_true, decide_eq_true_eq] at ha
    exact .inr ha.1
  | beginSendAttempt id lease order attempt now =>
    obtain ⟨hl, hn, rfl⟩ := beginSendAttempt_ok (after_eq_some.1 h)
    by_cases hk : k = (id, order, attempt)
    · subst hk
      rw [hn]
      obtain ⟨j, hj, hlj⟩ := any_eq_true.1 hl
      exact .launch (any_eq_true.2 ⟨j, hj, (Bool.and_eq_true_iff.1 hlj).1⟩)
    · rw [get?_insertOrIgnore, if_neg fun he => hk he.symm]
      exact .same
  | finishSendAttempt id lease order attempt location now =>
    obtain ⟨-, s₁, hu, rfl⟩ := finishSendAttempt_ok (after_eq_some.1 h)
    exact .of_updateAttempt hu (.inl rfl) k
  | markSendAttemptUnknown => exact hmark (after_eq_some.1 h)
  | markSendAttemptRetryable => exact hmark (after_eq_some.1 h)
  | resolveSendAttempt id order attempt location error now =>
    obtain ⟨s₁, hu, rfl⟩ := resolveSendAttempt_ok (after_eq_some.1 h)
    have hs := AttemptStep.of_updateAttempt hu (.inr rfl) k
    cases location <;> exact hs
  | _ =>
    rw [StoreOp.frame h .attempts rfl]
    exact .same

end TelegramS3
