import TelegramS3.TransferLoop

namespace TelegramS3
open Relational Table Fallible Transition MetadataStore TransferState
set_option autoImplicit true

/-- The job is not sent before a wait ending at `t`; `flood` says the wait is on record. -/
def TransferJob.HeldBack (j : TransferJob) (t clock : Int) (flood : Bool) : Prop :=
  match j.state with
  | .uploading | .committing => t ≤ clock
  | .queued | .retryWait => t ≤ clock ∨ t ≤ j.nextRetry
  | .recoveryRequired => t ≤ clock ∨ t ≤ j.nextRetry ∧ flood = true
  | .receiving => False
  | _ => True

namespace TransferJob.HeldBack
variable {j : TransferJob} {t clock : Int} {flood : Bool}

theorem leased (h : j.HeldBack t clock flood) (hl : j.state.leased = true) : t ≤ clock := by
  unfold HeldBack at h
  generalize j.state = st at h hl
  cases st <;> first | exact h | cases hl

theorem of_terminal (h : j.state.terminal = true) : j.HeldBack t clock flood := by
  unfold HeldBack
  generalize j.state = st at h
  cases st <;> first | exact True.intro | cases h

section
variable (h : j.HeldBack t clock flood)
include h

theorem mono (hc : clock ≤ clock') (hf : flood = true → flood' = true) :
    j.HeldBack t clock' flood' := by
  unfold HeldBack at h ⊢
  generalize j.state = st at h
  cases st with
  | uploading | committing => exact h.trans hc
  | queued | retryWait => exact h.imp_left fun ht => ht.trans hc
  | recoveryRequired => exact h.imp (fun ht => ht.trans hc) (.imp_right hf)
  | _ => exact h

theorem recovering (hst : j.state = .recoveryRequired) :
    t ≤ clock ∨ t ≤ j.nextRetry ∧ flood = true := by
  rwa [HeldBack, hst] at h

theorem not_receiving (hst : j.state = .receiving) : False := by
  rwa [HeldBack, hst] at h

end

end TransferJob.HeldBack

variable {op : StoreOp}

theorem JobUpdate.heldBack (h : JobUpdate s op j j') (hc : op.time.getD c = c)
    (hn : ∀ now, op ≠ .transferAction j.id "retry" now)
    (hh : j.HeldBack t c (s.floodWaiting j.id)) : j'.HeldBack t c (s.floodWaiting j.id) := by
  cases h with
  | touch | reserve | conditionals => exact hh
  | queue _ _ _ hst | failReception _ hst | expire _ hst => exact (hh.not_receiving hst).elim
  | reject | complete | completePart | clean => exact True.intro
  | drop _ _ _ _ _ _ hb => exact .of_terminal (terminal_of_dropped hb)
  | retain _ hl _ => exact .inl (hh.leased hl)
  | claim hcl =>
    have hnow := hc
    simp only [StoreOp.time, Option.getD_some] at hnow
    simp only [claimable, Bool.and_eq_true, Bool.or_eq_true, decide_eq_true_eq] at hcl
    show t ≤ c
    rcases hcl.1.1 with ⟨hst, hr⟩ | ⟨hl, -⟩
    · have hw : t ≤ c ∨ t ≤ j.nextRetry := by
        unfold TransferJob.HeldBack at hh
        rcases hst with hst | hst <;> rwa [hst] at hh
      omega
    · exact hh.leased hl
  | commit hst => exact hh.leased (by rw [hst]; rfl)
  | fail _ waits hl _ =>
    have ht := hh.leased (Bool.and_eq_true_iff.1 hl).2
    cases waits
    · exact .inl ht
    · exact .inl ht
  | retry => exact absurd rfl (hn _)
  | pause retryAt hst =>
    rw [TransferJob.HeldBack, hst]
    exact (hh.recovering hst).imp_right (.imp_left fun ht => ht.trans (le_max_left _ _))
  | resume _ _ hst =>
    exact (hh.recovering hst).imp_right fun ht => ht.1.trans (le_max_left _ _)
  | requeue _ paused hst hp =>
    have hw := hh.recovering hst
    have hnow := hc
    simp only [StoreOp.time, Option.getD_some] at hnow
    cases paused with
    | true => exact hw.imp_right And.left
    | false =>
      left
      rcases hw with hw | ⟨hw, hf⟩
      · exact hw
      · rw [hf, Bool.true_and, eq_comm, decide_eq_false_iff_not] at hp
        omega

theorem heldBack_law (t : Int) (hc : op.time.getD c = c)
    (hn : ∀ job now, op ≠ .transferAction job "retry" now) :
    JobLaw s op fun j j' => j'.id = j.id ∧
      (j.HeldBack t c (s.floodWaiting j.id) → j'.HeldBack t c (s.floodWaiting j'.id)) where
  refl _ := ⟨rfl, fun h => h⟩
  trans _ _ _ hab hbd := ⟨hbd.1.trans hab.1, fun h => hbd.2 (hab.2 h)⟩
  id _ _ h := h.1
  update j j' h := by
    have hid : j'.id = j.id := h.id
    refine ⟨hid, fun hh => ?_⟩
    rw [hid]
    exact h.heldBack hc (hn j.id) hh

def TransferJob.Owned (j : TransferJob) (job lease : Uuid) : Prop :=
  j.state.terminal = true ∨ leasedJob job lease j = true

theorem JobUpdate.terminal (h : JobUpdate s op j j')
    (ht : j.state.terminal = true) : j'.state.terminal = true := by
  cases h with
  | touch | reserve | conditionals | pause => exact ht
  | queue _ _ _ hst | failReception _ hst | expire _ hst | commit hst | resume _ _ hst
  | requeue _ _ hst =>
    rw [hst] at ht
    cases ht
  | reject | complete | completePart | clean => rfl
  | drop _ _ _ _ _ _ hb => exact terminal_of_dropped hb
  | retain _ hl =>
    rw [terminal_of_leased hl] at ht
    cases ht
  | claim hcl =>
    simp only [claimable, Bool.and_eq_true, Bool.or_eq_true, decide_eq_true_eq] at hcl
    rcases hcl.1.1 with ⟨hst | hst, -⟩ | ⟨hl, -⟩
    · rw [hst] at ht
      cases ht
    · rw [hst] at ht
      cases ht
    · rw [terminal_of_leased hl] at ht
      cases ht
  | fail _ _ hl =>
    rw [terminal_of_leased (Bool.and_eq_true_iff.1 hl).2] at ht
    cases ht
  | retry hst =>
    rcases hst with hst | hst
    · rw [hst] at ht
      cases ht
    · rw [hst] at ht
      cases ht

theorem JobUpdate.owned (h : JobUpdate s op j j') (hc : ∀ now lease, op ≠ .claimTransfer now lease)
    (hf : ∀ job lease retryAfter message now, op ≠ .transferFailed job lease retryAfter message now)
    (ho : j.Owned job lease) : j'.Owned job lease := by
  rcases ho with ht | hl
  · exact .inl (h.terminal ht)
  have hleased : j.state.leased = true := (Bool.and_eq_true_iff.1 hl).2
  cases h with
  | touch | reserve | conditionals | pause => exact .inr hl
  | queue _ _ _ hst | failReception _ hst | resume _ _ hst | requeue _ _ hst =>
    rw [hst] at hleased
    cases hleased
  | reject | complete | completePart | clean => exact .inl rfl
  | drop _ _ _ _ _ _ hb => exact .inl (terminal_of_dropped hb)
  | expire | retain | claim => exact absurd rfl (hc _ _)
  | commit =>
    right
    simp only [leasedJob, Bool.and_eq_true] at hl ⊢
    exact ⟨hl.1, rfl⟩
  | fail => exact absurd rfl (hf _ _ _ _ _)
  | retry hst =>
    rcases hst with hst | hst
    · rw [hst] at hleased
      cases hleased
    · rw [hst] at hleased
      cases hleased

theorem owned_law (job lease : Uuid) (hc : ∀ now lease, op ≠ .claimTransfer now lease)
    (hf : ∀ job lease retryAfter message now,
      op ≠ .transferFailed job lease retryAfter message now) :
    JobLaw s op fun j j' => j'.id = j.id ∧ (j.state.terminal = true → j'.state.terminal = true) ∧
      (j.Owned job lease → j'.Owned job lease) where
  refl _ := ⟨rfl, fun h => h, fun h => h⟩
  trans _ _ _ hab hbd :=
    ⟨hbd.1.trans hab.1, fun h => hbd.2.1 (hab.2.1 h), fun h => hbd.2.2 (hab.2.2 h)⟩
  id _ _ h := h.1
  update _ _ h := ⟨h.id, h.terminal, h.owned hc hf⟩

theorem StoreOp.time_of_worker (h : op.worker = false) : op.time = none := by
  cases op <;> first | rfl | cases h

theorem ConnectionStep.floodWaiting_kept (h : ConnectionStep fromStr a s s')
    (ha : a.worker = false) (hj : s'.transferJobs.get? job = some j')
    (hf : s.floodWaiting job = true) : s'.floodWaiting job = true := by
  obtain ⟨k, b, rfl, hb, hst, hk⟩ := floodWaiting_eq_true.1 hf
  refine floodWaiting_eq_true.2 ⟨k, b, rfl, ?_, hst, hk⟩
  rw [h.attempts_kept ha hj]
  exact hb

theorem ConnectionStep.kept (h : ConnectionStep fromStr a s s')
    (ha : a.worker = false) (hr : ∀ job now, a ≠ .call (.transferAction job "retry" now))
    (hd : job ∉ a.draws) (hj : s'.transferJobs.get? job = some j') :
    ∃ j, s.transferJobs.get? job = some j ∧
      (∀ t c, j.HeldBack t c (s.floodWaiting job) → j'.HeldBack t c (s'.floodWaiting job)) ∧
      (j.state.terminal = true → j'.state.terminal = true) ∧
      ∀ lease, j.Owned job lease → j'.Owned job lease := by
  have hown (lease : Uuid) : ∃ j, s.transferJobs.get? job = some j ∧ j'.id = j.id ∧
      (j.state.terminal = true → j'.state.terminal = true) ∧
        (j.Owned job lease → j'.Owned job lease) := by
    refine h.job_rel (fun op he => owned_law job lease ?_ ?_) (fun _ _ => ?_) hj hd
    · rintro now lease rfl
      subst he
      cases ha
    · rintro id lease retryAfter message now rfl
      subst he
      cases ha
    · exact ⟨rfl, fun h => h, fun h => h⟩
  obtain ⟨j, hg, -, hterm, -⟩ := hown default
  refine ⟨j, hg, fun t c hh => ?_, hterm, fun lease => ?_⟩
  · have htime : ∀ op, a = .call op → op.time.getD c = c := by
      rintro op rfl
      rw [StoreOp.time_of_worker ha]
      rfl
    have hretry : ∀ op, a = .call op → ∀ id now, op ≠ .transferAction id "retry" now := by
      rintro op he id now rfl
      exact hr id now he
    have hlaw (op : StoreOp) (he : a = .call op) :=
      heldBack_law (s := s) t (htime op he) (hretry op he)
    obtain ⟨i, hi, hid, hheld⟩ := h.job_rel hlaw (fun _ _ => ⟨rfl, fun h => h⟩) hj hd
    cases hg.symm.trans hi
    have hid' : j'.id = job := key_of_get? hj
    rw [← hid, hid'] at hheld
    exact (hheld hh).mono le_rfl (h.floodWaiting_kept ha hj)
  · obtain ⟨i, hi, -, -, ho⟩ := hown lease
    cases hg.symm.trans hi
    exact ho

/-- What a call of the worker makes of a job, whether it goes through or not. -/
theorem StoreOp.kept (hw : op.worker = true)
    (hc : c ≤ op.time.getD c) (hs : (op.apply fromStr s).getD s = s')
    (hj : s'.transferJobs.get? job = some j') :
    ∃ j, s.transferJobs.get? job = some j ∧ (∀ t, j.HeldBack t c (s.floodWaiting job) →
        j'.HeldBack t (op.time.getD c) (s'.floodWaiting job)) ∧
      ((∀ now lease, op ≠ .claimTransfer now lease) → (∀ job lease retryAfter message now,
          op ≠ .transferFailed job lease retryAfter message now) →
        ∀ lease, j.Owned job lease → j'.Owned job lease) := by
  have hretry : ∀ id now, op ≠ .transferAction id "retry" now := by
    rintro id now rfl
    cases hw
  have hopen : ∀ objectId bucket key now, op ≠ .beginTransfer objectId bucket key now := by
    rintro objectId bucket key now rfl
    cases hw
  have hidem : op.time.getD (op.time.getD c) = op.time.getD c := by
    cases op.time <;> rfl
  cases he : op.apply fromStr s with
  | none =>
    rw [he] at hs
    cases hs
    exact ⟨j', hj, fun t hh => hh.mono hc fun hf => hf, fun _ _ _ ho => ho⟩
  | some s₁ =>
    rw [he] at hs
    cases hs
    have hheld (t : Int) : ∃ j, s.transferJobs.get? job = some j ∧ j'.id = j.id ∧ _ :=
      (StoreOp.jobs_rel he (heldBack_law t hidem hretry) hopen).some_right hj
    obtain ⟨j, hg, -⟩ := hheld 0
    have hid : j.id = job := key_of_get? hg
    refine ⟨j, hg, fun t hh => ?_, fun hcl hf lease ho => ?_⟩
    · obtain ⟨i, hi, hii, hb⟩ := hheld t
      cases hg.symm.trans hi
      rw [hii, hid] at hb
      exact (hb (hh.mono hc fun hf => hf)).mono le_rfl (StoreOp.floodWaiting_kept he)
    · obtain ⟨i, hi, -, -, hown⟩ :=
        (StoreOp.jobs_rel he (owned_law job lease hcl hf) hopen).some_right hj
      cases hg.symm.trans hi
      exact hown ho

namespace MetadataStore
variable {s : MetadataStore} {job lease : Uuid}

theorem claimTransfer_leased (h : (s.claimTransfer now lease).1 = some j) :
    (s.claimTransfer now lease).2.transferJobs.get? j.id = some j ∧
      leasedJob j.id lease j = true := by
  unfold claimTransfer at h ⊢
  dsimp only at h ⊢
  split at h
  · cases h
  · rename_i i hi
    cases h
    obtain ⟨hm, -⟩ := mem_select.1 (firstBy_mem hi)
    refine ⟨?_, ?_⟩
    · have hg : (s.normalizeTransfers now).transferJobs.get? i.id = some i :=
        get?_eq_some.2 ⟨hm, rfl⟩
      simp only [TransferJob.claim, get?_modify, hg, Option.map_some, decide_true, if_true]
    · simp [leasedJob, TransferJob.claim, TransferState.leased]

theorem transferFailed_heldBack {t now : Int} (ho : j.Owned job lease)
    (hw : j.state.terminal = false → s.floodWaiting job = true ∧ t ≤ now + (delay : Nat))
    (hj : s.transferJobs.get? job = some j)
    (hj' : (s.transferFailed job lease (some delay) message now).transferJobs.get? job = some j') :
    j'.HeldBack t now (s.floodWaiting job) := by
  simp only [transferFailed, get?_modify, hj, Option.map_some, Option.some.injEq] at hj'
  split at hj'
  · rename_i hl
    obtain ⟨hf, ht⟩ := hw (terminal_of_leased (Bool.and_eq_true_iff.1 hl).2)
    subst hj'
    cases hamb : s.ambiguousSend job with
    | true => exact .inr ⟨ht, hf⟩
    | false => exact .inr ht
  · subst hj'
    rcases ho with ho | ho
    · exact .of_terminal ho
    · contradiction

theorem markSendAttemptRetryable_records (text : String) (now : Int)
    (hl : s.transferJobs.any (leasedJob job lease) = true)
    (ha : s.sendAttempts.get? (job, order, attempt) = some a) (hst : a.state = .sending) :
    ∃ s', s.markSendAttemptRetryable job lease order attempt "telegram_flood_wait" text now =
      .ok s' ∧ s'.floodWaiting job = true := by
  obtain ⟨hm, hk⟩ := get?_eq_some.1 ha
  cases hk
  have hany : s.sendAttempts.any (fun b => b.jobId = a.jobId && b.chunkOrder = a.chunkOrder &&
      b.attemptId = a.attemptId && b.state = .sending) = true :=
    any_eq_true.2 ⟨a, hm, by simp [hst]⟩
  unfold markSendAttemptRetryable markSendAttempt updateAttempt
  simp only [hl, hany, Bool.not_true, Bool.false_eq_true, if_false, if_true]
  refine ⟨_, rfl, floodWaiting_eq_true.2 ⟨(a.jobId, a.chunkOrder, a.attemptId), { a with
    state := .retryable, errorKind := some "telegram_flood_wait", error := some text
    finishedAt := some now, retryable := true }, rfl, ?_, rfl, rfl⟩⟩
  simp only [get?_modify, ha, Option.map_some, hst, decide_true, Bool.and_self, if_true]

end MetadataStore

def LoopPhase.owner : LoopPhase → Option (Uuid × Uuid)
  | .polling _ => none
  | .publishing job lease | .rejected job lease .. => some (job, lease)

namespace LoopPhase
variable {p : LoopPhase} {op : StoreOp} {job lease : Uuid}

theorem worker_of_allows (h : p.allows op = true) : op.worker = true := by
  cases op with
  | claimTransfer | renewTransfer | enterCommitting | transferFailed | beginSendAttempt
  | finishSendAttempt | markSendAttemptUnknown | markSendAttemptRetryable | resolveSendAttempt
  | reclassifyFloodWaitAttempts | queueAfterReconciliation | commitTransferManifest
  | finishPartJob | rejectTransferForQuota => rfl
  | _ =>
    cases p with
    | rejected _ _ _ _ _ marked => cases marked <;> cases h
    | _ => cases h

theorem next_owner (h : p.allows op = true) (ho : (p.next s op).owner = some (job, lease)) :
    (p.owner = some (job, lease) ∧ (∀ now lease, op ≠ .claimTransfer now lease) ∧
      ∀ job lease retryAfter message now, op ≠ .transferFailed job lease retryAfter message now) ∨
    ∃ now j, op = .claimTransfer now lease ∧ (s.claimTransfer now lease).1 = some j ∧
      j.id = job := by
  cases op with
  | claimTransfer now l =>
    simp only [next] at ho
    split at ho
    · rename_i j hj
      cases ho
      exact .inr ⟨now, j, rfl, hj, rfl⟩
    · cases ho
  | transferFailed => cases ho
  | _ =>
    refine .inl ⟨?_, fun _ _ he => ?_, fun _ _ _ _ _ he => ?_⟩
    · cases p <;> exact ho
    · cases he
    · cases he

theorem next_rejected (h : p.allows op = true)
    (hn : p.next s op = .rejected job lease order attempt e marked) :
    marked = true ∧ p = .rejected job lease order attempt e false ∧ ∃ now, op =
      .markSendAttemptRetryable job lease order attempt "telegram_flood_wait" e.text now := by
  cases p with
  | polling listed =>
    cases op with
    | claimTransfer now l =>
      simp only [next] at hn
      split at hn <;> cases hn
    | _ => cases hn
  | publishing =>
    cases op with
    | claimTransfer => cases h
    | _ => cases hn
  | rejected id l n i e' m =>
    cases m with
    | false =>
      cases op with
      | markSendAttemptRetryable id' l' n' i' kind text now =>
        simp only [allows, Bool.and_eq_true, decide_eq_true_eq] at h
        obtain ⟨⟨⟨⟨⟨rfl, rfl⟩, rfl⟩, rfl⟩, rfl⟩, rfl⟩ := h
        cases hn
        exact ⟨rfl, rfl, now, rfl⟩
      | _ => cases h
    | true =>
      cases op with
      | transferFailed => cases hn
      | _ => cases h

theorem free_of_begins (h : p.allows (.beginSendAttempt i l order attempt now) = true) :
    p.inHand ≠ some job := by
  cases p with
  | rejected _ _ _ _ _ marked => cases marked <;> cases h
  | _ => exact fun he => nomatch he

theorem next_inHand (h : p.allows op = true) (hp : p.inHand = some job)
    (hn : (p.next s op).inHand ≠ some job) :
    ∃ lease order attempt e message now, p = .rejected job lease order attempt e true ∧
      op = .transferFailed job lease (some e.delay) message now := by
  cases p with
  | polling | publishing => cases hp
  | rejected id lease order attempt e m =>
    cases hp
    cases m with
    | false =>
      cases op with
      | markSendAttemptRetryable => exact absurd rfl hn
      | _ => cases h
    | true =>
      cases op with
      | transferFailed id' l' retryAfter message now =>
        simp only [allows, Bool.and_eq_true, decide_eq_true_eq] at h
        obtain ⟨⟨rfl, rfl⟩, rfl⟩ := h
        exact ⟨_, order, attempt, e, message, now, rfl, rfl⟩
      | _ => cases h

end LoopPhase

/-- What the store and the worker know of a FLOOD_WAIT that is yet to be stored. -/
structure LoopWorld.InHand (w : LoopWorld) (job : Uuid) (order : Nat) (attempt : Uuid)
    (e : SendError) (marked : Bool) : Prop where
  recorded : marked = true → w.store.floodWaiting job = true
  sending : marked = false → ∃ a, w.store.sendAttempts.get? (job, order, attempt) = some a ∧
    a.state = .sending
  bound : ∀ x ∈ w.waits, x.1 = job → x.2 ≤ w.clock + (e.delay : Nat)

/-- Every wait is over or the row of its job says to wait, but for the one in the worker's hand. -/
structure LoopWorld.Honoured (w : LoopWorld) : Prop where
  drawn : ∀ job, (w.store.transferJobs.get? job).isSome = true → job ∈ w.issued
  waiting : ∀ x ∈ w.waits, x.1 ∈ w.issued
  held : ∀ x ∈ w.waits, w.phase.inHand ≠ some x.1 → ∀ j, w.store.transferJobs.get? x.1 = some j →
    j.HeldBack x.2 w.clock (w.store.floodWaiting x.1)
  working : ∀ job lease, w.phase.owner = some (job, lease) → job ∈ w.issued
  owned : ∀ job lease, w.phase.owner = some (job, lease) →
    ∀ j, w.store.transferJobs.get? job = some j → j.Owned job lease
  hand : ∀ job lease order attempt e marked,
    w.phase = .rejected job lease order attempt e marked →
      ∀ j, w.store.transferJobs.get? job = some j → j.state.terminal = false →
        w.InHand job order attempt e marked

def LoopAction.retries : LoopAction → Bool
  | .call (.call (.transferAction _ action _)) => action = "retry"
  | _ => false

/-- The worker is not stopped between a FLOOD_WAIT and the call that stores its delay. -/
def LoopAction.Stores (a : LoopAction) (w : LoopWorld) : Prop :=
  a = .restart → w.phase.inHand = none

namespace LoopWorld.Honoured
variable {w w' : LoopWorld} {fromStr : String → Option ETagCondition}

theorem init (h : LoopWorld.Initial w) : w.Honoured := by
  refine ⟨?_, ?_, ?_, ?_, ?_, ?_⟩
  · intro job hj
    rw [h.jobs] at hj
    cases hj
  · intro x hx
    rw [h.waits] at hx
    cases hx
  · intro x hx
    rw [h.waits] at hx
    cases hx
  · intro job lease ho
    rw [h.phase] at ho
    cases ho
  · intro job lease ho
    rw [h.phase] at ho
    cases ho
  · intro job lease order attempt e marked hp
    rw [h.phase] at hp
    cases hp

section
variable (h : w.Honoured)
include h

theorem polling (hn : w.phase.inHand = none) (listed : List Uuid) :
    LoopWorld.Honoured { w with phase := .polling listed } := by
  refine ⟨h.drawn, h.waiting, fun x hx _ => h.held x hx ?_, ?_, ?_, ?_⟩
  · rw [hn]
    exact fun he => nomatch he
  · exact fun _ _ he => nomatch he
  · exact fun _ _ he => nomatch he
  · exact fun _ _ _ _ _ _ he => nomatch he

theorem list (hs : LoopStep fromStr (.list job) w w') : w'.Honoured := by
  obtain ⟨listed, hp, -, rfl⟩ := hs.list
  exact h.polling (by rw [hp]; rfl) _

theorem reject (hs : LoopStep fromStr (.reject order attempt e now) w w') : w'.Honoured := by
  obtain ⟨job, lease, a, hp, hnow, ha, hst, rfl⟩ := hs.reject
  have hjob : job ∈ w.issued := h.working job lease (by rw [hp]; rfl)
  have hfree : ∀ x : Uuid × Int, w.phase.inHand ≠ some x.1 := by
    rw [hp]
    exact fun _ he => nomatch he
  have hnew : ∀ x ∈ (parseFloodWaitSeconds e.text).toList.map
      (fun n : Nat => (job, now + (n : Int))), x.1 = job ∧ x.2 ≤ now + (e.delay : Nat) := by
    intro x hx
    obtain ⟨n, hn, rfl⟩ := List.mem_map.1 hx
    rw [Option.mem_toList] at hn
    refine ⟨rfl, ?_⟩
    simp only [SendError.delay, hn, Option.getD_some]
    omega
  refine ⟨h.drawn, ?_, ?_, ?_, ?_, ?_⟩
  · intro x hx
    rcases List.mem_append.1 hx with hx | hx
    · rw [(hnew x hx).1]
      exact hjob
    · exact h.waiting x hx
  · intro x hx hne j hj
    rcases List.mem_append.1 hx with hx | hx
    · exact absurd (congrArg some (hnew x hx).1).symm hne
    · exact (h.held x hx (hfree x) j hj).mono hnow fun hf => hf
  · rintro job lease ⟨⟩
    exact hjob
  · rintro job lease ⟨⟩
    exact h.owned job lease (by rw [hp]; rfl)
  · rintro job lease order attempt e marked ⟨⟩ j hj ht
    have hl : j.state.leased = true := by
      rcases h.owned job lease (by rw [hp]; rfl) j hj with ho | ho
      · rw [ho] at ht
        cases ht
      · exact (Bool.and_eq_true_iff.1 ho).2
    refine ⟨(fun he => nomatch he), fun _ => ⟨a, ha, hst⟩, ?_⟩
    intro x hx hxj
    rcases List.mem_append.1 hx with hx | hx
    · exact (hnew x hx).2
    · have hover := (h.held x hx (hfree x) j (by rw [hxj]; exact hj)).leased hl
      show x.2 ≤ now + (e.delay : Nat)
      omega

theorem call (hr : LoopAction.retries (.call a) = false) (hs : LoopStep fromStr (.call a) w w') :
    w'.Honoured := by
  obtain ⟨ha, hfresh, s', hstep, rfl⟩ := hs.call
  have hretry : ∀ job now, a ≠ .call (.transferAction job "retry" now) := by
    rintro job now rfl
    cases hr
  have hkept {job : Uuid} {j' : TransferJob} (hi : job ∈ w.issued)
      (hj : s'.transferJobs.get? job = some j') :=
    ConnectionStep.kept hstep ha hretry (hfresh job hi) hj
  refine ⟨?_, ?_, ?_, ?_, ?_, ?_⟩
  · intro job hj
    obtain ⟨j', hj'⟩ := Option.isSome_iff_exists.1 hj
    by_cases hm : job ∈ a.draws
    · exact List.mem_append_left _ hm
    · obtain ⟨j, hg, -⟩ := ConnectionStep.kept hstep ha hretry hm hj'
      exact List.mem_append_right _ (h.drawn job (by rw [hg]; rfl))
  · exact fun x hx => List.mem_append_right _ (h.waiting x hx)
  · intro x hx hne j' hj'
    obtain ⟨j, hg, hheld, -⟩ := hkept (h.waiting x hx) hj'
    exact hheld _ _ (h.held x hx hne j hg)
  · exact fun job lease ho => List.mem_append_right _ (h.working job lease ho)
  · intro job lease ho j' hj'
    obtain ⟨j, hg, -, -, hown⟩ := hkept (h.working job lease ho) hj'
    exact hown lease (h.owned job lease ho j hg)
  · intro job lease order attempt e marked hp j' hj' ht
    have ho : w.phase.owner = some (job, lease) := by
      rw [show w.phase = _ from hp]
      rfl
    obtain ⟨j, hg, -, hterm, -⟩ := hkept (h.working job lease ho) hj'
    have hj : j.state.terminal = false := by
      rw [← Bool.not_eq_true] at ht ⊢
      exact fun hj => ht (hterm hj)
    obtain ⟨hrec, hsend, hbound⟩ := h.hand job lease order attempt e marked hp j hg hj
    refine ⟨fun hm => ConnectionStep.floodWaiting_kept hstep ha hj' (hrec hm), fun hm => ?_, hbound⟩
    obtain ⟨b, hb, hst⟩ := hsend hm
    have hsame := ConnectionStep.attempts_kept (k := (job, order, attempt)) hstep ha hj'
    exact ⟨b, hsame.trans hb, hst⟩

theorem work (hs : LoopStep fromStr (.work op) w w') : w'.Honoured := by
  obtain ⟨ha, hclock, rfl⟩ := hs.work
  generalize hs' : (op.apply fromStr w.store).getD w.store = s'
  have hkept {job : Uuid} {j' : TransferJob} (hj : s'.transferJobs.get? job = some j') :=
    StoreOp.kept (LoopPhase.worker_of_allows ha) hclock hs' hj
  refine ⟨?_, h.waiting, ?_, ?_, ?_, ?_⟩
  · intro job hj
    obtain ⟨j', hj'⟩ := Option.isSome_iff_exists.1 hj
    obtain ⟨j, hg, -⟩ := hkept hj'
    exact h.drawn job (by rw [hg]; rfl)
  · intro x hx hne j' hj'
    obtain ⟨j, hg, hheld, -⟩ := hkept hj'
    by_cases hin : w.phase.inHand = some x.1
    · obtain ⟨lease, order, attempt, e, message, now, hp, rfl⟩ :=
        LoopPhase.next_inHand ha hin hne
      have ho := h.owned x.1 lease (by rw [hp]; rfl) j hg
      subst hs'
      have hw : j.state.terminal = false →
          w.store.floodWaiting x.1 = true ∧ x.2 ≤ now + (e.delay : Nat) := by
        intro ht
        obtain ⟨hrec, -, hbound⟩ := h.hand x.1 lease order attempt e true hp j hg ht
        exact ⟨hrec rfl, (hbound x hx rfl).trans (Int.add_le_add_right hclock _)⟩
      have hb : j'.HeldBack x.2 now (w.store.floodWaiting x.1) :=
        transferFailed_heldBack ho hw hg hj'
      exact hb
    · exact hheld x.2 (h.held x hx hin j hg)
  · intro job lease ho
    rcases LoopPhase.next_owner ha ho with ⟨ho, -⟩ | ⟨now, j, rfl, hj, rfl⟩
    · exact h.working job lease ho
    · cases hs'
      obtain ⟨i, hi, -⟩ := hkept (claimTransfer_leased hj).1
      exact h.drawn j.id (by rw [hi]; rfl)
  · intro job lease ho j' hj'
    rcases LoopPhase.next_owner ha ho with ⟨ho, hcl, hf⟩ | ⟨now, j, rfl, hj, rfl⟩
    · obtain ⟨j, hg, -, hown⟩ := hkept hj'
      exact hown hcl hf lease (h.owned job lease ho j hg)
    · subst hs'
      obtain ⟨hg, hl⟩ := claimTransfer_leased hj
      cases hg.symm.trans hj'
      exact .inr hl
  · intro job lease order attempt e marked hn j' hj' ht
    obtain ⟨rfl, hp, now, rfl⟩ := LoopPhase.next_rejected ha hn
    have hjobs : s'.transferJobs = w.store.transferJobs := by
      subst hs'
      cases he : StoreOp.apply fromStr (.markSendAttemptRetryable job lease order attempt
          "telegram_flood_wait" e.text now) w.store with
      | none => rfl
      | some s₁ => exact StoreOp.frame he .jobs rfl
    have hg : w.store.transferJobs.get? job = some j' := by
      rw [← hjobs]
      exact hj'
    obtain ⟨-, hsend, hbound⟩ := h.hand job lease order attempt e false hp j' hg ht
    obtain ⟨a, hrow, hst⟩ := hsend rfl
    have hl : w.store.transferJobs.any (leasedJob job lease) = true := by
      rcases h.owned job lease (by rw [hp]; rfl) j' hg with ho | ho
      · rw [ho] at ht
        cases ht
      · exact any_eq_true.2 ⟨j', mem_of_get? hg, ho⟩
    obtain ⟨s₁, hs₁, hf⟩ := markSendAttemptRetryable_records e.text now hl hrow hst
    refine ⟨fun _ => ?_, (fun he => nomatch he), hbound⟩
    rw [StoreOp.apply, after_eq_some.2 hs₁] at hs'
    cases hs'
    exact hf

theorem step (hr : a.retries = false) (hc : a.Stores w) (hs : LoopStep fromStr a w w') :
    w'.Honoured := by
  cases a with
  | call a => exact h.call hr hs
  | work op => exact h.work hs
  | list job => exact h.list hs
  | reject order attempt e now => exact h.reject hs
  | restart =>
    cases hs
    exact h.polling (hc rfl) []

end

theorem run (hr : Run LoopWorld.Initial
    (Guarded (LoopStep fromStr) fun a w => a.retries = false ∧ a.Stores w) past w) :
    w.Honoured :=
  Run.invariant (fun _ => init) (fun _ _ _ h hs => h.step hs.2.1 hs.2.2 hs.1) hr

end LoopWorld.Honoured

/-- No send of a job begins before the end of a wait that Telegram asked for. -/
def FloodWaitsHonoured (fromStr : String → Option ETagCondition)
    (Step : LoopAction → LoopWorld → LoopWorld → Prop) : Prop :=
  ∀ past w, Run LoopWorld.Initial Step past w → ∀ job t, (job, t) ∈ w.waits →
    ∀ lease order attempt now w' s,
      LoopStep fromStr (.work (.beginSendAttempt job lease order attempt now)) w w' →
      StoreStep fromStr (.beginSendAttempt job lease order attempt now) w.store s → t ≤ now

theorem flood_waits_honoured (fromStr : String → Option ETagCondition) : FloodWaitsHonoured fromStr
      (Guarded (LoopStep fromStr) fun a w => a.retries = false ∧ a.Stores w) := by
  intro past w hr job t hw lease order attempt now w' s hs hb
  have h := LoopWorld.Honoured.run hr
  obtain ⟨ha, hnow, -⟩ := hs.work
  obtain ⟨hl, -⟩ := beginSendAttempt_ok (after_eq_some.1 hb)
  obtain ⟨j, hj, hlease⟩ := any_eq_true.1 hl
  simp only [leasedJob, Bool.and_eq_true, decide_eq_true_eq] at hlease
  obtain ⟨⟨⟨rfl, -⟩, hleased⟩, -⟩ := hlease
  have hh := h.held _ hw (LoopPhase.free_of_begins ha) j (mem_iff_get?.1 hj)
  exact (hh.leased hleased).trans hnow

def longPause : SendError :=
  { rpc := some "rpc error 420: FLOOD_WAIT caused by messages.sendMedia (value: 600)"
    text :=
      "Telegram RPC error: rpc error 420: FLOOD_WAIT caused by messages.sendMedia (value: 600)" }

/-- The process ends after the mark and before the delay is stored; the lease runs out. -/
def lostPause : List LoopAction :=
  [.call (.call (.beginTransfer ⟨1⟩ "photos" "a" 0)), .call (.call (.queueTransfer ⟨1⟩ 1 0)),
    .work (.claimTransfer 0 ⟨11⟩), .work (.beginSendAttempt ⟨1⟩ ⟨11⟩ 0 ⟨21⟩ 0),
    .reject 0 ⟨21⟩ longPause 1,
    .work (.markSendAttemptRetryable ⟨1⟩ ⟨11⟩ 0 ⟨21⟩ "telegram_flood_wait" longPause.text 1),
    .restart, .work (.claimTransfer 121 ⟨12⟩)]

def loopStep (a : LoopAction) (w : LoopWorld) : Option LoopWorld :=
  if a.retries then none else a.apply (fun _ => none) w

def lostPauseRun : List LoopWorld × LoopWorld :=
  (exec loopStep [] { store := photosStore, clock := 0 } lostPause).get (by decide +kernel)

theorem crash_loses_flood_wait : ¬ FloodWaitsHonoured (fun _ => none)
    (Guarded (LoopStep fun _ => none) fun a _ => a.retries = false) := by
  intro h
  have hr : Run LoopWorld.Initial (fun a s s' => loopStep a s = some s') lostPauseRun.1
      lostPauseRun.2 := Run.of_exec_isSome ⟨rfl, rfl, rfl, rfl, rfl⟩ (by decide +kernel)
  have hg : Run LoopWorld.Initial (Guarded (LoopStep fun _ => none) fun a _ => a.retries = false)
      lostPauseRun.1 lostPauseRun.2 := by
    refine hr.mono fun a s s' hs => ?_
    unfold loopStep at hs
    split at hs
    · cases hs
    · rename_i hn
      exact ⟨hs, Bool.eq_false_iff.2 hn⟩
  have hw : (⟨1⟩, 601) ∈ lostPauseRun.2.waits := by decide +kernel
  have hs : (LoopAction.apply (fun _ => none) (.work (.beginSendAttempt ⟨1⟩ ⟨12⟩ 0 ⟨22⟩ 121))
      lostPauseRun.2).isSome = true := by
    decide +kernel
  have hb : (StoreOp.apply (fun _ => none) (.beginSendAttempt ⟨1⟩ ⟨12⟩ 0 ⟨22⟩ 121)
      lostPauseRun.2.store).isSome = true := by
    decide +kernel
  obtain ⟨w', hs⟩ := Option.isSome_iff_exists.1 hs
  obtain ⟨s, hb⟩ := Option.isSome_iff_exists.1 hb
  have ht := h _ _ hg ⟨1⟩ 601 hw ⟨12⟩ 0 ⟨22⟩ 121 w' s hs hb
  omega

end TelegramS3
