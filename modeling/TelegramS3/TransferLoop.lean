import TelegramS3.Accounting
import TelegramS3.Ranges

namespace TelegramS3
open Relational Table Fallible Transition MetadataStore TransferState
set_option autoImplicit true

/-- What follows the first occurrence of a pattern. -/
def findAfter (pattern : List Char) : List Char → Option (List Char)
  | [] => if pattern = [] then some [] else none
  | c :: text =>
    if pattern.isPrefixOf (c :: text) then some ((c :: text).drop pattern.length)
    else findAfter pattern text

def parseFloodWaitSeconds (error : String) : Option Nat :=
  let seconds (text : List Char) : Option Nat := parseDigits (text.takeWhile Char.isDigit)
  ((findAfter "FLOOD_WAIT_".toList error.toList).bind seconds).or
    ((findAfter "(value: ".toList error.toList).bind seconds)

def fallbackFloodWaitSeconds : Nat := 60

/-- The pause the worker takes after a FLOOD_WAIT. -/
def SendError.delay (e : SendError) : Nat :=
  max ((parseFloodWaitSeconds e.text).getD fallbackFloodWaitSeconds) 1

/-- Before a claim, having listed unresolved attempts; publishing; or with a FLOOD_WAIT to store. -/
inductive LoopPhase where
  | polling (listed : List Uuid)
  | publishing (job lease : Uuid)
  | rejected (job lease : Uuid) (order : Nat) (attempt : Uuid) (e : SendError) (marked : Bool)

namespace LoopPhase

def allows : LoopPhase → StoreOp → Bool
  | .polling _, .reclassifyFloodWaitAttempts retryAfter _ => retryAfter = fallbackFloodWaitSeconds
  | .polling _, .resolveSendAttempt .. | .polling _, .claimTransfer .. => true
  | .polling listed, .queueAfterReconciliation id _ => listed.contains id
  | .publishing job lease, .renewTransfer id l _ | .publishing job lease, .enterCommitting id l _
  | .publishing job lease, .beginSendAttempt id l ..
  | .publishing job lease, .finishSendAttempt id l ..
  | .publishing job lease, .markSendAttemptUnknown id l ..
  | .publishing job lease, .commitTransferManifest id l ..
  | .publishing job lease, .finishPartJob id l _
  | .publishing job lease, .transferFailed id l .. => id = job && l = lease
  | .publishing job _, .rejectTransferForQuota id .. => id = job
  | .rejected job lease order attempt e false, .markSendAttemptRetryable id l n a kind text _ =>
    id = job && l = lease && n = order && a = attempt && kind = "telegram_flood_wait" &&
      text = e.text
  | .rejected job lease _ _ e true, .transferFailed id l retryAfter _ _ =>
    id = job && l = lease && retryAfter = some e.delay
  | _, _ => false

def next (s : MetadataStore) : LoopPhase → StoreOp → LoopPhase
  | _, .claimTransfer now lease =>
    match (s.claimTransfer now lease).1 with
    | some j => .publishing j.id lease
    | none => .polling []
  | _, .transferFailed .. => .polling []
  | .rejected job lease order attempt e _, .markSendAttemptRetryable .. =>
    .rejected job lease order attempt e true
  | p, _ => p

def inHand : LoopPhase → Option Uuid
  | .rejected job .. => some job
  | _ => none

end LoopPhase

def StoreOp.worker : StoreOp → Bool
  | .claimTransfer .. | .renewTransfer .. | .enterCommitting .. | .transferFailed ..
  | .beginSendAttempt .. | .finishSendAttempt .. | .markSendAttemptUnknown ..
  | .markSendAttemptRetryable .. | .resolveSendAttempt .. | .reclassifyFloodWaitAttempts ..
  | .queueAfterReconciliation .. | .commitTransferManifest .. | .finishPartJob ..
  | .rejectTransferForQuota .. => true
  | _ => false

def ConnectionAction.worker : ConnectionAction → Bool
  | .call op => op.worker
  | _ => false

def StoreOp.time : StoreOp → Option Int
  | .claimTransfer now _ | .beginSendAttempt _ _ _ _ now | .transferFailed _ _ _ _ now
  | .reclassifyFloodWaitAttempts _ now | .queueAfterReconciliation _ now => some now
  | _ => none

/-- `waits` holds the job and end of every FLOOD_WAIT so far, `parked` the jobs failed for good. -/
structure LoopWorld where
  store : MetadataStore
  clock : Int
  phase : LoopPhase := .polling []
  issued : List Uuid := []
  waits : List (Uuid × Int) := []
  parked : List Uuid := []

inductive LoopAction where
  | call (a : ConnectionAction)
  | work (op : StoreOp)
  | list (job : Uuid)
  | reject (order : Nat) (attempt : Uuid) (e : SendError) (now : Int)
  | restart

def MetadataStore.recovering (s : MetadataStore) (job : Uuid) : Bool :=
  (s.transferJobs.get? job).any fun j => j.state = .recoveryRequired

def StoreOp.parks (s : MetadataStore) : StoreOp → List Uuid
  | .transferFailed id lease none _ _ =>
    if s.transferJobs.any (leasedJob id lease) && !s.ambiguousSend id then [id] else []
  | _ => []

namespace LoopWorld

def become (w : LoopWorld) (s : MetadataStore) : LoopWorld :=
  { w with store := s, parked := w.parked.filter s.recovering }

end LoopWorld

def LoopAction.apply (fromStr : String → Option ETagCondition) (a : LoopAction) (w : LoopWorld) :
    Option LoopWorld :=
  match a with
  | .call a =>
    if a.worker || a.draws.any w.issued.contains then none
    else (a.apply fromStr w.store).map fun s => { w.become s with issued := a.draws ++ w.issued }
  | .work op =>
    if w.phase.allows op && op.time.all (w.clock ≤ ·) then
      some { { w with parked := op.parks w.store ++ w.parked }.become
          ((op.apply fromStr w.store).getD w.store) with
        clock := op.time.getD w.clock, phase := w.phase.next w.store op }
    else none
  | .list job =>
    match w.phase with
    | .polling listed =>
      if w.store.sendAttempts.any fun a => a.jobId = job && a.state = .unknown then
        some { w with phase := .polling (job :: listed) }
      else none
    | _ => none
  | .reject order attempt e now =>
    match w.phase with
    | .publishing job lease =>
      if isExplicitFloodWait e && w.clock ≤ now && (w.store.sendAttempts.get?
          (job, order, attempt)).any fun a => a.state = .sending then
        some { w with
          clock := now, phase := .rejected job lease order attempt e false
          waits := (parseFloodWaitSeconds e.text).toList.map
            (fun n : Nat => (job, now + (n : Int))) ++ w.waits }
      else none
    | _ => none
  | .restart => some { w with phase := .polling [] }

def LoopStep (fromStr : String → Option ETagCondition) (a : LoopAction) (w w' : LoopWorld) :
    Prop :=
  a.apply fromStr w = some w'

namespace LoopStep
variable {w w' : LoopWorld} {fromStr : String → Option ETagCondition}

theorem call (h : LoopStep fromStr (.call a) w w') :
    a.worker = false ∧ (∀ job ∈ w.issued, job ∉ a.draws) ∧
      ∃ s', ConnectionStep fromStr a w.store s' ∧
        w' = { w.become s' with issued := a.draws ++ w.issued } := by
  simp only [LoopStep, LoopAction.apply] at h
  split at h
  · cases h
  · rename_i hc
    obtain ⟨s', hs, rfl⟩ := Option.map_eq_some_iff.1 h
    simp only [Bool.or_eq_true, not_or, Bool.not_eq_true] at hc
    refine ⟨hc.1, fun job hi hm => ?_, s', hs, rfl⟩
    exact List.any_eq_false.1 hc.2 job hm (List.contains_iff_mem.2 hi)

theorem work (h : LoopStep fromStr (.work op) w w') :
    w.phase.allows op = true ∧ w.clock ≤ op.time.getD w.clock ∧
      w' = { { w with parked := op.parks w.store ++ w.parked }.become
          ((op.apply fromStr w.store).getD w.store) with
        clock := op.time.getD w.clock, phase := w.phase.next w.store op } := by
  simp only [LoopStep, LoopAction.apply] at h
  split at h
  · rename_i hc
    cases h
    rw [Bool.and_eq_true] at hc
    refine ⟨hc.1, ?_, rfl⟩
    cases ht : op.time with
    | none => exact le_rfl
    | some now =>
      rw [ht] at hc
      exact of_decide_eq_true hc.2
  · cases h

theorem list (h : LoopStep fromStr (.list job) w w') : ∃ listed, w.phase = .polling listed ∧
      w.store.sendAttempts.any (fun a => a.jobId = job && a.state = .unknown) = true ∧
        w' = { w with phase := .polling (job :: listed) } := by
  simp only [LoopStep, LoopAction.apply] at h
  split at h
  · rename_i listed hp
    split at h
    · rename_i ha
      cases h
      exact ⟨listed, hp, ha, rfl⟩
    · cases h
  · cases h

theorem reject (h : LoopStep fromStr (.reject order attempt e now) w w') :
    ∃ job lease a, w.phase = .publishing job lease ∧ w.clock ≤ now ∧
      w.store.sendAttempts.get? (job, order, attempt) = some a ∧ a.state = .sending ∧ w' = { w with
          clock := now, phase := .rejected job lease order attempt e false
          waits := (parseFloodWaitSeconds e.text).toList.map
            (fun n : Nat => (job, now + (n : Int))) ++ w.waits } := by
  simp only [LoopStep, LoopAction.apply] at h
  split at h
  · rename_i job lease hp
    split at h
    · rename_i hc
      cases h
      simp only [Bool.and_eq_true, decide_eq_true_eq, Option.any_eq_true] at hc
      obtain ⟨⟨-, hnow⟩, a, ha, hst⟩ := hc
      exact ⟨job, lease, a, hp, hnow, ha, hst, rfl⟩
    · cases h
  · cases h

end LoopStep

structure LoopWorld.Initial (w : LoopWorld) : Prop where
  jobs : w.store.transferJobs = ∅
  attempts : w.store.sendAttempts = ∅
  phase : w.phase = .polling []
  waits : w.waits = []
  parked : w.parked = []

namespace MetadataStore

theorem floodWaiting_eq_true {s : MetadataStore} {job : Uuid} :
    s.floodWaiting job = true ↔ ∃ k a, k.1 = job ∧ s.sendAttempts.get? k = some a ∧
      a.state = .retryable ∧ a.errorKind = some "telegram_flood_wait" := by
  simp only [floodWaiting, any_eq_true, Bool.and_eq_true, decide_eq_true_eq]
  constructor
  · rintro ⟨a, ha, ⟨hj, hst⟩, he⟩
    exact ⟨Keyed.key a, a, hj, mem_iff_get?.1 ha, hst, he⟩
  · rintro ⟨k, a, rfl, ha, hst, he⟩
    exact ⟨a, mem_of_get? ha, ⟨(Prod.mk.inj (key_of_get? ha)).1, hst⟩, he⟩

end MetadataStore

theorem StoreOp.floodWaiting_kept {job : Uuid} (h : StoreStep fromStr op s s')
    (hf : s.floodWaiting job = true) : s'.floodWaiting job = true := by
  obtain ⟨k, a, hk, ha, hst, he⟩ := floodWaiting_eq_true.1 hf
  have hstep := StoreOp.attempt_step h k
  rw [ha] at hstep
  generalize ho : s'.sendAttempts.get? k = o at hstep
  cases hstep with
  | same => exact floodWaiting_eq_true.2 ⟨k, a, hk, ho, hst, he⟩
  | update hopen =>
    rw [hst] at hopen
    rcases hopen with hopen | hopen <;> cases hopen

theorem ConnectionStep.attempts_kept (h : ConnectionStep fromStr a s s')
    (ha : a.worker = false) (hj : s'.transferJobs.get? k.1 = some j') :
    s'.sendAttempts.get? k = s.sendAttempts.get? k := by
  cases a with
  | call op =>
    have hf : s'.sendAttempts = s.sendAttempts := by
      cases op with
      | claimTransfer | beginSendAttempt | finishSendAttempt | markSendAttemptUnknown
      | markSendAttemptRetryable | resolveSendAttempt | reclassifyFloodWaitAttempts => cases ha
      | _ => exact StoreOp.frame (StoreOp.serve_eq_some h).1 .attempts rfl
    rw [hf]
  | purgeConnectionOperations connectionId =>
    cases h
    have hid : j'.id = k.1 := key_of_get? hj
    rw [purge_attempts, ← hid, (purge_jobs (mem_of_get? hj)).2]
    rfl
  | deleteTelegramAccount id =>
    obtain rfl := deleteTelegramAccount_ok (after_eq_some.1 h)
    rfl
  | setTelegramBootstrapSettings | clearTelegramBootstrapSettings | clearActiveConnectionId
  | finishConnectionRemoval =>
    cases h
    rfl

theorem ConnectionStep.job_rel
    (h : ConnectionStep fromStr a s s') (hl : ∀ op, a = .call op → JobLaw s op R)
    (hr : ∀ j c, R j { j with connectionId := c }) (hj : s'.transferJobs.get? job = some j')
    (hd : job ∉ a.draws) : ∃ j, s.transferJobs.get? job = some j ∧ R j j' := by
  rcases h.cases with ⟨op, rfl, hs, -⟩ | hrel
  · rcases StoreOp.job_origin hs (hl op rfl) hj with h | ⟨bucket, key, now, rfl, -, -⟩
    · exact h
    · exact absurd (List.mem_singleton_self _) hd
  · obtain ⟨j, hm, he⟩ := hrel.jobs j' (mem_of_get? hj)
    rcases he with rfl | he
    · exact ⟨j', get?_eq_some.2 ⟨hm, key_of_get? hj⟩, hr j' j'.connectionId⟩
    · have hid : j.id = job := by
        rw [← show j'.id = job from key_of_get? hj, he]
      refine ⟨j, get?_eq_some.2 ⟨hm, hid⟩, ?_⟩
      rw [he]
      exact hr j _

end TelegramS3
