import TelegramS3.TransferLoop

namespace TelegramS3
open Relational Table Fallible Transition MetadataStore TransferState
set_option autoImplicit true

theorem JobDropped.of_same (h : JobDropped s j' op) (hid : j'.id = j.id)
    (hc : (j'.bucket, j'.key, j'.sequence, j'.connectionId) =
      (j.bucket, j.key, j.sequence, j.connectionId)) (hst : j'.state = j.state) :
    JobDropped s j op := by
  simp only [Prod.mk.injEq] at hc
  obtain ⟨hb, hk, hq, hn⟩ := hc
  cases h with
  | closed h => exact .closed (hid ▸ h)
  | outdated h =>
    rw [hb, hk, hq] at h
    exact .outdated h
  | cancelled h =>
    rw [hst] at h
    rw [hid]
    exact .cancelled h
  | deleted =>
    rw [hb, hk]
    exact .deleted
  | aborted h => exact .aborted (hid ▸ h)
  | completion h hne =>
    rw [hid] at h hne
    exact .completion h hne
  | duplicate hm hne h =>
    refine .duplicate hm hne ?_
    rw [supersededBy, hid, hst] at h
    exact h
  | removed h => exact .removed (hn ▸ h)

/-- The job waits for the operator, and no attempt of it says otherwise. -/
structure MetadataStore.Parked (s : MetadataStore) (job : Uuid) : Prop where
  recovering : s.recovering job = true
  resolved : s.ambiguousSend job = false
  unpaused : s.floodWaiting job = false

namespace MetadataStore
variable {s s' : MetadataStore} {job : Uuid}

theorem recovering_eq_true : s.recovering job = true ↔
    ∃ j, s.transferJobs.get? job = some j ∧ j.state = .recoveryRequired := by
  simp [MetadataStore.recovering, Option.any_eq_true]

theorem ambiguousSend_get? : s.ambiguousSend job = true ↔ ∃ k a, k.1 = job ∧
    s.sendAttempts.get? k = some a ∧ (a.state = .sending ∨ a.state = .unknown) := by
  simp only [ambiguousSend, hasAttempt, any_eq_true, Bool.and_eq_true, Bool.or_eq_true,
    decide_eq_true_eq]
  constructor
  · rintro ⟨a, ha, hj, hst⟩
    exact ⟨Keyed.key a, a, hj, mem_iff_get?.1 ha, hst⟩
  · rintro ⟨k, a, rfl, ha, hst⟩
    exact ⟨a, mem_of_get? ha, (Prod.mk.inj (key_of_get? ha)).1, hst⟩

theorem Parked.of_attempts (h : s.Parked job) (hr : s'.recovering job = true)
    (ha : ∀ k, k.1 = job → s'.sendAttempts.get? k = s.sendAttempts.get? k) : s'.Parked job := by
  refine ⟨hr, ?_, ?_⟩
  · rw [Bool.eq_false_iff, Ne, ambiguousSend_get?]
    rintro ⟨k, a, hk, hg, hst⟩
    rw [ha k hk] at hg
    have hamb := ambiguousSend_get?.2 ⟨k, a, hk, hg, hst⟩
    rw [h.resolved] at hamb
    cases hamb
  · rw [Bool.eq_false_iff, Ne, floodWaiting_eq_true]
    rintro ⟨k, a, hk, hg, hst, he⟩
    rw [ha k hk] at hg
    have hflood := floodWaiting_eq_true.2 ⟨k, a, hk, hg, hst, he⟩
    rw [h.unpaused] at hflood
    cases hflood

theorem Parked.relabel (h : s.Parked job) (now : Int) :
    (s.relabelFloodWaits now).floodWaiting job = false := by
  rw [Bool.eq_false_iff, Ne, floodWaiting_eq_true]
  rintro ⟨k, a', hk, hg, hst, he⟩
  simp only [relabelFloodWaits, get?_modify, Option.map_eq_some_iff] at hg
  obtain ⟨a, ha, hupd⟩ := hg
  split at hupd
  · rename_i hu
    simp only [Bool.and_eq_true, decide_eq_true_eq] at hu
    have hamb := ambiguousSend_get?.2 ⟨k, a, hk, ha, .inr hu.1⟩
    rw [h.resolved] at hamb
    cases hamb
  · subst hupd
    have hflood := floodWaiting_eq_true.2 ⟨k, a, hk, ha, hst, he⟩
    rw [h.unpaused] at hflood
    cases hflood

end MetadataStore

def TransferJob.FreedBy (j : TransferJob) (s : MetadataStore) (op : StoreOp) : Prop :=
  JobDropped s j op ∨ ∃ now, op = .transferAction j.id "retry" now

theorem JobUpdate.parked (h : JobUpdate s op j j')
    (ho : ∀ j ∈ s.transferJobs, j.OneId) (hp : s.Parked j.id)
    (hq : ∀ now, op ≠ .queueAfterReconciliation j.id now) (hst : j.state = .recoveryRequired) :
    j'.state = .recoveryRequired ∨ j.FreedBy s op := by
  have hl : j.state.leased ≠ true := by
    rw [hst]
    exact fun h => nomatch h
  cases h with
  | touch | reserve | conditionals | pause => exact .inl hst
  | queue _ _ _ h | failReception _ h | expire _ h | commit h | completePart h =>
    rw [hst] at h
    cases h
  | reject h | retain _ h => exact absurd h hl
  | fail _ _ h => exact absurd (Bool.and_eq_true_iff.1 h).2 hl
  | drop _ _ _ _ h => exact .inr (.inl h)
  | claim h =>
    simp only [claimable, hst, Bool.and_eq_true, Bool.or_eq_true, decide_eq_true_eq] at h
    rcases h.1.1 with ⟨h | h, -⟩ | ⟨h, -⟩ <;> cases h
  | retry => exact .inr (.inr ⟨_, rfl⟩)
  | clean h =>
    rw [hst] at h
    cases h
  | resume _ _ _ _ h =>
    rw [hp.relabel] at h
    cases h
  | requeue => exact absurd rfl (hq _)
  | complete _ hm _ hop h =>
    obtain ⟨i, hi, hio, hil⟩ := h
    have hid : i.id = j.id := ((ho i hi).operation _ hio).symm.trans ((ho j hm).operation _ hop)
    rw [eq_of_key_eq hi hm hid] at hil
    exact absurd hil hl

theorem parked_law (ho : ∀ j ∈ s.transferJobs, j.OneId)
    (hp : s.Parked job) (hq : ∀ now, op ≠ .queueAfterReconciliation job now) :
    JobLaw s op fun j j' => j'.id = j.id ∧ (j'.bucket, j'.key, j'.sequence, j'.connectionId) =
        (j.bucket, j.key, j.sequence, j.connectionId) ∧
      (j.id = job → j.state = .recoveryRequired →
        j'.state = .recoveryRequired ∨ j.FreedBy s op) where
  refl _ := ⟨rfl, rfl, fun _ hst => .inl hst⟩
  trans a b c hab hbc := by
    obtain ⟨hid, hcol, hb⟩ := hab
    refine ⟨hbc.1.trans hid, hbc.2.1.trans hcol, fun hj hst => ?_⟩
    rcases hb hj hst with hstb | hf
    · refine (hbc.2.2 (hid.trans hj) hstb).imp_right fun hf => ?_
      refine hf.imp (fun hd => hd.of_same hid hcol (hstb.trans hst.symm)) fun hr => ?_
      rw [hid] at hr
      exact hr
    · exact .inr hf
  id _ _ h := h.1
  update j j' h := by
    refine ⟨h.id, by cases h <;> rfl, ?_⟩
    rintro rfl hst
    exact h.parked ho hp hq hst

namespace StoreOp
variable {op : StoreOp} {job : Uuid}

theorem parked_kept (h : StoreStep fromStr op s s') (ho : ∀ j ∈ s.transferJobs, j.OneId)
    (hp : s.Parked job) (hq : ∀ now, op ≠ .queueAfterReconciliation job now)
    (hj : s.transferJobs.get? job = some j) (hst : j.state = .recoveryRequired) :
    s'.recovering job = true ∨ j.FreedBy s op := by
  obtain ⟨j', hj', -, -, hstep⟩ := job_kept h (parked_law ho hp hq) hj
  refine (hstep (key_of_get? hj) hst).imp_left fun hst' => ?_
  exact recovering_eq_true.2 ⟨j', hj', hst'⟩

theorem parked_attempts (h : StoreStep fromStr op s s') (hp : s.Parked job) (k : SendKey)
    (hk : k.1 = job) : s'.sendAttempts.get? k = s.sendAttempts.get? k := by
  have hstep := attempt_step h k
  generalize ho : s.sendAttempts.get? k = o at hstep
  generalize s'.sendAttempts.get? k = o' at hstep ⊢
  cases hstep with
  | same => rfl
  | update hopen =>
    have hamb := ambiguousSend_get?.2 ⟨k, _, hk, ho, hopen⟩
    rw [hp.resolved] at hamb
    cases hamb
  | launch hl =>
    obtain ⟨j, hj, hst⟩ := recovering_eq_true.1 hp.recovering
    obtain ⟨i, hi, hl⟩ := any_eq_true.1 hl
    simp only [leasedJob, Bool.and_eq_true, decide_eq_true_eq] at hl
    have hg : s.transferJobs.get? job = some i := get?_eq_some.2 ⟨hi, hl.1.1.trans hk⟩
    cases hj.symm.trans hg
    rw [hst] at hl
    cases hl.2

end StoreOp

/-- What takes a failed job out of recovery: operator, deletion, session end, newer write, removal.
-/
def LoopAction.Frees (s : MetadataStore) (j : TransferJob) : LoopAction → Prop
  | .call (.call op) | .work op => j.FreedBy s op
  | .call (.purgeConnectionOperations connectionId) => j.connectionId = connectionId
  | _ => False

def LoopPhase.listed : LoopPhase → List Uuid
  | .polling listed => listed
  | _ => []

structure LoopWorld.Parking (w : LoopWorld) : Prop where
  oneId : ∀ j ∈ w.store.transferJobs, j.OneId
  parked : ∀ job ∈ w.parked, w.store.Parked job
  unlisted : ∀ job ∈ w.parked, job ∉ w.phase.listed

/-- No job fails for good while an attempt of it still shows a FLOOD_WAIT. -/
def LoopAction.Clear (a : LoopAction) (w : LoopWorld) : Prop :=
  ∀ op, a = .work op → ∀ job ∈ op.parks w.store, w.store.floodWaiting job = false

theorem ConnectionStep.parked_kept (h : ConnectionStep fromStr a s s')
    (ha : a.worker = false) (ho : ∀ j ∈ s.transferJobs, j.OneId) (hp : s.Parked job)
    (hj : s.transferJobs.get? job = some j) (hst : j.state = .recoveryRequired) :
    s'.recovering job = true ∨ LoopAction.Frees s j (.call a) := by
  cases a with
  | call op =>
    refine StoreOp.parked_kept (StoreOp.serve_eq_some h).1 ho hp ?_ hj hst
    rintro now rfl
    cases ha
  | purgeConnectionOperations connectionId =>
    cases h
    by_cases hc : j.connectionId = connectionId
    · exact .inr hc
    · refine .inl (recovering_eq_true.2 ⟨j, ?_, hst⟩)
      obtain ⟨hm, hk⟩ := get?_eq_some.1 hj
      exact get?_eq_some.2 ⟨mem_delete.2 ⟨hm, decide_eq_false hc⟩, hk⟩
  | setTelegramBootstrapSettings fresh chat =>
    cases h
    left
    rw [MetadataStore.recovering, setTelegramBootstrapSettings, get?_modify, hj]
    simp only [Option.map_some, Option.any_some, decide_eq_true_eq]
    split
    · exact hst
    · exact hst
  | deleteTelegramAccount id =>
    obtain rfl := deleteTelegramAccount_ok (after_eq_some.1 h)
    exact .inl hp.recovering
  | clearTelegramBootstrapSettings | clearActiveConnectionId | finishConnectionRemoval =>
    cases h
    exact .inl hp.recovering

namespace LoopPhase
variable {p : LoopPhase} {op : StoreOp}

theorem listed_of_next (h : job ∈ (p.next s op).listed) :
    job ∈ p.listed ∧ ∀ id lease retryAfter message now,
      op ≠ .transferFailed id lease retryAfter message now := by
  cases op with
  | claimTransfer now lease =>
    simp only [next] at h
    split at h <;> cases h
  | transferFailed => cases h
  | _ =>
    refine ⟨?_, nofun⟩
    cases p with
    | polling listed => exact h
    | publishing | rejected => cases h

theorem listed_of_requeues (h : p.allows (.queueAfterReconciliation job now) = true) :
    job ∈ p.listed := by
  cases p with
  | polling listed => exact List.contains_iff_mem.1 h
  | publishing => cases h
  | rejected _ _ _ _ _ marked => cases marked <;> cases h

end LoopPhase

theorem StoreOp.parks_eq {op : StoreOp} (h : job ∈ op.parks s) : s.ambiguousSend job = false ∧
    ∃ lease message now, op = .transferFailed job lease none message now := by
  cases op with
  | transferFailed id lease retryAfter message now =>
    cases retryAfter with
    | none =>
      simp only [StoreOp.parks] at h
      split at h
      · rename_i hc
        rw [List.mem_singleton] at h
        subst h
        rw [Bool.and_eq_true, Bool.not_eq_true'] at hc
        exact ⟨hc.2, lease, message, now, rfl⟩
      · cases h
    | some d => cases h
  | _ => cases h

namespace LoopWorld.Parking
variable {w w' : LoopWorld} {fromStr : String → Option ETagCondition}

theorem init (h : LoopWorld.Initial w) : w.Parking := by
  refine ⟨?_, ?_, ?_⟩
  · intro j hj
    rw [h.jobs] at hj
    cases hj
  · intro job hj
    rw [h.parked] at hj
    cases hj
  · intro job hj
    rw [h.parked] at hj
    cases hj

section
variable (h : w.Parking)
include h

theorem released (hs : LoopStep fromStr a w w') (hj : job ∈ w.parked) :
    ∃ j, w.store.transferJobs.get? job = some j ∧ j.state = .recoveryRequired ∧
      (w'.store.recovering job = true ∨ a.Frees w.store j) := by
  have hp := h.parked job hj
  obtain ⟨j, hg, hst⟩ := recovering_eq_true.1 hp.recovering
  refine ⟨j, hg, hst, ?_⟩
  cases a with
  | call a =>
    obtain ⟨ha, -, s', hstep, rfl⟩ := hs.call
    exact ConnectionStep.parked_kept hstep ha h.oneId hp hg hst
  | work op =>
    obtain ⟨ha, -, rfl⟩ := hs.work
    cases he : op.apply fromStr w.store with
    | none => exact .inl hp.recovering
    | some s' =>
      refine StoreOp.parked_kept he h.oneId hp ?_ hg hst
      rintro now rfl
      exact h.unlisted job hj (LoopPhase.listed_of_requeues ha)
  | list id =>
    obtain ⟨listed, -, -, rfl⟩ := hs.list
    exact .inl hp.recovering
  | reject order attempt e now =>
    obtain ⟨id, lease, a, -, -, -, -, rfl⟩ := hs.reject
    exact .inl hp.recovering
  | restart =>
    cases hs
    exact .inl hp.recovering

theorem call (hs : LoopStep fromStr (.call a) w w') : w'.Parking := by
  obtain ⟨ha, -, s', hstep, rfl⟩ := hs.call
  refine ⟨?_, ?_, fun job hj => h.unlisted job (List.mem_filter.1 hj).1⟩
  · rcases hstep.cases with ⟨op, -, hop, -⟩ | hrel
    · exact StoreOp.oneId_step h.oneId hop
    · exact hrel.oneId h.oneId
  · intro job hj
    obtain ⟨hm, hrec⟩ := List.mem_filter.1 hj
    obtain ⟨j', hj', -⟩ := recovering_eq_true.1 hrec
    refine (h.parked job hm).of_attempts hrec ?_
    rintro k rfl
    exact hstep.attempts_kept ha hj'

theorem work (hc : LoopAction.Clear (.work op) w) (hs : LoopStep fromStr (.work op) w w') :
    w'.Parking := by
  obtain ⟨-, -, rfl⟩ := hs.work
  have hattempts : ∀ job ∈ w.parked, ∀ k : SendKey, k.1 = job →
      ((op.apply fromStr w.store).getD w.store).sendAttempts.get? k =
        w.store.sendAttempts.get? k := by
    intro job hj k hk
    cases he : op.apply fromStr w.store with
    | none => rfl
    | some s' => exact StoreOp.parked_attempts he (h.parked job hj) k hk
  refine ⟨?_, ?_, ?_⟩
  · cases he : op.apply fromStr w.store with
    | none => exact h.oneId
    | some s' => exact StoreOp.oneId_step h.oneId he
  · intro job hj
    obtain ⟨hm, hrec⟩ := List.mem_filter.1 hj
    rcases List.mem_append.1 hm with hm | hm
    · have hflood := hc op rfl job hm
      obtain ⟨hamb, lease, message, now, rfl⟩ := StoreOp.parks_eq hm
      exact ⟨hrec, hamb, hflood⟩
    · exact (h.parked job hm).of_attempts hrec (hattempts job hm)
  · intro job hj hl
    obtain ⟨hl, hop⟩ := LoopPhase.listed_of_next hl
    rcases List.mem_append.1 (List.mem_filter.1 hj).1 with hm | hm
    · obtain ⟨-, lease, message, now, rfl⟩ := StoreOp.parks_eq hm
      exact hop _ _ _ _ _ rfl
    · exact h.unlisted job hm hl

theorem list (hs : LoopStep fromStr (.list i) w w') : w'.Parking := by
  obtain ⟨listed, hp, ha, rfl⟩ := hs.list
  refine ⟨h.oneId, h.parked, fun job hj hl => ?_⟩
  rcases List.mem_cons.1 hl with rfl | hl
  · obtain ⟨a, ha, hc⟩ := any_eq_true.1 ha
    simp only [Bool.and_eq_true, decide_eq_true_eq] at hc
    have hamb := ambiguousSend_get?.2 ⟨_, a, hc.1, mem_iff_get?.1 ha, .inr hc.2⟩
    rw [(h.parked _ hj).resolved] at hamb
    cases hamb
  · refine h.unlisted job hj ?_
    rw [hp]
    exact hl

theorem step (hc : a.Clear w) (hs : LoopStep fromStr a w w') : w'.Parking := by
  cases a with
  | call a => exact h.call hs
  | work op => exact h.work hc hs
  | list id => exact h.list hs
  | reject order attempt e now =>
    obtain ⟨id, lease, a, -, -, -, -, rfl⟩ := hs.reject
    exact ⟨h.oneId, h.parked, fun _ _ hl => nomatch hl⟩
  | restart =>
    cases hs
    exact ⟨h.oneId, h.parked, fun _ _ hl => nomatch hl⟩

end

end LoopWorld.Parking

/-- A job that failed for good leaves recovery only by what may free it. -/
def FailuresWait (fromStr : String → Option ETagCondition)
    (Step : LoopAction → LoopWorld → LoopWorld → Prop) : Prop :=
  ∀ past w, Run LoopWorld.Initial Step past w → ∀ a w', LoopStep fromStr a w w' →
    ∀ job ∈ w.parked, ∃ j, w.store.transferJobs.get? job = some j ∧
      j.state = .recoveryRequired ∧ (w'.store.recovering job = true ∨ a.Frees w.store j)

theorem failures_wait (fromStr : String → Option ETagCondition) :
    FailuresWait fromStr (Guarded (LoopStep fromStr) LoopAction.Clear) := by
  intro past w hr a w' hs job hj
  have h : w.Parking := Run.invariant (fun _ => .init) (fun _ _ _ h hs => h.step hs.2 hs.1) hr
  exact h.released hs hj

def shortPause : SendError := { rpc := some "FLOOD_WAIT_5", text := "FLOOD_WAIT_5" }

/-- A send that had to pause is claimed again, and then its staged chunk fails its checksum. -/
def failedAfterPause : List LoopAction :=
  [.call (.call (.beginTransfer ⟨1⟩ "photos" "a" 0)), .call (.call (.queueTransfer ⟨1⟩ 1 0)),
    .work (.claimTransfer 0 ⟨11⟩), .work (.beginSendAttempt ⟨1⟩ ⟨11⟩ 0 ⟨21⟩ 0),
    .reject 0 ⟨21⟩ shortPause 1,
    .work (.markSendAttemptRetryable ⟨1⟩ ⟨11⟩ 0 ⟨21⟩ "telegram_flood_wait" shortPause.text 1),
    .work (.transferFailed ⟨1⟩ ⟨11⟩ (some 5)
      "Telegram requested a rate-limit pause; the transfer will resume automatically." 1),
    .work (.claimTransfer 6 ⟨12⟩),
    .work (.transferFailed ⟨1⟩ ⟨12⟩ none
      ("Transfer needs recovery: validate staged files and checksums, " ++
        "then retry or upload the source again.") 7)]

def failedAfterPauseRun : List LoopWorld × LoopWorld :=
  (exec (LoopAction.apply fun _ => none) [] { store := photosStore, clock := 0 }
    failedAfterPause).get (by decide +kernel)

theorem old_pause_reschedules_failure :
    ¬ FailuresWait (fun _ => none) (LoopStep fun _ => none) := by
  intro h
  have hr : Run LoopWorld.Initial (LoopStep fun _ => none) failedAfterPauseRun.1
      failedAfterPauseRun.2 := Run.of_exec_isSome ⟨rfl, rfl, rfl, rfl, rfl⟩ (by decide +kernel)
  have hj : ⟨1⟩ ∈ failedAfterPauseRun.2.parked := by decide +kernel
  have hs : (LoopAction.apply (fun _ => none) (.work (.reclassifyFloodWaitAttempts 60 8))
      failedAfterPauseRun.2).any (fun w => !w.store.recovering ⟨1⟩) = true := by
    decide +kernel
  obtain ⟨w', hs, hw⟩ := (Option.any_eq_true _ _).1 hs
  obtain ⟨j, -, -, hrec | hf⟩ := h _ _ hr _ w' hs ⟨1⟩ hj
  · rw [hrec] at hw
    cases hw
  · rcases hf with hd | ⟨now, hop⟩
    · cases hd
    · cases hop

end TelegramS3
