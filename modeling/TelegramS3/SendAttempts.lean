import TelegramS3.Transfers

namespace TelegramS3
open Relational Table Fallible
set_option autoImplicit true

namespace MetadataStore
variable (s : MetadataStore)

def holdsLease (id lease : Uuid) (now : Int) : Bool :=
  s.transferJobs.any fun j => leasedJob id lease j && now ≤ j.leaseUntil

def updateAttempt (id : Uuid) (order : Nat) (attempt : Uuid)
    (state : AttemptState) (f : SendAttemptRow → SendAttemptRow) (message : String)
    (hf : ∀ r, Keyed.key (f r) = Keyed.key r := by intros; exact (show _ from rfl)) :
    Except MetadataError MetadataStore :=
  let p (a : SendAttemptRow) : Bool :=
    a.jobId = id && a.chunkOrder = order && a.attemptId = attempt && a.state = state
  if s.sendAttempts.any p then .ok { s with sendAttempts := s.sendAttempts.modify p f hf }
  else .error (.invalidManifest message)

section
variable {s s' : MetadataStore} {job attempt : Uuid} {hf}
  (h : s.updateAttempt job order attempt state f message hf = .ok s')
include h

theorem updateAttempt_ok : s' = { s with
      sendAttempts := s.sendAttempts.modify
        (fun a => a.jobId = job && a.chunkOrder = order && a.attemptId = attempt &&
          a.state = state) f hf } ∧
      s.sendAttempts.any (fun a => a.jobId = job && a.chunkOrder = order &&
        a.attemptId = attempt && a.state = state) = true := by
  unfold updateAttempt at h
  dsimp only at h
  split at h
  · rename_i ha
    cases h
    exact ⟨rfl, ha⟩
  · cases h

theorem updateAttempt_get? :
    ∃ a, s.sendAttempts.get? (job, order, attempt) = some a ∧ a.state = state ∧
      (∀ i, s'.sendAttempts.get? i =
        if i = (job, order, attempt) then some (f a) else s.sendAttempts.get? i) ∧
      s' = { s with sendAttempts := s'.sendAttempts } := by
  obtain ⟨rfl, hany⟩ := updateAttempt_ok h
  obtain ⟨a, ha, hp⟩ := any_eq_true.1 hany
  have hpa := hp
  simp only [Bool.and_eq_true, decide_eq_true_eq] at hp
  obtain ⟨⟨⟨rfl, rfl⟩, rfl⟩, rfl⟩ := hp
  refine ⟨a, mem_iff_get?.1 ha, rfl, ?_, rfl⟩
  intro i
  rw [get?_modify]
  split
  · rename_i hi
    subst hi
    rw [show s.sendAttempts.get? (a.jobId, a.chunkOrder, a.attemptId) = some a from
      mem_iff_get?.1 ha]
    simp
  · rename_i hi
    apply map_update_of_not
    intro r hr
    have hk := key_of_get? hr
    by_contra hn
    simp only [Bool.not_eq_false, Bool.and_eq_true, decide_eq_true_eq] at hn
    apply hi
    rw [← hk, ← hn.1.1.1, ← hn.1.1.2, ← hn.1.2]
    rfl

end

def beginSendAttempt (id lease : Uuid) (order : Nat) (attempt : Uuid)
    (now : Int) : Except MetadataError MetadataStore :=
  if !s.holdsLease id lease now then .error (.invalidManifest "transfer lease lost")
  else if s.sendAttempts.contains (id, order, attempt) then
    .error (.sqlite "UNIQUE constraint failed: transfer_send_attempts")
  else
    .ok { s with
      sendAttempts := s.sendAttempts.insertOrIgnore
        { jobId := id, chunkOrder := order, attemptId := attempt
          attemptToken := "telegram-s3-" ++ id.text ++ "-" ++ toString order ++ "-" ++ attempt.text
          state := .sending, startedAt := now } }

theorem beginSendAttempt_ok {s s' : MetadataStore}
    (h : s.beginSendAttempt job lease order attempt now = .ok s') :
    s.holdsLease job lease now = true ∧ s.sendAttempts.get? (job, order, attempt) = none ∧
      s' = { s with
        sendAttempts := s.sendAttempts.insertOrIgnore
          { jobId := job, chunkOrder := order, attemptId := attempt
            attemptToken :=
              "telegram-s3-" ++ job.text ++ "-" ++ toString order ++ "-" ++ attempt.text
            state := .sending, startedAt := now } } := by
  unfold beginSendAttempt at h
  split at h
  · cases h
  · rename_i hl
    split at h
    · cases h
    · rename_i hc
      cases h
      exact ⟨by simpa using hl, by simpa [Table.contains] using hc, rfl⟩

def manifestOrder : Nat := 2 ^ 32 - 1

def checkpoint (id : Uuid) (order : Nat) (location : TelegramLocation) :
    MetadataStore :=
  { s with transferChunks := s.transferChunks.upsert { jobId := id, chunkOrder := order, location } }

def countChunks (id : Uuid) (now : Int) : MetadataStore :=
  { s with
    transferJobs := s.transferJobs.modify (fun j => j.id = id) fun j =>
      { j with
        chunksDone := (s.transferChunks.select fun c =>
          c.jobId = id && c.chunkOrder < manifestOrder).length
        updatedAt := now } }

def SendAttemptRow.checkpointed (location : TelegramLocation) (now : Int) (a : SendAttemptRow) :
    SendAttemptRow :=
  { a with
    state := .checkpointed, location := some location, finishedAt := some now
    errorKind := none, error := none, retryable := false }

def finishSendAttempt (id lease : Uuid) (order : Nat) (attempt : Uuid)
    (location : TelegramLocation) (now : Int) : Except MetadataError MetadataStore := do
  ensure (s.holdsLease id lease now) (.invalidManifest "transfer lease lost")
  let s ← s.updateAttempt id order attempt .sending (SendAttemptRow.checkpointed location now)
    "send attempt fence lost"
  return (s.checkpoint id order location).countChunks id now

theorem finishSendAttempt_ok {s s' : MetadataStore}
    (h : s.finishSendAttempt job lease order attempt location now = .ok s') :
    s.holdsLease job lease now = true ∧
      ∃ s₁, s.updateAttempt job order attempt .sending (SendAttemptRow.checkpointed location now)
          "send attempt fence lost" = .ok s₁ ∧
        s' = (s₁.checkpoint job order location).countChunks job now := by
  unfold finishSendAttempt at h
  obtain ⟨_, hl, h⟩ := bind_ok.1 h
  obtain ⟨s₁, hs, h⟩ := bind_ok.1 h
  exact ⟨ensure_ok.1 hl, s₁, hs, (pure_ok.1 h).symm⟩

def markSendAttempt (id lease : Uuid) (order : Nat) (attempt : Uuid)
    (state : AttemptState) (retryable : Bool) (errorKind error message : String) (now : Int) :
    Except MetadataError MetadataStore :=
  if !s.transferJobs.any (leasedJob id lease) then .error (.invalidManifest message)
  else
    s.updateAttempt id order attempt .sending
      (fun a =>
        { a with
          state, errorKind := some errorKind, error := some error, finishedAt := some now
          retryable })
      message

theorem markSendAttempt_ok {s s' : MetadataStore}
    (h : s.markSendAttempt job lease order attempt state retryable errorKind error message now =
      .ok s') :
    ∃ t, s' = { s with sendAttempts := t } := by
  unfold markSendAttempt at h
  split at h
  · cases h
  · obtain ⟨rfl, -⟩ := updateAttempt_ok h
    exact ⟨_, rfl⟩

def markSendAttemptUnknown (id lease : Uuid) (order : Nat) (attempt : Uuid)
    (errorKind error : String) (now : Int) : Except MetadataError MetadataStore :=
  s.markSendAttempt id lease order attempt .unknown false errorKind error
    "send attempt could not be marked unknown" now

def markSendAttemptRetryable (id lease : Uuid) (order : Nat) (attempt : Uuid)
    (errorKind error : String) (now : Int) : Except MetadataError MetadataStore :=
  s.markSendAttempt id lease order attempt .retryable true errorKind error
    "send attempt could not be marked retryable" now

def SendAttemptRow.resolved (location : Option TelegramLocation) (error : Option String) (now : Int)
    (a : SendAttemptRow) : SendAttemptRow :=
  { a with
    state := if location.isSome then .checkpointed else .retryable
    location := location.or a.location
    errorKind := if location.isSome then none else some "reconciliation_absent"
    error, finishedAt := some now, retryable := location.isNone }

def checkpointFound (id : Uuid) (order : Nat) :
    Option TelegramLocation → MetadataStore
  | none => s
  | some location => s.checkpoint id order location

def resolveSendAttempt (id : Uuid) (order : Nat) (attempt : Uuid)
    (location : Option TelegramLocation) (error : Option String) (now : Int) :
    Except MetadataError MetadataStore := do
  let s ← s.updateAttempt id order attempt .unknown (SendAttemptRow.resolved location error now)
    "send attempt resolution fence lost"
  return (s.checkpointFound id order location).countChunks id now

theorem resolveSendAttempt_ok {s s' : MetadataStore}
    (h : s.resolveSendAttempt job order attempt location error now = .ok s') :
    ∃ s₁, s.updateAttempt job order attempt .unknown (SendAttemptRow.resolved location error now)
        "send attempt resolution fence lost" = .ok s₁ ∧
      s' = (s₁.checkpointFound job order location).countChunks job now := by
  unfold resolveSendAttempt at h
  obtain ⟨s₁, hs, h⟩ := bind_ok.1 h
  exact ⟨s₁, hs, (pure_ok.1 h).symm⟩

def asciiUpper (c : Char) : Char :=
  if 'a' ≤ c ∧ c ≤ 'z' then Char.ofNat (c.toNat - 32) else c

/-- `UPPER(COALESCE(error,'')) LIKE '%FLOOD_WAIT%'`; `LIKE` lets the underscore match anything. -/
def mentionsFloodWait (error : Option String) : Bool :=
  let text := ((error.getD "").toList).map asciiUpper
  text.tails.any fun t =>
    t.take 5 = "FLOOD".toList && (t.drop 6).take 4 = "WAIT".toList

def floodWaiting (id : Uuid) : Bool :=
  s.sendAttempts.any fun a =>
    a.jobId = id && a.state = .retryable && a.errorKind = some "telegram_flood_wait"

def relabelFloodWaits (now : Int) : MetadataStore :=
  { s with
    sendAttempts := s.sendAttempts.modify
      (fun a => a.state = .unknown && mentionsFloodWait a.error)
      fun a =>
        { a with
          state := .retryable, errorKind := some "telegram_flood_wait"
          finishedAt := some (a.finishedAt.getD now), retryable := true } }

def pauseFloodWaits (retryAt now : Int) : MetadataStore :=
  { s with
    transferJobs := s.transferJobs.modify
      (fun j => j.state = .recoveryRequired && s.floodWaiting j.id)
      fun j => { j with nextRetry := max j.nextRetry retryAt, updatedAt := now } }

def resumeFloodWaits (retryAt now : Int) : MetadataStore :=
  { s with
    transferJobs := s.transferJobs.modify
      (fun j => j.state = .recoveryRequired && !s.ambiguousSend j.id && s.floodWaiting j.id)
      fun j =>
        { j with
          state := .retryWait, error := some "Telegram rate limit detected; retry scheduled"
          nextRetry := max j.nextRetry retryAt, lease := none, leaseUntil := 0
          updatedAt := now } }

def reclassifyFloodWaitAttempts (retryAfter : Nat) (now : Int) :
    MetadataStore :=
  let retryAt : Int := now + (max retryAfter 1 : Nat)
  ((s.relabelFloodWaits now).pauseFloodWaits retryAt now).resumeFloodWaits retryAt now

def queueAfterReconciliation (id : Uuid) (now : Int) : MetadataStore :=
  let paused (j : TransferJob) : Bool := s.floodWaiting j.id && now < j.nextRetry
  { s with
    transferJobs := s.transferJobs.modify
      (fun j => j.id = id && j.state = .recoveryRequired && !s.ambiguousSend id)
      fun j =>
        { j with
          state := if paused j then .retryWait else .queued
          error := some (if paused j then "Telegram rate limit detected; retry scheduled"
            else "Automatic reconciliation completed; retry scheduled")
          nextRetry := if paused j then j.nextRetry else 0
          updatedAt := now } }

end MetadataStore
end TelegramS3
