import TelegramS3.Accounting
import TelegramS3.RemoteScan
import TelegramS3.Streams

namespace TelegramS3
open Relational Table Fallible Transition MetadataStore Streaming
set_option autoImplicit true

structure UnresolvedSendAttempt where
  jobId : Uuid
  order : Nat
  id : Uuid
  token : String
  startedAt : Int

namespace UnresolvedSendAttempt

def ofRow (a : SendAttemptRow) : UnresolvedSendAttempt :=
  { jobId := a.jobId, order := a.chunkOrder, id := a.attemptId, token := a.attemptToken
    startedAt := a.startedAt }

def key (a : UnresolvedSendAttempt) : SendKey := (a.jobId, a.order, a.id)

end UnresolvedSendAttempt

namespace MetadataStore

def leaving (s : MetadataStore) (objectId : Uuid) : Bool :=
  s.connectionRemovalObjects.any fun o => o.objectId = objectId &&
    s.connectionRemovalJobs.any fun r => r.id = o.jobId &&
      (r.state = .pending || r.state = .running || r.state = .remoteCleanupPending)

def transfers (s : MetadataStore) (limit offset : Nat) : List TransferJob :=
  (((s.transferJobs.select fun j => j.connectionId = s.activeConnectionId &&
    !s.leaving j.objectId).insertionSort fun a b => b.sequence ≤ a.sequence).drop offset).take
      (min limit 100)

def unresolvedSendAttempts (s : MetadataStore) (id : Uuid) : List UnresolvedSendAttempt :=
  ((s.sendAttempts.select fun a => a.jobId = id && a.state = .unknown).insertionSort
    fun a b => a.chunkOrder ≤ b.chunkOrder).map UnresolvedSendAttempt.ofRow

end MetadataStore

inductive PassCall where
  | transfers
  | unresolvedSendAttempts (job : Uuid)
  | resolveSendAttempt (attempt : SendKey)
  | queueAfterReconciliation (job : Uuid)

/-- What a pass meets: the staged files, the chat at each scan, and the times of the calls. -/
structure PassInput where
  file : Uuid → Nat → Option (Except IoError Bytes)
  storageChatId : Except ObjectFormatError String
  chat : SendKey → Except ScanError (List (Except String RemoteMessage))
  call : PassCall → Except MetadataError Int

/-- The store, and the attempts that a pass has looked for. -/
structure Pass where
  store : MetadataStore
  looked : List SendKey := []

namespace RemoteReconciliation

def location : RemoteReconciliation → Option TelegramLocation
  | .matched location => some location
  | .absent => none

def error : RemoteReconciliation → Option String
  | .matched _ => none
  | .absent =>
    some "No matching document was found after scanning messages newer than the attempt"

end RemoteReconciliation

namespace PassInput
variable (i : PassInput)

def reconcile (operation : Uuid) (a : UnresolvedSendAttempt) :
    Option (Except ScanError RemoteReconciliation) :=
  (i.file operation a.order).map fun file =>
    reconcileRemoteFile
      { token := a.token, startedAt := a.startedAt, file, storageChatId := i.storageChatId }
      (i.chat a.key)

def resolve (s : MetadataStore) (a : UnresolvedSendAttempt)
    (r : RemoteReconciliation) : Except MetadataError MetadataStore := do
  let now ← i.call (.resolveSendAttempt a.key)
  s.resolveSendAttempt a.jobId a.order a.id r.location r.error now

def tryAttempt (operation : Uuid) (a : UnresolvedSendAttempt) (p : Pass × Bool) :
    (Pass × Bool) × Except ObjectFormatError Unit :=
  match i.reconcile operation a with
  | none => ((p.1, false), .ok ())
  | some r =>
    let looked := p.1.looked ++ [a.key]
    match r with
    | .error _ => (({ p.1 with looked }, false), .ok ())
    | .ok r =>
      match i.resolve p.1.store a r with
      | .error e => (({ p.1 with looked }, p.2), .error (.metadata e))
      | .ok store => (({ store, looked }, p.2), .ok ())

def reconcileJob (j : TransferJob) (p : Pass) :
    Pass × Except ObjectFormatError Unit :=
  match i.call (.unresolvedSendAttempts j.id) with
  | .error e => (p, .error (.metadata e))
  | .ok _ =>
    let attempts := p.store.unresolvedSendAttempts j.id
    if attempts.isEmpty then (p, .ok ())
    else
      match j.operationId with
      | none => (p, .error (.invalidPlan
          "invalid length: expected length 32 for simple format, found 0"))
      | some operation =>
        match forUntil (i.tryAttempt operation) attempts (p, true) with
        | ((p, _), .error e) => (p, .error e)
        | ((p, false), .ok _) => (p, .ok ())
        | ((p, true), .ok _) =>
          match i.call (.queueAfterReconciliation j.id) with
          | .error e => (p, .error (.metadata e))
          | .ok now => ({ p with store := p.store.queueAfterReconciliation j.id now }, .ok ())

def reconcileUnknownTransfers (s : MetadataStore) :
    Pass × Except ObjectFormatError Unit :=
  match i.call .transfers with
  | .error e => ({ store := s }, .error (.metadata e))
  | .ok _ =>
    forUntil i.reconcileJob ((s.transfers 100 0).filter fun j => j.state = .recoveryRequired)
      { store := s }

def blocks (operation : Uuid) (a : UnresolvedSendAttempt) : Bool :=
  (i.reconcile operation a).any Except.isOk && !(i.call (.resolveSendAttempt a.key)).isOk

def settles (operation : Uuid) (a : UnresolvedSendAttempt) : Bool :=
  (i.reconcile operation a).any Except.isOk && (i.call (.resolveSendAttempt a.key)).isOk

def stops (s : MetadataStore) (j : TransferJob) : Bool :=
  let attempts := s.unresolvedSendAttempts j.id
  !(i.call (.unresolvedSendAttempts j.id)).isOk || !attempts.isEmpty &&
    match j.operationId with
    | none => true
    | some operation => attempts.any (i.blocks operation) ||
      attempts.all (i.settles operation) && !(i.call (.queueAfterReconciliation j.id)).isOk

def tried (s : MetadataStore) (j : TransferJob) : List SendKey :=
  match i.call (.unresolvedSendAttempts j.id), j.operationId with
  | .ok _, some operation =>
    (through (i.blocks operation) (s.unresolvedSendAttempts j.id)).flatMap fun a =>
      if (i.reconcile operation a).isSome then [a.key] else []
  | _, _ => []

end PassInput

namespace MetadataStore
variable {s s' : MetadataStore}

def SameOpen (s s' : MetadataStore) (job : Uuid) : Prop :=
  s'.sendAttempts.select (fun a => a.jobId = job && a.state = .unknown) =
    s.sendAttempts.select fun a => a.jobId = job && a.state = .unknown

theorem SameOpen.unresolved (h : SameOpen s s' job) :
    s'.unresolvedSendAttempts job = s.unresolvedSendAttempts job := by
  unfold unresolvedSendAttempts
  rw [show s'.sendAttempts.select _ = _ from h]

theorem mem_unresolvedSendAttempts : a ∈ s.unresolvedSendAttempts job ↔
    ∃ r ∈ s.sendAttempts, r.jobId = job ∧ r.state = .unknown ∧
      a = UnresolvedSendAttempt.ofRow r := by
  simp only [unresolvedSendAttempts, List.mem_map, List.mem_insertionSort, mem_select,
    Bool.and_eq_true, decide_eq_true_eq]
  constructor
  · rintro ⟨r, ⟨hr, hj, hst⟩, rfl⟩
    exact ⟨r, hr, hj, hst, rfl⟩
  · rintro ⟨r, hr, hj, hst, rfl⟩
    exact ⟨r, ⟨hr, hj, hst⟩, rfl⟩

theorem mem_of_transfers (limit offset : Nat) (h : j ∈ s.transfers limit offset) :
    j ∈ s.transferJobs := by
  have hm := List.mem_of_mem_drop (List.mem_of_mem_take h)
  exact (mem_select.1 (List.mem_insertionSort _ |>.1 hm)).1

theorem transfers_nodup (s : MetadataStore) (limit offset : Nat) :
    ((s.transfers limit offset).map TransferJob.id).Nodup := by
  have hp := List.perm_insertionSort (fun a b : TransferJob => b.sequence ≤ a.sequence)
    (s.transferJobs.select fun j => j.connectionId = s.activeConnectionId && !s.leaving j.objectId)
  have hd := ((hp.map TransferJob.id).nodup_iff).2 (s.transferJobs.nodup_keys_select _)
  exact hd.sublist (((List.take_sublist _ _).trans (List.drop_sublist _ _)).map _)

theorem unresolvedSendAttempts_nodup (s : MetadataStore) (job : Uuid) :
    ((s.unresolvedSendAttempts job).map UnresolvedSendAttempt.key).Nodup := by
  rw [unresolvedSendAttempts, List.map_map]
  have hp := List.perm_insertionSort (fun a b : SendAttemptRow => a.chunkOrder ≤ b.chunkOrder)
    (s.sendAttempts.select fun a => a.jobId = job && a.state = .unknown)
  exact ((hp.map _).nodup_iff).2 (s.sendAttempts.nodup_keys_select _)

theorem resolveSendAttempt_open {a : UnresolvedSendAttempt}
    (h : s.sendAttempts.get? a.key = some r) (hst : r.state = .unknown)
    (location : Option TelegramLocation) (error : Option String) (now : Int) :
    ∃ s', s.resolveSendAttempt a.jobId a.order a.id location error now = .ok s' ∧
      (∀ k, k ≠ a.key → s'.sendAttempts.get? k = s.sendAttempts.get? k) ∧
      ∀ job, job ≠ a.jobId → SameOpen s s' job := by
  obtain ⟨hm, hk⟩ := get?_eq_some.1 h
  have hany : s.sendAttempts.any (fun b => b.jobId = a.jobId && b.chunkOrder = a.order &&
      b.attemptId = a.id && b.state = .unknown) = true := by
    have hk' : (r.jobId, r.chunkOrder, r.attemptId) = (a.jobId, a.order, a.id) := hk
    simp only [Prod.mk.injEq] at hk'
    exact any_eq_true.2 ⟨r, hm, by simp [hst, hk']⟩
  have hu : s.updateAttempt a.jobId a.order a.id .unknown
      (SendAttemptRow.resolved location error now) "send attempt resolution fence lost" = .ok _ :=
    if_pos hany
  have hsame (t : MetadataStore) : ((t.checkpointFound a.jobId a.order location).countChunks
      a.jobId now).sendAttempts = t.sendAttempts := by
    cases location <;> rfl
  refine ⟨_, by rw [resolveSendAttempt, hu]; rfl, fun k hne => ?_, fun job hne => ?_⟩
  · rw [hsame]
    obtain ⟨b, -, -, hrows, -⟩ := updateAttempt_get? hu
    exact (hrows k).trans (if_neg hne)
  · rw [SameOpen, hsame]
    refine select_update rfl fun b hb => ?_
    simp only [Bool.and_eq_true, decide_eq_true_eq] at hb
    have hj : decide (b.jobId = job) = false := decide_eq_false fun he => hne (he ▸ hb.1.1.1)
    constructor
    · rw [hj, Bool.false_and]
    · rw [show (SendAttemptRow.resolved location error now b).jobId = b.jobId from rfl, hj,
        Bool.false_and]

end MetadataStore

namespace PassInput
variable {i : PassInput} {s : MetadataStore}

structure Trying (i : PassInput) (s : MetadataStore) (job operation : Uuid) (all : Bool)
    (l : List UnresolvedSendAttempt) (p : Pass × Bool) : Prop where
  own : ∀ a ∈ l, a.jobId = job
  unresolved : ∀ a ∈ l, ∃ r, p.1.store.sendAttempts.get? a.key = some r ∧ r.state = .unknown
  distinct : (l.map UnresolvedSendAttempt.key).Nodup
  others : ∀ id, id ≠ job → SameOpen s p.1.store id
  flag : (p.2 && l.all (i.settles operation)) = all

theorem resolve_isOk (h : s.sendAttempts.get? a.key = some r) (hst : r.state = .unknown)
    (found : RemoteReconciliation) :
    (i.resolve s a found).isOk = (i.call (.resolveSendAttempt a.key)).isOk ∧
      ∀ s', i.resolve s a found = .ok s' →
        (∀ k, k ≠ a.key → s'.sendAttempts.get? k = s.sendAttempts.get? k) ∧
          ∀ job, job ≠ a.jobId → SameOpen s s' job := by
  unfold resolve
  cases hc : i.call (.resolveSendAttempt a.key) with
  | error e => exact ⟨rfl, fun s' hs => nomatch hs⟩
  | ok now =>
    obtain ⟨s₁, hs, hk, ho⟩ := resolveSendAttempt_open h hst found.location found.error now
    refine ⟨?_, fun s' hs' => ?_⟩
    · show (s.resolveSendAttempt a.jobId a.order a.id found.location found.error now).isOk = _
      rw [hs]
      rfl
    · cases hs.symm.trans hs'
      exact ⟨hk, ho⟩

theorem Trying.step (h : Trying i s job operation all (a :: l) p) :
    (i.tryAttempt operation a p).1.1.looked =
        p.1.looked ++ (if (i.reconcile operation a).isSome then [a.key] else []) ∧
      (i.tryAttempt operation a p).2.isOk = !i.blocks operation a ∧ (i.blocks operation a = false →
          Trying i s job operation all l (i.tryAttempt operation a p).1) := by
  obtain ⟨r, hr, hst⟩ := h.unresolved a List.mem_cons_self
  obtain ⟨hn, hd⟩ := List.nodup_cons.1 h.distinct
  have hflag := h.flag
  rw [List.all_cons] at hflag
  have hrest (b : UnresolvedSendAttempt) (hb : b ∈ l) := h.unresolved b (List.mem_cons_of_mem _ hb)
  have hown (b : UnresolvedSendAttempt) (hb : b ∈ l) := h.own b (List.mem_cons_of_mem _ hb)
  unfold tryAttempt blocks
  unfold settles at hflag
  cases hs : i.reconcile operation a with
  | none =>
    rw [hs] at hflag
    refine ⟨(List.append_nil _).symm, rfl, fun _ => ⟨hown, hrest, hd, h.others, ?_⟩⟩
    exact (Bool.and_false _).symm.trans hflag
  | some found =>
    rw [hs] at hflag
    cases found with
    | error e =>
      refine ⟨rfl, rfl, fun _ => ⟨hown, hrest, hd, h.others, ?_⟩⟩
      exact (Bool.and_false _).symm.trans hflag
    | ok found =>
      obtain ⟨hok, hkept⟩ := resolve_isOk (i := i) hr hst found
      dsimp only
      cases hres : i.resolve p.1.store a found with
      | error e =>
        rw [hres] at hok
        have hcall : (i.call (.resolveSendAttempt a.key)).isOk = false := hok.symm
        rw [hcall]
        exact ⟨rfl, rfl, fun hb => nomatch hb⟩
      | ok s' =>
        obtain ⟨hk, ho⟩ := hkept s' hres
        rw [hres] at hok
        have hcall : (i.call (.resolveSendAttempt a.key)).isOk = true := hok.symm
        rw [hcall] at hflag ⊢
        refine ⟨rfl, rfl, fun _ => ⟨hown, fun b hb => ?_, hd, fun id hid => ?_, ?_⟩⟩
        · obtain ⟨q, hq, hsq⟩ := hrest b hb
          refine ⟨q, (hk b.key fun he => hn ?_).trans hq, hsq⟩
          rw [← he]
          exact List.mem_map_of_mem hb
        · rw [SameOpen, ho id (by rw [h.own a List.mem_cons_self]; exact hid)]
          exact h.others id hid
        · exact hflag

theorem tryAttempts (i : PassInput) (operation job : Uuid) (p : Pass) :
    let attempts := p.store.unresolvedSendAttempts job
    let r := forUntil (i.tryAttempt operation) attempts (p, true)
    r.1.1.looked = p.looked ++ (through (i.blocks operation) attempts).flatMap (fun a =>
        if (i.reconcile operation a).isSome then [a.key] else []) ∧
      r.2.isOk = !attempts.any (i.blocks operation) ∧ (attempts.any (i.blocks operation) = false →
          r.1.2 = attempts.all (i.settles operation) ∧
            ∀ id, id ≠ job → SameOpen p.store r.1.1.store id) := by
  intro attempts r
  let all := attempts.all (i.settles operation)
  have hstart : Trying i p.store job operation all attempts (p, true) := by
    refine ⟨fun a ha => ?_, fun a ha => ?_, p.store.unresolvedSendAttempts_nodup job,
      fun _ _ => rfl, rfl⟩
    · obtain ⟨row, -, hj, -, rfl⟩ := mem_unresolvedSendAttempts.1 ha
      exact hj
    · obtain ⟨row, hr, -, hst, rfl⟩ := mem_unresolvedSendAttempts.1 ha
      exact ⟨row, mem_iff_get?.1 hr, hst⟩
  obtain ⟨hl, hok, hend⟩ := forUntil_trace (fun p : Pass × Bool => p.1.looked)
    (Trying i p.store job operation all) (fun _ _ _ => Trying.step) hstart
  refine ⟨hl, hok, fun hn => ?_⟩
  have ht := hend hn
  exact ⟨by simpa using ht.flag, ht.others⟩

/-- One job of a pass, whose open attempts no earlier job has touched. -/
theorem reconcileJob_step (hs : ∀ k ∈ j :: l, SameOpen s p.store k.id)
    (hd : ((j :: l).map TransferJob.id).Nodup) :
    (i.reconcileJob j p).1.looked = p.looked ++ i.tried s j ∧
      (i.reconcileJob j p).2.isOk = !i.stops s j ∧
        (i.stops s j = false → ∀ k ∈ l, SameOpen s (i.reconcileJob j p).1.store k.id) := by
  have hu : p.store.unresolvedSendAttempts j.id = s.unresolvedSendAttempts j.id :=
    (hs j List.mem_cons_self).unresolved
  have hrest (k : TransferJob) (hk : k ∈ l) := hs k (List.mem_cons_of_mem _ hk)
  have hne : ∀ k ∈ l, k.id ≠ j.id := by
    intro k hk he
    exact (List.nodup_cons.1 hd).1 (he ▸ List.mem_map_of_mem hk)
  unfold reconcileJob tried stops
  cases hc : i.call (.unresolvedSendAttempts j.id) with
  | error e => exact ⟨(List.append_nil _).symm, rfl, fun h => nomatch h⟩
  | ok now =>
    dsimp only
    have htry := fun operation => i.tryAttempts operation j.id p
    rw [hu] at htry ⊢
    generalize s.unresolvedSendAttempts j.id = attempts at htry ⊢
    cases attempts with
    | nil =>
      refine ⟨?_, rfl, fun _ => hrest⟩
      cases j.operationId <;> exact (List.append_nil _).symm
    | cons a attempts =>
      cases ho : j.operationId with
      | none => exact ⟨(List.append_nil _).symm, rfl, fun h => nomatch h⟩
      | some operation =>
        obtain ⟨hl, hok, hend⟩ := htry operation
        simp only [List.isEmpty_cons, Bool.false_eq_true, if_false]
        generalize forUntil (i.tryAttempt operation) (a :: attempts) (p, true) = r at hl hok hend ⊢
        generalize a :: attempts = attempts at hl hok hend ⊢
        obtain ⟨⟨p', flag⟩, res⟩ := r
        cases res with
        | error e =>
          have hb : attempts.any (i.blocks operation) = true :=
            eq_true_of_ne_false fun h => by rw [h] at hok; cases hok
          rw [hb]
          exact ⟨hl, rfl, fun h => nomatch h⟩
        | ok u =>
          have hb : attempts.any (i.blocks operation) = false :=
            Bool.eq_false_iff.2 fun h => by rw [h] at hok; cases hok
          obtain ⟨hflag, hothers⟩ := hend hb
          have hkept : ∀ k ∈ l, SameOpen s p'.store k.id := fun k hk =>
            (hothers k.id (hne k hk)).trans (hrest k hk)
          dsimp only at hflag
          rw [hb, ← hflag]
          cases flag with
          | false => exact ⟨hl, rfl, fun _ => hkept⟩
          | true =>
            cases hq : i.call (.queueAfterReconciliation j.id) with
            | error e => exact ⟨hl, rfl, fun h => nomatch h⟩
            | ok now => exact ⟨hl, rfl, fun _ => hkept⟩

theorem looked_eq (h : (i.call .transfers).isOk = true) : (i.reconcileUnknownTransfers s).1.looked =
      (through (i.stops s) ((s.transfers 100 0).filter fun j =>
        j.state = .recoveryRequired)).flatMap (i.tried s) := by
  cases hc : i.call .transfers with
  | error e =>
    rw [hc] at h
    cases h
  | ok now =>
    simp only [reconcileUnknownTransfers, hc]
    let I (l : List TransferJob) (p : Pass) : Prop :=
      (∀ j ∈ l, SameOpen s p.store j.id) ∧ (l.map TransferJob.id).Nodup
    have hstart : I ((s.transfers 100 0).filter fun j => j.state = .recoveryRequired)
        { store := s } :=
      ⟨fun _ _ => rfl, (s.transfers_nodup 100 0).sublist (List.filter_sublist.map _)⟩
    refine (forUntil_trace Pass.looked I ?_ hstart).1
    rintro j l p ⟨hs, hd⟩
    obtain ⟨hl, hok, hend⟩ := reconcileJob_step hs hd
    exact ⟨hl, hok, fun hn => ⟨hend hn, (List.nodup_cons.1 hd).2⟩⟩

end PassInput

/-- An unresolved attempt of a job in recovery of the active connection, with its file staged. -/
structure PassInput.Ambiguous (i : PassInput) (s : MetadataStore) (j : TransferJob)
    (operation : Uuid) (a : UnresolvedSendAttempt) : Prop where
  job : j ∈ s.transferJobs
  state : j.state = .recoveryRequired
  active : j.connectionId = s.activeConnectionId
  planned : j.operationId = some operation
  unresolved : a ∈ s.unresolvedSendAttempts j.id
  staged : (i.file operation a.order).isSome = true

/-- The job is on the page and nothing before it ends the pass. -/
structure PassInput.Reached (i : PassInput) (s : MetadataStore) (j : TransferJob)
    (operation : Uuid) (a : UnresolvedSendAttempt) : Prop where
  page : (i.call .transfers).isOk = true
  listed : ∃ front back, s.transfers 100 0 = front ++ j :: back ∧
    ∀ k ∈ front, k.state = .recoveryRequired → i.stops s k = false
  attempts : (i.call (.unresolvedSendAttempts j.id)).isOk = true
  first : ∃ front back, s.unresolvedSendAttempts j.id = front ++ a :: back ∧
    ∀ b ∈ front, i.blocks operation b = false

/-- A pass looks for every unresolved attempt that it should. -/
def PassInput.ReachesAmbiguous (i : PassInput) (s : MetadataStore) : Prop :=
  ∀ j operation a, i.Ambiguous s j operation a →
    a.key ∈ (i.reconcileUnknownTransfers s).1.looked

namespace PassInput
variable {i : PassInput} {s : MetadataStore}

theorem mem_tried (h : i.Ambiguous s j operation a) (hk : k ∈ s.transferJobs) :
    a.key ∈ i.tried s k ↔ k = j ∧ (i.call (.unresolvedSendAttempts j.id)).isOk = true ∧
      a ∈ through (i.blocks operation) (s.unresolvedSendAttempts j.id) := by
  constructor
  · intro ha
    unfold tried at ha
    split at ha
    · rename_i now operation' hc ho
      obtain ⟨b, hb, hab⟩ := List.mem_flatMap.1 ha
      have hkey : a.key = b.key := by
        split at hab
        · exact List.mem_singleton.1 hab
        · cases hab
      obtain ⟨front, back, hl, -⟩ := mem_through.1 hb
      have hmem : b ∈ s.unresolvedSendAttempts k.id := by simp [hl]
      obtain ⟨r, hr, hrj, -, rfl⟩ := mem_unresolvedSendAttempts.1 hmem
      obtain ⟨q, hq, hqj, -, rfl⟩ := mem_unresolvedSendAttempts.1 h.unresolved
      cases eq_of_key_eq hq hr hkey
      cases eq_of_key_eq hk h.job (hrj.symm.trans hqj)
      cases ho.symm.trans h.planned
      exact ⟨rfl, by rw [hc]; rfl, hb⟩
    · cases ha
  · rintro ⟨rfl, hc, ha⟩
    unfold tried
    cases hcall : i.call (.unresolvedSendAttempts k.id) with
    | error e =>
      rw [hcall] at hc
      cases hc
    | ok now =>
      simp only [h.planned]
      refine List.mem_flatMap.2 ⟨a, ha, ?_⟩
      rw [if_pos (by rw [reconcile, Option.isSome_map]; exact h.staged)]
      exact List.mem_singleton_self _

theorem mem_looked (h : i.Ambiguous s j operation a) :
    a.key ∈ (i.reconcileUnknownTransfers s).1.looked ↔ i.Reached s j operation a := by
  by_cases hp : (i.call .transfers).isOk = true
  · rw [looked_eq hp, List.mem_flatMap]
    constructor
    · rintro ⟨k, hk, ha⟩
      obtain ⟨-, hk⟩ := mem_through_filter.1 hk
      obtain ⟨front, back, hl, hf⟩ := mem_through.1 hk
      have hjob : k ∈ s.transferJobs := mem_of_transfers 100 0 (by simp [hl])
      obtain ⟨rfl, hc, ha⟩ := (mem_tried h hjob).1 ha
      refine ⟨hp, ⟨front, back, hl, fun b hb hst => ?_⟩, hc, mem_through.1 ha⟩
      have hs := hf b hb
      rwa [decide_eq_true hst, Bool.true_and] at hs
    · intro hr
      obtain ⟨front, back, hl, hf⟩ := hr.listed
      refine ⟨j, mem_through_filter.2 ⟨decide_eq_true h.state, mem_through.2
        ⟨front, back, hl, fun b hb => ?_⟩⟩, ?_⟩
      · by_cases hst : b.state = .recoveryRequired
        · rw [hf b hb hst, Bool.and_false]
        · rw [decide_eq_false hst, Bool.false_and]
      · exact (mem_tried h h.job).2 ⟨rfl, hr.attempts, mem_through.2 hr.first⟩
  · constructor
    · intro ha
      unfold reconcileUnknownTransfers at ha
      cases hc : i.call .transfers with
      | error e =>
        rw [hc] at ha
        cases ha
      | ok now =>
        rw [hc] at hp
        exact absurd rfl hp
    · exact fun hr => absurd hr.page hp

end PassInput

theorem pass_reaches_iff (i : PassInput) (s : MetadataStore) : i.ReachesAmbiguous s ↔
    ∀ j operation a, i.Ambiguous s j operation a → i.Reached s j operation a := by
  constructor
  · intro h j operation a ha
    exact (PassInput.mem_looked ha).1 (h j operation a ha)
  · intro h j operation a ha
    exact (PassInput.mem_looked ha).2 (h j operation a ha)

def calmPass : PassInput :=
  { file := fun _ _ => some (.ok []), storageChatId := .ok "-1001", chat := fun _ => .ok []
    call := fun _ => .ok 3 }

/-- A send without an answer, and then a hundred further uploads. -/
def overtakenSend : List StoreOp :=
  [.beginTransfer ⟨1⟩ "photos" "a" 0, .queueTransfer ⟨1⟩ 1 0, .claimTransfer 0 ⟨11⟩,
    .beginSendAttempt ⟨1⟩ ⟨11⟩ 0 ⟨21⟩ 0,
    .markSendAttemptUnknown ⟨1⟩ ⟨11⟩ 0 ⟨21⟩ "telegram_send" "request timeout" 1,
    .transferFailed ⟨1⟩ ⟨11⟩ (some 2)
      "Telegram transfer failed; retry scheduled. Staged data retained." 1] ++
    (List.range 100).map fun n => .beginTransfer ⟨100 + n⟩ "photos" "b" 2

def overtakenSendRun : List MetadataStore × MetadataStore :=
  (exec (StoreOp.apply fun _ => none) [] photosStore overtakenSend).get (by decide +kernel)

theorem newer_jobs_hide_attempt :
    Run (Eq photosStore) (StoreStep fun _ => none) overtakenSendRun.1 overtakenSendRun.2 ∧
      ¬ calmPass.ReachesAmbiguous overtakenSendRun.2 := by
  have hr : Run (Eq photosStore) (StoreStep fun _ => none) overtakenSendRun.1 overtakenSendRun.2 :=
    Run.of_exec_isSome rfl (by decide +kernel)
  refine ⟨hr, fun h => ?_⟩
  have hs : (overtakenSendRun.2.transferJobs.get? ⟨1⟩).any (fun j => j.state = .recoveryRequired &&
        j.connectionId = overtakenSendRun.2.activeConnectionId && j.operationId = some ⟨1⟩) = true ∧
      (overtakenSendRun.2.unresolvedSendAttempts ⟨1⟩).head?.isSome = true ∧
      (calmPass.reconcileUnknownTransfers overtakenSendRun.2).1.looked = [] := by
    decide +kernel
  obtain ⟨hj, ha, hn⟩ := hs
  obtain ⟨j, hj, hp⟩ := (Option.any_eq_true _ _).1 hj
  simp only [Bool.and_eq_true, decide_eq_true_eq] at hp
  have hid : j.id = ⟨1⟩ := key_of_get? hj
  obtain ⟨a, ha⟩ := Option.isSome_iff_exists.1 ha
  have hl := h j ⟨1⟩ a ⟨mem_of_get? hj, hp.1.1, hp.1.2, hp.2,
    by rw [hid]; exact List.mem_of_head? ha, rfl⟩
  rw [hn] at hl
  cases hl

end TelegramS3
