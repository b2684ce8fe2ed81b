import TelegramS3.Run
import TelegramS3.Visibility

namespace TelegramS3
open Relational Table Fallible Transition MetadataStore
set_option autoImplicit true

inductive ReplicationMode where
  | oneTime | automatic
  deriving DecidableEq

inductive ReplicationState where
  | queued | processing | scheduled | completed | failed
  deriving DecidableEq

def ReplicationMode.parse (text : String) : Option ReplicationMode :=
  if text = "one_time" then some .oneTime
  else if text = "automatic" then some .automatic else none

def parseAccessMode (text : String) : Option ReplicaMode :=
  if text = "replica" then some .replica else if text = "access" then some .access else none

structure ReplicationJobRow where
  id : Uuid
  sourceAccountId : String
  targetAccountId : String
  bucket : String
  objectKeys : List String
  mode : ReplicationMode
  accessMode : ReplicaMode
  state : ReplicationState := .queued
  nextRun : Option Int
  lastRun : Option Int := none
  error : Option String := none
  createdAt : Int
  updatedAt : Int

instance : Keyed ReplicationJobRow Uuid := ⟨ReplicationJobRow.id⟩

abbrev ReplicationJobs := Table ReplicationJobRow

namespace ReplicationJobs
variable (t : ReplicationJobs)

def due (now : Int) (r : ReplicationJobRow) : Bool :=
  r.state = .queued || (r.state = .scheduled && r.nextRun.any fun next => next ≤ now)

def claimReplicationJob (now : Int) : Option ReplicationJobRow × ReplicationJobs :=
  match firstBy (fun r => r.updatedAt.toNat) (t.select (due now)) with
  | none => (none, t)
  | some j =>
    let claim (r : ReplicationJobRow) : ReplicationJobRow :=
      { r with state := .processing, updatedAt := now }
    (some (claim j), t.modify (fun r => r.id = j.id) claim)

/-- The next run of an automatic job is in five minutes, in whatever state it is left. -/
def finishReplication (id : Uuid) (state : ReplicationState) (error : Option String)
    (automatic : Bool) (now : Int) : ReplicationJobs :=
  t.modify (fun r => r.id = id) fun r =>
    { r with
      state, error, lastRun := some now, updatedAt := now
      nextRun := if automatic then some (now + 300) else none }

def updateReplicationProgress (id : Uuid) (now : Int) : ReplicationJobs :=
  t.modify (fun r => r.id = id) fun r => { r with updatedAt := now }

end ReplicationJobs

def MetadataStore.updateRechunkProgress (s : MetadataStore) (id : Uuid) (now : Int) :
    MetadataStore :=
  { s with rechunkJobs := s.rechunkJobs.modify (fun r => r.id = id) fun r =>
      { r with updatedAt := now } }

/-- The store with its replication jobs, and the job each of the two workers has in hand. -/
structure JobsWorld where
  store : MetadataStore := {}
  replicationJobs : ReplicationJobs := ∅
  rechunking : Option Uuid := none
  replicating : Option (Uuid × ReplicationMode) := none

def JobsWorld.queueReplication (w : JobsWorld) (id : Uuid) (source target bucket : String)
    (objectKeys : List String) (mode accessMode : String) (now : Int) :
    Except MetadataError JobsWorld :=
  match ReplicationMode.parse mode, parseAccessMode accessMode with
  | none, _ => .error (.invalidManifest "invalid replication mode")
  | some _, none => .error (.invalidManifest "invalid replication access mode")
  | some mode, some accessMode =>
    if w.replicationJobs.contains id then
      .error (.sqlite "UNIQUE constraint failed: replication_jobs.id")
    else if w.store.telegramAccounts.contains source &&
        w.store.telegramAccounts.contains target then
      .ok { w with
        replicationJobs := w.replicationJobs.insertOrIgnore
          { id, sourceAccountId := source, targetAccountId := target, bucket, objectKeys, mode
            accessMode, nextRun := if mode = .automatic then some now else none
            createdAt := now, updatedAt := now } }
    else .error (.sqlite "FOREIGN KEY constraint failed")

def StoreOp.ofRechunkWorker : StoreOp → Bool
  | .claimRechunkJob .. | .finishRechunk .. => true
  | _ => false

/-- A call of the store from anywhere, a call of a worker, or the end of the process. -/
inductive JobsAction where
  | call (op : StoreOp)
  | saveAccount (id label : String)
  | queueReplication (id : Uuid) (source target bucket : String) (objectKeys : List String)
    (mode accessMode : String) (now : Int)
  | claimRechunk (now : Int)
  | rechunkProgress (now : Int)
  | finishRechunk (error : Option String) (now : Int)
  | claimReplication (now : Int)
  | replicationProgress (now : Int)
  | finishReplication (error : Option String) (now : Int)
  | crash

namespace JobsAction

/-- How `process_replication_job` and the loop around it leave a job. -/
def replicationOutcome (mode : ReplicationMode) (error : Option String) : ReplicationState :=
  if error.isSome then .failed else if mode = .automatic then .scheduled else .completed

def apply (fromStr : String → Option ETagCondition) (a : JobsAction) (w : JobsWorld) :
    Option JobsWorld :=
  match a with
  | .call op =>
    if op.ofRechunkWorker then none
    else (op.serve fromStr w.store).map fun store => { w with store }
  | .saveAccount id label =>
    (after (w.store.upsertTelegramAccount id label none none)).map fun store => { w with store }
  | .queueReplication id source target bucket objectKeys mode accessMode now =>
    after (w.queueReplication id source target bucket objectKeys mode accessMode now)
  | .claimRechunk now =>
    if w.rechunking.isSome then none
    else
      let (job, store) := w.store.claimRechunkJob now
      some { w with store, rechunking := job.map RechunkJobRow.id }
  | .rechunkProgress now =>
    w.rechunking.map fun id => { w with store := w.store.updateRechunkProgress id now }
  | .finishRechunk error now =>
    w.rechunking.map fun id =>
      { w with
        store := w.store.finishRechunk id (if error.isSome then .failed else .completed) error now
        rechunking := none }
  | .claimReplication now =>
    if w.replicating.isSome then none
    else
      let (job, replicationJobs) := w.replicationJobs.claimReplicationJob now
      some { w with replicationJobs, replicating := job.map fun r => (r.id, r.mode) }
  | .replicationProgress now =>
    w.replicating.map fun job =>
      { w with replicationJobs := w.replicationJobs.updateReplicationProgress job.1 now }
  | .finishReplication error now =>
    w.replicating.map fun job =>
      { w with
        replicationJobs := w.replicationJobs.finishReplication job.1
          (replicationOutcome job.2 error) error (job.2 = .automatic) now
        replicating := none }
  | .crash => some { w with rechunking := none, replicating := none }

end JobsAction

def BackgroundStep (fromStr : String → Option ETagCondition) (a : JobsAction)
    (w w' : JobsWorld) : Prop :=
  a.apply fromStr w = some w'

/-- The claim returns the job when it is called often enough. -/
def RechunkClaimable (s : MetadataStore) (job : Uuid) : Prop :=
  ∀ now, ∃ n, ∃ j ∈ drain (fun s => s.claimRechunkJob now) n s, j.id = job

def ReplicationClaimable (t : ReplicationJobs) (now : Int) (job : Uuid) : Prop :=
  ∃ n, ∃ j ∈ drain (fun t => ReplicationJobs.claimReplicationJob t now) n t, j.id = job

def ReplicationJobRow.Unfinished (r : ReplicationJobRow) : Prop :=
  r.state ≠ .completed ∧ r.state ≠ .failed

/-- Whatever is unfinished can be claimed, and so can what keeps an object locked. -/
structure JobsWorld.Survives (w : JobsWorld) : Prop where
  rechunks : ∀ j ∈ w.store.rechunkJobs, (∃ l ∈ w.store.rechunkLocks, l.jobId = j.id) →
    RechunkClaimable w.store j.id
  replications : ∀ r ∈ w.replicationJobs, r.Unfinished ∨ r.nextRun.isSome = true →
    ∀ now, (∀ next ∈ r.nextRun, next ≤ now) → ReplicationClaimable w.replicationJobs now r.id
  locks : ∀ object, w.store.objectRechunkLocked object = true →
    ∃ j ∈ w.store.rechunkJobs, (∃ l ∈ w.store.rechunkLocks, l.objectId = object ∧ l.jobId = j.id) ∧
      RechunkClaimable w.store j.id

structure JobsWorld.Initial (w : JobsWorld) : Prop where
  locks : w.store.rechunkLocks = ∅
  replications : w.replicationJobs = ∅

def JobsSurviveRestarts (Step : JobsAction → JobsWorld → JobsWorld → Prop) : Prop :=
  ∀ past w, Run JobsWorld.Initial Step past w → w.rechunking = none → w.replicating = none →
    w.Survives

variable {s : MetadataStore}

/-- The process ends only between two jobs, and no automatic replication fails. -/
def Uninterrupted (a : JobsAction) (w : JobsWorld) : Prop :=
  match a with
  | .crash => w.rechunking = none ∧ w.replicating = none
  | .finishReplication error _ => error.isSome = true → ∀ job ∈ w.replicating, job.2 = .oneTime
  | _ => True

namespace MetadataStore

theorem claimRechunkJob_none (h : s.claimRechunkJob now = (none, s')) :
    s.rechunkJobs.select (fun j => j.state = .queued) = [] ∧ s' = s := by
  unfold claimRechunkJob at h
  split at h
  · rename_i hf
    cases h
    exact ⟨firstBy_eq_none hf, rfl⟩
  · cases h

theorem claimRechunkJob_some (h : s.claimRechunkJob now = (some r, s')) :
    ∃ j ∈ s.rechunkJobs, j.state = .queued ∧ r.id = j.id ∧ s' = { s with
        rechunkJobs := s.rechunkJobs.modify (fun r => r.id = j.id && r.state = .queued) fun r =>
          { r with state := .processing, updatedAt := now } } := by
  unfold claimRechunkJob at h
  split at h
  · cases h
  · rename_i j hf
    cases h
    obtain ⟨hj, hq⟩ := mem_select.1 (firstBy_mem hf)
    exact ⟨j, hj, of_decide_eq_true hq, rfl, rfl⟩

theorem claimable_of_queued (hj : j ∈ s.rechunkJobs) (hq : j.state = .queued) :
    RechunkClaimable s j.id := by
  intro now
  apply exists_mem_drain (fun s => (s.rechunkJobs.select fun j => j.state = .queued).map Keyed.key)
  · intro s
    exact s.rechunkJobs.nodup_keys_select _
  · intro s s' h
    rw [(claimRechunkJob_none h).1]
    rfl
  · intro s r s' h
    obtain ⟨i, hi, hs, hid, rfl⟩ := claimRechunkJob_some h
    rw [hid]
    refine ⟨List.mem_map_of_mem (mem_select.2 ⟨hi, decide_eq_true hs⟩), fun k => ?_⟩
    apply mem_keys_select_update rfl
    · intro r hr
      constructor
      · intro h
        exact of_decide_eq_true (Bool.and_eq_true_iff.1 h).1
      · intro h
        rw [eq_of_key_eq hr hi h]
        simp [hs]
    · intro r
      rfl
  · exact List.mem_map_of_mem (mem_select.2 ⟨hj, decide_eq_true hq⟩)

end MetadataStore

namespace ReplicationJobs

theorem claimReplicationJob_none {t : ReplicationJobs}
    (h : claimReplicationJob t now = (none, t')) : t.select (due now) = [] ∧ t' = t := by
  unfold claimReplicationJob at h
  split at h
  · rename_i hf
    cases h
    exact ⟨firstBy_eq_none hf, rfl⟩
  · cases h

theorem claimReplicationJob_some {t : ReplicationJobs}
    (h : claimReplicationJob t now = (some r, t')) :
    ∃ j ∈ t, due now j = true ∧ r.id = j.id ∧ r.mode = j.mode ∧
      t' = t.modify (fun r => r.id = j.id) fun r =>
        { r with state := .processing, updatedAt := now } := by
  unfold claimReplicationJob at h
  split at h
  · cases h
  · rename_i j hf
    cases h
    obtain ⟨hj, hd⟩ := mem_select.1 (firstBy_mem hf)
    exact ⟨j, hj, hd, rfl, rfl, rfl⟩

theorem claimable_of_due {t : ReplicationJobs} (hj : j ∈ t) (hd : due now j = true) :
    ReplicationClaimable t now j.id := by
  apply exists_mem_drain (fun t : ReplicationJobs => (t.select (due now)).map Keyed.key)
  · intro t
    exact t.nodup_keys_select _
  · intro t t' h
    rw [(claimReplicationJob_none h).1]
    rfl
  · intro t r t' h
    obtain ⟨i, hi, hs, hid, -, rfl⟩ := claimReplicationJob_some h
    rw [hid]
    refine ⟨List.mem_map_of_mem (mem_select.2 ⟨hi, hs⟩), fun k => ?_⟩
    apply mem_keys_select_update rfl
    · intro r hr
      exact decide_eq_true_iff
    · intro r
      rfl
  · exact List.mem_map_of_mem (mem_select.2 ⟨hj, hd⟩)

end ReplicationJobs

def RechunkJobRow.Tended (held : Option Uuid) (j : RechunkJobRow) : Prop :=
  j.state = .queued ∨ j.state = .processing ∧ held = some j.id

/-- A job waits for a claim, is in the hand of the worker, or has ended for good. -/
inductive ReplicationJobRow.Tended (held : Option (Uuid × ReplicationMode))
    (r : ReplicationJobRow) : Prop where
  | queued : r.state = .queued → Tended held r
  | scheduled : r.state = .scheduled → r.nextRun.isSome = true → Tended held r
  | processing : r.state = .processing → held = some (r.id, r.mode) → Tended held r
  | ended : r.state = .completed ∨ r.state = .failed → r.nextRun = none → Tended held r

def MetadataStore.LocksTended (s : MetadataStore) (held : Option Uuid) : Prop :=
  ∀ l ∈ s.rechunkLocks, ∃ j ∈ s.rechunkJobs, j.id = l.jobId ∧ j.Tended held

structure JobsWorld.Tended (w : JobsWorld) : Prop where
  locks : w.store.LocksTended w.rechunking
  replications : ∀ r ∈ w.replicationJobs, r.Tended w.replicating

theorem ReplicationJobRow.Tended.of_idle {r : ReplicationJobRow} (h : r.Tended none)
    (held : Option (Uuid × ReplicationMode)) : r.Tended held := by
  cases h with
  | queued hs => exact .queued hs
  | scheduled hs hn => exact .scheduled hs hn
  | processing _ hh => cases hh
  | ended hs hn => exact .ended hs hn

theorem ReplicationJobRow.Tended.of_other {r : ReplicationJobRow}
    (h : r.Tended (some (i, kind))) (hi : r.id ≠ i) : r.Tended none := by
  cases h with
  | queued hs => exact .queued hs
  | scheduled hs hn => exact .scheduled hs hn
  | processing _ hh =>
    cases hh
    exact absurd rfl hi
  | ended hs hn => exact .ended hs hn

namespace MetadataStore
variable {s s' : MetadataStore}

theorem LocksTended.of_eq (h : s.LocksTended held)
    (he : s'.rechunkJobs = s.rechunkJobs ∧ s'.rechunkLocks = s.rechunkLocks) :
    s'.LocksTended held := by
  unfold LocksTended
  rw [he.1, he.2]
  exact h

theorem LocksTended.queue (h : s.LocksTended held)
    (hq : s.queueRechunk job bucket key newChunkSize now = .ok s') : s'.LocksTended held := by
  obtain ⟨m, -, hn, rfl⟩ := queueRechunk_ok hq
  intro l hl
  rcases mem_insertOrIgnore.1 hl with hl | ⟨rfl, -⟩
  · obtain ⟨j, hj, hid, ht⟩ := h l hl
    exact ⟨j, mem_insertOrIgnore.2 (.inl hj), hid, ht⟩
  · exact ⟨_, mem_insertOrIgnore.2 (.inr ⟨rfl, hn⟩), rfl, .inl rfl⟩

theorem LocksTended.claim (h : s.LocksTended none) (now : Int) :
    (s.claimRechunkJob now).2.LocksTended ((s.claimRechunkJob now).1.map RechunkJobRow.id) := by
  rcases hc : s.claimRechunkJob now with ⟨_ | r, s'⟩
  · rw [(claimRechunkJob_none hc).2]
    exact h
  · obtain ⟨i, hi, hs, hid, rfl⟩ := claimRechunkJob_some hc
    intro l hl
    obtain ⟨j, hj, hl, ht⟩ := h l hl
    rcases ht with hq | ⟨-, hh⟩
    · by_cases he : j.id = i.id
      · refine ⟨{ j with state := .processing, updatedAt := now }, ?_, hl, .inr ⟨rfl, ?_⟩⟩
        · apply mem_of_update_true rfl hj
          simp [he, hq]
        · rw [Option.map_some, hid, he]
      · refine ⟨j, ?_, hl, .inl hq⟩
        apply mem_of_update_false rfl hj
        simp [he]
    · cases hh

theorem LocksTended.finish (h : s.LocksTended (some job)) :
    (s.finishRechunk job state error now).LocksTended none := by
  intro l hl
  obtain ⟨hl, hne⟩ := mem_delete.1 hl
  have hne := of_decide_eq_false hne
  obtain ⟨j, hj, hid, ht⟩ := h l hl
  refine ⟨j, ?_, hid, ?_⟩
  · apply mem_of_update_false rfl hj
    exact decide_eq_false (hid ▸ hne)
  · rcases ht with hq | ⟨-, hh⟩
    · exact .inl hq
    · cases hh
      exact absurd hid.symm hne

theorem LocksTended.progress (h : s.LocksTended held) :
    (s.updateRechunkProgress job now).LocksTended held := by
  intro l hl
  obtain ⟨j, hj, hid, ht⟩ := h l hl
  by_cases he : j.id = job
  · refine ⟨{ j with updatedAt := now }, ?_, hid, ht⟩
    apply mem_of_update_true rfl hj
    exact decide_eq_true he
  · exact ⟨j, mem_of_update_false rfl hj (decide_eq_false he), hid, ht⟩

end MetadataStore

theorem StoreOp.locksTended (ho : op.ofRechunkWorker = false)
    (h : StoreStep fromStr op s s') (hs : s.LocksTended held) : s'.LocksTended held := by
  cases op with
  | queueRechunk job bucket key newChunkSize now => exact hs.queue (after_eq_some.1 h)
  | claimRechunkJob => cases ho
  | finishRechunk => cases ho
  | _ => exact hs.of_eq (StoreOp.frame h .rechunks rfl)

namespace ReplicationJobs

theorem queued_tended {w w' : JobsWorld}
    (hq : w.queueReplication job source target bucket objectKeys mode accessMode now = .ok w')
    (h : ∀ r ∈ w.replicationJobs, r.Tended w.replicating) :
    w'.store = w.store ∧ w'.rechunking = w.rechunking ∧
      ∀ r ∈ w'.replicationJobs, r.Tended w'.replicating := by
  unfold JobsWorld.queueReplication at hq
  split at hq
  · cases hq
  · cases hq
  · split at hq
    · cases hq
    · split at hq
      · cases hq
        refine ⟨rfl, rfl, ?_⟩
        intro r hr
        rcases mem_insertOrIgnore.1 hr with hr | ⟨rfl, -⟩
        · exact h r hr
        · exact .queued rfl
      · cases hq

theorem claimed_tended {t : ReplicationJobs} (h : ∀ r ∈ t, r.Tended none) (now : Int) :
    ∀ r ∈ (claimReplicationJob t now).2,
      r.Tended ((claimReplicationJob t now).1.map fun r => (r.id, r.mode)) := by
  rcases hc : claimReplicationJob t now with ⟨_ | j, t'⟩
  · rw [(claimReplicationJob_none hc).2]
    exact h
  · obtain ⟨i, hi, -, hid, hmode, rfl⟩ := claimReplicationJob_some hc
    intro r hr
    rcases of_mem_update rfl hr with ⟨o, ho, hp, rfl⟩ | ⟨hr, -⟩
    · have he : o = i := eq_of_key_eq ho hi (of_decide_eq_true hp)
      subst he
      apply ReplicationJobRow.Tended.processing rfl
      rw [Option.map_some, hid, hmode]
    · exact (h r hr).of_idle _

theorem finished_tended {t : ReplicationJobs} (h : ∀ r ∈ t, r.Tended (some (job, mode)))
    (hf : error.isSome = true → mode = .oneTime) (now : Int) :
    ∀ r ∈ finishReplication t job (JobsAction.replicationOutcome mode error) error
      (mode = .automatic) now, r.Tended none := by
  intro r hr
  rcases of_mem_update rfl hr with ⟨o, ho, hp, rfl⟩ | ⟨hr, hp⟩
  · cases error with
    | some e =>
      rw [hf rfl]
      exact .ended (.inr rfl) rfl
    | none =>
      cases mode with
      | oneTime => exact .ended (.inl rfl) rfl
      | automatic => exact .scheduled rfl rfl
  · exact (h r hr).of_other (of_decide_eq_false hp)

theorem progress_tended {t : ReplicationJobs} (h : ∀ r ∈ t, r.Tended held) :
    ∀ r ∈ updateReplicationProgress t job now, r.Tended held := by
  intro r hr
  rcases of_mem_update rfl hr with ⟨o, ho, -, rfl⟩ | ⟨hr, -⟩
  · cases h o ho with
    | queued hs => exact .queued hs
    | scheduled hs hn => exact .scheduled hs hn
    | processing hs hh => exact .processing hs hh
    | ended hs hn => exact .ended hs hn
  · exact h r hr

end ReplicationJobs

theorem BackgroundStep.tended (h : BackgroundStep fromStr a w w') (hc : Uninterrupted a w)
    (hw : w.Tended) :
    w'.Tended := by
  cases a with
  | call op =>
    simp only [BackgroundStep, JobsAction.apply, Option.ite_none_left_eq_some] at h
    obtain ⟨ho, h⟩ := h
    obtain ⟨s', hs, rfl⟩ := Option.map_eq_some_iff.1 h
    exact ⟨StoreOp.locksTended (Bool.eq_false_iff.2 ho) (StoreOp.serve_eq_some hs).1 hw.locks,
      hw.replications⟩
  | saveAccount id label =>
    cases h
    exact ⟨hw.locks.of_eq ⟨rfl, rfl⟩, hw.replications⟩
  | queueReplication id source target bucket objectKeys mode accessMode now =>
    have hq := after_eq_some.1 h
    obtain ⟨hs, hr, ht⟩ := ReplicationJobs.queued_tended hq hw.replications
    refine ⟨?_, ht⟩
    rw [hs, hr]
    exact hw.locks
  | claimRechunk now =>
    simp only [BackgroundStep, JobsAction.apply, Option.ite_none_left_eq_some] at h
    obtain ⟨hn, h⟩ := h
    cases h
    have hl := hw.locks
    rw [Option.not_isSome_iff_eq_none.1 hn] at hl
    exact ⟨hl.claim now, hw.replications⟩
  | rechunkProgress now =>
    obtain ⟨job, hj, rfl⟩ := Option.map_eq_some_iff.1 h
    exact ⟨hw.locks.progress, hw.replications⟩
  | finishRechunk error now =>
    obtain ⟨job, hj, rfl⟩ := Option.map_eq_some_iff.1 h
    have hl := hw.locks
    rw [hj] at hl
    exact ⟨hl.finish, hw.replications⟩
  | claimReplication now =>
    simp only [BackgroundStep, JobsAction.apply, Option.ite_none_left_eq_some] at h
    obtain ⟨hn, h⟩ := h
    cases h
    have hr := hw.replications
    rw [Option.not_isSome_iff_eq_none.1 hn] at hr
    exact ⟨hw.locks, ReplicationJobs.claimed_tended hr now⟩
  | replicationProgress now =>
    obtain ⟨job, hj, rfl⟩ := Option.map_eq_some_iff.1 h
    exact ⟨hw.locks, ReplicationJobs.progress_tended hw.replications⟩
  | finishReplication error now =>
    obtain ⟨job, hj, rfl⟩ := Option.map_eq_some_iff.1 h
    have hr := hw.replications
    rw [hj] at hr
    exact ⟨hw.locks, ReplicationJobs.finished_tended hr (fun he => hc he job hj) now⟩
  | crash =>
    cases h
    obtain ⟨hl, hr⟩ := hw
    rw [hc.1] at hl
    rw [hc.2] at hr
    exact ⟨hl, hr⟩

theorem JobsWorld.Initial.tended {w : JobsWorld} (h : w.Initial) : w.Tended := by
  constructor
  · intro l hl
    rw [h.locks] at hl
    exact absurd hl (not_mem_empty l)
  · intro r hr
    rw [h.replications] at hr
    exact absurd hr (not_mem_empty r)

theorem ReplicationJobRow.Tended.due (h : r.Tended none)
    (hu : r.Unfinished ∨ r.nextRun.isSome = true) (hn : ∀ next ∈ r.nextRun, next ≤ now) :
    ReplicationJobs.due now r = true := by
  cases h with
  | queued hs => simp [ReplicationJobs.due, hs]
  | scheduled hs hsome =>
    obtain ⟨next, he⟩ := Option.isSome_iff_exists.1 hsome
    have hle := hn next he
    simp [ReplicationJobs.due, hs, he, hle]
  | processing _ hh => cases hh
  | ended hs hnone =>
    rcases hu with ⟨hc, hf⟩ | hsome
    · rcases hs with hs | hs
      · exact absurd hs hc
      · exact absurd hs hf
    · rw [hnone] at hsome
      cases hsome

theorem MetadataStore.LocksTended.claimable (h : s.LocksTended none) (hl : l ∈ s.rechunkLocks) :
    ∃ j ∈ s.rechunkJobs, j.id = l.jobId ∧ RechunkClaimable s j.id := by
  obtain ⟨j, hj, hid, hq | ⟨-, hh⟩⟩ := h l hl
  · exact ⟨j, hj, hid, claimable_of_queued hj hq⟩
  · cases hh

theorem JobsWorld.Tended.survives {w : JobsWorld} (h : w.Tended) (hr : w.rechunking = none)
    (hp : w.replicating = none) : w.Survives := by
  obtain ⟨hlocks, hjobs⟩ := h
  rw [hr] at hlocks
  rw [hp] at hjobs
  constructor
  · rintro j hj ⟨l, hl, he⟩
    obtain ⟨i, hi, hid, hc⟩ := hlocks.claimable hl
    rw [← he, ← hid]
    exact hc
  · intro r hr hu now hn
    exact ReplicationJobs.claimable_of_due hr ((hjobs r hr).due hu hn)
  · intro object ho
    obtain ⟨l, hl, he⟩ := contains_eq_true.1 ho
    obtain ⟨j, hj, hid, hc⟩ := hlocks.claimable hl
    exact ⟨j, hj, ⟨l, hl, he, hid.symm⟩, hc⟩

theorem jobs_survive_restarts (fromStr : String → Option ETagCondition) :
    JobsSurviveRestarts (Guarded (BackgroundStep fromStr) Uninterrupted) := by
  intro past w hr hc hp
  have hw : w.Tended := by
    apply hr.invariant (I := fun w => w.Tended)
    · intro w h
      exact h.tended
    · intro a w w' ih h
      exact BackgroundStep.tended h.1 h.2 ih
  exact hw.survives hc hp

/-- The process ends while the re-chunk of an object is under way. -/
def crashedRechunk : List JobsAction :=
  (uploadOps (emptyObject ⟨1⟩ "photos" "a") ⟨11⟩ 1).map .call ++
    [.call (.queueRechunk ⟨5⟩ "photos" "a" 1024 0), .claimRechunk 1, .crash]

def crashedRechunkRun : List JobsWorld × JobsWorld :=
  (exec (JobsAction.apply fun _ => none) [] { store := photosStore } crashedRechunk).get
    (by decide +kernel)

theorem crash_strands_rechunk : ¬ JobsSurviveRestarts (BackgroundStep fun _ => none) := by
  intro h
  have hi : JobsWorld.Initial { store := photosStore } := ⟨rfl, rfl⟩
  have hr : Run JobsWorld.Initial (BackgroundStep fun _ => none) crashedRechunkRun.1
      crashedRechunkRun.2 := Run.of_exec_isSome hi (by decide +kernel)
  have hl : crashedRechunkRun.2.store.objectRechunkLocked ⟨1⟩ = true := by decide +kernel
  obtain ⟨j, -, -, hc⟩ := (h _ _ hr rfl rfl).locks ⟨1⟩ hl
  obtain ⟨n, r, hr, -⟩ := hc 2
  have hn : (crashedRechunkRun.2.store.claimRechunkJob 2).1.isNone = true := by decide +kernel
  cases n with
  | zero => cases hr
  | succ n =>
    rw [drain] at hr
    split at hr
    · cases hr
    · rename_i hs
      rw [hs] at hn
      cases hn

end TelegramS3
