import TelegramS3.WriteRequests

namespace TelegramS3
open Relational Table Fallible Transition MetadataStore
set_option autoImplicit true

structure WriteWorld.Initial (w : WriteWorld) : Prop where
  store : EmptyStore w.store
  issued : w.issued = []
  tasks : w.tasks = []

def MetadataStore.shown (s : MetadataStore) (bucket key : String) : Option ObjectManifest :=
  ((s.activeObjectId bucket key).bind s.objectManifests.get?).map ManifestRow.manifest

/-- In every run, what a key showed before a conditional write became active met its conditions. -/
def ConditionalWritesHold (Step : WriteAction → WriteWorld → WriteWorld → Prop) : Prop :=
  ∀ past w, Run WriteWorld.Initial Step past w →
    ∀ t ∈ w.tasks, ∀ object, t.phase = .succeeded object →
      ∀ v v', [v', v] <:+: w :: past → ∀ bucket key,
        v.store.activeObjectId bucket key ≠ some object →
        v'.store.activeObjectId bucket key = some object →
        t.request.headers.Satisfied (v.store.shown bucket key)

def WriteRequest.Plain (r : WriteRequest) : Prop :=
  (r.headers.ifMatch = none ∧ r.headers.ifNoneMatch = none) ∨
    (r.entry.isPut = true ∧ (r.headers.ifMatch = none ∨ r.headers.ifNoneMatch = none))

def PlainConditions (a : WriteAction) (_ : WriteWorld) : Prop :=
  ∀ r, a = .arrive r → r.Plain

def StoreOp.attaches : StoreOp → Option Uuid
  | .insertMultipartJob row => some row.jobId
  | .queueMultipartCompletion job _ _ => some job
  | _ => none

theorem StoreOp.multipartJob_none (h : StoreStep fromStr op s s')
    (hn : s.multipartJob job = none) (ha : op.attaches ≠ some job) :
    s'.multipartJob job = none := by
  cases hp : s'.multipartJob job with
  | none => rfl
  | some part =>
    obtain ⟨r, hr, -⟩ := Option.map_eq_some_iff.1 hp
    rcases StoreOp.multipartRow_before h (mem_of_get? hr) with hm | rfl | ⟨-, upload, now, rfl⟩
    · rw [multipartJob, get?_eq_some.2 ⟨hm, key_of_get? hr⟩] at hn
      cases hn
    · exact absurd (congrArg some (key_of_get? hr)) ha
    · exact absurd (congrArg some (key_of_get? hr)) ha

/-- The job of a write, once queued, holds what the request recorded for the commit. -/
structure CarriesConditions (codec : HeaderCodec) (s : MetadataStore) (id : Uuid)
    (r : WriteRequest) : Prop where
  job : ∃ j, s.transferJobs.get? id = some j ∧
    (j.operationId = none ∧ r.entry.isPut = true ∨ j.writeConditionals = r.recorded codec)
  whole : r.entry.isPut = true → s.multipartJob id = none

/-- A call that respects what a write recorded. -/
structure StoreOp.Respects (codec : HeaderCodec) (op : StoreOp) (s : MetadataStore) (id : Uuid)
    (r : WriteRequest) : Prop where
  sets : ∀ c now, op = .setTransferConditionals id c now → c = r.recorded codec
  queues : op.queues = some id → ∀ j, s.transferJobs.get? id = some j →
    j.writeConditionals = r.recorded codec
  attaches : r.entry.isPut = true → op.attaches ≠ some id

theorem StoreOp.respects_of_quiet {op : StoreOp} {job : Uuid} {r : WriteRequest}
    (hs : ∀ c now, op ≠ .setTransferConditionals job c now) (hq : op.queues ≠ some job)
    (ha : op.attaches ≠ some job) : op.Respects codec s job r :=
  ⟨fun c now h => absurd h (hs c now), fun h => absurd h hq, fun _ => ha⟩

theorem StoreOp.respects_of_other {op : StoreOp} {job : Uuid} {r : WriteRequest}
    (h : op.configures ≠ some job) : op.Respects codec s job r := by
  refine respects_of_quiet ?_ ?_ ?_
  · rintro c now rfl
    exact h rfl
  · intro hq
    cases op with
    | queueTransfer | queueMultipartCompletion => exact h hq
    | _ => cases hq
  · intro ha
    cases op with
    | insertMultipartJob | queueMultipartCompletion => exact h ha
    | _ => cases ha

theorem CarriesConditions.step {r : WriteRequest} {job : Uuid} (h : CarriesConditions codec s job r)
    (hs : StoreStep fromStr op s s') (hr : op.Respects codec s job r) :
    CarriesConditions codec s' job r := by
  obtain ⟨⟨j, hj, hc⟩, hw⟩ := h
  have hid : j.id = job := key_of_get? hj
  obtain ⟨j', hj', hl⟩ := StoreOp.lease_step hs hj
  refine ⟨⟨j', hj', ?_⟩, fun hp => StoreOp.multipartJob_none hs (hw hp) (hr.attaches hp)⟩
  rcases hl.conditionals with hcond | ⟨c, now, ho, hcond⟩
  · rw [hcond]
    rcases hl.operation with hop | hop
    · rw [hop]
      exact hc
    · rw [hid] at hop
      exact .inr (hr.queues hop j hj)
  · rw [hid] at ho
    exact .inr (hcond.trans (hr.sets c now ho))

/-- The commit loads what the key shows and then enforces on it what the job carries. -/
theorem MetadataStore.commitConditionals_iff {s : MetadataStore} {job : Uuid}
    (hj : s.transferJobs.get? job = some j) :
    s.commitConditionals fromStr journal (some (job, lease)) = .ok () ↔
      (∀ m, s.shown journal.bucket journal.objectKey = some m → m.validate = .ok ()) ∧
      ∀ c, j.writeConditionals = some c →
        enforceWriteConditionalsSnapshot fromStr c (s.shown journal.bucket journal.objectKey) =
          .ok () := by
  have hjob : ((some (job, lease)).bind fun t =>
      (s.transferJobs.get? t.1).bind TransferJob.writeConditionals) = j.writeConditionals := by
    simp [hj]
  simp only [commitConditionals, hjob, shown]
  cases ha : s.activeObjectId journal.bucket journal.objectKey with
  | none =>
    cases hc : j.writeConditionals with
    | none => simp
    | some c => simp
  | some object =>
    simp only [bind_ok, loadManifestByObjectId_iff, Option.bind_some]
    cases hc : j.writeConditionals with
    | none => simp
    | some c => simp

theorem WriteHeaders.snapshot_enforced {h : WriteHeaders} : (∀ c, h.snapshot codec = some c →
      enforceWriteConditionalsSnapshot codec.fromStr c current = .ok ()) ↔
      h.enforce current = .ok () := by
  obtain ⟨ifMatch, ifNoneMatch⟩ := h
  cases current with
  | none =>
    cases ifMatch with
    | none => simp [snapshot, enforce, enforceWriteConditionalsSnapshot]
    | some a => simp [snapshot, enforce, enforceWriteConditionalsSnapshot]
  | some m =>
    cases ifMatch with
    | some a => simp [snapshot, enforce, enforceWriteConditionalsSnapshot, codec.roundTrip]
    | none =>
      cases ifNoneMatch with
      | some b => simp [snapshot, enforce, enforceWriteConditionalsSnapshot, codec.roundTrip]
      | none => simp [snapshot, enforce]

theorem WriteHeaders.satisfied_of_enforce {h : WriteHeaders}
    (hone : h.ifMatch = none ∨ h.ifNoneMatch = none) (hok : h.enforce current = .ok ()) :
    h.Satisfied current := by
  obtain ⟨ifMatch, ifNoneMatch⟩ := h
  cases ifMatch with
  | some a =>
    obtain rfl : ifNoneMatch = none := by simpa using hone
    refine ⟨?_, nofun⟩
    intro c hc
    cases hc
    cases current with
    | none => simp [enforce] at hok
    | some m => simpa [enforce] using hok
  | none =>
    refine ⟨fun c hc => (by cases hc), ?_⟩
    intro b hb m hm
    cases hb
    rw [hm] at hok
    simpa [enforce] using hok

theorem WriteRequest.recorded_of_put {r : WriteRequest} (h : r.entry.isPut = true) :
    r.recorded codec = r.headers.snapshot codec := by
  unfold WriteRequest.recorded
  split
  · rfl
  · rename_i he
    rw [he] at h
    cases h

theorem WriteRequest.recorded_of_completion {r : WriteRequest} (h : r.entry.isPut = false) :
    r.recorded codec = none := by
  unfold WriteRequest.recorded
  split
  · rename_i he
    rw [he] at h
    cases h
  · rfl

theorem StoreOp.publishes_of_active (hc : Coherent s)
    (ho : ∀ j ∈ s.transferJobs, j.OneId) (hs : StoreStep fromStr op s s')
    (hr : op.requested = true) (hb : s.activeObjectId bucket key ≠ some object)
    (ha : s'.activeObjectId bucket key = some object) :
    op.publishes = some object ∧ JobLeased s object := by
  obtain ⟨a, hmem, rfl⟩ := Option.map_eq_some_iff.1 ha
  rcases StoreOp.active_step hc ho hs hr (mem_of_get? hmem) with hold | ⟨hp, hl, -⟩
  · have hk : Keyed.key a = (bucket, key) := key_of_get? hmem
    refine absurd ?_ hb
    rw [activeObjectId, ← hk, mem_iff_get?.1 hold]
    rfl
  · exact ⟨hp, hl⟩

theorem CarriesConditions.satisfied {r : WriteRequest} (hk : CarriesConditions codec s object r)
    (hput : r.entry.isPut = true)
    (hone : r.headers.ifMatch = none ∨ r.headers.ifNoneMatch = none) (hc : Coherent s)
    (ho : ∀ j ∈ s.transferJobs, j.OneId) (hs : StoreStep codec.fromStr op s s')
    (hr : op.requested = true) (hb : s.activeObjectId bucket key ≠ some object)
    (ha : s'.activeObjectId bucket key = some object) :
    r.headers.Satisfied (s.shown bucket key) := by
  obtain ⟨hp, -⟩ := StoreOp.publishes_of_active hc ho hs hr hb ha
  cases op with
  | commitManifest => cases hr
  | finishPartJob id lease now =>
    cases hp
    obtain ⟨part, hpart, -⟩ := Option.bind_eq_some_iff.1 hs
    rw [hk.whole hput] at hpart
    cases hpart
  | commitTransferManifest id lease published now =>
    cases hp
    obtain ⟨⟨m', s₁⟩, hcm, rfl⟩ := map_ok.1 (after_eq_some.1 hs)
    obtain ⟨e, he, ⟨-, rfl⟩ | ⟨m, hm, hf, ⟨hcond, -⟩, hst⟩⟩ := commitManifestInner_ok hcm
    · exact absurd ha hb
    · obtain ⟨j, hj, hjc⟩ := hk.job
      obtain ⟨i, hi, hcomp⟩ := commitFence_completes hf
      obtain rfl : j = i := Option.some.inj (hj.symm.trans hi)
      obtain ⟨hop, -⟩ := completes_operation hf (mem_of_get? hj) hcomp
      have hw : j.writeConditionals = r.headers.snapshot codec := by
        rw [hop] at hjc
        rw [← WriteRequest.recorded_of_put hput]
        exact hjc.resolve_left fun h => by cases h.1
      obtain ⟨row, hrow, -, hmb, hmk⟩ := commitSubject_row hc he hm
      have hkeys := hc.keys e (mem_of_get? he) row (mem_of_get? hrow)
        ((key_of_get? hrow).trans (key_of_get? he).symm)
      have hkey : e.details.bucket = bucket ∧ e.details.objectKey = key := by
        by_contra hne
        rw [← hkeys.1, ← hkeys.2, ← hmb, ← hmk] at hne
        have hact := s.publishManifest_activeObjectId object m now bucket key
        rw [if_neg hne] at hact
        apply hb
        rw [← hact, ← ha]
        rcases hst with ⟨-, rfl⟩ | ⟨upload, -, rfl⟩ <;> rfl
      apply WriteHeaders.satisfied_of_enforce hone
      apply WriteHeaders.snapshot_enforced.1
      intro c hc
      rw [← hkey.1, ← hkey.2]
      exact ((commitConditionals_iff hj).1 hcond).2 c (hw.trans hc)
  | _ => cases hp

def WritePhase.Sound (codec : HeaderCodec) (s : MetadataStore) (issued : List (Uuid × WriteRequest))
    (r : WriteRequest) : WritePhase → Prop
  | .arrived | .failed => True
  | .accepted => r.entry.isPut = true
  | .planned _ | .composed _ => r.entry.isPut = false
  | .receiving objectId built =>
    (objectId, r) ∈ issued ∧ ∀ m, built = some m → m.objectId = objectId
  | .staged m => (m.objectId, r) ∈ issued
  | .conditioned m => (m.objectId, r) ∈ issued ∧
      ∀ j, s.transferJobs.get? m.objectId = some j → j.writeConditionals = r.recorded codec
  | .waiting object _ _ | .succeeded object => r.entry.isPut = true → (object, r) ∈ issued

namespace WritePhase
variable {phase : WritePhase} {r : WriteRequest}

theorem Sound.step (h : phase.Sound codec s issued r) (hs : StoreStep fromStr op s s')
    (hr : ∀ p ∈ issued, op.Respects codec s p.1 p.2)
    (hk : ∀ p ∈ issued, CarriesConditions codec s p.1 p.2) : phase.Sound codec s' issued r := by
  cases phase with
  | conditioned m =>
    refine ⟨h.1, fun j' hj' => ?_⟩
    obtain ⟨⟨j, hj, -⟩, -⟩ := hk _ h.1
    obtain ⟨i, hi, hl⟩ := StoreOp.lease_step hs hj
    obtain rfl : i = j' := Option.some.inj (hi.symm.trans hj')
    rcases hl.conditionals with hc | ⟨c, now, ho, hc⟩
    · exact hc.trans (h.2 j hj)
    · rw [show j.id = m.objectId from key_of_get? hj] at ho
      exact hc.trans ((hr _ h.1).sets c now ho)
  | _ => exact h

theorem Sound.issue (h : phase.Sound codec s issued r) (new : List (Uuid × WriteRequest)) :
    phase.Sound codec s (new ++ issued) r := by
  cases phase with
  | receiving | conditioned => exact ⟨List.mem_append_right _ h.1, h.2⟩
  | staged => exact List.mem_append_right _ h
  | waiting | succeeded => exact fun hp => List.mem_append_right _ (h hp)
  | _ => exact h

end WritePhase

structure WriteWorld.Sound (codec : HeaderCodec) (w : WriteWorld) : Prop where
  coherent : Coherent w.store
  oneId : ∀ j ∈ w.store.transferJobs, j.OneId
  distinct : (w.issued.map Prod.fst).Nodup
  kept : ∀ p ∈ w.issued, CarriesConditions codec w.store p.1 p.2
  plain : ∀ t ∈ w.tasks, t.request.Plain
  phases : ∀ t ∈ w.tasks, t.phase.Sound codec w.store w.issued t.request

theorem WriteWorld.Sound.request_eq {w : WriteWorld} (h : w.Sound codec) {p q : Uuid × WriteRequest}
    (hp : p ∈ w.issued) (hq : q ∈ w.issued) (he : p.1 = q.1) : p = q :=
  List.inj_on_of_nodup_map h.distinct hp hq he

theorem WriteWorld.fresh_eq_true {w : WriteWorld} {objectId : Uuid}
    (h : w.fresh objectId = true) : (∀ p ∈ w.issued, p.1 ≠ objectId) ∧
      w.store.transferJobs.get? objectId = none ∧ w.store.multipartJobs.get? objectId = none := by
  simp only [WriteWorld.fresh, Table.contains, Bool.and_eq_true, Bool.not_eq_true',
    Option.isSome_eq_false_iff, Option.isNone_iff_eq_none] at h
  refine ⟨?_, h.1.1.2, h.2⟩
  rintro p hp rfl
  have hm : (w.issued.map Prod.fst).contains p.1 = true :=
    List.elem_iff.2 (List.mem_map_of_mem hp)
  rw [h.1.1.1] at hm
  cases hm

structure WriteTask.Advances (codec : HeaderCodec) (w : WriteWorld) (s' : MetadataStore)
    (t : WriteTask) (mv : WriteMove) (op : StoreOp) (phase : WritePhase) : Prop where
  requested : op.requested = true
  respects : ∀ p ∈ w.issued, op.Respects codec w.store p.1 p.2
  kept : ∀ objectId ∈ mv.takes, CarriesConditions codec s' objectId t.request
  phase : phase.Sound codec s' (mv.takes.map (·, t.request) ++ w.issued) t.request
  quiet : mv.takes ≠ [] → op.publishes = none

theorem WriteRequest.manifest_objectId {r : WriteRequest}
    (h : r.manifest cfg objectId body now = some m) : m.objectId = objectId := by
  unfold WriteRequest.manifest at h
  split at h
  · cases h
    rfl
  · cases h

theorem setTransferConditionals_job {s s' : MetadataStore} {job : Uuid}
    (h : s.setTransferConditionals job c now = .ok s') :
    ∀ j, s'.transferJobs.get? job = some j → j.writeConditionals = c := by
  obtain ⟨hany, rfl⟩ := updateJob_ok h
  obtain ⟨i, hg, hstate⟩ := any_receivingJob hany
  have hr : receivingJob job i = true := receivingJob_iff.2 ⟨key_of_get? hg, hstate⟩
  intro j hj
  simp only [get?_modify, hg, Option.map_some, hr, if_true, Option.some.injEq] at hj
  rw [← hj]

theorem begin_advances {w : WriteWorld} {t : WriteTask} (hf : w.fresh objectId = true)
    (hs : StoreStep fromStr (.beginTransfer objectId bucket key time) w.store s')
    (hr : t.request.entry.isPut = true ∨ t.request.recorded codec = none)
    (hb : ∀ m, built = some m → m.objectId = objectId) :
    t.Advances codec w s' (.begin objectId now) (.beginTransfer objectId bucket key time)
      (.receiving objectId built) := by
  obtain ⟨hi, hj, hm⟩ := WriteWorld.fresh_eq_true hf
  obtain ⟨-, rfl⟩ := beginTransfer_ok (after_eq_some.1 hs)
  refine ⟨rfl, ?_, ?_, ⟨List.mem_append_left _ List.mem_cons_self, hb⟩, fun _ => rfl⟩
  · intro p hp
    apply StoreOp.respects_of_other
    intro he
    exact hi p hp (Option.some.inj he).symm
  · intro id hid
    obtain rfl := List.mem_singleton.1 hid
    refine ⟨⟨w.store.newJob id bucket key time, ?_, ?_⟩, fun _ => ?_⟩
    · simp [hj, Keyed.key, newJob]
    · rcases hr with hp | hr
      · exact .inl ⟨rfl, hp⟩
      · exact .inr hr.symm
    · simp [multipartJob, hm]

theorem WriteTask.step_advances {w : WriteWorld} {t : WriteTask} {next : WritePhase}
    (hw : w.Sound codec) (ht : t ∈ w.tasks) (hstep : t.step codec cfg mv = some (op, next))
    (hf : ∀ objectId ∈ mv.takes, w.fresh objectId = true)
    (hs : StoreStep codec.fromStr op w.store s') : t.Advances codec w s' mv op next := by
  have hph := hw.phases t ht
  have hown : ∀ {id}, (id, t.request) ∈ w.issued → ∀ p ∈ w.issued, p.1 = id → p.2 = t.request :=
    fun hid p hp he => congrArg Prod.snd (hw.request_eq hp hid he)
  have hquiet : ∀ {op : StoreOp}, op.queues = none → op.attaches = none →
      (∀ id c now, op ≠ .setTransferConditionals id c now) →
      ∀ p ∈ w.issued, op.Respects codec w.store p.1 p.2 := by
    intro op hq ha hset p _
    refine StoreOp.respects_of_quiet (hset p.1) ?_ ?_
    · simp [hq]
    · simp [ha]
  unfold WriteTask.step at hstep
  split at hstep
  · rename_i hp
    rw [hp] at hph
    cases hstep
    exact begin_advances (hf _ List.mem_cons_self) hs (.inl hph) nofun
  · rename_i m objectId now hp
    rw [hp] at hph
    split at hstep
    · rename_i he
      cases hstep
      refine begin_advances (hf _ List.mem_cons_self) hs
        (.inr (WriteRequest.recorded_of_completion hph)) ?_
      intro m' hm'
      cases hm'
      exact he.symm
    · cases hstep
  · rename_i hp
    rw [hp] at hph
    cases hstep
    exact ⟨rfl, hquiet rfl rfl fun _ _ _ he => (by cases he), fun _ hid => (by cases hid), hph,
      fun _ => rfl⟩
  · rename_i objectId built body now hp
    rw [hp] at hph
    obtain ⟨m, hm, he⟩ := Option.map_eq_some_iff.1 hstep
    cases he
    refine ⟨rfl, hquiet rfl rfl fun _ _ _ he => (by cases he), fun _ hid => (by cases hid), ?_,
      fun _ => rfl⟩
    have hid : m.objectId = objectId := by
      rcases Option.or_eq_some_iff.1 hm with hb | ⟨-, hr⟩
      · exact hph.2 m hb
      · exact WriteRequest.manifest_objectId hr
    rw [← hid] at hph
    exact hph.1
  · rename_i m now hp
    rw [hp] at hph
    split at hstep
    · rename_i he
      cases hstep
      have hput : t.request.entry.isPut = true := by rw [he]; rfl
      refine ⟨rfl, ?_, fun _ hid => (by cases hid), ⟨hph, ?_⟩, fun _ => rfl⟩
      · intro p hpi
        refine ⟨?_, fun hq => (by cases hq), fun _ ha => (by cases ha)⟩
        intro c now' hc
        obtain ⟨he, rfl, -⟩ := StoreOp.setTransferConditionals.inj hc
        rw [hown hph p hpi he.symm, WriteRequest.recorded_of_put hput]
      · rw [WriteRequest.recorded_of_put hput]
        exact setTransferConditionals_job (after_eq_some.1 hs)
    · cases hstep
  · rename_i m now hp
    rw [hp] at hph
    split at hstep
    · rename_i uploadId numbers he
      cases hstep
      have hput : t.request.entry.isPut = false := by rw [he]; rfl
      refine ⟨rfl, ?_, fun _ hid => (by cases hid), fun hp' => ?_, fun _ => rfl⟩
      · intro p hpi
        refine ⟨fun _ _ hc => (by cases hc), ?_, ?_⟩
        · intro hq j hj
          obtain ⟨i, hi, hc⟩ := (hw.kept p hpi).job
          obtain rfl : i = j := Option.some.inj (hi.symm.trans hj)
          refine hc.resolve_left fun hc => ?_
          rw [hown hph p hpi (Option.some.inj hq).symm, hput] at hc
          cases hc.2
        · intro hpp ha
          rw [hown hph p hpi (Option.some.inj ha).symm, hput] at hpp
          cases hpp
      · rw [hput] at hp'
        cases hp'
    · cases hstep
  · rename_i m now hp
    rw [hp] at hph
    cases hstep
    refine ⟨rfl, ?_, fun _ hid => (by cases hid), fun _ => hph.1, fun _ => rfl⟩
    intro p hpi
    refine ⟨fun _ _ hc => (by cases hc), ?_, fun _ ha => (by cases ha)⟩
    intro hq j hj
    have he := (Option.some.inj hq).symm
    rw [he] at hj
    rw [hown hph.1 p hpi he]
    exact hph.2 j hj
  · cases hstep
    exact ⟨rfl, hquiet rfl rfl fun _ _ _ he => (by cases he), fun _ hid => (by cases hid),
      trivial, fun _ => rfl⟩
  · cases hstep
    exact ⟨rfl, hquiet rfl rfl fun _ _ _ he => (by cases he), fun _ hid => (by cases hid),
      trivial, fun _ => rfl⟩
  · cases hstep
    exact ⟨rfl, hquiet rfl rfl fun _ _ _ he => (by cases he), fun _ hid => (by cases hid),
      trivial, fun _ => rfl⟩
  · cases hstep

theorem WriteRequest.frontDoor_ok {r : WriteRequest}
    (h : r.frontDoor s now = .ok next) : next.Sound codec s issued r := by
  unfold WriteRequest.frontDoor at h
  split at h
  · rename_i he
    obtain ⟨_, -, h⟩ := bind_ok.1 h
    obtain ⟨_, -, h⟩ := bind_ok.1 h
    obtain ⟨_, -, h⟩ := bind_ok.1 h
    cases h
    simp [WritePhase.Sound, he, WriteEntry.isPut]
  · rename_i he
    split at h
    · cases h
    · obtain ⟨_, -, h⟩ := bind_ok.1 h
      obtain ⟨_, -, h⟩ := bind_ok.1 h
      obtain ⟨_, -, h⟩ := bind_ok.1 h
      cases h
      simp [WritePhase.Sound, he, WriteEntry.isPut]

theorem WriteTask.read_request (t : WriteTask) :
    (t.read cfg sha256Hex s rd).request = t.request := by
  unfold WriteTask.read
  repeat' split
  all_goals rfl

theorem WriteTask.read_sound {t : WriteTask} (h : t.phase.Sound codec s issued t.request) :
    (t.read cfg sha256Hex s rd).phase.Sound codec s issued t.request := by
  unfold WriteTask.read
  split
  · split
    · rename_i hn
      exact WriteRequest.frontDoor_ok hn
    · trivial
  · rename_i hp
    rw [hp] at h
    have hnot : t.request.entry.isPut ≠ true := by rw [h]; exact Bool.false_ne_true
    split
    · trivial
    · trivial
    · exact fun hput => absurd hput hnot
    · exact fun hput => absurd hput hnot
    · exact h
  · rename_i hp
    rw [hp] at h
    split
    · exact h
    · trivial
    · exact h
  · exact h

namespace WriteWorld
variable {w w' : WriteWorld}

theorem Sound.store (h : w.Sound codec) (hs : StoreStep codec.fromStr op w.store s')
    (ho : WritesOwnManifest op w.store)
    (hr : ∀ p ∈ w.issued, op.Respects codec w.store p.1 p.2) :
    { w with store := s' }.Sound codec :=
  ⟨h.coherent.step hs ho, StoreOp.oneId_step h.oneId hs, h.distinct,
    fun p hp => (h.kept p hp).step hs (hr p hp), h.plain,
    fun t ht => (h.phases t ht).step hs hr h.kept⟩

theorem Initial.sound (h : w.Initial) : w.Sound codec := by
  refine ⟨h.store.objects.coherent, ?_, ?_, ?_, ?_, ?_⟩
  · simp [h.store.jobs]
  · simp [h.issued]
  · simp [h.issued]
  · simp [h.tasks]
  · simp [h.tasks]

inductive Effect (codec : HeaderCodec) (w w' : WriteWorld) : Prop where
  | none : w'.store = w.store → w'.issued = w.issued → Effect codec w w'
  | call (op : StoreOp) (new : List (Uuid × WriteRequest)) : op.requested = true →
      StoreStep codec.fromStr op w.store w'.store → w'.issued = new ++ w.issued →
      (∀ p ∈ new, op.publishes = .none ∧ w.store.transferJobs.get? p.1 = .none) →
      Effect codec w w'

theorem Sound.step (h : w.Sound codec)
    (hs : Guarded (WriteStep codec cfg sha256Hex) PlainConditions a w w') :
    w'.Sound codec ∧ Effect codec w w' := by
  obtain ⟨hs, hplain⟩ := hs
  cases a with
  | call op =>
    simp only [WriteStep, WriteAction.apply, Option.ite_none_right_eq_some,
      Option.map_eq_some_iff] at hs
    obtain ⟨hg, s', hserve, rfl⟩ := hs
    obtain ⟨hs, ho⟩ := StoreOp.serve_eq_some hserve
    simp only [Bool.and_eq_true, Bool.not_eq_true'] at hg
    refine ⟨h.store hs ho ?_, .call op [] hg.1 hs rfl nofun⟩
    intro p hp
    apply StoreOp.respects_of_other
    intro hc
    have hm : (w.issued.map Prod.fst).contains p.1 = true :=
      List.elem_iff.2 (List.mem_map_of_mem hp)
    rw [hc, Option.any_some, hm] at hg
    cases hg.2
  | arrive r =>
    cases hs
    refine ⟨⟨h.coherent, h.oneId, h.distinct, h.kept, ?_, ?_⟩, .none rfl rfl⟩
    · intro t ht
      rcases List.mem_append.1 ht with ht | ht
      · exact h.plain t ht
      · rw [List.mem_singleton.1 ht]
        exact hplain r rfl
    · intro t ht
      rcases List.mem_append.1 ht with ht | ht
      · exact h.phases t ht
      · rw [List.mem_singleton.1 ht]
        trivial
  | read i rd =>
    obtain ⟨t, ht, rfl⟩ := Option.map_eq_some_iff.1 hs
    have htm := List.mem_of_getElem? ht
    refine ⟨⟨h.coherent, h.oneId, h.distinct, h.kept, ?_, ?_⟩, .none rfl rfl⟩
    · intro u hu
      rcases List.mem_or_eq_of_mem_set hu with hu | rfl
      · exact h.plain u hu
      · rw [WriteTask.read_request]
        exact h.plain t htm
    · intro u hu
      rcases List.mem_or_eq_of_mem_set hu with hu | rfl
      · exact h.phases u hu
      · rw [WriteTask.read_request]
        exact WriteTask.read_sound (h.phases t htm)
  | run i mv =>
    simp only [WriteStep, WriteAction.apply, Option.ite_none_right_eq_some] at hs
    obtain ⟨hf, hs⟩ := hs
    obtain ⟨t, ht, hs⟩ := Option.bind_eq_some_iff.1 hs
    obtain ⟨⟨op, next⟩, hstep, hs⟩ := Option.bind_eq_some_iff.1 hs
    obtain ⟨s', hserve, rfl⟩ := Option.map_eq_some_iff.1 hs
    obtain ⟨hs, ho⟩ := StoreOp.serve_eq_some hserve
    have htm := List.mem_of_getElem? ht
    have hfresh := List.all_eq_true.1 hf
    have hadv := WriteTask.step_advances h htm hstep hfresh hs
    have hw := h.store hs ho hadv.respects
    have hnew : ∀ p ∈ mv.takes.map (·, t.request), p.1 ∈ mv.takes ∧ p.2 = t.request := by
      intro p hp
      obtain ⟨id, hid, rfl⟩ := List.mem_map.1 hp
      exact ⟨hid, rfl⟩
    refine ⟨⟨hw.coherent, hw.oneId, ?_, ?_, ?_, ?_⟩, .call op _ hadv.requested hs rfl ?_⟩
    · cases mv with
      | begin objectId now =>
        refine List.nodup_cons.2 ⟨?_, h.distinct⟩
        intro hm
        obtain ⟨p, hp, he⟩ := List.mem_map.1 hm
        exact (fresh_eq_true (hfresh objectId List.mem_cons_self)).1 p hp he
      | _ => exact h.distinct
    · intro p hp
      rcases List.mem_append.1 hp with hp | hp
      · rw [(hnew p hp).2]
        exact hadv.kept p.1 (hnew p hp).1
      · exact hw.kept p hp
    · intro u hu
      rcases List.mem_or_eq_of_mem_set hu with hu | rfl
      · exact h.plain u hu
      · exact h.plain t htm
    · intro u hu
      rcases List.mem_or_eq_of_mem_set hu with hu | rfl
      · exact (hw.phases u hu).issue _
      · exact hadv.phase
    · intro p hp
      have hid := (hnew p hp).1
      exact ⟨hadv.quiet (List.ne_nil_of_mem hid), (fresh_eq_true (hfresh p.1 hid)).2.1⟩

def Becomes (v v' : WriteWorld) (object : Uuid) (bucket key : String) : Prop :=
  v.store.activeObjectId bucket key ≠ some object ∧
    v'.store.activeObjectId bucket key = some object

structure Trail (codec : HeaderCodec) (states : List WriteWorld) (w : WriteWorld) : Prop where
  sound : w.Sound codec
  known : ∀ v v', [v', v] <:+: states → ∀ object bucket key, Becomes v v' object bucket key →
    ∃ j, w.store.transferJobs.get? object = some j
  held : ∀ p ∈ w.issued, p.2.entry.isPut = true →
    (p.2.headers.ifMatch = none ∨ p.2.headers.ifNoneMatch = none) →
    ∀ v v', [v', v] <:+: states → ∀ bucket key, Becomes v v' p.1 bucket key →
      p.2.headers.Satisfied (v.store.shown bucket key)

theorem Initial.trail (h : w.Initial) : Trail codec [w] w := by
  have hno : ∀ v v' : WriteWorld, ¬ [v', v] <:+: [w] := by
    intro v v' hi
    have hl := hi.length_le
    simp at hl
  exact ⟨h.sound, fun v v' hi => absurd hi (hno v v'), fun p hp _ _ v v' hi => absurd hi (hno v v')⟩

theorem pair_infix (h : [v', v] <:+: w' :: w :: past) :
    (v' = w' ∧ v = w) ∨ [v', v] <:+: w :: past := by
  rcases List.infix_cons_iff.1 h with h | h
  · left
    simpa using h
  · exact .inr h

theorem Trail.step (h : Trail codec (w :: past) w) (hw : w'.Sound codec)
    (he : Effect codec w w') : Trail codec (w' :: w :: past) w' := by
  cases he with
  | none hst his =>
    have hold : ∀ v v', [v', v] <:+: w' :: w :: past → ∀ object bucket key,
        Becomes v v' object bucket key → [v', v] <:+: w :: past := by
      intro v v' hi object bucket key hb
      rcases pair_infix hi with ⟨rfl, rfl⟩ | hi
      · rw [Becomes, hst] at hb
        exact absurd hb.2 hb.1
      · exact hi
    refine ⟨hw, ?_, ?_⟩
    · intro v v' hi object bucket key hb
      rw [hst]
      exact h.known v v' (hold v v' hi object bucket key hb) object bucket key hb
    · intro p hp hput hone v v' hi bucket key hb
      rw [his] at hp
      exact h.held p hp hput hone v v' (hold v v' hi p.1 bucket key hb) bucket key hb
  | call op new hr hs his hnew =>
    have hpub : ∀ object bucket key, Becomes w w' object bucket key →
        op.publishes = some object ∧ JobLeased w.store object := fun object bucket key hb =>
      StoreOp.publishes_of_active h.sound.coherent h.sound.oneId hs hr hb.1 hb.2
    refine ⟨hw, ?_, ?_⟩
    · intro v v' hi object bucket key hb
      have hj : ∃ j, w.store.transferJobs.get? object = some j := by
        rcases pair_infix hi with ⟨rfl, rfl⟩ | hi
        · obtain ⟨-, j, hj, -⟩ := hpub object bucket key hb
          exact ⟨j, hj⟩
        · exact h.known v v' hi object bucket key hb
      obtain ⟨j, hj⟩ := hj
      obtain ⟨j', hj', -⟩ := StoreOp.job_step hs hj
      exact ⟨j', hj'⟩
    · intro p hp hput hone v v' hi bucket key hb
      rw [his] at hp
      rcases List.mem_append.1 hp with hp | hp
      · obtain ⟨hnone, hjob⟩ := hnew p hp
        rcases pair_infix hi with ⟨rfl, rfl⟩ | hi
        · rw [hnone] at hpub
          cases (hpub p.1 bucket key hb).1
        · obtain ⟨j, hj⟩ := h.known v v' hi p.1 bucket key hb
          rw [hjob] at hj
          cases hj
      · rcases pair_infix hi with ⟨rfl, rfl⟩ | hi
        · exact (h.sound.kept p hp).satisfied hput hone h.sound.coherent h.sound.oneId hs hr
            hb.1 hb.2
        · exact h.held p hp hput hone v v' hi bucket key hb

end WriteWorld

open WriteWorld

theorem conditional_writes_hold (codec : HeaderCodec) (cfg : ServiceConfig)
    (sha256Hex : List UInt8 → String) :
    ConditionalWritesHold (Guarded (WriteStep codec cfg sha256Hex) PlainConditions) := by
  intro past w hr t ht object hp v v' hi bucket key hb ha
  have htrail : Trail codec (w :: past) w := by
    refine hr.history_invariant (I := fun past w => Trail codec (w :: past) w) ?_ ?_
    · intro w hw
      exact hw.trail
    · intro past a w w' h hs
      obtain ⟨hw, he⟩ := h.sound.step hs
      exact h.step hw he
  rcases htrail.sound.plain t ht with ⟨hm, hn⟩ | ⟨hput, hone⟩
  · simp [WriteHeaders.Satisfied, hm, hn]
  · have hph := htrail.sound.phases t ht
    rw [hp] at hph
    exact htrail.held _ (hph hput) hput hone v v' hi bucket key ⟨hb, ha⟩

def quoteMark : Char := Char.ofNat 34

def httpCodec : HeaderCodec where
  toHttpHeader
    | .any => "*"
    | .etag (.strong value) => String.ofList (quoteMark :: value.toList ++ [quoteMark])
    | .etag (.weak value) => String.ofList ('W' :: '/' :: quoteMark :: value.toList ++ [quoteMark])
  fromStr raw :=
    match raw.toList with
    | [] => none
    | c :: rest =>
      if c = quoteMark then some (.etag (.strong (String.ofList rest.dropLast)))
      else if c = '*' then some .any
      else some (.etag (.weak (String.ofList (rest.drop 2).dropLast)))
  roundTrip c := by
    have hstar : '*' ≠ quoteMark := by decide
    have hweak : 'W' ≠ quoteMark := by decide
    match c with
    | .any => simp [hstar]
    | .etag (.strong value) => simp
    | .etag (.weak value) => simp [hweak]

/-- An upload with one part, and a completion that asks for the key to be free. -/
def partOps : List StoreOp :=
  let now := (instant 1).unixTimestamp
  [.createMultipartSession
      { uploadId := ⟨9⟩, bucket := "photos", key := "a.jpg", versionId := none
        contentType := "application/octet-stream", checksumAlgorithm := "sha256"
        expiresAt := none, state := .initiated, createdAt := instant 1, updatedAt := instant 1 }
      (instant 1),
    .beginTransfer ⟨1⟩ "photos" "a.jpg" now,
    .insertMultipartJob
      { jobId := ⟨1⟩, uploadId := ⟨9⟩, partNumber := 1, expectedChecksum := none },
    .stageManifest .put (emptyObject ⟨1⟩ "photos" "a.jpg") (instant 1),
    .queueTransfer ⟨1⟩ 0 now, .claimTransfer now ⟨7⟩, .enterCommitting ⟨1⟩ ⟨7⟩ now,
    .finishPartJob ⟨1⟩ ⟨7⟩ (instant 1)]

def freeKeyCompletion : WriteRequest :=
  { entry := .completeMultipartUpload ⟨9⟩ [1], bucket := "photos", key := "a.jpg"
    headers := { ifNoneMatch := some .any } }

/-- Another upload is committed after the completion has passed the front door. -/
def racingCompletion : List WriteAction :=
  let now := (instant 4).unixTimestamp
  partOps.map .call ++ [.arrive freeKeyCompletion, .read 0 (.frontDoor (instant 2))] ++
    (uploadOps (emptyObject ⟨2⟩ "photos" "a.jpg") ⟨8⟩ 3).map .call ++
    [.read 0 (.compose (instant 4)), .run 0 (.begin ⟨9⟩ now), .run 0 (.stage {} (instant 4)),
      .run 0 (.queue (instant 4)), .call (.claimTransfer now ⟨5⟩),
      .call (.enterCommitting ⟨9⟩ ⟨5⟩ now)]

def sampleWrite : WriteAction → WriteWorld → Option WriteWorld :=
  WriteAction.apply httpCodec sampleConfig fun _ => "c0ffee"

def racingRun : List WriteWorld × WriteWorld :=
  (exec sampleWrite [] { store := photosStore } racingCompletion).get (by decide)

def completionCommit : WriteAction :=
  .call (.commitTransferManifest ⟨9⟩ ⟨5⟩
    { emptyObject ⟨9⟩ "photos" "a.jpg" with
      versionId := some (Uuid.text ⟨9⟩), createdAt := instant 4
      checksum := { algorithm := "sha256-parts-v1", wholeObject := "c0ffee" }
      telegram := { peerId := "-1001", messageId := 42, documentId := some "d42" } } (instant 4))

def afterCompletion : WriteWorld :=
  (sampleWrite completionCommit racingRun.2).get (by decide)

def answeredRun : List WriteWorld × WriteWorld :=
  (exec sampleWrite (racingRun.2 :: racingRun.1) afterCompletion
    [.read 0 .wait, .read 0 .wait, .read 0 .wait]).get (by decide)

/-- The completion succeeds and replaces an object, although it asked for none to be there. -/
theorem completion_replaces_despite_if_none_match :
    ¬ ConditionalWritesHold (WriteStep httpCodec sampleConfig fun _ => "c0ffee") := by
  intro h
  have hi : WriteWorld.Initial { store := photosStore } :=
    ⟨⟨⟨rfl, rfl, rfl⟩, rfl, rfl⟩, rfl, rfl⟩
  have hr : Run WriteWorld.Initial (fun a w w' => sampleWrite a w = some w') racingRun.1
      racingRun.2 := Run.of_exec_isSome hi (by decide)
  have hs : sampleWrite completionCommit racingRun.2 = some afterCompletion :=
    (Option.some_get _).symm
  have he : exec sampleWrite (racingRun.2 :: racingRun.1) afterCompletion
      [.read 0 .wait, .read 0 .wait, .read 0 .wait] = some answeredRun := (Option.some_get _).symm
  have hw := Run.of_exec (.step hr hs) he
  have hpair : [afterCompletion, racingRun.2] <:+: answeredRun.2 :: answeredRun.1 :=
    (List.prefix_append [_, _] racingRun.1).isInfix.trans (exec_suffix he).isInfix
  have hdone : ∃ t, answeredRun.2.tasks[0]? = some t ∧ t.request = freeKeyCompletion ∧
      t.phase = .succeeded ⟨9⟩ := ⟨_, rfl, rfl, rfl⟩
  obtain ⟨t, ht, hreq, hp⟩ := hdone
  have hold : racingRun.2.store.activeObjectId "photos" "a.jpg" = some ⟨2⟩ := by decide
  have hnew : afterCompletion.store.activeObjectId "photos" "a.jpg" = some ⟨9⟩ := by decide
  have hsat := h _ _ hw t (List.mem_of_getElem? ht) ⟨9⟩ hp _ _ hpair "photos" "a.jpg"
    (by rw [hold]; decide) hnew
  rw [hreq] at hsat
  obtain ⟨m, hm⟩ : ∃ m, racingRun.2.store.shown "photos" "a.jpg" = some m := ⟨_, rfl⟩
  cases hsat.2 .any rfl m hm

end TelegramS3
