import TelegramS3.ActiveJobs
import TelegramS3.Tombstones
import TelegramS3.Waiting

namespace TelegramS3
open Relational Table Fallible Transition MetadataStore
set_option autoImplicit true

/-- Who replaces a version by another object: a move to another key, or a re-chunk job. -/
inductive ReplaceKind where
  | move (sourceBucket destinationBucket destinationKey : String)
  | rechunk (job : RechunkJobRow)

inductive ReplacePhase where
  | planned
  | receiving (m : ObjectManifest)
  | staged (m : ObjectManifest)
  | conditioned (m : ObjectManifest)
  | waiting (replacement : Uuid) (st : WaitState)
  | removing (replacement : Uuid)
  | finishing (replacement : Uuid)
  | done (replacement : Option Uuid)

def ReplacePhase.replacement : ReplacePhase → Option Uuid
  | .planned => none
  | .receiving m | .staged m | .conditioned m => some m.objectId
  | .waiting replacement _ | .removing replacement | .finishing replacement => some replacement
  | .done replacement => replacement

/-- One version that `handle_move_objects` or `process_rechunk_job` replaces and then removes. -/
structure ReplaceTask where
  kind : ReplaceKind
  source : ObjectManifest
  phase : ReplacePhase := .planned

structure RechunkedBody where
  chunks : List ChunkRef := []
  wholeChecksum : String := ""

inductive ReplaceMove where
  | begin (objectId : Uuid) (body : RechunkedBody) (now : OffsetDateTime)
  | reserve (bytes budget : Nat) (now : Int)
  | stage (now : OffsetDateTime)
  | setConditionals (now : Int)
  | queue (now : Int)
  | fail (filesRemoved : Bool) (message : String) (now : Int)
  | remove (now : OffsetDateTime)
  | finish (now : Int)
  | giveUp (error : String) (now : Int)

def ReplaceTask.build (cfg : ServiceConfig) (t : ReplaceTask) (objectId : Uuid)
    (body : RechunkedBody) (now : OffsetDateTime) : Option ObjectManifest :=
  match t.kind with
  | .move _ bucket key =>
    let m := cfg.movedManifest t.source objectId bucket key
    (after m.validate).map fun _ => m
  | .rechunk _ => some (cfg.newManifest
      { objectId, bucket := t.source.bucket, key := t.source.key
        contentType := t.source.contentType, expiresAt := t.source.expiresAt
        chunks := body.chunks, wholeChecksum := body.wholeChecksum } now)

def ReplaceTask.conditionals (t : ReplaceTask) : Option TransferWriteConditionals :=
  match t.kind with
  | .move .. => some { ifMatch := none, ifNoneMatch := some "*" }
  | .rechunk _ => none

def ReplaceTask.removal (t : ReplaceTask) (s : MetadataStore) (now : OffsetDateTime) :
    Option StoreOp :=
  match t.kind with
  | .move bucket _ _ =>
    if t.source.key.toList.getLast? = some '/' then
      if s.folderOccupied bucket t.source.key then none
      else some (.deleteActiveKey bucket t.source.key "deleted via admin" {} now)
    else some (.deleteActiveKey bucket t.source.key "deleted via S3" {} now)
  | .rechunk job => some (.tombstoneManifest job.objectId "replaced by re-chunking" {} now)

def ReplaceTask.record (t : ReplaceTask) (state : RechunkState) (error : Option String)
    (now : Int) : Option (StoreOp × ReplaceTask) :=
  match t.kind with
  | .rechunk job =>
    some (.finishRechunk job.id state error now, { t with phase := .done t.phase.replacement })
  | .move .. => none

def ReplaceTask.step (cfg : ServiceConfig) (t : ReplaceTask) (s : MetadataStore) (mv : ReplaceMove) :
    Option (StoreOp × ReplaceTask) :=
  match t.phase, mv with
  | .planned, .begin objectId body now =>
    (t.build cfg objectId body now).map fun m =>
      (.beginTransfer m.objectId m.bucket m.key now.unixTimestamp, { t with phase := .receiving m })
  | .receiving m, .reserve bytes budget now =>
    some (.reserveStaging m.objectId bytes budget now, t)
  | .receiving m, .stage now => some (.stageManifest .put m now, { t with phase := .staged m })
  | .staged m, .setConditionals now =>
    some (.setTransferConditionals m.objectId t.conditionals now,
      { t with phase := .conditioned m })
  | .conditioned m, .queue now =>
    some (.queueTransfer m.objectId m.chunks.length now,
      { t with phase := .waiting m.objectId .polling })
  | .receiving m, .fail filesRemoved message now | .staged m, .fail filesRemoved message now
  | .conditioned m, .fail filesRemoved message now =>
    some (.failReception m.objectId filesRemoved message now,
      { t with phase := .done (some m.objectId) })
  | .removing replacement, .remove now =>
    (t.removal s now).map fun op => (op, { t with phase := .finishing replacement })
  | .finishing _, .finish now => t.record .completed none now
  | _, .giveUp error now => t.record .failed (some error) now
  | _, _ => none

def ReplaceTask.read (t : ReplaceTask) (s : MetadataStore) : ReplaceTask :=
  match t.phase with
  | .waiting replacement st =>
    match st.read s replacement with
    | .returned _ (.ok _) => { t with phase := .removing replacement }
    | .returned _ (.error _) => { t with phase := .done (some replacement) }
    | st => { t with phase := .waiting replacement st }
  | _ => t

structure ReplaceWorld where
  store : MetadataStore
  issued : List Uuid := []
  tasks : List ReplaceTask := []

inductive ReplaceAction where
  | call (op : StoreOp)
  | planMove (source : ObjectManifest) (sourceBucket destinationBucket destinationKey : String)
      (now : OffsetDateTime)
  | startRechunk (id : Uuid)
  | run (i : Nat) (mv : ReplaceMove)
  | read (i : Nat)

def StoreOp.opensId : StoreOp → Option Uuid
  | .beginTransfer objectId .. => some objectId
  | .stageManifest _ m _ => some m.objectId
  | .insertMultipartJob row => some row.jobId
  | _ => none

def StoreOp.opensPart : StoreOp → Option Uuid
  | .insertMultipartJob row => some row.jobId
  | _ => none

theorem StoreOp.opensId_of_part {op : StoreOp} (h : op.opensPart = some job) :
    op.opensId = some job := by
  cases op with
  | insertMultipartJob => exact h
  | _ => cases h

def movable (s : MetadataStore) (bucket : String) (source : ObjectManifest) (now : OffsetDateTime) :
    Bool :=
  after (ObjectFormat.getActiveManifest s bucket source.key now) = some (some source) ||
    (after (ObjectFormat.listBucketManifests s bucket now)).any fun l => decide (source ∈ l)

def ReplaceWorld.fresh (w : ReplaceWorld) (objectId : Uuid) : Bool :=
  !decide (objectId ∈ w.issued) && !w.store.transferJobs.contains objectId &&
    !w.store.objectManifests.contains objectId && !w.store.multipartJobs.contains objectId

def ReplaceMove.takes : ReplaceMove → List Uuid
  | .begin objectId _ _ => [objectId]
  | _ => []

/-- Replacements get fresh ids, which no other request opens anything under. -/
def ReplaceAction.apply (fromStr : String → Option ETagCondition) (cfg : ServiceConfig)
    (a : ReplaceAction) (w : ReplaceWorld) : Option ReplaceWorld :=
  match a with
  | .call op =>
    if op.opensId.any (· ∈ w.issued) then none
    else (op.serve fromStr w.store).map fun s => { w with store := s }
  | .planMove source sourceBucket destinationBucket destinationKey now =>
    if movable w.store sourceBucket source now &&
        !(sourceBucket = destinationBucket && source.key = destinationKey) &&
        after (ObjectFormat.getActiveManifest w.store destinationBucket destinationKey now) =
          some none then
      some { w with
        tasks := w.tasks ++
          [{ kind := .move sourceBucket destinationBucket destinationKey, source }] }
    else none
  | .startRechunk id =>
    ((w.store.rechunkJobs.get? id).filter fun job => job.state = .processing).bind fun job =>
      (after (w.store.getManifest job.objectId)).bind fun found => found.map fun source =>
        { w with tasks := w.tasks ++ [{ kind := .rechunk job, source }] }
  | .run i mv =>
    if mv.takes.all w.fresh then
      w.tasks[i]?.bind fun t => (t.step cfg w.store mv).bind fun (op, t') =>
        (op.serve fromStr w.store).map fun s =>
          { store := s, issued := mv.takes ++ w.issued, tasks := w.tasks.set i t' }
    else none
  | .read i =>
    w.tasks[i]?.map fun t => { w with tasks := w.tasks.set i (t.read w.store) }

def ReplaceStep (fromStr : String → Option ETagCondition) (cfg : ServiceConfig)
    (a : ReplaceAction) (w w' : ReplaceWorld) : Prop :=
  a.apply fromStr cfg w = some w'

theorem ReplaceStep.run_ok (h : ReplaceStep fromStr cfg (.run i mv) w w') :
    ∃ t op t' s', w.tasks[i]? = some t ∧ t.step cfg w.store mv = some (op, t') ∧
      (∀ id ∈ mv.takes, w.fresh id = true) ∧ StoreStep fromStr op w.store s' ∧
      WritesOwnManifest op w.store ∧
      w' = { store := s', issued := mv.takes ++ w.issued, tasks := w.tasks.set i t' } := by
  simp only [ReplaceStep, ReplaceAction.apply] at h
  split at h
  · rename_i hf
    obtain ⟨t, ht, h⟩ := Option.bind_eq_some_iff.1 h
    obtain ⟨⟨op, t'⟩, hstep, h⟩ := Option.bind_eq_some_iff.1 h
    obtain ⟨s', hs, rfl⟩ := Option.map_eq_some_iff.1 h
    obtain ⟨hss, ho⟩ := StoreOp.serve_eq_some hs
    exact ⟨t, op, t', s', ht, hstep, List.all_eq_true.1 hf, hss, ho, rfl⟩
  · cases h

structure ReplaceWorld.Initial (w : ReplaceWorld) : Prop where
  store : EmptyStore w.store
  issued : w.issued = []
  tasks : w.tasks = []

/-- In every run, a removed source is the version replaced, after the replacement committed. -/
def ReplaceSafe (Step : ReplaceAction → ReplaceWorld → ReplaceWorld → Prop) : Prop :=
  ∀ past w, Run ReplaceWorld.Initial Step past w →
    ∀ i now w' t, Step (.run i (.remove now)) w w' → w.tasks[i]? = some t →
      ∀ object, Tombstoned w'.store object → ¬ Tombstoned w.store object →
        object = t.source.objectId ∧ ∃ replacement, t.phase = .removing replacement ∧
          PublishedIn ((w :: past).map ReplaceWorld.store) replacement replacement

def ReplaceAction.storeOp (cfg : ServiceConfig) (w : ReplaceWorld) : ReplaceAction → Option StoreOp
  | .call op => some op
  | .run i mv => w.tasks[i]?.bind fun t => (t.step cfg w.store mv).map Prod.fst
  | _ => none

/-- Cleanup takes published jobs, and a source is removed while its key shows it or nothing. -/
def ReplacesUnchanged (cfg : ServiceConfig) (a : ReplaceAction) (w : ReplaceWorld) : Prop :=
  (∀ op, a.storeOp cfg w = some op → CleansPublished op w.store) ∧
  ∀ i now t, a = .run i (.remove now) → w.tasks[i]? = some t →
    ∀ bucket destinationBucket destinationKey,
      t.kind = .move bucket destinationBucket destinationKey →
      ∀ object, w.store.activeObjectId bucket t.source.key = some object →
        object = t.source.objectId

def ReplacePhase.Sound (states : List MetadataStore) (s : MetadataStore) (issued : List Uuid) :
    ReplacePhase → Prop
  | .planned | .done _ => True
  | .receiving m | .staged m | .conditioned m => m.objectId ∈ issued
  | .waiting replacement st => replacement ∈ issued ∧ st.Supported states s replacement
  | .removing replacement | .finishing replacement => PublishedIn states replacement replacement

structure ReplaceTask.Sound (states : List MetadataStore) (s : MetadataStore) (issued : List Uuid)
    (t : ReplaceTask) : Prop where
  source : ∀ job, t.kind = .rechunk job → t.source.objectId = job.objectId
  phase : t.phase.Sound states s issued

structure ReplaceWorld.Sound (states : List MetadataStore) (w : ReplaceWorld) : Prop where
  trail : PublicationTrail states w.store
  whole : ∀ id ∈ w.issued, ¬ PartJob w.store id
  tasks : ∀ t ∈ w.tasks, t.Sound states w.store w.issued

theorem StoreOp.partJob_before (h : StoreStep fromStr op s s')
    (hp : PartJob s' job) : PartJob s job ∨ op.opensPart = some job := by
  obtain ⟨upload, number, hn, hp⟩ := hp
  obtain ⟨r, hr, he⟩ := Option.map_eq_some_iff.1 hp
  rcases StoreOp.multipartRow_before h (mem_of_get? hr) with hm | rfl | ⟨hz, -⟩
  · refine .inl ⟨upload, number, hn, ?_⟩
    rw [multipartJob, get?_eq_some.2 ⟨hm, key_of_get? hr⟩, ← he]
    rfl
  · exact .inr (congrArg some (key_of_get? hr))
  · cases he
    exact absurd hz hn

namespace ReplacePhase
variable {phase : ReplacePhase}

section
variable (h : phase.Sound states s issued)
include h

theorem Sound.cons (t : MetadataStore) : phase.Sound (t :: states) s issued := by
  cases phase with
  | waiting replacement st => exact ⟨h.1, h.2.cons t⟩
  | removing | finishing => exact PublishedIn.cons h t
  | _ => exact h

theorem Sound.step (ht : PublicationTrail states s) (hs : StoreStep fromStr op s s')
    (hw : WritesOwnManifest op s) (hc : CleansPublished op s) :
    phase.Sound (s' :: states) s' issued := by
  cases phase with
  | waiting replacement st => exact ⟨h.1, h.2.step ht hs hw hc⟩
  | removing | finishing => exact PublishedIn.cons h s'
  | _ => exact h

theorem Sound.issue (new : List Uuid) : phase.Sound states s (new ++ issued) := by
  cases phase with
  | receiving | staged | conditioned => exact List.mem_append_right _ h
  | waiting replacement st => exact ⟨List.mem_append_right _ h.1, h.2⟩
  | _ => exact h

end

end ReplacePhase

namespace ReplaceTask

theorem build_objectId {t : ReplaceTask} (h : t.build cfg objectId body now = some m) :
    m.objectId = objectId := by
  unfold build at h
  split at h
  · obtain ⟨-, -, rfl⟩ := Option.map_eq_some_iff.1 h
    rfl
  · cases h
    rfl

structure Advances (s : MetadataStore) (t : ReplaceTask) (mv : ReplaceMove) (op : StoreOp)
    (t' : ReplaceTask) : Prop where
  kind : t'.kind = t.kind
  source : t'.source = t.source
  phase : ∀ states issued, t.phase.Sound states s issued →
    t'.phase.Sound states s (mv.takes ++ issued)
  part : op.opensPart = none
  request : op.requested = true
  publishes : op.publishes = none

theorem record_advances (h : t.record state error now = some (op, t')) : Advances s t mv op t' := by
  unfold record at h
  split at h
  · cases h
    exact ⟨rfl, rfl, fun _ _ _ => trivial, rfl, rfl, rfl⟩
  · cases h

theorem removal_op {t : ReplaceTask} (h : t.removal s now = some op) :
    op.opensPart = none ∧ op.requested = true ∧ op.publishes = none := by
  unfold removal at h
  split at h
  · split at h
    · split at h
      · cases h
      · cases h
        exact ⟨rfl, rfl, rfl⟩
    · cases h
      exact ⟨rfl, rfl, rfl⟩
  · cases h
    exact ⟨rfl, rfl, rfl⟩

theorem step_advances {t : ReplaceTask} (h : t.step cfg s mv = some (op, t')) :
    Advances s t mv op t' := by
  unfold step at h
  split at h
  · obtain ⟨m, hm, he⟩ := Option.map_eq_some_iff.1 h
    cases he
    refine ⟨rfl, rfl, fun _ _ _ => ?_, rfl, rfl, rfl⟩
    exact List.mem_append_left _ (List.mem_singleton.2 (build_objectId hm))
  · cases h
    exact ⟨rfl, rfl, fun _ _ hp => hp, rfl, rfl, rfl⟩
  · rename_i hp
    cases h
    refine ⟨rfl, rfl, fun _ _ hs => ?_, rfl, rfl, rfl⟩
    rw [hp] at hs
    exact hs
  · rename_i hp
    cases h
    refine ⟨rfl, rfl, fun _ _ hs => ?_, rfl, rfl, rfl⟩
    rw [hp] at hs
    exact hs
  · rename_i hp
    cases h
    refine ⟨rfl, rfl, fun _ _ hs => ?_, rfl, rfl, rfl⟩
    rw [hp] at hs
    exact ⟨hs, trivial⟩
  · cases h
    exact ⟨rfl, rfl, fun _ _ _ => trivial, rfl, rfl, rfl⟩
  · cases h
    exact ⟨rfl, rfl, fun _ _ _ => trivial, rfl, rfl, rfl⟩
  · cases h
    exact ⟨rfl, rfl, fun _ _ _ => trivial, rfl, rfl, rfl⟩
  · rename_i hp
    obtain ⟨op', ho, he⟩ := Option.map_eq_some_iff.1 h
    cases he
    obtain ⟨hpart, hreq, hpub⟩ := removal_op ho
    refine ⟨rfl, rfl, fun _ _ hs => ?_, hpart, hreq, hpub⟩
    rw [hp] at hs
    exact hs
  · exact record_advances h
  · exact record_advances h
  · cases h

theorem step_remove {t : ReplaceTask} (h : t.step cfg s (.remove now) = some (op, t')) :
    ∃ replacement, t.phase = .removing replacement ∧ t.removal s now = some op := by
  cases hp : t.phase with
  | removing replacement =>
    simp only [step, hp] at h
    obtain ⟨op', ho, he⟩ := Option.map_eq_some_iff.1 h
    cases he
    exact ⟨replacement, rfl, ho⟩
  | _ =>
    simp only [step, hp] at h
    cases h

theorem Sound.read {t : ReplaceTask} (h : t.Sound states s issued)
    (ht : PublicationTrail states s) (hs : s ∈ states) (hw : ∀ id ∈ issued, ¬ PartJob s id) :
    (t.read s).Sound states s issued := by
  unfold ReplaceTask.read
  split
  · rename_i replacement st hp
    have hph := h.phase
    rw [hp] at hph
    have hr := hph.2.read ht hs
    split
    · rename_i part m he
      rw [he] at hr
      refine ⟨h.source, ?_⟩
      match part with
      | none =>
        obtain ⟨⟨j, hj, hid, ho⟩, hpub⟩ := hr
        have hone := (ht.oneId j hj).object
        rw [ho, hid] at hone
        rw [hone] at hpub
        exact hpub
      | some (upload, number) =>
        exact absurd ⟨upload, number, hr.1, hr.2.1⟩ (hw replacement hph.1)
    · exact ⟨h.source, trivial⟩
    · exact ⟨h.source, hph.1, hr⟩
  · exact h

theorem tombstoned_only (he : s'.objectManifests =
      (s.tombstoneRows (fun r => r.objectId = target) m now).objectManifests)
    (ht : Tombstoned s' object) (hn : ¬ Tombstoned s object) : object = target := by
  obtain ⟨r', hr', hid, hst⟩ := ht
  rw [he] at hr'
  simp only [tombstoneRows, mem_modify] at hr'
  obtain ⟨r, hr, rfl⟩ := hr'
  by_cases hk : r.objectId = target
  · simp only [hk, decide_true, if_true] at hid
    exact hid.symm
  · simp only [hk, decide_false, Bool.false_eq_true, if_false] at hid hst
    exact absurd ⟨r, hr, hid, hst⟩ hn

theorem deleteActiveKey_tombstones
    (h : StoreStep fromStr (.deleteActiveKey bucket key reason c now) s s')
    (ht : Tombstoned s' object) (hn : ¬ Tombstoned s object) :
    s.activeObjectId bucket key = some object := by
  obtain ⟨⟨m', s₁⟩, hc, rfl⟩ := map_ok.1 (after_eq_some.1 h)
  obtain ⟨-, ⟨-, rfl⟩ | ⟨active, m, ha, -, rfl⟩⟩ := deleteActiveKey_ok hc
  · exact absurd ht hn
  · rw [tombstoned_only (s := s) rfl ht hn]
    exact ha

theorem removal_tombstones {t : ReplaceTask} {object : Uuid} (h : t.removal s now = some op)
    (hs : StoreStep fromStr op s s') (ht : Tombstoned s' object) (hn : ¬ Tombstoned s object) :
    (∃ bucket destinationBucket destinationKey,
      t.kind = .move bucket destinationBucket destinationKey ∧
        s.activeObjectId bucket t.source.key = some object) ∨
      ∃ job, t.kind = .rechunk job ∧ object = job.objectId := by
  unfold removal at h
  split at h
  · rename_i bucket destinationBucket destinationKey hk
    refine .inl ⟨bucket, destinationBucket, destinationKey, hk, ?_⟩
    split at h
    · split at h
      · cases h
      · cases h
        exact deleteActiveKey_tombstones hs ht hn
    · cases h
      exact deleteActiveKey_tombstones hs ht hn
  · rename_i job hk
    cases h
    obtain ⟨⟨m', s₁⟩, hc, rfl⟩ := map_ok.1 (after_eq_some.1 hs)
    obtain ⟨m, -, rfl⟩ := tombstoneManifestWithConditionals_ok hc
    exact .inr ⟨job, hk, tombstoned_only (s := s) rfl ht hn⟩

end ReplaceTask

namespace ReplaceWorld

theorem Sound.init (h : Initial w) : w.Sound states where
  trail := .init h.store
  whole := by simp [h.issued]
  tasks := by simp [h.tasks]

theorem Sound.call (h : Sound states w) (new : List Uuid)
    (hs : StoreStep fromStr op w.store s') (hw : WritesOwnManifest op w.store)
    (hc : CleansPublished op w.store)
    (hp : ∀ id ∈ new ++ w.issued, ¬ PartJob w.store id ∧ op.opensPart ≠ some id)
    (hl : ∀ t ∈ l, (∀ job, t.kind = .rechunk job → t.source.objectId = job.objectId) ∧
      t.phase.Sound states w.store (new ++ w.issued)) :
    Sound (s' :: states) { store := s', issued := new ++ w.issued, tasks := l } where
  trail := h.trail.step hs hw hc
  whole id hid hpart := by
    rcases StoreOp.partJob_before hs hpart with hb | ho
    · exact (hp id hid).1 hb
    · exact (hp id hid).2 ho
  tasks t ht := ⟨(hl t ht).1, (hl t ht).2.step h.trail hs hw hc⟩

theorem Sound.read {l : List ReplaceTask} (h : Sound states w)
    (hl : ∀ t ∈ l, t.Sound states w.store w.issued) :
    Sound (w.store :: states) { w with tasks := l } where
  trail := h.trail.cons w.store
  whole := h.whole
  tasks t ht := ⟨(hl t ht).source, (hl t ht).phase.cons w.store⟩

theorem not_partJob_of_fresh {w : ReplaceWorld} {object : Uuid} (h : w.fresh object = true) :
    ¬ PartJob w.store object := by
  rintro ⟨upload, number, -, hp⟩
  obtain ⟨row, hr, -⟩ := Option.map_eq_some_iff.1 hp
  simp [fresh, Table.contains, hr] at h

theorem Sound.step (h : Sound states w) (hw : w.store ∈ states)
    (hs : ReplaceStep fromStr cfg a w w') (hc : ReplacesUnchanged cfg a w) :
    Sound (w'.store :: states) w' := by
  cases a with
  | call op =>
    simp only [ReplaceStep, ReplaceAction.apply] at hs
    split at hs
    · cases hs
    · rename_i hn
      obtain ⟨s', hs', rfl⟩ := Option.map_eq_some_iff.1 hs
      obtain ⟨hstep, ho⟩ := StoreOp.serve_eq_some hs'
      apply h.call [] hstep ho (hc.1 op rfl)
      · intro id hid
        refine ⟨h.whole id hid, fun hp => hn ?_⟩
        simp only [StoreOp.opensId_of_part hp, Option.any_some, decide_eq_true_eq]
        exact hid
      · intro t ht
        exact ⟨(h.tasks t ht).source, (h.tasks t ht).phase⟩
  | planMove source sourceBucket destinationBucket destinationKey now =>
    simp only [ReplaceStep, ReplaceAction.apply] at hs
    split at hs
    · cases hs
      apply h.read
      intro t ht
      rcases List.mem_append.1 ht with ht | ht
      · exact h.tasks t ht
      · rw [List.mem_singleton.1 ht]
        exact ⟨fun _ hk => (by cases hk), trivial⟩
    · cases hs
  | startRechunk id =>
    obtain ⟨job, -, hs⟩ := Option.bind_eq_some_iff.1 hs
    obtain ⟨found, hf, hs⟩ := Option.bind_eq_some_iff.1 hs
    obtain ⟨source, rfl, rfl⟩ := Option.map_eq_some_iff.1 hs
    apply h.read
    intro t ht
    rcases List.mem_append.1 ht with ht | ht
    · exact h.tasks t ht
    · rw [List.mem_singleton.1 ht]
      refine ⟨?_, trivial⟩
      intro job' hk
      cases hk
      obtain ⟨row, hr, rfl⟩ := loadManifestByObjectId_ok (after_eq_some.1 hf)
      rw [(h.trail.coherent.rows row (mem_of_get? hr)).objectId]
      exact key_of_get? hr
  | run i mv =>
    obtain ⟨t, op, t', s', ht, hstep, hf, hss, ho, rfl⟩ := hs.run_ok
    have hop : (ReplaceAction.run i mv).storeOp cfg w = some op := by
      simp [ReplaceAction.storeOp, ht, hstep]
    have hadv := ReplaceTask.step_advances hstep
    have htm := List.mem_of_getElem? ht
    apply h.call mv.takes hss ho (hc.1 op hop)
    · intro id hid
      rw [hadv.part]
      refine ⟨?_, by simp⟩
      rcases List.mem_append.1 hid with hid | hid
      · exact not_partJob_of_fresh (hf id hid)
      · exact h.whole id hid
    · intro u hu
      rcases List.mem_or_eq_of_mem_set hu with hu | rfl
      · exact ⟨(h.tasks u hu).source, (h.tasks u hu).phase.issue mv.takes⟩
      · rw [hadv.kind, hadv.source]
        exact ⟨(h.tasks t htm).source, hadv.phase _ _ (h.tasks t htm).phase⟩
  | read i =>
    obtain ⟨t, ht, rfl⟩ := Option.map_eq_some_iff.1 hs
    apply h.read
    intro u hu
    rcases List.mem_or_eq_of_mem_set hu with hu | rfl
    · exact h.tasks u hu
    · exact (h.tasks t (List.mem_of_getElem? ht)).read h.trail hw h.whole

end ReplaceWorld

theorem replace_safe (fromStr : String → Option ETagCondition) (cfg : ServiceConfig) :
    ReplaceSafe (Guarded (ReplaceStep fromStr cfg) (ReplacesUnchanged cfg)) := by
  intro past w hr i now w' t hs ht object htomb hlive
  have hw : w.Sound ((w :: past).map ReplaceWorld.store) := by
    apply hr.history_invariant (I := fun past w => w.Sound ((w :: past).map ReplaceWorld.store))
    · intro w hw
      exact .init hw
    · intro past a w w' h hstep
      exact h.step List.mem_cons_self hstep.1 hstep.2
  obtain ⟨hstep, hc⟩ := hs
  have htask := hw.tasks t (List.mem_of_getElem? ht)
  obtain ⟨u, op, t', s', hu, hop, -, hss, -, rfl⟩ := hstep.run_ok
  obtain rfl : t = u := Option.some.inj (ht.symm.trans hu)
  obtain ⟨replacement, hp, hrem⟩ := ReplaceTask.step_remove hop
  have hpub := htask.phase
  rw [hp] at hpub
  refine ⟨?_, replacement, hp, hpub⟩
  rcases ReplaceTask.removal_tombstones hrem hss htomb hlive with
    ⟨bucket, destinationBucket, destinationKey, hk, ha⟩ | ⟨job, hk, rfl⟩
  · exact hc.2 i now t rfl ht bucket destinationBucket destinationKey hk object ha
  · exact (htask.source job hk).symm

def sampleConfig : ServiceConfig := { storageChatId := "-1001", keyId := "k1" }

/-- The source key is overwritten while its old version is being moved. -/
def overwrittenMove : List ReplaceAction :=
  let old := emptyObject ⟨1⟩ "photos" "a.jpg"
  let moved := sampleConfig.movedManifest (old.withState .committed) ⟨3⟩ "photos" "b.jpg"
  let now := (instant 4).unixTimestamp
  (uploadOps old ⟨7⟩ 1).map .call ++
    [.planMove (old.withState .committed) "photos" "photos" "b.jpg" (instant 2)] ++
    (uploadOps (emptyObject ⟨2⟩ "photos" "a.jpg") ⟨8⟩ 3).map .call ++
    [.run 0 (.begin ⟨3⟩ {} (instant 4)), .run 0 (.reserve 500 1000 now),
      .run 0 (.stage (instant 4)), .run 0 (.setConditionals now), .run 0 (.queue now),
      .call (.claimTransfer now ⟨9⟩), .call (.enterCommitting ⟨3⟩ ⟨9⟩ now),
      .call (.commitTransferManifest ⟨3⟩ ⟨9⟩ moved (instant 4)), .read 0, .read 0, .read 0]

def overwrittenMoveRun : List ReplaceWorld × ReplaceWorld :=
  (exec (ReplaceAction.apply (fun _ => none) sampleConfig) [] { store := photosStore }
    overwrittenMove).get (by decide)

def afterRemoval : ReplaceWorld :=
  ((ReplaceAction.run 0 (.remove (instant 5))).apply (fun _ => none) sampleConfig
    overwrittenMoveRun.2).get (by decide)

/-- The move tombstones the newer version, of which no copy exists. -/
theorem move_removes_newer_version : ¬ ReplaceSafe (ReplaceStep (fun _ => none) sampleConfig) := by
  intro h
  have hi : ReplaceWorld.Initial { store := photosStore } :=
    ⟨⟨⟨rfl, rfl, rfl⟩, rfl, rfl⟩, rfl, rfl⟩
  have hr : Run ReplaceWorld.Initial (ReplaceStep (fun _ => none) sampleConfig)
      overwrittenMoveRun.1 overwrittenMoveRun.2 := Run.of_exec_isSome hi (by decide)
  have hs : ReplaceStep (fun _ => none) sampleConfig (.run 0 (.remove (instant 5)))
      overwrittenMoveRun.2 afterRemoval := (Option.some_get _).symm
  obtain ⟨t, ht, hsource⟩ : ∃ t, overwrittenMoveRun.2.tasks[0]? = some t ∧
      t.source.objectId = ⟨1⟩ := ⟨_, rfl, rfl⟩
  have htomb : ∃ r ∈ afterRemoval.store.objectManifests.rows,
      r.objectId = ⟨2⟩ ∧ r.commitState = .tombstoned := by decide
  have hlive : ¬ ∃ r ∈ overwrittenMoveRun.2.store.objectManifests.rows,
      r.objectId = ⟨2⟩ ∧ r.commitState = .tombstoned := by decide
  obtain ⟨he, -⟩ := h _ _ hr 0 (instant 5) afterRemoval t hs ht ⟨2⟩ htomb hlive
  rw [hsource] at he
  cases he

end TelegramS3
