import TelegramS3.ActiveIndex
import TelegramS3.Replacing

namespace TelegramS3
open Relational Table Fallible Transition MetadataStore
set_option autoImplicit true

def ReplaceAction.BelongsTo (w : ReplaceWorld) (job : Uuid) : ReplaceAction → Prop
  | .run i _ => ∃ t row, w.tasks[i]? = some t ∧ t.kind = .rechunk row ∧ row.id = job
  | .call op => ∃ t ∈ w.tasks, ∃ row copy, t.kind = .rechunk row ∧ row.id = job ∧
      t.phase.replacement = some copy ∧ op.publishes = some copy
  | _ => False

def ReplaceAction.requested : ReplaceAction → Bool
  | .call op => op.requested
  | _ => true

def ReplaceAction.request (fromStr : String → Option ETagCondition) (cfg : ServiceConfig)
    (a : ReplaceAction) (w : ReplaceWorld) : Option ReplaceWorld :=
  if a.requested then a.apply fromStr cfg w else none

def RequestStep (fromStr : String → Option ETagCondition) (cfg : ServiceConfig)
    (a : ReplaceAction) (w w' : ReplaceWorld) : Prop :=
  a.request fromStr cfg w = some w'

/-- In a state since the job was queued, its key shows another object than the source, or none. -/
def SourceReplaced (states : List MetadataStore) (row : RechunkJobRow) : Prop :=
  ∃ v ∈ states, (∃ r ∈ v.rechunkJobs, r.id = row.id) ∧
    v.activeObjectId row.bucket row.key ≠ some row.objectId

structure RequestInitial (w : ReplaceWorld) : Prop extends ReplaceWorld.Initial w where
  rechunks : w.store.rechunkJobs = ∅

/-- In every run, a job whose key has shown anything but its source changes it no more. -/
def RechunkSafe (Step : ReplaceAction → ReplaceWorld → ReplaceWorld → Prop) : Prop :=
  ∀ past w, Run RequestInitial Step past w → ∀ a w', Step a w w' →
    ∀ row ∈ w.store.rechunkJobs, a.BelongsTo w row.id →
      SourceReplaced ((w :: past).map ReplaceWorld.store) row →
        w'.store.activeObjectId row.bucket row.key = w.store.activeObjectId row.bucket row.key

/-- The copy of a re-chunk job is published only while its key still shows the source. -/
def PublishesOverSource (a : ReplaceAction) (w : ReplaceWorld) : Prop :=
  ∀ op, a = .call op → ∀ row ∈ w.store.rechunkJobs, a.BelongsTo w row.id →
    w.store.activeObjectId row.bucket row.key = some row.objectId

/-- The columns of a re-chunk job that no statement rewrites. -/
structure SameRechunk (r r' : RechunkJobRow) : Prop where
  id : r'.id = r.id
  bucket : r'.bucket = r.bucket
  key : r'.key = r.key
  objectId : r'.objectId = r.objectId

theorem SameRechunk.refl (r : RechunkJobRow) : SameRechunk r r := ⟨rfl, rfl, rfl, rfl⟩

theorem SameRechunk.trans (h : SameRechunk a b) (h' : SameRechunk b c) : SameRechunk a c :=
  ⟨h'.id.trans h.id, h'.bucket.trans h.bucket, h'.key.trans h.key, h'.objectId.trans h.objectId⟩

namespace MetadataStore

theorem claimRechunkJob_rows (s : MetadataStore) (now : Int) :
    Table.Rel SameRechunk s.rechunkJobs (s.claimRechunkJob now).2.rechunkJobs := by
  unfold claimRechunkJob
  split
  · exact .refl .refl _
  · exact .of_update rfl (fun _ _ h => h.id) .refl fun _ _ _ => ⟨rfl, rfl, rfl, rfl⟩

theorem finishRechunk_rows (s : MetadataStore) (id : Uuid) (state : RechunkState)
    (error : Option String) (now : Int) :
    Table.Rel SameRechunk s.rechunkJobs (s.finishRechunk id state error now).rechunkJobs :=
  .of_update rfl (fun _ _ h => h.id) .refl fun _ _ _ => ⟨rfl, rfl, rfl, rfl⟩

end MetadataStore

section
variable {op : StoreOp} (h : StoreStep fromStr op s s')
include h

/-- Re-chunk jobs stay, and a new one has the object its key shows as its source. -/
theorem StoreOp.rechunk_step : Table.Rel SameRechunk s.rechunkJobs s'.rechunkJobs ∨
      ∃ row, s'.rechunkJobs = s.rechunkJobs.insertOrIgnore row ∧ s.rechunkJobs.get? row.id = none ∧
        s.activeObjectId row.bucket row.key = some row.objectId := by
  cases op with
  | queueRechunk id bucket key newChunkSize now =>
    obtain ⟨m, hm, hn, rfl⟩ := queueRechunk_ok (after_eq_some.1 h)
    obtain ⟨object, ha, hr⟩ := Option.bind_eq_some_iff.1 hm
    have hk : m.objectId = object := key_of_get? hr
    refine .inr ⟨_, rfl, hn, ?_⟩
    rw [← hk] at ha
    exact ha
  | claimRechunkJob now =>
    cases h
    exact .inl (s.claimRechunkJob_rows now)
  | finishRechunk id state error now =>
    cases h
    exact .inl (s.finishRechunk_rows id state error now)
  | _ =>
    have hf := StoreOp.frame h .rechunks rfl
    rw [hf.1]
    exact .inl (.refl .refl _)

theorem StoreOp.rechunk_kept (hr : r ∈ s.rechunkJobs) :
    ∃ r' ∈ s'.rechunkJobs, SameRechunk r r' := by
  rcases StoreOp.rechunk_step h with hs | ⟨row, hs, -, -⟩
  · obtain ⟨r', hr', hsame⟩ := hs.some_left (mem_iff_get?.1 hr)
    exact ⟨r', mem_of_get? hr', hsame⟩
  · rw [hs]
    exact ⟨r, mem_of_get? (get?_insertOrIgnore_of_some (mem_iff_get?.1 hr) row), .refl r⟩

theorem StoreOp.rechunk_before (hr : r' ∈ s'.rechunkJobs) :
    (∃ r ∈ s.rechunkJobs, SameRechunk r r') ∨
      s.activeObjectId r'.bucket r'.key = some r'.objectId := by
  rcases StoreOp.rechunk_step h with hs | ⟨row, hs, -, ha⟩
  · obtain ⟨r, hr, hsame⟩ := hs.some_right (mem_iff_get?.1 hr)
    exact .inl ⟨r, mem_of_get? hr, hsame⟩
  · rw [hs] at hr
    rcases mem_insertOrIgnore.1 hr with hr | ⟨rfl, -⟩
    · exact .inl ⟨r', hr, .refl r'⟩
    · exact .inr ha

end

namespace MetadataStore

theorem failReception_activeObjectId (h : ∀ a ∈ s.activeObjects, JobPublished s a.objectId) :
    (s.failReception job filesRemoved message now).2.activeObjectId bucket key =
      s.activeObjectId bucket key := by
  unfold failReception endReception
  dsimp only
  split
  · rename_i hlive
    obtain ⟨j, hj, hl⟩ := any_eq_true.1 hlive
    simp only [Bool.and_eq_true, decide_eq_true_eq] at hl
    simp only [discardStaged, deleteManifests, activeObjectId, get?_delete]
    cases ha : s.activeObjects.get? (bucket, key) with
    | none => rfl
    | some a =>
      have hk : ¬ (s.objectManifests.any fun m => decide (m.objectId = a.objectId) &&
          (decide (m.objectId = job) && decide (m.commitState = .staging))) = true := by
        intro hm
        obtain ⟨m, -, hm⟩ := any_eq_true.1 hm
        simp only [Bool.and_eq_true, decide_eq_true_eq] at hm
        have hid : a.objectId = job := hm.1.symm.trans hm.2.1
        obtain ⟨i, hi, hp⟩ := h a (mem_of_get? ha)
        rw [hid] at hi
        have hij : i = j := eq_of_key_eq (mem_of_get? hi) hj ((key_of_get? hi).trans hl.1.symm)
        rw [hij, hl.2] at hp
        cases hp
      simp [Option.filter_some, hk]
  · rfl

theorem tombstoneManifest_activeObjectId (h : Coherent s)
    (hs : StoreStep fromStr (.tombstoneManifest object reason c now) s s')
    (hn : s.activeObjectId bucket key ≠ some object) :
    s'.activeObjectId bucket key = s.activeObjectId bucket key := by
  obtain ⟨⟨m', s₁⟩, hc, rfl⟩ := map_ok.1 (after_eq_some.1 hs)
  obtain ⟨m, hm, rfl⟩ := tombstoneManifestWithConditionals_ok hc
  obtain ⟨row, hrow, rfl⟩ := loadManifestByObjectId_ok hm
  have hid : row.manifest.objectId = object :=
    (h.rows row (mem_of_get? hrow)).objectId.trans (key_of_get? hrow)
  simp only [tombstoneJournal, dropActive, tombstoneRows, activeObjectId, get?_delete, hid]
  cases ha : s.activeObjects.get? (bucket, key) with
  | none => rfl
  | some a =>
    have hne : a.objectId ≠ object := by
      intro he
      exact hn (by rw [activeObjectId, ha, ← he]; rfl)
    simp [Option.filter_some, hne]

end MetadataStore

theorem ReplaceTask.read_kind (t : ReplaceTask) (s : MetadataStore) : (t.read s).kind = t.kind := by
  unfold ReplaceTask.read
  split
  · split <;> rfl
  · rfl

theorem ReplaceTask.rechunk_op {t : ReplaceTask} (hk : t.kind = .rechunk row)
    (h : t.step cfg s mv = some (op, t')) :
    op.writes.contains .active = false ∨
      (∃ job filesRemoved message now, op = .failReception job filesRemoved message now) ∨
      ∃ reason c now, op = .tombstoneManifest row.objectId reason c now := by
  unfold step at h
  split at h
  · obtain ⟨m, -, he⟩ := Option.map_eq_some_iff.1 h
    cases he
    exact .inl rfl
  · cases h
    exact .inl rfl
  · cases h
    exact .inl rfl
  · cases h
    exact .inl rfl
  · cases h
    exact .inl rfl
  · cases h
    exact .inr (.inl ⟨_, _, _, _, rfl⟩)
  · cases h
    exact .inr (.inl ⟨_, _, _, _, rfl⟩)
  · cases h
    exact .inr (.inl ⟨_, _, _, _, rfl⟩)
  · obtain ⟨op', ho, he⟩ := Option.map_eq_some_iff.1 h
    cases he
    simp only [removal, hk] at ho
    cases ho
    exact .inr (.inr ⟨_, _, _, rfl⟩)
  · simp only [record, hk] at h
    cases h
    exact .inl rfl
  · simp only [record, hk] at h
    cases h
    exact .inl rfl
  · cases h

structure RequestInvariant (w : ReplaceWorld) : Prop where
  coherent : Coherent w.store
  oneId : ∀ j ∈ w.store.transferJobs, j.OneId
  active : ∀ a ∈ w.store.activeObjects, JobPublished w.store a.objectId
  sources : ∀ r ∈ w.store.rechunkJobs, JobPublished w.store r.objectId
  tasks : ∀ t ∈ w.tasks, ∀ row, t.kind = .rechunk row →
    ∃ r ∈ w.store.rechunkJobs, SameRechunk row r

namespace RequestInvariant

theorem init (h : RequestInitial w) : RequestInvariant w where
  coherent := h.store.objects.coherent
  oneId := by simp [h.store.jobs]
  active := by simp [h.store.objects.active]
  sources := by simp [h.rechunks]
  tasks := by simp [h.tasks]

section
variable (h : RequestInvariant w)
include h

theorem published (ha : w.store.activeObjectId bucket key = some object) :
    JobPublished w.store object := by
  obtain ⟨a, ham, -, -, rfl⟩ := activeObjectId_eq_some.1 ha
  exact h.active a ham

theorem call (hs : StoreStep fromStr op w.store s')
    (hw : WritesOwnManifest op w.store) (hr : op.requested = true)
    (hl : ∀ t ∈ l, ∃ t₀ ∈ w.tasks, t.kind = t₀.kind) :
    RequestInvariant { store := s', issued, tasks := l } where
  coherent := h.coherent.step hs hw
  oneId := StoreOp.oneId_step h.oneId hs
  active a ha := by
    rcases StoreOp.active_step h.coherent h.oneId hs hr ha with ha | ⟨-, -, hp⟩
    · exact (h.active a ha).step hs
    · exact hp
  sources r' hr' := by
    rcases StoreOp.rechunk_before hs hr' with ⟨r, hr, hsame⟩ | ha
    · rw [hsame.objectId]
      exact (h.sources r hr).step hs
    · exact (h.published ha).step hs
  tasks t ht row hk := by
    obtain ⟨t₀, ht₀, he⟩ := hl t ht
    obtain ⟨r, hr, hsame⟩ := h.tasks t₀ ht₀ row (he ▸ hk)
    obtain ⟨r', hr', hsame'⟩ := StoreOp.rechunk_kept hs hr
    exact ⟨r', hr', hsame.trans hsame'⟩

theorem plan (hl : ∀ t ∈ l, (∃ t₀ ∈ w.tasks, t.kind = t₀.kind) ∨
      ∀ row, t.kind = .rechunk row → row ∈ w.store.rechunkJobs) :
    RequestInvariant { w with tasks := l } where
  coherent := h.coherent
  oneId := h.oneId
  active := h.active
  sources := h.sources
  tasks t ht row hk := by
    rcases hl t ht with ⟨t₀, ht₀, he⟩ | hr
    · exact h.tasks t₀ ht₀ row (he ▸ hk)
    · exact ⟨row, hr row hk, .refl row⟩

theorem step (hs : RequestStep fromStr cfg a w w') : RequestInvariant w' := by
  simp only [RequestStep, ReplaceAction.request] at hs
  split at hs
  · rename_i hr
    cases a with
    | call op =>
      simp only [ReplaceAction.apply] at hs
      split at hs
      · cases hs
      · obtain ⟨s', hs', rfl⟩ := Option.map_eq_some_iff.1 hs
        obtain ⟨hstep, ho⟩ := StoreOp.serve_eq_some hs'
        exact h.call hstep ho hr fun t ht => ⟨t, ht, rfl⟩
    | planMove source sourceBucket destinationBucket destinationKey now =>
      simp only [ReplaceAction.apply] at hs
      split at hs
      · cases hs
        apply h.plan
        intro t ht
        rcases List.mem_append.1 ht with ht | ht
        · exact .inl ⟨t, ht, rfl⟩
        · rw [List.mem_singleton.1 ht]
          exact .inr fun _ hk => (by cases hk)
      · cases hs
    | startRechunk id =>
      obtain ⟨job, hj, hs⟩ := Option.bind_eq_some_iff.1 hs
      obtain ⟨found, -, hs⟩ := Option.bind_eq_some_iff.1 hs
      obtain ⟨source, -, rfl⟩ := Option.map_eq_some_iff.1 hs
      apply h.plan
      intro t ht
      rcases List.mem_append.1 ht with ht | ht
      · exact .inl ⟨t, ht, rfl⟩
      · rw [List.mem_singleton.1 ht]
        right
        intro row hk
        cases hk
        exact mem_of_get? (Option.filter_eq_some_iff.1 hj).1
    | run i mv =>
      obtain ⟨t, op, t', s', ht, hstep, -, hss, ho, rfl⟩ := ReplaceStep.run_ok hs
      have hadv := ReplaceTask.step_advances hstep
      apply h.call hss ho hadv.request
      intro u hu
      rcases List.mem_or_eq_of_mem_set hu with hu | rfl
      · exact ⟨u, hu, rfl⟩
      · exact ⟨t, List.mem_of_getElem? ht, hadv.kind⟩
    | read i =>
      obtain ⟨t, ht, rfl⟩ := Option.map_eq_some_iff.1 hs
      apply h.plan
      intro u hu
      rcases List.mem_or_eq_of_mem_set hu with hu | rfl
      · exact .inl ⟨u, hu, rfl⟩
      · exact .inl ⟨t, List.mem_of_getElem? ht, t.read_kind w.store⟩
  · cases hs

end

end RequestInvariant

theorem RequestStep.store (hs : RequestStep fromStr cfg a w w') :
    w'.store = w.store ∨ ∃ op, StoreStep fromStr op w.store w'.store ∧ op.requested = true := by
  simp only [RequestStep, ReplaceAction.request] at hs
  split at hs
  · rename_i hr
    cases a with
    | call op =>
      simp only [ReplaceAction.apply] at hs
      split at hs
      · cases hs
      · obtain ⟨s', hs', rfl⟩ := Option.map_eq_some_iff.1 hs
        exact .inr ⟨op, (StoreOp.serve_eq_some hs').1, hr⟩
    | planMove =>
      simp only [ReplaceAction.apply] at hs
      split at hs
      · cases hs
        exact .inl rfl
      · cases hs
    | startRechunk id =>
      obtain ⟨job, -, hs⟩ := Option.bind_eq_some_iff.1 hs
      obtain ⟨found, -, hs⟩ := Option.bind_eq_some_iff.1 hs
      obtain ⟨source, -, rfl⟩ := Option.map_eq_some_iff.1 hs
      exact .inl rfl
    | run i mv =>
      obtain ⟨t, op, t', s', -, hstep, -, hss, -, rfl⟩ := ReplaceStep.run_ok hs
      exact .inr ⟨op, hss, (ReplaceTask.step_advances hstep).request⟩
    | read i =>
      obtain ⟨t, ht, rfl⟩ := Option.map_eq_some_iff.1 hs
      exact .inl rfl
  · cases hs

theorem RequestInvariant.source_gone (h : RequestInvariant w)
    (hs : RequestStep fromStr cfg a w w') (hr : r ∈ w.store.rechunkJobs)
    (hn : w.store.activeObjectId bucket key ≠ some r.objectId) :
    w'.store.activeObjectId bucket key ≠ some r.objectId := by
  rcases hs.store with he | ⟨op, hss, hreq⟩
  · rw [he]
    exact hn
  · intro hb
    obtain ⟨a, ha, hbucket, hkey, hid⟩ := activeObjectId_eq_some.1 hb
    rcases StoreOp.active_step h.coherent h.oneId hss hreq ha with ha | ⟨-, hl, -⟩
    · exact hn (activeObjectId_eq_some.2 ⟨a, ha, hbucket, hkey, hid⟩)
    · rw [hid] at hl
      exact (h.sources r hr).not_leased hl

def RechunkTrail (states : List MetadataStore) (s : MetadataStore) : Prop :=
  ∀ v ∈ states, ∀ r ∈ v.rechunkJobs, ∃ r' ∈ s.rechunkJobs, SameRechunk r r' ∧
    (v.activeObjectId r'.bucket r'.key ≠ some r'.objectId →
      s.activeObjectId r'.bucket r'.key ≠ some r'.objectId)

theorem RechunkTrail.step (h : RechunkTrail states w.store) (hi : RequestInvariant w)
    (hs : RequestStep fromStr cfg a w w') : RechunkTrail (w'.store :: states) w'.store := by
  intro v hv r hr
  rcases List.mem_cons.1 hv with rfl | hv
  · exact ⟨r, hr, .refl r, id⟩
  · obtain ⟨r₁, hr₁, hsame, hgone⟩ := h v hv r hr
    obtain ⟨r', hr', hsame'⟩ : ∃ r' ∈ w'.store.rechunkJobs, SameRechunk r₁ r' := by
      rcases hs.store with he | ⟨op, hss, -⟩
      · rw [he]
        exact ⟨r₁, hr₁, .refl r₁⟩
      · exact StoreOp.rechunk_kept hss hr₁
    refine ⟨r', hr', hsame.trans hsame', ?_⟩
    rw [hsame'.bucket, hsame'.key, hsame'.objectId]
    intro hn
    exact hi.source_gone hs hr₁ (hgone hn)

theorem RequestInvariant.run_activeObjectId (h : RequestInvariant w)
    (hs : RequestStep fromStr cfg (.run i mv) w w') (ht : w.tasks[i]? = some t)
    (hk : t.kind = .rechunk row) (hn : w.store.activeObjectId bucket key ≠ some row.objectId) :
    w'.store.activeObjectId bucket key = w.store.activeObjectId bucket key := by
  obtain ⟨u, op, t', s', hu, hstep, -, hss, -, rfl⟩ := ReplaceStep.run_ok hs
  rw [ht] at hu
  cases hu
  rcases ReplaceTask.rechunk_op hk hstep with hf | ⟨job, removed, message, now, rfl⟩ |
      ⟨reason, c, now, rfl⟩
  · have hactive : s'.activeObjects = w.store.activeObjects := StoreOp.frame hss .active hf
    simp only [activeObjectId, hactive]
  · cases hss
    exact failReception_activeObjectId h.active
  · exact tombstoneManifest_activeObjectId h.coherent hss hn

theorem rechunk_safe (fromStr : String → Option ETagCondition) (cfg : ServiceConfig) :
    RechunkSafe (Guarded (RequestStep fromStr cfg) PublishesOverSource) := by
  intro past w hr a w' hs row hrow hb hgone
  obtain ⟨hi, htrail⟩ : RequestInvariant w ∧
      RechunkTrail ((w :: past).map ReplaceWorld.store) w.store := by
    apply hr.history_invariant (I := fun past w => RequestInvariant w ∧
      RechunkTrail ((w :: past).map ReplaceWorld.store) w.store)
    · intro w hw
      refine ⟨.init hw, ?_⟩
      intro v hv r hr
      rw [List.mem_singleton.1 hv] at hr ⊢
      exact ⟨r, hr, .refl r, id⟩
    · intro past a w w' h hstep
      exact ⟨h.1.step hstep.1, h.2.step h.1 hstep.1⟩
  obtain ⟨v, hv, ⟨r, hr, hid⟩, hn⟩ := hgone
  obtain ⟨r', hr', hsame, hleft⟩ := htrail v hv r hr
  obtain rfl : r' = row := eq_of_key_eq hr' hrow (hsame.id.trans hid)
  have hnow := hleft hn
  obtain ⟨hstep, hguard⟩ := hs
  cases a with
  | call op => exact absurd (hguard op rfl r' hrow hb) hnow
  | run i mv =>
    obtain ⟨t, row', ht, hk, hid'⟩ := hb
    obtain ⟨r₀, hr₀, hsame₀⟩ := hi.tasks t (List.mem_of_getElem? ht) row' hk
    obtain rfl : r₀ = r' := eq_of_key_eq hr₀ hrow (hsame₀.id.trans hid')
    rw [hsame₀.objectId] at hnow
    exact hi.run_activeObjectId hstep ht hk hnow
  | planMove | startRechunk | read => exact hb.elim

/-- The key is overwritten between the queueing of its re-chunk job and the job's upload. -/
def overwrittenRechunk : List ReplaceAction :=
  let now := (instant 4).unixTimestamp
  (uploadOps (emptyObject ⟨1⟩ "photos" "a.jpg") ⟨7⟩ 1).map .call ++
    [.call (.queueRechunk ⟨5⟩ "photos" "a.jpg" 1024 (instant 2).unixTimestamp)] ++
    (uploadOps (emptyObject ⟨2⟩ "photos" "a.jpg") ⟨8⟩ 3).map .call ++
    [.call (.claimRechunkJob now), .startRechunk ⟨5⟩,
      .run 0 (.begin ⟨3⟩ { wholeChecksum := "e3b0c442" } (instant 4)),
      .run 0 (.stage (instant 4)), .run 0 (.setConditionals now), .run 0 (.queue now),
      .call (.claimTransfer now ⟨9⟩), .call (.enterCommitting ⟨3⟩ ⟨9⟩ now)]

def overwrittenRechunkRun : List ReplaceWorld × ReplaceWorld :=
  (exec (ReplaceAction.request (fun _ => none) sampleConfig) [] { store := photosStore }
    overwrittenRechunk).get (by decide)

def rechunkCommit : ReplaceAction :=
  .call (.commitTransferManifest ⟨3⟩ ⟨9⟩ (sampleConfig.newManifest
    { objectId := ⟨3⟩, bucket := "photos", key := "a.jpg", contentType := "application/octet-stream"
      expiresAt := none, chunks := [], wholeChecksum := "e3b0c442" } (instant 4)) (instant 4))

def afterRechunk : ReplaceWorld :=
  (rechunkCommit.request (fun _ => none) sampleConfig overwrittenRechunkRun.2).get (by decide)

/-- The copy of the old version takes the place of the newer upload. -/
theorem rechunk_undoes_newer_upload : ¬ RechunkSafe (RequestStep (fun _ => none) sampleConfig) := by
  intro h
  have hi : RequestInitial { store := photosStore } :=
    ⟨⟨⟨⟨rfl, rfl, rfl⟩, rfl, rfl⟩, rfl, rfl⟩, rfl⟩
  have hr : Run RequestInitial (RequestStep (fun _ => none) sampleConfig)
      overwrittenRechunkRun.1 overwrittenRechunkRun.2 := Run.of_exec_isSome hi (by decide)
  have hs : RequestStep (fun _ => none) sampleConfig rechunkCommit overwrittenRechunkRun.2
      afterRechunk := (Option.some_get _).symm
  obtain ⟨row, hrow, hid, hbucket, hkey, hobject⟩ : ∃ row,
      overwrittenRechunkRun.2.store.rechunkJobs.get? ⟨5⟩ = some row ∧ row.id = ⟨5⟩ ∧
        row.bucket = "photos" ∧ row.key = "a.jpg" ∧ row.objectId = ⟨1⟩ :=
    ⟨_, rfl, rfl, rfl, rfl, rfl⟩
  have hmem := mem_of_get? hrow
  have hb : rechunkCommit.BelongsTo overwrittenRechunkRun.2 row.id := by
    rw [hid]
    exact ⟨_, .head _, _, ⟨3⟩, rfl, rfl, rfl, rfl⟩
  have hshown : overwrittenRechunkRun.2.store.activeObjectId "photos" "a.jpg" = some ⟨2⟩ := by
    decide
  have hgone : SourceReplaced
      ((overwrittenRechunkRun.2 :: overwrittenRechunkRun.1).map ReplaceWorld.store) row := by
    refine ⟨_, List.mem_cons_self, ⟨row, hmem, rfl⟩, ?_⟩
    rw [hbucket, hkey, hobject, hshown]
    decide
  have he := h _ _ hr rechunkCommit afterRechunk hs row hmem hb hgone
  rw [hbucket, hkey, hshown] at he
  have hnew : afterRechunk.store.activeObjectId "photos" "a.jpg" = some ⟨3⟩ := by decide
  rw [hnew] at he
  cases he

end TelegramS3
