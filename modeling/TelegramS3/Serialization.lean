import TelegramS3.Leases
import TelegramS3.Supersession
import TelegramS3.ActiveJobs

namespace TelegramS3
open Relational Table Fallible Transition MetadataStore
set_option autoImplicit true

def SameKey (i j : TransferJob) : Prop := i.bucket = j.bucket ∧ i.key = j.key

/-- A manifest is staged under the key of its job, and a job opened for the key of its manifest. -/
def StoreOp.stagesOwn (op : StoreOp) (s : MetadataStore) : Bool :=
  match op with
  | .stageManifest _ m _ => s.transferJobs.rows.all fun j =>
      j.objectId != m.objectId || (m.bucket = j.bucket && m.key = j.key)
  | .beginTransfer objectId bucket key _ => s.objectManifests.rows.all fun r =>
      r.objectId != objectId || (r.bucket = bucket && r.objectKey = key)
  | _ => true

structure CommitWorld where
  store : MetadataStore
  commits : List TransferJob

def StoreOp.commits (op : StoreOp) (s : MetadataStore) : List TransferJob :=
  match op with
  | .commitTransferManifest id .. => (s.transferJobs.get? id).toList
  | _ => []

def CommitWorld.apply (fromStr : String → Option ETagCondition) (op : StoreOp) (w : CommitWorld) :
    Option CommitWorld :=
  if op.stagesOwn w.store then
    (op.serve fromStr w.store).map fun s => ⟨s, op.commits w.store ++ w.commits⟩
  else none

def CommitStep (fromStr : String → Option ETagCondition) (op : StoreOp) (w w' : CommitWorld) :
    Prop :=
  w.apply fromStr op = some w'

structure CommitWorld.Initial (w : CommitWorld) : Prop where
  store : EmptyStore w.store
  commits : w.commits = []

/-- Steps in which nothing but a transfer commit writes the active row of the key. -/
def OnlyTransfers (Step : StoreOp → CommitWorld → CommitWorld → Prop) (bucket key : String)
    (op : StoreOp) (w w' : CommitWorld) : Prop :=
  Step op w w' ∧ ((∃ id lease published now, op = .commitTransferManifest id lease published now) ∨
    w'.store.activeObjectId bucket key = w.store.activeObjectId bucket key)

/-- The active object of the key is that of its committed job with the largest sequence. -/
def ShowsLargest (w : CommitWorld) (bucket key : String) : Prop :=
  ∃ j ∈ w.commits, j.bucket = bucket ∧ j.key = key ∧
    (∀ i ∈ w.commits, SameKey i j → i.sequence ≤ j.sequence) ∧
    w.store.activeObjectId bucket key = some j.objectId

/-- The transfers of a key are published one at a time, in the order they were opened. -/
structure PerKeySerialized (Step : StoreOp → CommitWorld → CommitWorld → Prop) : Prop where
  exclusive : ∀ past w, Run CommitWorld.Initial Step past w →
    ∀ i ∈ w.store.transferJobs, ∀ j ∈ w.store.transferJobs, SameKey i j →
      i.state.leased = true → j.state.leased = true → i = j
  increasing : ∀ past w, Run CommitWorld.Initial Step past w →
    w.commits.Pairwise fun j i => SameKey i j → i.sequence < j.sequence
  turn : ∀ past w, Run CommitWorld.Initial Step past w →
    ∀ id lease published now w', Step (.commitTransferManifest id lease published now) w w' →
      ∃ j, w.store.transferJobs.get? id = some j ∧ w'.commits = j :: w.commits ∧
        OlderEnded w.store j
  largest : ∀ past w, Run CommitWorld.Initial Step past w → ∀ bucket key later w',
    Run (· = w) (OnlyTransfers Step bucket key) later w' →
      ShowsLargest w' bucket key ∨
        (∀ j ∈ w'.commits, j.bucket = bucket → j.key = key → j ∈ w.commits) ∧
          w'.store.activeObjectId bucket key = w.store.activeObjectId bucket key

def KeysAgree (s : MetadataStore) : Prop :=
  ∀ j ∈ s.transferJobs, ∀ r ∈ s.objectManifests, r.objectId = j.objectId →
    r.bucket = j.bucket ∧ r.objectKey = j.key

/-- Sequences number the jobs, and a job is leased only once all older jobs of its key ended. -/
structure InTurn (s : MetadataStore) : Prop where
  bound : ∀ j ∈ s.transferJobs, j.sequence ≤ s.transferSequence
  distinct : ∀ i ∈ s.transferJobs, ∀ j ∈ s.transferJobs, i.sequence = j.sequence → i = j
  leased : ∀ j ∈ s.transferJobs, j.state.leased = true → OlderEnded s j

theorem olderEnded_of_claimed (h : Claimed s lease j) : OlderEnded s j := by
  intro i hi hb hk hq
  have hn := any_eq_false.1 h.first i hi
  simpa [hb, hk, hq] using hn

theorem InTurn.exclusive (h : InTurn s) (hi : i ∈ s.transferJobs) (hj : j ∈ s.transferJobs)
    (hk : SameKey i j) (hli : i.state.leased = true) (hlj : j.state.leased = true) : i = j := by
  have hlt : ∀ {a b : TransferJob}, a ∈ s.transferJobs → b ∈ s.transferJobs → SameKey a b →
      a.state.leased = true → b.state.leased = true → ¬ a.sequence < b.sequence := by
    intro a b ha hb hk hla hlb hq
    have ht := h.leased b hb hlb a ha hk.1 hk.2 hq
    rw [TransferState.terminal_of_leased hla] at ht
    cases ht
  apply h.distinct i hi j hj
  have hij := hlt hi hj hk hli hlj
  have hji := hlt hj hi ⟨hk.1.symm, hk.2.symm⟩ hlj hli
  omega

theorem InTurn.jobs_step (h : InTurn s) (hj : JobsStep op s s')
    (hl : Table.Rel (LeaseStep op s') s.transferJobs s'.transferJobs) : InTurn s' where
  bound j' hj' := by
    obtain ⟨j, hjm, hstep⟩ := hj.of_mem hj'
    rw [hstep.same.sequence, hj.sequence]
    exact h.bound j hjm
  distinct i' hi' j' hj' hq := by
    obtain ⟨i, him, hi⟩ := hj.of_mem hi'
    obtain ⟨j, hjm, hj⟩ := hj.of_mem hj'
    rw [hi.same.sequence, hj.same.sequence] at hq
    apply eq_of_key_eq hi' hj'
    have hij := h.distinct i him j hjm hq
    exact hi.same.id.trans (hij ▸ hj.same.id.symm)
  leased j' hj' hlj := by
    obtain ⟨j, hjg, hstep⟩ := hj.rows.some_right (mem_iff_get?.1 hj')
    obtain ⟨i, hig, hlease⟩ := hl.some_right (mem_iff_get?.1 hj')
    rw [hjg] at hig
    cases hig
    rcases hlease.leased hlj with ⟨hjl, -⟩ | ⟨now, lease, -, hc⟩
    · exact (h.leased j (mem_of_get? hjg) hjl).step hj hstep.same
    · exact olderEnded_of_claimed hc

theorem InTurn.begin_step (h : InTurn s) (objectId : Uuid) (bucket key : String) (now : Int) :
    InTurn { s with
      transferSequence := s.transferSequence + 1
      transferJobs := s.transferJobs.insertOrIgnore (s.newJob objectId bucket key now) } where
  bound j hj := by
    rcases mem_insertOrIgnore.1 hj with hj | ⟨rfl, -⟩
    · exact Nat.le_succ_of_le (h.bound j hj)
    · exact Nat.le_refl _
  distinct i hi j hj hq := by
    have hnew : ∀ i ∈ s.transferJobs, i.sequence ≠ (s.newJob objectId bucket key now).sequence := by
      intro i hi hq
      have hle := h.bound i hi
      simp only [newJob] at hq
      omega
    rcases mem_insertOrIgnore.1 hi with hi | ⟨rfl, -⟩
    · rcases mem_insertOrIgnore.1 hj with hj | ⟨rfl, -⟩
      · exact h.distinct i hi j hj hq
      · exact absurd hq (hnew i hi)
    · rcases mem_insertOrIgnore.1 hj with hj | ⟨rfl, -⟩
      · exact absurd hq.symm (hnew j hj)
      · rfl
  leased j hj hlj := by
    rcases mem_insertOrIgnore.1 hj with hj | ⟨rfl, -⟩
    · intro i hi hb hk hq
      rcases mem_insertOrIgnore.1 hi with hi | ⟨rfl, -⟩
      · exact h.leased j hj hlj i hi hb hk hq
      · have hle := h.bound j hj
        simp only [newJob] at hq
        omega
    · cases hlj

theorem InTurn.step (h : InTurn s) (hs : StoreStep fromStr op s s') : InTurn s' := by
  rcases StoreOp.jobs_step hs with hj | ⟨objectId, bucket, key, now, -, -, rfl⟩
  · rcases StoreOp.leases_step hs with hl | ⟨objectId, bucket, key, now, rfl⟩
    · exact h.jobs_step hj hl
    · obtain ⟨-, rfl⟩ := beginTransfer_ok (after_eq_some.1 hs)
      exact h.begin_step objectId bucket key now
  · exact h.begin_step objectId bucket key now

theorem KeysAgree.step (h : KeysAgree s) (hc : Coherent s) (ho : op.stagesOwn s = true)
    (hs : StoreStep fromStr op s s') (hw : WritesOwnManifest op s) : KeysAgree s' := by
  intro j' hj' r' hr' hid
  cases hn : op.stagedObject with
  | some object =>
    obtain ⟨kind, m, now, rfl, -⟩ := StoreOp.stagedObject_eq_some hn
    obtain ⟨-, rfl⟩ := stageManifest_ok (after_eq_some.1 hs)
    rcases mem_upsert.1 hr' with rfl | ⟨hr, -⟩
    · simp only [StoreOp.stagesOwn, List.all_eq_true] at ho
      have hm : m.objectId = j'.objectId := hid
      have hk := ho j' hj'
      simp [hm] at hk
      exact hk
    · exact h j' hj' r' hr hid
  | none =>
    obtain ⟨r, hr, hv⟩ := (StoreOp.identity_step hc hs hw hn).rows r' hr'
    rw [hv.bucket, hv.key]
    rw [hv.objectId] at hid
    rcases StoreOp.jobs_step hs with hj | ⟨objectId, bucket, key, now, rfl, -, rfl⟩
    · obtain ⟨j, hj, hstep⟩ := hj.of_mem hj'
      rw [hstep.same.bucket, hstep.same.key]
      exact h j hj r hr (hid.trans hstep.same.objectId)
    · rcases mem_insertOrIgnore.1 hj' with hj | ⟨rfl, -⟩
      · exact h j' hj r hr hid
      · simp only [StoreOp.stagesOwn, List.all_eq_true] at ho
        have hob : r.objectId = objectId := hid
        have hk := ho r hr
        simp [hob] at hk
        exact hk

/-- What a transfer commit that succeeded found and did. -/
structure TransferCommit (s s' : MetadataStore) (j : TransferJob) : Prop where
  leased : j.state.leased = true
  newer : s.newerCommitted j.bucket j.key j.sequence = false
  published : JobPublished s' j.id
  active : ∀ bucket key, s'.activeObjectId bucket key =
    if j.bucket = bucket ∧ j.key = key then some j.objectId else s.activeObjectId bucket key

theorem TransferCommit.of_step (hc : Coherent s)
    (ho : ∀ j ∈ s.transferJobs, j.OneId) (hk : KeysAgree s)
    (hs : StoreStep fromStr (.commitTransferManifest job lease subject now) s s') :
    ∃ j, s.transferJobs.get? job = some j ∧ TransferCommit s s' j := by
  obtain ⟨⟨m', s₁⟩, hcm, rfl⟩ := map_ok.1 (after_eq_some.1 hs)
  obtain ⟨e, he, ⟨hd, -⟩ | ⟨m, hm, hf, -, hst⟩⟩ := commitManifestInner_ok hcm
  · rw [(hc.operation e (mem_of_get? he)).2.2] at hd
    cases hd
  · obtain ⟨j, hj, hcj⟩ := commitFence_completes hf
    have hjm := mem_of_get? hj
    have hid : j.id = job := key_of_get? hj
    obtain ⟨row, hrow, hmid, hmb, hmk⟩ := commitSubject_row hc he hm
    obtain ⟨hb, hkey⟩ := hk j hjm row (mem_of_get? hrow)
      (by rw [(ho j hjm).object, hid]; exact key_of_get? hrow)
    simp only [commitFence, hj] at hf
    obtain ⟨_, -, hf⟩ := bind_ok.1 hf
    simp only [ensure_ok, Bool.not_eq_true', Bool.or_eq_false_iff] at hf
    have hp : s₁.activeObjects = (s.publishManifest job m now).activeObjects ∧
        s₁.transferJobs = (s.committedStore job (some (job, lease)) m now).transferJobs := by
      rcases hst with ⟨-, rfl⟩ | ⟨upload, -, rfl⟩
      · exact ⟨rfl, rfl⟩
      · exact ⟨rfl, rfl⟩
    refine ⟨j, hj, ?_, hf.2, ⟨TransferJob.complete now.unixTimestamp j, ?_, rfl⟩, ?_⟩
    · simp only [completes, Bool.and_eq_true, decide_eq_true_eq] at hcj
      rw [hcj.2]
      rfl
    · rw [hp.2, hid]
      simp [committedStore, hj, hcj]
    · intro bucket key
      have hact := s.publishManifest_activeObjectId job m now bucket key
      rw [hmb, hmk, hb, hkey, hmid, ← hid, ← (ho j hjm).object] at hact
      rw [← hact, activeObjectId, activeObjectId, hp.1]
      rfl

structure CommitWorld.Serial (w : CommitWorld) : Prop where
  coherent : Coherent w.store
  oneId : ∀ j ∈ w.store.transferJobs, j.OneId
  keys : KeysAgree w.store
  turns : InTurn w.store
  committed : ∀ c ∈ w.commits, ∃ j, w.store.transferJobs.get? c.id = some j ∧ SameJob c j ∧
    j.state.published = true
  increasing : w.commits.Pairwise fun j i => SameKey i j → i.sequence < j.sequence

namespace CommitWorld
variable {w w' : CommitWorld}

theorem Initial.serial (h : w.Initial) : w.Serial := by
  have hn : ∀ j, j ∉ w.store.transferJobs := by simp [h.store.jobs]
  refine ⟨h.store.objects.coherent, fun j hj => absurd hj (hn j), fun j hj => absurd hj (hn j),
    ⟨fun j hj => absurd hj (hn j), fun j hj => absurd hj (hn j), fun j hj => absurd hj (hn j)⟩,
    ?_, ?_⟩
  · simp [h.commits]
  · simp [h.commits]

theorem apply_eq_some (h : w.apply fromStr op = some w') :
    StoreStep fromStr op w.store w'.store ∧ WritesOwnManifest op w.store ∧
      op.stagesOwn w.store = true ∧ w'.commits = op.commits w.store ++ w.commits := by
  simp only [CommitWorld.apply, Option.ite_none_right_eq_some, Option.map_eq_some_iff] at h
  obtain ⟨ho, s, hs, rfl⟩ := h
  obtain ⟨hs, hw⟩ := StoreOp.serve_eq_some hs
  exact ⟨hs, hw, ho, rfl⟩

theorem commits_cases (h : w.Serial) (hs : CommitStep fromStr op w w') :
    (w'.commits = w.commits ∧ ∀ id lease published now,
        op ≠ .commitTransferManifest id lease published now) ∨
      ∃ j ∈ w.store.transferJobs, w'.commits = j :: w.commits ∧
        TransferCommit w.store w'.store j := by
  obtain ⟨hs, -, -, hc⟩ := apply_eq_some hs
  cases op with
  | commitTransferManifest id lease published now =>
    obtain ⟨j, hj, ht⟩ := TransferCommit.of_step h.coherent h.oneId h.keys hs
    refine .inr ⟨j, mem_of_get? hj, ?_, ht⟩
    simpa [StoreOp.commits, hj] using hc
  | _ => exact .inl ⟨hc, fun _ _ _ _ he => by cases he⟩

theorem Serial.after (h : w.Serial) (hj : j ∈ w.store.transferJobs)
    (ht : TransferCommit w.store s' j) (hi : i ∈ w.commits) (hk : SameKey i j) :
    i.sequence < j.sequence := by
  obtain ⟨i', hi', hsame, hp⟩ := h.committed i hi
  have him := mem_of_get? hi'
  have hnew := any_eq_false.1 ht.newer i' him
  have hne : i'.sequence ≠ j.sequence := by
    intro hq
    rw [h.turns.distinct i' him j hj hq, TransferState.published_of_leased ht.leased] at hp
    cases hp
  simp only [hsame.bucket, hsame.key, hk.1, hk.2, hp, decide_true, Bool.true_and, Bool.and_true,
    decide_eq_false_iff_not] at hnew
  rw [hsame.sequence] at hnew hne
  omega

theorem Serial.step (h : w.Serial) (hs : CommitStep fromStr op w w') : w'.Serial := by
  obtain ⟨hst, hw, ho, -⟩ := apply_eq_some hs
  have hkeep : ∀ c ∈ w.commits, ∃ j, w'.store.transferJobs.get? c.id = some j ∧ SameJob c j ∧
      j.state.published = true := by
    intro c hc
    obtain ⟨j, hj, hsame, hp⟩ := h.committed c hc
    obtain ⟨j', hj', hstep⟩ := StoreOp.job_step hst hj
    exact ⟨j', hj', hsame.trans hstep.same, hstep.published hp⟩
  refine ⟨h.coherent.step hst hw, StoreOp.oneId_step h.oneId hst, h.keys.step h.coherent ho hst hw,
    h.turns.step hst, ?_, ?_⟩
  all_goals
    rcases commits_cases h hs with ⟨hc, -⟩ | ⟨j, hj, hc, ht⟩
    all_goals rw [hc]
  · exact hkeep
  · intro c hcm
    rcases List.mem_cons.1 hcm with rfl | hcm
    · obtain ⟨c', hc', hstep⟩ := StoreOp.job_step hst (mem_iff_get?.1 hj)
      obtain ⟨i, hi, hp⟩ := ht.published
      exact ⟨c', hc', hstep.same, by rwa [Option.some.inj (hc'.symm.trans hi)]⟩
    · exact hkeep c hcm
  · exact h.increasing
  · exact List.pairwise_cons.2 ⟨fun i hi => h.after hj ht hi, h.increasing⟩

def Follows (v : CommitWorld) (bucket key : String) (w : CommitWorld) : Prop :=
  ShowsLargest w bucket key ∨
    (∀ j ∈ w.commits, j.bucket = bucket → j.key = key → j ∈ v.commits) ∧
      w.store.activeObjectId bucket key = v.store.activeObjectId bucket key

theorem Serial.follows (h : w.Serial) (hf : Follows v bucket key w)
    (hs : OnlyTransfers (CommitStep fromStr) bucket key op w w') : Follows v bucket key w' := by
  obtain ⟨hs, ho⟩ := hs
  rcases commits_cases h hs with ⟨hc, hno⟩ | ⟨j, hj, hc, ht⟩
  · have ha := ho.resolve_left fun ⟨id, lease, published, now, he⟩ => hno id lease published now he
    simp only [Follows, ShowsLargest, hc, ha]
    exact hf
  · by_cases hk : j.bucket = bucket ∧ j.key = key
    · left
      refine ⟨j, by simp [hc], hk.1, hk.2, ?_, by rw [ht.active, if_pos hk]⟩
      intro i hi hij
      rw [hc] at hi
      rcases List.mem_cons.1 hi with rfl | hi
      · exact Nat.le_refl _
      · exact (h.after hj ht hi hij).le
    · have ha := ht.active bucket key
      rw [if_neg hk] at ha
      rcases hf with ⟨i, hi, hb, hik, hmax, hact⟩ | ⟨hold, hact⟩
      · refine .inl ⟨i, by simp [hc, hi], hb, hik, ?_, ha.trans hact⟩
        intro c hcm hci
        rw [hc] at hcm
        rcases List.mem_cons.1 hcm with rfl | hcm
        · exact absurd ⟨hci.1.trans hb, hci.2.trans hik⟩ hk
        · exact hmax c hcm hci
      · refine .inr ⟨?_, ha.trans hact⟩
        intro c hcm hb hck
        rw [hc] at hcm
        rcases List.mem_cons.1 hcm with rfl | hcm
        · exact absurd ⟨hb, hck⟩ hk
        · exact hold c hcm hb hck

end CommitWorld

theorem transfers_serialized (fromStr : String → Option ETagCondition) :
    PerKeySerialized (CommitStep fromStr) := by
  have hserial : ∀ past w, Run CommitWorld.Initial (CommitStep fromStr) past w → w.Serial :=
    fun past w hr => hr.invariant (fun _ hi => hi.serial) fun _ _ _ h hs => h.step hs
  refine ⟨?_, ?_, ?_, ?_⟩
  · intro past w hr i hi j hj hk hli hlj
    exact (hserial past w hr).turns.exclusive hi hj hk hli hlj
  · intro past w hr
    exact (hserial past w hr).increasing
  · intro past w hr id lease published now w' hs
    have hw := hserial past w hr
    obtain ⟨hst, -, -, hc⟩ := CommitWorld.apply_eq_some hs
    obtain ⟨j, hj, ht⟩ := TransferCommit.of_step hw.coherent hw.oneId hw.keys hst
    refine ⟨j, hj, by simpa [StoreOp.commits, hj] using hc, ?_⟩
    exact hw.turns.leased j (mem_of_get? hj) ht.leased
  · intro past w hr bucket key later w' hr'
    have h : w'.Serial ∧ CommitWorld.Follows w bucket key w' := by
      refine hr'.invariant (I := fun u => u.Serial ∧ CommitWorld.Follows w bucket key u) ?_ ?_
      · rintro v rfl
        exact ⟨hserial past v hr, .inr ⟨fun _ hj _ _ => hj, rfl⟩⟩
      · rintro op u u' ⟨hu, hf⟩ hs
        exact ⟨hu.step hs.1, hu.follows hf hs⟩
    exact h.2

example : (exec (CommitWorld.apply fun _ => none) [] ⟨photosStore, []⟩
    (uploadOps (emptyObject ⟨1⟩ "photos" "a") ⟨11⟩ 1 ++
      uploadOps (emptyObject ⟨2⟩ "photos" "a") ⟨12⟩ 2)).map
      (fun r => (r.2.commits.map TransferJob.sequence, r.2.store.activeObjectId "photos" "a")) =
    some ([2, 1], some ⟨2⟩) := by
  decide

end TelegramS3
