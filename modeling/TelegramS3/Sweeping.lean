import TelegramS3.Publication

namespace TelegramS3
open Relational Table Fallible Transition MetadataStore
set_option autoImplicit true

/-- A directory of an operation, a scratch one named `upload-` and an object id, or any other. -/
inductive StagingName where
  | operation (id : Uuid)
  | upload (object : Uuid)
  | other (name : String)
  deriving DecidableEq

/-- A local manifest file or chunk directory, by the object id its name holds. -/
inductive ObjectName where
  | object (id : Uuid)
  | other (name : String)
  deriving DecidableEq

/-- A reconcile with what it listed and the staged manifests it found without a transfer. -/
structure Sweep where
  manifests : List ObjectManifest
  journal : List Uuid
  doubted : List Uuid := []
  deriving DecidableEq

def Sweep.takesStaging (sw : Sweep) (s : MetadataStore) : StagingName → Bool
  | .operation id => !sw.journal.contains id
  | .upload object => (s.transferJobs.get? object).isNone
  | .other _ => true

def Sweep.takesObject (sw : Sweep) : ObjectName → Bool
  | .object id => !sw.manifests.any fun m => m.objectId = id
  | .other _ => true

structure SweepWorld where
  store : MetadataStore
  staging : List StagingName := []
  manifests : List ObjectName := []
  chunks : List ObjectName := []
  sweeps : List Sweep := []

inductive SweepAction where
  | call (op : StoreOp)
  | makeStaging (name : StagingName)
  | makeManifest (name : ObjectName)
  | makeChunks (name : ObjectName)
  | start
  | doubt (sw : Sweep) (m : ObjectManifest)
  | quarantineStagingManifest (sw : Sweep) (object operation : Uuid)
  | quarantineStaging (sw : Sweep) (name : StagingName)
  | quarantineManifest (sw : Sweep) (name : ObjectName)
  | quarantineChunks (sw : Sweep) (name : ObjectName)
  | finish (sw : Sweep)

def MetadataStore.stagingOperation (s : MetadataStore) (object : Uuid) : Option Uuid :=
  ((s.operationJournal.rows.insertionSort fun a b => a.createdAt.text < b.createdAt.text ∨
    a.createdAt.text = b.createdAt.text ∧ a.operationId.value ≤ b.operationId.value).find?
      fun e => e.objectId = object).map JournalRow.operationId

def SweepAction.apply (fromStr : String → Option ETagCondition) (a : SweepAction)
    (w : SweepWorld) : Option SweepWorld :=
  match a with
  | .call op => (op.serve fromStr w.store).map fun s => { w with store := s }
  | .makeStaging name => some { w with staging := name :: w.staging }
  | .makeManifest name => some { w with manifests := name :: w.manifests }
  | .makeChunks name => some { w with chunks := name :: w.chunks }
  | .start => (after w.store.listManifests).map fun l =>
    { w with
      sweeps := ⟨l, w.store.operationJournal.rows.map JournalRow.operationId, []⟩ :: w.sweeps }
  | .doubt sw m =>
    if sw ∈ w.sweeps ∧ m ∈ sw.manifests ∧ m.commitState = .staging ∧
        w.store.transferJobs.get? m.objectId = none then
      some { w with
        sweeps := { sw with doubted := m.objectId :: sw.doubted } :: w.sweeps.erase sw }
    else none
  | .quarantineStagingManifest sw object operation =>
    if sw ∈ w.sweeps ∧ object ∈ sw.doubted ∧ w.store.stagingOperation object = some operation ∧
        .operation operation ∈ w.staging then
      some { w with staging := w.staging.filter (· ≠ .operation operation) }
    else none
  | .quarantineStaging sw name =>
    if sw ∈ w.sweeps ∧ name ∈ w.staging ∧ sw.takesStaging w.store name = true then
      some { w with staging := w.staging.filter (· ≠ name) }
    else none
  | .quarantineManifest sw name =>
    if sw ∈ w.sweeps ∧ name ∈ w.manifests ∧ sw.takesObject name = true then
      some { w with manifests := w.manifests.filter (· ≠ name) }
    else none
  | .quarantineChunks sw name =>
    if sw ∈ w.sweeps ∧ name ∈ w.chunks ∧ sw.takesObject name = true then
      some { w with chunks := w.chunks.filter (· ≠ name) }
    else none
  | .finish sw => some { w with sweeps := w.sweeps.erase sw }

def SweepStep (fromStr : String → Option ETagCondition) (a : SweepAction) (w w' : SweepWorld) :
    Prop :=
  a.apply fromStr w = some w'

structure SweepWorld.Initial (w : SweepWorld) : Prop where
  store : EmptyStore w.store
  sweeps : w.sweeps = []

def TransferJob.Stages (j : TransferJob) (name : StagingName) : Prop :=
  name = .operation j.objectId ∨ (∃ operation, j.operationId = some operation ∧
    name = .operation operation) ∨ name = .upload j.objectId

/-- What is moved belongs to no unfinished transfer and to no object with a manifest row. -/
def SparesLive (a : SweepAction) (w : SweepWorld) : Prop :=
  match a with
  | .quarantineStaging _ name =>
    ∀ j ∈ w.store.transferJobs, j.Stages name → j.state.terminal = true
  | .quarantineStagingManifest _ _ operation =>
    ∀ j ∈ w.store.transferJobs, j.Stages (.operation operation) → j.state.terminal = true
  | .quarantineManifest _ (.object id) | .quarantineChunks _ (.object id) =>
    ∀ r ∈ w.store.objectManifests, r.objectId ≠ id
  | _ => True

/-- In every run, whatever a reconcile moves to quarantine is nobody's. -/
def ReconcileSparesLive (Step : SweepAction → SweepWorld → SweepWorld → Prop) : Prop :=
  ∀ past w, Run SweepWorld.Initial Step past w → ∀ a w', Step a w w' → SparesLive a w

/-- A reconcile starts while transfers have journal entries and manifests are of the connection;
under it no transfer is begun and nothing staged under an unlisted id. -/
def ReconcilesAlone (a : SweepAction) (w : SweepWorld) : Prop :=
  match a with
  | .start =>
    (∀ j ∈ w.store.transferJobs, j.state.terminal = false →
      ∃ e ∈ w.store.operationJournal, e.operationId = j.objectId) ∧
    ∀ r ∈ w.store.objectManifests, r.connectionId = w.store.activeConnectionId
  | .call (.beginTransfer ..) => w.sweeps = []
  | .call (.stageManifest _ m _) => ∀ sw ∈ w.sweeps, ∃ l ∈ sw.manifests, l.objectId = m.objectId
  | _ => True

/-- What a reconcile knows covers everything live. -/
structure Sweep.Covers (sw : Sweep) (s : MetadataStore) : Prop where
  journal : ∀ j ∈ s.transferJobs, j.state.terminal = false → j.objectId ∈ sw.journal
  manifests : ∀ r ∈ s.objectManifests, ∃ m ∈ sw.manifests, m.objectId = r.objectId
  doubted : ∀ object ∈ sw.doubted, s.transferJobs.get? object = none

structure SweepWorld.Sound (w : SweepWorld) : Prop where
  coherent : Coherent w.store
  oneId : ∀ j ∈ w.store.transferJobs, j.OneId
  sweeps : ∀ sw ∈ w.sweeps, sw.Covers w.store

theorem Sweep.Covers.step (h : Sweep.Covers sw s) (hc : Coherent s)
    (hs : StoreStep fromStr op s s') (hw : WritesOwnManifest op s)
    (hb : ∀ object bucket key now, op ≠ .beginTransfer object bucket key now)
    (hm : ∀ kind m now, op = .stageManifest kind m now → ∃ l ∈ sw.manifests, l.objectId = m.objectId) :
    sw.Covers s' where
  journal j' hj' ht := by
    rcases StoreOp.jobs_step hs with hr | ⟨object, bucket, key, now, ho, -⟩
    · obtain ⟨j, hj, hstep⟩ := hr.of_mem hj'
      rw [hstep.same.objectId]
      apply h.journal j hj
      cases hjt : j.state.terminal with
      | false => rfl
      | true =>
        rw [hstep.terminal hjt] at ht
        cases ht
    · exact absurd ho (hb object bucket key now)
  manifests r' hr' := by
    cases hn : op.stagedObject with
    | none =>
      obtain ⟨r, hr, hv⟩ := (StoreOp.identity_step hc hs hw hn).rows r' hr'
      rw [hv.objectId]
      exact h.manifests r hr
    | some object =>
      obtain ⟨kind, m, now, rfl, -⟩ := StoreOp.stagedObject_eq_some hn
      obtain ⟨-, rfl⟩ := stageManifest_ok (after_eq_some.1 hs)
      rcases mem_upsert.1 hr' with rfl | ⟨hr, -⟩
      · exact hm kind m now rfl
      · exact h.manifests r' hr
  doubted object ho := by
    have hn := h.doubted object ho
    rw [get?_eq_none] at hn ⊢
    rcases StoreOp.jobs_step hs with hr | ⟨object, bucket, key, now, ho, -⟩
    · intro j' hj' he
      obtain ⟨j, hj, hstep⟩ := hr.of_mem hj'
      exact hn j hj (hstep.same.id.symm.trans he)
    · exact absurd ho (hb object bucket key now)

namespace SweepWorld

theorem Sound.call (h : Sound w) (hs : StoreStep fromStr op w.store s')
    (hw : WritesOwnManifest op w.store) (hc : ReconcilesAlone (.call op) w) :
    Sound { w with store := s' } where
  coherent := h.coherent.step hs hw
  oneId := StoreOp.oneId_step h.oneId hs
  sweeps sw hsw := by
    apply (h.sweeps sw hsw).step h.coherent hs hw
    · rintro object bucket key now rfl
      have hn : w.sweeps = [] := hc
      rw [hn] at hsw
      cases hsw
    · rintro kind m now rfl
      exact hc sw hsw

theorem Sound.start (h : Sound w) (hl : w.store.listManifests = .ok l)
    (hc : ReconcilesAlone .start w) :
    Sweep.Covers ⟨l, w.store.operationJournal.rows.map JournalRow.operationId, []⟩ w.store where
  journal j hj ht := by
    obtain ⟨e, he, ho⟩ := hc.1 j hj ht
    exact List.mem_map.2 ⟨e, he, ho⟩
  manifests r hr := by
    have hm : r ∈ (w.store.objectManifests.select fun m =>
        m.connectionId = w.store.activeConnectionId).insertionSort fun a b =>
          a.createdAt.text < b.createdAt.text ∨
            a.createdAt.text = b.createdAt.text ∧ a.objectId.value ≤ b.objectId.value := by
      simpa using ⟨hr, hc.2 r hr⟩
    obtain ⟨m, hml, hr'⟩ := exists_of_mapM_ok hl hm
    split at hr'
    · cases hr'
    · cases hr'
      exact ⟨_, hml, (h.coherent.rows r hr).objectId⟩
  doubted object ho := by cases ho

theorem Sound.step (h : Sound w) (hs : SweepStep fromStr a w w') (hc : ReconcilesAlone a w) :
    Sound w' := by
  cases a with
  | call op =>
    obtain ⟨s', ho, rfl⟩ := Option.map_eq_some_iff.1 hs
    obtain ⟨ho, hw⟩ := StoreOp.serve_eq_some ho
    exact h.call ho hw hc
  | makeStaging | makeManifest | makeChunks =>
    cases hs
    exact ⟨h.coherent, h.oneId, h.sweeps⟩
  | start =>
    obtain ⟨l, hl, rfl⟩ := Option.map_eq_some_iff.1 hs
    refine ⟨h.coherent, h.oneId, ?_⟩
    intro sw hsw
    rcases List.mem_cons.1 hsw with rfl | hsw
    · exact h.start (after_eq_some.1 hl) hc
    · exact h.sweeps sw hsw
  | doubt sw m =>
    simp only [SweepStep, SweepAction.apply, Option.ite_none_right_eq_some, Option.some.injEq] at hs
    obtain ⟨⟨hm, -, -, hj⟩, rfl⟩ := hs
    refine ⟨h.coherent, h.oneId, ?_⟩
    intro i hi
    rcases List.mem_cons.1 hi with rfl | hi
    · have hk := h.sweeps sw hm
      refine ⟨hk.journal, hk.manifests, ?_⟩
      intro object ho
      rcases List.mem_cons.1 ho with rfl | ho
      · exact hj
      · exact hk.doubted object ho
    · exact h.sweeps i (List.mem_of_mem_erase hi)
  | quarantineStagingManifest | quarantineStaging | quarantineManifest | quarantineChunks =>
    simp only [SweepStep, SweepAction.apply, Option.ite_none_right_eq_some, Option.some.injEq] at hs
    obtain ⟨-, rfl⟩ := hs
    exact ⟨h.coherent, h.oneId, h.sweeps⟩
  | finish sw =>
    cases hs
    exact ⟨h.coherent, h.oneId, fun i hi => h.sweeps i (List.mem_of_mem_erase hi)⟩

theorem Initial.sound (h : Initial w) : Sound w := by
  constructor
  · exact h.store.objects.coherent
  · simp [h.store.jobs]
  · simp [h.sweeps]

theorem Sound.stages (h : Sound w) (hj : j ∈ w.store.transferJobs) (hn : j.Stages name) :
    name = .operation j.id ∨ name = .upload j.id := by
  have ho := h.oneId j hj
  rcases hn with hn | ⟨operation, hop, hn⟩ | hn
  · rw [hn, ho.object]
    exact .inl rfl
  · rw [hn, ho.operation operation hop]
    exact .inl rfl
  · rw [hn, ho.object]
    exact .inr rfl

section
variable (h : Sound w) (hsw : sw ∈ w.sweeps)
include h hsw

theorem Sound.spares_staging (ht : sw.takesStaging w.store name = true)
    (hj : j ∈ w.store.transferJobs) (hn : j.Stages name) : j.state.terminal = true := by
  rcases h.stages hj hn with rfl | rfl
  · simp only [Sweep.takesStaging, Bool.not_eq_true', List.contains_eq_mem,
      decide_eq_false_iff_not] at ht
    by_contra hx
    have hm := (h.sweeps sw hsw).journal j hj (Bool.not_eq_true _ ▸ hx)
    rw [(h.oneId j hj).object] at hm
    exact ht hm
  · simp only [Sweep.takesStaging, Option.isNone_iff_eq_none] at ht
    exact absurd rfl (get?_eq_none.1 ht j hj)

theorem Sound.spares_doubted (hd : object ∈ sw.doubted)
    (ho : w.store.stagingOperation object = some operation) (hj : j ∈ w.store.transferJobs)
    (hn : j.Stages (.operation operation)) : j.state.terminal = true := by
  obtain ⟨e, he, rfl⟩ := Option.map_eq_some_iff.1 ho
  have hem : e ∈ w.store.operationJournal := by
    simpa [mem_def] using List.mem_of_find?_eq_some he
  have heo : e.objectId = object := by simpa using List.find?_some he
  have hop : e.operationId = object := (h.coherent.operation e hem).1.symm.trans heo
  have hid : j.id = object := by
    rcases h.stages hj hn with hx | hx
    · exact (StagingName.operation.inj hx).symm.trans hop
    · cases hx
  have hnone := (h.sweeps sw hsw).doubted object hd
  rw [get?_eq_none] at hnone
  exact absurd hid (hnone j hj)

theorem Sound.spares_object (ht : sw.takesObject (.object object) = true)
    (hr : r ∈ w.store.objectManifests) : r.objectId ≠ object := by
  intro hid
  obtain ⟨m, hm, hmo⟩ := (h.sweeps sw hsw).manifests r hr
  simp only [Sweep.takesObject, Bool.not_eq_true', List.any_eq_false, decide_eq_true_eq] at ht
  exact ht m hm (hmo.trans hid)

end

theorem Sound.spares (h : Sound w) (hs : SweepStep fromStr a w w') : SparesLive a w := by
  cases a with
  | quarantineStaging sw name =>
    simp only [SweepStep, SweepAction.apply, Option.ite_none_right_eq_some] at hs
    exact fun j hj hn => h.spares_staging hs.1.1 hs.1.2.2 hj hn
  | quarantineStagingManifest sw object operation =>
    simp only [SweepStep, SweepAction.apply, Option.ite_none_right_eq_some] at hs
    exact fun j hj hn => h.spares_doubted hs.1.1 hs.1.2.1 hs.1.2.2.1 hj hn
  | quarantineManifest sw name | quarantineChunks sw name =>
    simp only [SweepStep, SweepAction.apply, Option.ite_none_right_eq_some] at hs
    cases name with
    | object id => exact fun r hr => h.spares_object hs.1.1 hs.1.2.2 hr
    | other => trivial
  | _ => trivial

end SweepWorld

/-- A reconcile that is alone leaves everything live where it is. -/
theorem lone_reconcile_spares_live (fromStr : String → Option ETagCondition) :
    ReconcileSparesLive (Guarded (SweepStep fromStr) ReconcilesAlone) := by
  intro past w hr a w' hs
  have h : w.Sound := hr.invariant (fun _ hi => hi.sound) fun _ _ _ h hs => h.step hs.1 hs.2
  exact h.spares hs.1

/-- An upload is being received when a reconcile starts. -/
def sweptReception : List SweepAction :=
  [.call (.beginTransfer ⟨1⟩ "photos" "a" (instant 1).unixTimestamp),
    .makeStaging (.operation ⟨1⟩), .start]

def sweptReceptionRun : List SweepWorld × SweepWorld :=
  (exec (SweepAction.apply fun _ => none) [] { store := photosStore } sweptReception).get
    (by decide +kernel)

/-- Its staging directory is moved to quarantine. -/
theorem reconcile_takes_reception : ¬ ReconcileSparesLive (SweepStep fun _ => none) := by
  intro h
  have hi : SweepWorld.Initial { store := photosStore } := ⟨⟨⟨rfl, rfl, rfl⟩, rfl, rfl⟩, rfl⟩
  have hr : Run SweepWorld.Initial (SweepStep fun _ => none) sweptReceptionRun.1
      sweptReceptionRun.2 := Run.of_exec_isSome hi _
  have hs : ((SweepAction.quarantineStaging ⟨[], [], []⟩ (.operation ⟨1⟩)).apply (fun _ => none)
      sweptReceptionRun.2).isSome = true := by decide +kernel
  have hj : sweptReceptionRun.2.store.transferJobs.any
      (fun j => j.objectId = ⟨1⟩ && !j.state.terminal) = true := by decide +kernel
  obtain ⟨j, hj, hp⟩ := any_eq_true.1 hj
  simp only [Bool.and_eq_true, decide_eq_true_eq, Bool.not_eq_true'] at hp
  have ht := h _ _ hr _ _ (Option.some_get hs).symm j hj (.inl (by rw [hp.1]))
  rw [hp.2] at ht
  cases ht

end TelegramS3
