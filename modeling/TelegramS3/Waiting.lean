import TelegramS3.Publication
import TelegramS3.Service

namespace TelegramS3
open Relational Table Fallible Transition MetadataStore
set_option autoImplicit true

/-- A `wait_transfer` call between two reads, with the part it took the job for. -/
inductive WaitState where
  | polling
  | finished (job : TransferJob)
  | readPart (upload : Uuid) (number : Nat)
  | readManifest (objectId : Uuid)
  | superseded (job : TransferJob)
  | readDuplicate (job : TransferJob) (upload : Uuid) (number : Nat)
  | returned (part : Option (Uuid × Nat)) (result : Except ObjectFormatError ObjectManifest)

def partManifest (s : MetadataStore) (upload : Uuid) (number : Nat) : Option ObjectManifest :=
  (s.getMultipartPart upload number).bind MultipartPart.manifest

def supersededError (job : TransferJob) : ObjectFormatError :=
  .invalidPlan (job.error.getD "transfer was superseded")

def WaitState.polled (job : TransferJob) : WaitState :=
  match job.state with
  | .completed | .cleaned => .finished job
  | .superseded => .superseded job
  | .cancelled | .recoveryRequired | .receptionFailed =>
    .returned none (.error (.invalidPlan (job.error.getD "transfer needs recovery")))
  | _ => .polling

def WaitState.read (s : MetadataStore) (id : Uuid) : WaitState → WaitState
  | .polling =>
    match s.transferJobs.get? id with
    | none => .returned none (.error (.invalidPlan "transfer missing"))
    | some job => polled job
  | .finished job =>
    match (s.multipartJob job.id).filter fun part => 0 < part.2 with
    | some (upload, number) => .readPart upload number
    | none => .readManifest job.objectId
  | .readPart upload number =>
    .returned (some (upload, number)) (match partManifest s upload number with
      | some m => .ok m
      | none => .error (.invalidPlan "completed multipart part manifest missing"))
  | .readManifest objectId =>
    .returned none (match s.getManifest objectId with
      | .error e => .error (.metadata e)
      | .ok none => .error (.invalidPlan "completed manifest missing")
      | .ok (some m) => .ok m)
  | .superseded job =>
    match (s.multipartJob job.id).filter fun part => 0 < part.2 with
    | some (upload, number) => .readDuplicate job upload number
    | none => .returned none (.error (supersededError job))
  | .readDuplicate job upload number =>
    .returned (some (upload, number)) (match partManifest s upload number with
      | some m => .ok m
      | none => .error (supersededError job))
  | .returned part result => .returned part result

def PartPublishedIn (states : List MetadataStore) (upload : Uuid) (number : Nat)
    (m : ObjectManifest) : Prop :=
  ∃ t ∈ states, partManifest t upload number = some m

def JobIn (s : MetadataStore) (job object : Uuid) (p : TransferState → Bool) : Prop :=
  ∃ j, s.transferJobs.get? job = some j ∧ j.objectId = object ∧ p j.state = true

theorem JobIn.step (h : JobIn s job object p) (hs : StoreStep fromStr op s s')
    (hp : ∀ j ∈ s.transferJobs, ∀ j', JobStep op s s' j j' → p j.state = true →
      p j'.state = true) : JobIn s' job object p := by
  obtain ⟨j, hj, ho, hst⟩ := h
  obtain ⟨j', hj', hstep⟩ := StoreOp.job_step hs hj
  exact ⟨j', hj', hstep.same.objectId.trans ho, hp j (mem_of_get? hj) j' hstep hst⟩

def Backed (states : List MetadataStore) (s : MetadataStore) (job : Uuid)
    (part : Option (Uuid × Nat)) (m : ObjectManifest) : Prop :=
  match part with
  | none => (∃ j ∈ s.transferJobs, j.id = job ∧ j.objectId = m.objectId) ∧
      PublishedIn states job m.objectId
  | some (upload, number) => number ≠ 0 ∧ s.multipartJob job = some (upload, number) ∧
      PartPublishedIn states upload number m

def WaitState.Supported (states : List MetadataStore) (s : MetadataStore) (job : Uuid) :
    WaitState → Prop
  | .polling | .returned _ (.error _) => True
  | .finished j => j.id = job ∧ JobIn s job j.objectId TransferState.published
  | .readPart upload number | .readDuplicate _ upload number =>
    number ≠ 0 ∧ s.multipartJob job = some (upload, number)
  | .readManifest object => JobIn s job object (fun _ => true) ∧ (PublishedIn states job object ∨
      (JobIn s job object (· = .cleaned) ∧ s.objectManifests.get? object = none))
  | .superseded j => j.id = job
  | .returned part (.ok m) => Backed states s job part m

theorem PartPublishedIn.cons (h : PartPublishedIn states upload number m) (s : MetadataStore) :
    PartPublishedIn (s :: states) upload number m := by
  obtain ⟨t, ht, hm⟩ := h
  exact ⟨t, List.mem_cons_of_mem _ ht, hm⟩

theorem Backed.cons (h : Backed states s job part m) (t : MetadataStore) :
    Backed (t :: states) s job part m := by
  match part with
  | none => exact ⟨h.1, h.2.cons t⟩
  | some (upload, number) => exact ⟨h.1, h.2.1, h.2.2.cons t⟩

theorem Backed.step (h : Backed states s job part m) (hs : StoreStep fromStr op s s') :
    Backed (s' :: states) s' job part m := by
  match part with
  | none =>
    obtain ⟨⟨j, hj, hid, ho⟩, hp⟩ := h
    obtain ⟨j', hj', hstep⟩ := StoreOp.job_step hs (mem_iff_get?.1 hj)
    have hsame := hstep.same
    exact ⟨⟨j', mem_of_get? hj', hsame.id.trans hid, hsame.objectId.trans ho⟩, hp.cons s'⟩
  | some (upload, number) => exact ⟨h.1, StoreOp.multipartJob_step hs h.2.1, h.2.2.cons s'⟩

theorem JobStep.cleaned (h : JobStep op s s' j j') (hj : j ∈ s.transferJobs)
    (ho : ∀ j ∈ s.transferJobs, j.OneId) (hc : j.state = .cleaned) : j'.state = .cleaned := by
  cases h with
  | move h => rw [← h.move.published_left (by rw [hc]; rfl), hc]
  | publish _ _ hp =>
    have hl := hp.leased hj ho
    rw [hc] at hl
    cases hl
  | clean _ _ _ _ _ hc => exact hc

namespace WaitState
variable {st : WaitState}

theorem Supported.cons (h : st.Supported states s job) (t : MetadataStore) :
    st.Supported (t :: states) s job := by
  cases st with
  | readManifest object => exact ⟨h.1, h.2.imp_left (·.cons t)⟩
  | returned part result =>
    cases result with
    | error => trivial
    | ok m => exact Backed.cons h t
  | _ => exact h

theorem Supported.step (h : st.Supported states s job) (ht : PublicationTrail states s)
    (hs : StoreStep fromStr op s s') (hw : WritesOwnManifest op s) (hc : CleansPublished op s) :
    st.Supported (s' :: states) s' job := by
  cases st with
  | polling => trivial
  | superseded => exact h
  | finished j => exact ⟨h.1, h.2.step hs fun _ _ _ hstep hp => hstep.published hp⟩
  | readPart | readDuplicate => exact ⟨h.1, StoreOp.multipartJob_step hs h.2⟩
  | readManifest object =>
    refine ⟨h.1.step hs fun _ _ _ _ _ => rfl, ?_⟩
    rcases h.2 with hp | ⟨hj, hn⟩
    · exact .inl (hp.cons s')
    · right
      have hns : op.stagedObject ≠ some object := by
        obtain ⟨j, hj, ho, hst⟩ := hj
        exact fun hso => hc.2 object hso j (mem_of_get? hj) ho (of_decide_eq_true hst)
      refine ⟨hj.step hs ?_, StoreOp.absent_step ht.coherent hs hw hns hn⟩
      intro j hjm j' hstep hst
      rw [decide_eq_true_eq] at hst ⊢
      exact hstep.cleaned hjm ht.oneId hst
  | returned part result =>
    cases result with
    | error => trivial
    | ok m => exact Backed.step h hs

theorem Supported.polled (hj : s.transferJobs.get? job = some j) :
    (WaitState.polled j).Supported states s job := by
  have hid : j.id = job := key_of_get? hj
  unfold WaitState.polled
  split
  · rename_i hst
    exact ⟨hid, j, hj, rfl, by rw [hst]; rfl⟩
  · rename_i hst
    exact ⟨hid, j, hj, rfl, by rw [hst]; rfl⟩
  all_goals first | exact hid | trivial

theorem Supported.finished (h : (WaitState.finished j).Supported states s job)
    (ht : PublicationTrail states s) (hn : ¬ PartJob s job) :
    (WaitState.readManifest j.objectId).Supported states s job := by
  obtain ⟨-, i, hi, ho, hst⟩ := h
  have him := mem_of_get? hi
  have hid : i.id = job := key_of_get? hi
  subst hid
  refine ⟨⟨i, hi, ho, rfl⟩, ?_⟩
  rw [← ho]
  cases hs : i.state with
  | completed => exact .inl ((ht.completed i him hs).resolve_left hn)
  | cleaned =>
    rcases (ht.cleaned i him hs).resolve_left hn with hp | ha
    · exact .inl hp
    · exact .inr ⟨⟨i, hi, rfl, decide_eq_true hs⟩, ha⟩
  | _ =>
    rw [hs] at hst
    cases hst

theorem Supported.part (h : partManifest s upload number = some m) (hs : s ∈ states)
    (hn : number ≠ 0) (hp : s.multipartJob job = some (upload, number)) :
    Backed states s job (some (upload, number)) m :=
  ⟨hn, hp, s, hs, h⟩

theorem partJob_read (s : MetadataStore) (job : Uuid) :
    (∃ upload number, number ≠ 0 ∧ s.multipartJob job = some (upload, number) ∧
      (s.multipartJob job).filter (fun part => decide (0 < part.2)) = some (upload, number)) ∨
    (¬ PartJob s job ∧ (s.multipartJob job).filter (fun part => decide (0 < part.2)) = none) := by
  cases hf : (s.multipartJob job).filter fun part => decide (0 < part.2) with
  | none =>
    right
    refine ⟨?_, rfl⟩
    rintro ⟨upload, number, hn, hp⟩
    rw [hp] at hf
    simp [Option.filter_some] at hf
    exact hn hf
  | some part =>
    obtain ⟨hp, hn⟩ := Option.filter_eq_some_iff.1 hf
    have hn' := of_decide_eq_true hn
    exact .inl ⟨part.1, part.2, Nat.ne_of_gt hn', hp, rfl⟩

theorem Supported.read (h : st.Supported states s job) (ht : PublicationTrail states s)
    (hs : s ∈ states) : (st.read s job).Supported states s job := by
  cases st with
  | polling =>
    simp only [WaitState.read]
    split
    · trivial
    · rename_i j hj
      exact Supported.polled hj
  | finished j =>
    have hid : j.id = job := h.1
    simp only [WaitState.read, hid]
    rcases partJob_read s job with ⟨upload, number, hn, hp, hf⟩ | ⟨hn, hf⟩
    · rw [hf]
      exact ⟨hn, hp⟩
    · rw [hf]
      exact Supported.finished h ht hn
  | readPart upload number =>
    simp only [WaitState.read]
    split
    · rename_i m hm
      exact Supported.part hm hs h.1 h.2
    · trivial
  | readManifest object =>
    obtain ⟨⟨j, hj, ho, -⟩, hp⟩ := h
    simp only [WaitState.read]
    split
    · trivial
    · trivial
    · rename_i m hm
      obtain ⟨row, hr, rfl⟩ := loadManifestByObjectId_ok hm
      have hk : row.objectId = object := key_of_get? hr
      have hid := (ht.coherent.rows row (mem_of_get? hr)).objectId.trans hk
      rcases hp with hp | ⟨-, hn⟩
      · rw [← hid] at hp ho
        exact ⟨⟨j, mem_of_get? hj, key_of_get? hj, ho⟩, hp⟩
      · rw [hn] at hr
        cases hr
  | superseded j =>
    have hid : j.id = job := h
    simp only [WaitState.read, hid]
    rcases partJob_read s job with ⟨upload, number, hn, hp, hf⟩ | ⟨hn, hf⟩
    · rw [hf]
      exact ⟨hn, hp⟩
    · rw [hf]
      trivial
  | readDuplicate j upload number =>
    simp only [WaitState.read]
    split
    · rename_i m hm
      exact Supported.part hm hs h.1 h.2
    · trivial
  | returned part result => exact h

end WaitState

structure WaitWorld where
  store : MetadataStore
  job : Uuid
  state : WaitState := .polling

inductive WaitAction where
  | call (op : StoreOp)
  | read

def WaitAction.apply (fromStr : String → Option ETagCondition) (a : WaitAction) (w : WaitWorld) :
    Option WaitWorld :=
  match a with
  | .call op => (op.serve fromStr w.store).map fun s => { w with store := s }
  | .read => some { w with state := w.state.read w.store w.job }

def WaitStep (fromStr : String → Option ETagCondition) (a : WaitAction) (w w' : WaitWorld) : Prop :=
  a.apply fromStr w = some w'

structure WaitWorld.Initial (w : WaitWorld) : Prop where
  store : EmptyStore w.store
  state : w.state = .polling

/-- A wait succeeds only after its job was completed with a committed manifest or a stored part. -/
def WaitSound (Step : WaitAction → WaitWorld → WaitWorld → Prop) : Prop :=
  ∀ past w, Run WaitWorld.Initial Step past w → ∀ part m, w.state = .returned part (.ok m) →
    Backed ((w :: past).map WaitWorld.store) w.store w.job part m

def CleansPublishedOnly (a : WaitAction) (w : WaitWorld) : Prop :=
  match a with
  | .call op => CleansPublished op w.store
  | .read => True

/-- An accepted upload is cancelled and its staging cleaned up before the caller polls. -/
def cancelledUpload : List WaitAction :=
  [.call (.beginTransfer ⟨1⟩ "photos" "a.jpg" 10),
    .call (.stageManifest .put (emptyObject ⟨1⟩ "photos" "a.jpg") (instant 1)),
    .call (.queueTransfer ⟨1⟩ 0 20), .call (.transferAction ⟨1⟩ "cancel" 30),
    .call (.cleanupCompletedStaging 1), .read, .read, .read]

def cancelledUploadRun : List WaitWorld × WaitWorld :=
  (exec (WaitAction.apply fun _ => none) [] { store := photosStore, job := ⟨1⟩ }
    cancelledUpload).get (by decide)

end TelegramS3
