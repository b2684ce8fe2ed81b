import TelegramS3.Cleaning
import TelegramS3.Holding
import TelegramS3.Serving

namespace TelegramS3
open Relational Fallible Transition MetadataStore
set_option autoImplicit true

/-- No active object has a chunk in a message that a cleanup call has deleted. -/
def NoDanglingChunks (Step : CleaningAction → CleaningWorld → CleaningWorld → Prop) : Prop :=
  ∀ past w, Run CleaningWorld.Initial Step past w → ∀ a ∈ w.store.activeObjects,
    ∀ r ∈ w.store.objectManifests, r.objectId = a.objectId → ∀ d ∈ w.deletes,
      d.location ∉ r.manifest.chunkLocations

def CleanupPhase.pastManifests : CleanupPhase → Bool
  | .unlisted | .searching _ | .unreferenced | .deleting _ => true
  | _ => false

def CleanupPhase.amongParts : CleanupPhase → Bool
  | .unlisted | .searching _ => true
  | _ => false

def CleaningWorld.Anchored (w : CleaningWorld) (l : String × Int) : Prop :=
  w.store.HeldByManifest l ∨ w.store.HeldByTransfer l ∨
    w.store.HeldByPart l ∧ ∀ c ∈ w.tasks, c.phase.amongParts = true → c.target.location ≠ l

/-- Whoever holds the message of the target shows in the listed manifests. -/
structure CleanupTargetRow.Shown (t : CleanupTargetRow) (s : MetadataStore) : Prop where
  message : 0 < t.messageId
  manifests : ∀ r ∈ s.objectManifests, s.Live r → t.location ∈ r.manifest.chunkLocations →
    r.connectionId = s.activeConnectionId ∧ r.objectId ≠ t.objectId ∧
      r.manifest.commitState ≠ .tombstoned
  transfers : ¬ s.HeldByTransfer t.location

/-- Chunks are written where a holder is, sends answer with new messages, and a cleanup searches
where the holders are and deletes in its chat. -/
def KeepsHeld (a : CleaningAction) (w : CleaningWorld) : Prop :=
  match a with
  | .store a => (∀ m ∈ a.puts w.store, ∀ l ∈ m.chunkLocations, 0 < l.2 → w.Anchored l) ∧
      ∀ l ∈ a.acknowledges, (∀ d ∈ w.deletes, d.location ≠ l) ∧
        ∀ c ∈ w.tasks, c.phase.pastManifests = true → c.target.location ≠ l
  | .advance i _ => ∀ c, w.tasks[i]? = some c →
      match c.phase with
      | .unpinned => c.target.kind = .message → c.target.Shown w.store
      | .unlisted => ∀ p ∈ w.store.multipartParts, c.target.location ∈ p.part.chunkLocations →
          p.uploadId ∈ w.store.listMultipartSessions.map MultipartSession.uploadId
      | .unreferenced => ∀ chat, w.transport.current = some chat → chat = c.target.peerId
      | _ => True
  | _ => True

/-- Nothing is left that holds the message. -/
structure MetadataStore.Unheld (s : MetadataStore) (l : String × Int) : Prop where
  manifest : ¬ s.HeldByManifest l
  transfer : ¬ s.HeldByTransfer l
  part : ¬ s.HeldByPart l

def CleanupTask.Cleared (s : MetadataStore) (c : CleanupTask) : Prop :=
  match c.phase with
  | .unlisted => 0 < c.target.messageId ∧ ¬ s.HeldByManifest c.target.location ∧
      ¬ s.HeldByTransfer c.target.location
  | .searching uploads => (0 < c.target.messageId ∧ ¬ s.HeldByManifest c.target.location ∧
      ¬ s.HeldByTransfer c.target.location) ∧
      ∀ p ∈ s.multipartParts, c.target.location ∈ p.part.chunkLocations → p.uploadId ∈ uploads
  | .unreferenced => 0 < c.target.messageId ∧ s.Unheld c.target.location
  | .deleting chat => (0 < c.target.messageId ∧ s.Unheld c.target.location) ∧
      chat = c.target.peerId
  | _ => True

structure CleaningWorld.Cleared (w : CleaningWorld) : Prop where
  coherent : Coherent w.store
  oneId : ∀ j ∈ w.store.transferJobs, j.OneId
  tasks : ∀ c ∈ w.tasks, c.Cleared w.store
  deletes : ∀ d ∈ w.deletes, 0 < d.target.messageId ∧ w.store.Unheld d.location

namespace MetadataStore

theorem readManifests_mem (h : readManifests rows = .ok l) (hr : r ∈ rows) : r.manifest ∈ l := by
  induction rows generalizing l with
  | nil => cases hr
  | cons row rows ih =>
    unfold readManifests at h
    rw [List.mapM_cons] at h
    obtain ⟨m, hm, h⟩ := bind_ok.1 h
    obtain ⟨ms, hms, h⟩ := bind_ok.1 h
    cases h
    rcases List.mem_cons.1 hr with rfl | hr
    · split at hm
      · cases hm
      · cases hm
        exact List.mem_cons_self
    · exact List.mem_cons_of_mem _ (ih hms hr)

theorem listManifests_clear {s : MetadataStore} {t : CleanupTargetRow} (h : Coherent s)
    (ht : t.Shown s) (hl : s.listManifests = .ok manifests)
    (hn : t.manifestsRefer manifests = false) : ¬ s.HeldByManifest t.location := by
  rintro ⟨r, hr, hlive, hm⟩
  obtain ⟨hc, hne, hst⟩ := ht.manifests r hr hlive hm
  have hin : r.manifest ∈ manifests := by
    apply readManifests_mem hl
    rw [(List.perm_insertionSort _ _).mem_iff]
    exact Table.mem_select.2 ⟨hr, decide_eq_true hc⟩
  have hf := List.any_eq_false.1 hn r.manifest hin
  apply hf
  rw [(h.rows r hr).objectId]
  obtain ⟨c, hcm, hcl⟩ := List.mem_map.1 hm
  simp only [Bool.and_eq_true, bne_iff_ne, ne_eq]
  refine ⟨⟨hne, hst⟩, ?_⟩
  unfold ObjectManifest.refersTo
  rw [Bool.or_eq_true]
  right
  exact List.any_eq_true.2 ⟨c, hcm, decide_eq_true hcl⟩

end MetadataStore

def CleaningAction.puts (s : MetadataStore) : CleaningAction → List ObjectManifest
  | .store a => a.puts s
  | _ => []

def CleaningAction.acknowledges : CleaningAction → List (String × Int)
  | .store a => a.acknowledges
  | _ => []

theorem Introduces.of_nothing (h : Introduces [] [] s s') : Introduces manifests sends s s' where
  byManifest l hl := by
    rcases h.byManifest l hl with hl | ⟨m, hm, -⟩
    · exact .inl hl
    · cases hm
  byTransfer l hl := by
    rcases h.byTransfer l hl with hl | hl
    · exact .inl hl
    · cases hl
  byPart p hp := by
    rcases h.byPart p hp with hp | ⟨m, hm, -⟩
    · exact .inl hp
    · cases hm

namespace CleaningStep
variable {w w' : CleaningWorld}

section
variable {op : StoreOp} (ho : op.ofCleaner = true)
include ho

theorem cleaner_frame (h : StoreStep fromStr op s s') : SameExcept [.outbox] s s' := by
  intro t ht
  apply StoreOp.frame h
  cases op with
  | claimCleanup | completeCleanup | failCleanup | quarantineCleanup
  | beginCleanupEvidenceAttempt => exact ht
  | _ => cases ho

theorem cleaner_own : WritesOwnManifest op s := by
  intro m hm
  cases op with
  | updateManifest => cases ho
  | _ => cases hm

theorem cleaner_introduces (h : StoreStep fromStr op s s') : Introduces [] [] s s' := by
  have hf := cleaner_frame ho h
  have hm : s'.objectManifests = s.objectManifests := hf .manifests rfl
  have ha : s'.activeObjects = s.activeObjects := hf .active rfl
  have hc : s'.transferChunks = s.transferChunks := hf .chunks rfl
  have hj : s'.transferJobs = s.transferJobs := hf .jobs rfl
  have hp : s'.multipartParts = s.multipartParts := hf .parts rfl
  refine ⟨fun l hl => .inl ?_, fun l hl => .inl ?_, fun p h => .inl ?_⟩
  · obtain ⟨r, hr, hlive, hl⟩ := hl
    unfold MetadataStore.Live at hlive
    rw [hm] at hr
    rw [ha] at hlive
    exact ⟨r, hr, hlive, hl⟩
  · unfold HeldByTransfer at hl
    rw [hc, hj] at hl
    exact hl
  · rw [hp] at h
    exact h

end

theorem introduces (h : Coherent w.store) (ho : ∀ j ∈ w.store.transferJobs, j.OneId)
    (hs : CleaningStep fromStr a w w') :
    Introduces (a.puts w.store) a.acknowledges w.store w'.store := by
  rcases hs.store_cases with he | ⟨op, hop, hc⟩ | ⟨b, rfl, hc⟩
  · rw [he]
    exact .of_nothing (.refl _)
  · exact .of_nothing (cleaner_introduces hop.ofCleaner hc)
  · exact hc.introduces h ho

theorem coherent (h : Coherent w.store) (hs : CleaningStep fromStr a w w') : Coherent w'.store := by
  rcases hs.store_cases with he | ⟨op, hop, hc⟩ | ⟨b, rfl, hc⟩
  · rw [he]
    exact h
  · exact h.step hc (cleaner_own hop.ofCleaner)
  · rcases hc.cases with ⟨op, -, hc, hw⟩ | hr
    · exact h.step hc hw
    · exact hr.coherent h

theorem oneId (h : ∀ j ∈ w.store.transferJobs, j.OneId) (hs : CleaningStep fromStr a w w') :
    ∀ j ∈ w'.store.transferJobs, j.OneId := by
  rcases hs.store_cases with he | ⟨op, -, hc⟩ | ⟨b, rfl, hc⟩
  · rw [he]
    exact h
  · exact StoreOp.oneId_step h hc
  · rcases hc.cases with ⟨op, -, hc, -⟩ | hr
    · exact StoreOp.oneId_step h hc
    · exact hr.oneId h

end CleaningStep

section Keep
variable {manifests : List ObjectManifest} {sends : List (String × Int)}

section
variable (h : Introduces manifests sends s s')
include h

theorem Introduces.keep_manifest (hl : ¬ s.HeldByManifest l)
    (hm : ∀ m ∈ manifests, l ∉ m.chunkLocations) : ¬ s'.HeldByManifest l := by
  intro hl'
  rcases h.byManifest l hl' with h | ⟨m, h, hin⟩
  · exact hl h
  · exact hm m h hin

theorem Introduces.keep_transfer (hl : ¬ s.HeldByTransfer l) (hs : l ∉ sends) :
    ¬ s'.HeldByTransfer l := by
  intro hl'
  rcases h.byTransfer l hl' with h | h
  · exact hl h
  · exact hs h

theorem Introduces.part_before (hm : ∀ m ∈ manifests, l ∉ m.chunkLocations)
    (hp : p ∈ s'.multipartParts) (hl : l ∈ p.part.chunkLocations) : p ∈ s.multipartParts := by
  rcases h.byPart p hp with h | ⟨m, h, he⟩
  · exact h
  · rw [he] at hl
    exact absurd hl (hm m h)

end

theorem MetadataStore.Unheld.keep (hu : s.Unheld l) (h : Introduces manifests sends s s')
    (hm : ∀ m ∈ manifests, l ∉ m.chunkLocations) (hs : l ∉ sends) : s'.Unheld l where
  manifest := h.keep_manifest hu.manifest hm
  transfer := h.keep_transfer hu.transfer hs
  part := by
    rintro ⟨p, hp, hl⟩
    exact hu.part ⟨p, h.part_before hm hp hl, hl⟩

theorem CleanupTask.Cleared.keep {c : CleanupTask} (hc : c.Cleared s)
    (h : Introduces manifests sends s s')
    (hm : c.phase.pastManifests = true → ∀ m ∈ manifests, c.target.location ∉ m.chunkLocations)
    (hs : c.phase.pastManifests = true → c.target.location ∉ sends) : c.Cleared s' := by
  unfold CleanupTask.Cleared at hc ⊢
  split at hc
  · rename_i hp
    rw [hp] at hm hs
    exact ⟨hc.1, h.keep_manifest hc.2.1 (hm rfl), h.keep_transfer hc.2.2 (hs rfl)⟩
  · rename_i hp
    rw [hp] at hm hs
    refine ⟨⟨hc.1.1, h.keep_manifest hc.1.2.1 (hm rfl), h.keep_transfer hc.1.2.2 (hs rfl)⟩, ?_⟩
    intro p hpm hl
    exact hc.2 p (h.part_before (hm rfl) hpm hl) hl
  · rename_i hp
    rw [hp] at hm hs
    exact ⟨hc.1, hc.2.keep h (hm rfl) (hs rfl)⟩
  · rename_i hp
    rw [hp] at hm hs
    exact ⟨⟨hc.1.1, hc.1.2.keep h (hm rfl) (hs rfl)⟩, hc.2⟩
  · trivial

end Keep

namespace CleaningWorld
variable {w w' : CleaningWorld}

theorem not_anchored (hm : ¬ w.store.HeldByManifest l) (ht : ¬ w.store.HeldByTransfer l)
    (hp : ¬ w.store.HeldByPart l ∨
      ∃ c ∈ w.tasks, c.phase.amongParts = true ∧ c.target.location = l) : ¬ w.Anchored l := by
  rintro (h | h | ⟨h, hc⟩)
  · exact hm h
  · exact ht h
  · rcases hp with hp | ⟨c, hcm, hph, hl⟩
    · exact hp h
    · exact hc c hcm hph hl

theorem Cleared.task_free (h : w.Cleared) (hc : c ∈ w.tasks) (hp : c.phase.pastManifests = true) :
    0 < c.target.messageId ∧ ¬ w.Anchored c.target.location := by
  have hcl := h.tasks c hc
  unfold CleanupTask.Cleared at hcl
  split at hcl
  · rename_i hph
    exact ⟨hcl.1, not_anchored hcl.2.1 hcl.2.2 (.inr ⟨c, hc, by rw [hph]; rfl, rfl⟩)⟩
  · rename_i hph
    exact ⟨hcl.1.1, not_anchored hcl.1.2.1 hcl.1.2.2 (.inr ⟨c, hc, by rw [hph]; rfl, rfl⟩)⟩
  · exact ⟨hcl.1, not_anchored hcl.2.manifest hcl.2.transfer (.inl hcl.2.part)⟩
  · exact ⟨hcl.1.1, not_anchored hcl.1.2.manifest hcl.1.2.transfer (.inl hcl.1.2.part)⟩
  · rename_i hn₁ hn₂ hn₃ hn₄
    generalize c.phase = phase at hp hn₁ hn₂ hn₃ hn₄
    cases phase with
    | unlisted => exact absurd rfl hn₁
    | searching uploads => exact absurd rfl (hn₂ uploads)
    | unreferenced => exact absurd rfl hn₃
    | deleting chat => exact absurd rfl (hn₄ chat)
    | _ => cases hp

theorem Cleared.of_introduces (h : w.Cleared) (hs : CleaningStep fromStr a w w')
    (ha : KeepsHeld a w) :
    (∀ c ∈ w.tasks, c.Cleared w'.store) ∧
      ∀ d ∈ w.deletes, 0 < d.target.messageId ∧ w'.store.Unheld d.location := by
  have hi := hs.introduces h.coherent h.oneId
  have hput : ∀ m ∈ a.puts w.store, ∀ l ∈ m.chunkLocations, 0 < l.2 → w.Anchored l := by
    cases a with
    | store b => exact ha.1
    | _ => exact fun m hm => by cases hm
  have hsend : ∀ l ∈ a.acknowledges, (∀ d ∈ w.deletes, d.location ≠ l) ∧
      ∀ c ∈ w.tasks, c.phase.pastManifests = true → c.target.location ≠ l := by
    cases a with
    | store b => exact ha.2
    | _ => exact nofun
  constructor
  · intro c hc
    apply (h.tasks c hc).keep hi
    · intro hp m hm hl
      obtain ⟨hpos, hn⟩ := h.task_free hc hp
      exact hn (hput m hm _ hl hpos)
    · intro hp hl
      exact (hsend _ hl).2 c hc hp rfl
  · intro d hd
    obtain ⟨hpos, hu⟩ := h.deletes d hd
    refine ⟨hpos, hu.keep hi ?_ ?_⟩
    · intro m hm hl
      exact not_anchored hu.manifest hu.transfer (.inl hu.part) (hput m hm _ hl hpos)
    · intro hl
      exact (hsend _ hl).1 d hd rfl

theorem Cleared.advance_task (h : w.Cleared)
    (ha : KeepsHeld (.advance i input) w) (hi : w.tasks[i]? = some c)
    (hs : c.advance w.store w.transport input = some o) :
    CleanupTask.Cleared w.store { c with phase := o.phase } := by
  have hc := h.tasks c (List.mem_of_getElem? hi)
  have hk := ha c hi
  have hpr := (CleanupTask.advance_advances (fun _ => none) hs).proceeds
  generalize o.phase = phase at hpr
  cases hpr with
  | leaves hp =>
    unfold CleanupTask.Cleared
    cases phase with
    | unlisted | searching uploads | unreferenced | deleting chat => cases hp
    | _ => trivial
  | attached | unpinned => trivial
  | unlisted hp hkind hl hn =>
    simp only [hp] at hk
    have hsh := hk hkind
    exact ⟨hsh.message, listManifests_clear h.coherent hsh hl hn, hsh.transfers⟩
  | sessions hp =>
    simp only [hp] at hk
    simp only [CleanupTask.Cleared, hp] at hc
    exact ⟨hc, hk⟩
  | parts hp hn =>
    simp only [CleanupTask.Cleared, hp] at hc
    refine ⟨hc.1, ?_⟩
    intro p hpm hl
    rcases List.mem_cons.1 (hc.2 p hpm hl) with he | hin
    · have hlist : p.part ∈ w.store.listMultipartParts p.uploadId := by
        unfold listMultipartParts
        apply List.mem_map_of_mem
        rw [(List.perm_insertionSort _ _).mem_iff]
        exact Table.mem_select.2 ⟨hpm, decide_eq_true rfl⟩
      rw [he] at hlist
      obtain ⟨ch, hch, hloc⟩ := List.mem_map.1 hl
      have hf := hn p.part hlist
      unfold MultipartPart.refersTo at hf
      rw [Bool.or_eq_false_iff] at hf
      exact absurd (decide_eq_true hloc) (List.any_eq_false.1 hf.2 ch hch)
    · exact hin
  | unreferenced hp =>
    simp only [CleanupTask.Cleared, hp] at hc
    refine ⟨hc.1.1, hc.1.2.1, hc.1.2.2, ?_⟩
    rintro ⟨p, hpm, hl⟩
    exact absurd (hc.2 p hpm hl) List.not_mem_nil
  | deleting hp hchat =>
    simp only [hp] at hk
    simp only [CleanupTask.Cleared, hp] at hc
    exact ⟨hc, hk _ hchat⟩

theorem Cleared.step (h : w.Cleared) (hs : CleaningStep fromStr a w w') (ha : KeepsHeld a w) :
    w'.Cleared := by
  obtain ⟨htasks, hdeletes⟩ := h.of_introduces hs ha
  refine ⟨hs.coherent h.coherent, hs.oneId h.oneId, ?_, ?_⟩
  · intro c' hc'
    rcases hs.task_cases hc' with hc' | ⟨hp, -⟩ | ⟨hp, -⟩ | ⟨i, input, c, o, rfl, hi, ho, -, rfl⟩
    · exact htasks c' hc'
    · simp only [CleanupTask.Cleared, hp]
    · simp only [CleanupTask.Cleared, hp]
    · exact (h.advance_task ha hi ho).keep (hs.introduces h.coherent h.oneId) nofun nofun
  · intro d hd
    rcases hs.deletes_cases with he | ⟨i, input, c, chat, answered, -, hi, hp, he⟩
    · rw [he] at hd
      exact hdeletes d hd
    · rw [he] at hd
      rcases List.mem_cons.1 hd with rfl | hd
      · have hc := htasks c (List.mem_of_getElem? hi)
        simp only [CleanupTask.Cleared, hp] at hc
        obtain ⟨⟨hpos, hu⟩, rfl⟩ := hc
        exact ⟨hpos, hu⟩
      · exact hdeletes d hd

theorem Cleared.init (h : w.Initial) : w.Cleared where
  coherent := h.store.objects.coherent
  oneId := by simp [h.store.jobs]
  tasks := by simp [h.tasks]
  deletes := by simp [h.deletes]

end CleaningWorld

/-- Active objects keep their chunks, as long as what a manifest is written with has a holder. -/
theorem chunks_not_dangling (fromStr : String → Option ETagCondition) :
    NoDanglingChunks (Guarded (CleaningStep fromStr) KeepsHeld) := by
  intro past w hr a ha r hrow hid d hd hl
  have h : w.Cleared := by
    apply hr.invariant (I := CleaningWorld.Cleared)
    · intro w h
      exact .init h
    · intro a w w' h hs
      exact h.step hs.1 hs.2
  exact (h.deletes d hd).2.manifest ⟨r, hrow, .inr ⟨a, ha, hid.symm⟩, hl⟩

/-- The manifest `enqueue_manifest_move` stages: its chunks stay where they are. -/
def ObjectManifest.moveTo (source : ObjectManifest) (objectId : Uuid) (bucket key chat : String) :
    ObjectManifest :=
  { source with
    schemaVersion := manifestSchemaVersion, commitState := .staging, objectId, bucket, key
    versionId := some objectId.text
    telegram :=
      { peerId := chat, messageId := 0
        documentId := some ("local:" ++ objectId.text ++ ":manifest") }
    chunks := source.chunks.map fun c =>
      { c with
        sourceObjectId := some (c.payloadIdentity source.objectId).1
        sourceChunkOrder := some (c.payloadIdentity source.objectId).2 } }

def enqueueManifestMove (source : ObjectManifest) (objectId : Uuid) (bucket key chat : String)
    (bytes budget : Nat) (now : OffsetDateTime) : List StoreOp :=
  let m := source.moveTo objectId bucket key chat
  let time := now.unixTimestamp
  [.beginTransfer objectId bucket key time, .reserveStaging objectId bytes budget time,
    .stageManifest .put m now,
    .setTransferConditionals objectId (some { ifMatch := none, ifNoneMatch := some "*" }) time,
    .queueTransfer objectId m.chunks.length time]

def publishMove (m : ObjectManifest) (lease attempt : Uuid) (messageId : Int)
    (now : OffsetDateTime) : List StoreOp :=
  let location : TelegramLocation := { peerId := "-1001", messageId, documentId := none }
  let time := now.unixTimestamp
  [.claimTransfer time lease, .enterCommitting m.objectId lease time,
    .beginSendAttempt m.objectId lease manifestOrder attempt time,
    .finishSendAttempt m.objectId lease manifestOrder attempt location time,
    .commitTransferManifest m.objectId lease { m with telegram := location } now]

/-- An object is stored, and deleted and cleaned up after a move has read its manifest. -/
def lateMove : List CleaningAction :=
  let source := storedObject ⟨1⟩ "aa" 5
  connectChat "-1001" ++ cleaningCalls (storeObject ⟨1⟩ ⟨11⟩ ⟨21⟩ "aa" 5 1) ++
    cleaningCalls [.deleteActiveKey "photos" "a" "deleted" {} (instant 2)] ++
    cleanTarget 0 5 ⟨60⟩ ++ cleanTarget 1 8 ⟨61⟩ ++
    cleaningCalls (enqueueManifestMove source ⟨2⟩ "photos" "b" "-1001" 100 1000 (instant 6)) ++
    cleaningCalls
      (publishMove (source.moveTo ⟨2⟩ "photos" "b" "-1001") ⟨12⟩ ⟨22⟩ 9 (instant 6))

def lateMoveRun : List CleaningWorld × CleaningWorld :=
  (exec (CleaningAction.apply fun _ => none) [] { store := photosStore } lateMove).get
    (by decide +kernel)

/-- The moved object is active, and its chunk has been deleted. -/
theorem moved_object_dangles : ¬ NoDanglingChunks (CleaningStep fun _ => none) := by
  intro h
  have hi : CleaningWorld.Initial { store := photosStore } :=
    ⟨⟨⟨⟨rfl, rfl, rfl⟩, rfl, rfl⟩, rfl⟩, rfl, rfl, rfl⟩
  have hr : Run CleaningWorld.Initial (CleaningStep fun _ => none) lateMoveRun.1 lateMoveRun.2 :=
    Run.of_exec_isSome hi (by decide +kernel)
  obtain ⟨a, ha, r, hrow, hid, d, hd, hl⟩ : ∃ a ∈ lateMoveRun.2.store.activeObjects.rows,
      ∃ r ∈ lateMoveRun.2.store.objectManifests.rows, r.objectId = a.objectId ∧
        ∃ d ∈ lateMoveRun.2.deletes, d.location ∈ r.manifest.chunkLocations := by
    decide +kernel
  exact h _ _ hr a ha r hrow hid d hd hl

end TelegramS3
