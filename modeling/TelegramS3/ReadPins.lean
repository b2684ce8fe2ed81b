import TelegramS3.Cleaning
import TelegramS3.Serving

namespace TelegramS3
open Relational Fallible Transition MetadataStore
set_option autoImplicit true

/-- A read holds its pin from the start of its stream until the stream is dropped. -/
inductive PinPhase where
  | pending | pinned | dropped
  deriving DecidableEq

/-- A read with the manifest it has looked up. -/
structure PinnedRead where
  manifest : ObjectManifest
  phase : PinPhase := .pending

def PinnedRead.Holds (r : PinnedRead) (l : String × Int) : Prop :=
  r.phase = .pinned ∧ l ∈ r.manifest.chunks.map ChunkRef.location

instance : Decidable (PinnedRead.Holds r l) :=
  inferInstanceAs (Decidable (r.phase = .pinned ∧ l ∈ r.manifest.chunks.map ChunkRef.location))

structure PinWorld where
  cleanup : CleaningWorld
  reads : List PinnedRead := []

def PinWorld.isReadPinned (w : PinWorld) (objectId : Uuid) : Bool :=
  w.reads.any fun r => r.phase = .pinned && r.manifest.objectId = objectId

def PinWorld.answer (w : PinWorld) (i : Nat) (input : CleanupInput) : CleanupInput :=
  { input with pinned := w.cleanup.tasks[i]?.any fun c => w.isReadPinned c.target.objectId }

def PinWorld.told (w : PinWorld) : CleaningAction → CleaningAction
  | .advance i input => .advance i (w.answer i input)
  | a => a

inductive PinAction where
  | cleanup (a : CleaningAction)
  | request (req : ReadRequest) (now : OffsetDateTime)
  | readRange (bucket key : String) (range : ByteRange) (now : OffsetDateTime)
  | pin (i : Nat)
  | drop (i : Nat)

def PinWorld.goes (w : PinWorld) (i : Nat) (r : PinnedRead) (phase : PinPhase) : PinWorld :=
  { w with reads := w.reads.set i { r with phase } }

def PinAction.apply (server : ReadServer) (fromStr : String → Option ETagCondition)
    (a : PinAction) (w : PinWorld) : Option PinWorld :=
  match a with
  | .cleanup a => ((w.told a).apply fromStr w.cleanup).map fun cleanup => { w with cleanup }
  | .request req now =>
    let s := w.cleanup.store
    (server.serve { store := s, now, laterStore := s, later := now } req).map fun v =>
      { w with reads := w.reads ++ [{ manifest := v.manifest }] }
  | .readRange bucket key range now =>
    (after (ReadServer.readRangeSource w.cleanup.store bucket key range now)).map fun v =>
      { w with reads := w.reads ++ [{ manifest := v.manifest }] }
  | .pin i =>
    (w.reads[i]?.filter fun r => r.phase = .pending).map fun r => w.goes i r .pinned
  | .drop i => w.reads[i]?.map fun r => w.goes i r .dropped

def PinStep (server : ReadServer) (fromStr : String → Option ETagCondition) (a : PinAction)
    (w w' : PinWorld) : Prop :=
  a.apply server fromStr w = some w'

theorem PinStep.cleanup_ok (h : PinStep server fromStr (.cleanup a) w w') :
    ∃ cleanup, CleaningStep fromStr (w.told a) w.cleanup cleanup ∧ w' = { w with cleanup } := by
  simp only [PinStep, PinAction.apply, Option.map_eq_some_iff] at h
  obtain ⟨cleanup, hc, rfl⟩ := h
  exact ⟨cleanup, hc, rfl⟩

structure PinWorld.Initial (w : PinWorld) : Prop where
  cleanup : w.cleanup.Initial
  reads : w.reads = []

/-- No step deletes a message that a live guard holds. -/
def PinsProtect (Step : PinAction → PinWorld → PinWorld → Prop) : Prop :=
  ∀ past w, Run PinWorld.Initial Step past w → ∀ a w', Step a w w' → ∀ d,
    w'.cleanup.deletes = d :: w.cleanup.deletes → ∀ r ∈ w.reads, ¬ r.Holds d.location

/-- Reads are pinned while no cleanup past its check is at their messages, lookups list the other
pinned objects, and deletes go to the chat of their target. -/
def PinsInTime (a : PinAction) (w : PinWorld) : Prop :=
  match a with
  | .pin i => ∀ r, w.reads[i]? = some r → ∀ c ∈ w.cleanup.tasks, c.phase.pastPins = true →
      c.target.kind = .message → c.target.location ∉ r.manifest.chunks.map ChunkRef.location
  | .cleanup (.advance i _) => ∀ c, w.cleanup.tasks[i]? = some c →
      match c.phase with
      | .unpinned => ∀ manifests, w.cleanup.store.listManifests = .ok manifests →
          ∀ r ∈ w.reads, r.Holds c.target.location → r.manifest.objectId ≠ c.target.objectId →
            ∃ m ∈ manifests, m.objectId = r.manifest.objectId ∧ m.commitState ≠ .tombstoned ∧
              m.refersTo c.target.location = true
      | .unreferenced => ∀ chat, w.cleanup.transport.current = some chat → chat = c.target.peerId
      | _ => True
  | _ => True

def CleanupTask.Clear (reads : List PinnedRead) (c : CleanupTask) : Prop :=
  match c.phase with
  | .unpinned => c.target.kind = .message → ∀ r ∈ reads, r.Holds c.target.location →
      r.manifest.objectId ≠ c.target.objectId
  | .unlisted | .searching _ | .unreferenced => c.target.kind = .message ∧
      ∀ r ∈ reads, ¬ r.Holds c.target.location
  | .deleting chat => (c.target.kind = .message ∧ ∀ r ∈ reads, ¬ r.Holds c.target.location) ∧
      chat = c.target.peerId
  | _ => True

structure PinWorld.Sound (w : PinWorld) : Prop where
  tasks : ∀ c ∈ w.cleanup.tasks, c.Clear w.reads

namespace CleanupTask
variable {c : CleanupTask} {reads reads' : List PinnedRead}

theorem Clear.of_phase (h : c.phase.pastPins = false) : c.Clear reads := by
  unfold Clear
  cases hp : c.phase with
  | unpinned | unlisted | searching | unreferenced | deleting =>
    rw [hp] at h
    cases h
  | _ => trivial

theorem Clear.of_reads (h : c.Clear reads)
    (hr : c.phase.pastPins = true → c.target.kind = .message →
      ∀ r' ∈ reads', r'.Holds c.target.location → ∃ r ∈ reads, r.Holds c.target.location ∧
        r.manifest.objectId = r'.manifest.objectId) : c.Clear reads' := by
  unfold Clear at h ⊢
  cases hp : c.phase with
  | unpinned =>
    rw [hp] at h hr
    intro hk r' hr' hh
    obtain ⟨r, hr, hh, ho⟩ := hr rfl hk r' hr' hh
    rw [← ho]
    exact h hk r hr hh
  | unlisted | searching | unreferenced =>
    rw [hp] at h hr
    refine ⟨h.1, fun r' hr' hh => ?_⟩
    obtain ⟨r, hr, hh, -⟩ := hr rfl h.1 r' hr' hh
    exact h.2 r hr hh
  | deleting chat =>
    rw [hp] at h hr
    refine ⟨⟨h.1.1, fun r' hr' hh => ?_⟩, h.2⟩
    obtain ⟨r, hr, hh, -⟩ := hr rfl h.1.1 r' hr' hh
    exact h.1.2 r hr hh
  | _ => trivial

end CleanupTask

namespace PinWorld
variable {w w' : PinWorld}

theorem Sound.look (h : w.Sound) (m : ObjectManifest) :
    ({ w with reads := w.reads ++ [{ manifest := m }] } : PinWorld).Sound := by
  refine ⟨fun c hc => (h.tasks c hc).of_reads ?_⟩
  intro _ _ r hr hh
  rcases List.mem_append.1 hr with hr | hr
  · exact ⟨r, hr, hh, rfl⟩
  · rw [List.mem_singleton.1 hr] at hh
    cases hh.1

theorem Sound.goes (h : w.Sound) (i : Nat)
    (hp : phase = .pinned → ∀ c ∈ w.cleanup.tasks, c.phase.pastPins = true →
      c.target.kind = .message → c.target.location ∉ r.manifest.chunks.map ChunkRef.location) :
    (w.goes i r phase).Sound := by
  refine ⟨fun c hc => (h.tasks c hc).of_reads ?_⟩
  intro hpast hk r' hr' hh
  rcases List.mem_or_eq_of_mem_set hr' with hr' | rfl
  · exact ⟨r', hr', hh, rfl⟩
  · exact absurd hh.2 (hp hh.1 c hc hpast hk)

theorem not_pinned (h : w.isReadPinned objectId = false) (hr : r ∈ w.reads) (hh : r.Holds l) :
    r.manifest.objectId ≠ objectId := by
  intro he
  have hn := List.any_eq_false.1 h r hr
  simp [hh.1, he] at hn

theorem Sound.advance (h : w.Sound) (hi : w.cleanup.tasks[i]? = some c)
    (hs : c.advance w.cleanup.store w.cleanup.transport (w.answer i input) = some o)
    (ha : PinsInTime (.cleanup (.advance i input)) w) :
    CleanupTask.Clear w.reads { c with phase := o.phase } := by
  have hc := h.tasks c (List.mem_of_getElem? hi)
  have hq := ha c hi
  have hpr := (CleanupTask.advance_advances (fun _ => none) hs).proceeds
  generalize hph : o.phase = phase at hpr
  cases hpr with
  | leaves hp =>
    apply CleanupTask.Clear.of_phase
    cases phase <;> first | rfl | cases hp
  | attached => exact .of_phase rfl
  | unpinned _ hn =>
    intro _ r hr hh
    have hf : w.isReadPinned c.target.objectId = false := by
      simpa [answer, hi] using hn
    exact not_pinned hf hr hh
  | unlisted hp hk hl hm =>
    refine ⟨hk, fun r hr hh => ?_⟩
    simp only [CleanupTask.Clear, hp] at hc
    simp only [hp] at hq
    obtain ⟨m, hmem, ho, ht, href⟩ := hq _ hl r hr hh (hc hk r hr hh)
    have hne : m.objectId ≠ c.target.objectId := by
      rw [ho]
      exact hc hk r hr hh
    have hn := List.any_eq_false.1 hm m hmem
    simp [hne, ht, href] at hn
  | sessions hp | parts hp | unreferenced hp =>
    simp only [CleanupTask.Clear, hp] at hc
    exact hc
  | deleting hp hchat =>
    simp only [CleanupTask.Clear, hp] at hc
    simp only [hp] at hq
    exact ⟨hc, hq _ hchat⟩

theorem Sound.step (h : w.Sound) (hs : PinStep server fromStr a w w') (ha : PinsInTime a w) :
    w'.Sound := by
  cases a with
  | cleanup a =>
    obtain ⟨cleanup, hc, rfl⟩ := hs.cleanup_ok
    refine ⟨fun c' hc' => ?_⟩
    rcases hc.task_cases hc' with hc' | ⟨hp, -⟩ | ⟨hp, -⟩ | ⟨i, input, c, o, he, hi, ho, -, rfl⟩
    · exact h.tasks c' hc'
    · exact .of_phase (by rw [hp]; rfl)
    · exact .of_phase (by rw [hp]; rfl)
    · cases a with
      | advance =>
        cases he
        exact h.advance hi ho ha
      | _ => cases he
  | request req now =>
    obtain ⟨v, -, rfl⟩ := Option.map_eq_some_iff.1 hs
    exact h.look v.manifest
  | readRange bucket key range now =>
    obtain ⟨v, -, rfl⟩ := Option.map_eq_some_iff.1 hs
    exact h.look v.manifest
  | pin i =>
    obtain ⟨r, hr, rfl⟩ := Option.map_eq_some_iff.1 hs
    obtain ⟨hr, -⟩ := Option.filter_eq_some_iff.1 hr
    exact h.goes i fun _ => ha r hr
  | drop i =>
    obtain ⟨r, -, rfl⟩ := Option.map_eq_some_iff.1 hs
    exact h.goes i nofun

theorem Sound.init (h : w.Initial) : w.Sound := by
  refine ⟨fun c hc => ?_⟩
  rw [h.cleanup.tasks] at hc
  cases hc

theorem Sound.delete (h : w.Sound) (hs : PinStep server fromStr a w w')
    (hd : w'.cleanup.deletes = d :: w.cleanup.deletes) (hr : r ∈ w.reads) :
    ¬ r.Holds d.location := by
  have hne : ∀ l : List RemoteDelete, l ≠ d :: l := fun l he => by
    simpa using congrArg List.length he
  cases a with
  | cleanup a =>
    obtain ⟨cleanup, hc, rfl⟩ := hs.cleanup_ok
    rcases hc.deletes_cases with he | ⟨i, input, c, chat, answered, -, hi, hp, he⟩
    · exact absurd (he.symm.trans hd) (hne _)
    · have hclear := h.tasks c (List.mem_of_getElem? hi)
      simp only [CleanupTask.Clear, hp] at hclear
      rw [← (List.cons.inj (he.symm.trans hd)).1, hclear.2]
      exact hclear.1.2 r hr
  | request req now =>
    obtain ⟨v, -, rfl⟩ := Option.map_eq_some_iff.1 hs
    exact absurd hd (hne _)
  | readRange bucket key range now =>
    obtain ⟨v, -, rfl⟩ := Option.map_eq_some_iff.1 hs
    exact absurd hd (hne _)
  | pin i =>
    obtain ⟨r, -, rfl⟩ := Option.map_eq_some_iff.1 hs
    exact absurd hd (hne _)
  | drop i =>
    obtain ⟨r, -, rfl⟩ := Option.map_eq_some_iff.1 hs
    exact absurd hd (hne _)

end PinWorld

/-- Pins taken in time protect what they hold. -/
theorem pins_protect (server : ReadServer) (fromStr : String → Option ETagCondition) :
    PinsProtect (Guarded (PinStep server fromStr) PinsInTime) := by
  intro past w hr a w' hs d hd r hmem
  have h : w.Sound := by
    apply hr.invariant (I := PinWorld.Sound)
    · intro w h
      exact .init h
    · intro a w w' h hs
      exact h.step hs.1 hs.2
  exact h.delete hs.1 hd hmem

def movedObject : ObjectManifest := { storedObject ⟨2⟩ "aa" 5 with key := "b" }

/-- An object is moved, which hands its message to the outbox under the source. -/
def moveOps : List StoreOp :=
  let now := (instant 2).unixTimestamp
  storeObject ⟨1⟩ ⟨11⟩ ⟨21⟩ "aa" 5 1 ++
    [.beginTransfer ⟨2⟩ "photos" "b" now, .stageManifest .put movedObject (instant 2),
      .queueTransfer ⟨2⟩ 0 now, .claimTransfer now ⟨12⟩, .enterCommitting ⟨2⟩ ⟨12⟩ now,
      .commitTransferManifest ⟨2⟩ ⟨12⟩ movedObject (instant 2),
      .tombstoneManifest ⟨1⟩ "moved" {} (instant 2)]

def connectActions : List PinAction :=
  [.cleanup (.store (.setTelegramBootstrapSettings ⟨40⟩ (some "-1001"))), .cleanup .openTransport,
    .cleanup .installTransport]

def callActions (ops : List StoreOp) : List PinAction :=
  ops.map fun op => .cleanup (.store (.call op))

def cleanActions (i n : Nat) (lease : Uuid) : List PinAction :=
  .cleanup (.claim cleanupInput.now lease) :: List.replicate n (.cleanup (.advance i cleanupInput))

def readActions : List PinAction :=
  [.request (.getObject ⟨"photos", "b", none⟩ {} none) (instant 3), .pin 0]

/-- The moved object is read, and deleted while it is read; the worker goes through the targets. -/
def readWhileCleaned : List PinAction :=
  connectActions ++ callActions moveOps ++ readActions ++
    callActions [.deleteActiveKey "photos" "b" "deleted" {} (instant 4)] ++
    cleanActions 0 5 ⟨60⟩ ++ cleanActions 1 2 ⟨61⟩ ++ cleanActions 2 6 ⟨62⟩

def pinServer : ReadServer where
  parseUuid _ := .error "no version"
  getShareLink _ := none

def readRun : List PinWorld × PinWorld :=
  (exec (PinAction.apply pinServer fun _ => none) [] { cleanup := { store := photosStore } }
    readWhileCleaned).get (by decide +kernel)

def readDeleted : PinWorld :=
  ((PinAction.cleanup (.advance 2 cleanupInput)).apply pinServer (fun _ => none) readRun.2).get
    (by decide +kernel)

/-- The message of the read object is deleted under the object it was moved from. -/
theorem moved_object_deleted_while_read : ¬ PinsProtect (PinStep pinServer fun _ => none) := by
  intro h
  have hi : PinWorld.Initial { cleanup := { store := photosStore } } :=
    ⟨⟨⟨⟨⟨rfl, rfl, rfl⟩, rfl, rfl⟩, rfl⟩, rfl, rfl, rfl⟩, rfl⟩
  have hr : Run PinWorld.Initial (PinStep pinServer fun _ => none) readRun.1 readRun.2 :=
    Run.of_exec_isSome hi (by decide +kernel)
  have hs : PinStep pinServer (fun _ => none) (.cleanup (.advance 2 cleanupInput)) readRun.2
      readDeleted := (Option.some_get _).symm
  have hn : readRun.2.cleanup.deletes = [] := List.isEmpty_iff.1 (by decide +kernel)
  have hl : readDeleted.cleanup.deletes.map RemoteDelete.location = [("-1001", 5)] := by
    decide +kernel
  obtain ⟨d, hd, hl⟩ := List.map_eq_singleton_iff.1 hl
  obtain ⟨r, hmem, hh⟩ : ∃ r ∈ readRun.2.reads, r.Holds ("-1001", 5) := by decide +kernel
  rw [← hn] at hd
  rw [← hl] at hh
  exact h _ _ hr _ _ hs d hd r hmem hh

end TelegramS3
