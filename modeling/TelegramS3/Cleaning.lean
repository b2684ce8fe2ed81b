import TelegramS3.Connections
import TelegramS3.Detaching
import TelegramS3.Handovers
import TelegramS3.Reading
import TelegramS3.Run

namespace TelegramS3
open Relational Table Fallible Transition MetadataStore
set_option autoImplicit true

def CleanupTargetRow.location (t : CleanupTargetRow) : String × Int := (t.peerId, t.messageId)

def ObjectManifest.refersTo (m : ObjectManifest) (l : String × Int) : Bool :=
  m.telegram.location = l || m.chunks.any fun c => c.location = l

def MultipartPart.refersTo (p : MultipartPart) (l : String × Int) : Bool :=
  p.telegram.location = l || p.chunks.any fun c => c.location = l

namespace MetadataStore

def listMultipartSessions (s : MetadataStore) : List MultipartSession :=
  ((s.multipartUploads.select fun u => u.state = .initiated || u.state = .uploading ||
    u.state = .completing || u.state = .recoveryRequired).insertionSort fun a b =>
      a.objectKey < b.objectKey ∨
        a.objectKey = b.objectKey ∧ a.uploadId.value ≤ b.uploadId.value).map UploadRow.session

end MetadataStore

/-- The first half of `cleanup_location_is_referenced`. -/
def CleanupTargetRow.manifestsRefer (t : CleanupTargetRow) (manifests : List ObjectManifest) :
    Bool :=
  manifests.any fun m => m.objectId != t.objectId && m.commitState != .tombstoned &&
    m.refersTo t.location

inductive CleanupPhase where
  | claimed
  | attached
  | unpinned
  | recorded (token : String)
  | unlisted
  | searching (uploads : List Uuid)
  | unreferenced
  | deleting (chat : String)
  | settling (location : Option TelegramLocation)
  | failed (e : ObjectFormatError)
  | ended

structure CleanupTask where
  target : CleanupTargetRow
  lease : Uuid
  phase : CleanupPhase := .claimed

/-- What a step meets: a fresh id, the time, the pins, the answer of Telegram and the retry delay.
-/
structure CleanupInput where
  fresh : Uuid
  now : Int
  pinned : Bool
  io : Except ObjectFormatError TelegramLocation
  retryAfter : Int

structure RemoteDelete where
  chat : String
  target : CleanupTargetRow
  answered : Bool

def RemoteDelete.location (d : RemoteDelete) : String × Int := (d.chat, d.target.messageId)

/-- The live transport and the chat it stores in. -/
inductive Transport where
  | closed
  | opening (chat : String)
  | opened (chat : String)

def Transport.current : Transport → Option String
  | .opened chat => some chat
  | _ => none

structure CleanupOutcome where
  store : MetadataStore
  phase : CleanupPhase
  deletes : List RemoteDelete := []

namespace CleanupTask
variable (c : CleanupTask) (s : MetadataStore)

/-- The evidence of a deletion is written to a file and noted before it is uploaded. -/
def record (input : CleanupInput) : CleanupOutcome :=
  match input.io with
  | .error e => { store := s, phase := .failed e }
  | .ok _ =>
    match s.beginCleanupEvidenceAttempt c.target.id c.lease c.target.objectId input.fresh
        input.now with
    | .error e => { store := s, phase := .failed (.metadata e) }
    | .ok ((token, _), s') => { store := s', phase := .recorded token }

def searchManifests : CleanupOutcome :=
  match s.listManifests with
  | .error e => { store := s, phase := .failed (.metadata e) }
  | .ok manifests =>
    if c.target.manifestsRefer manifests then { store := s, phase := .settling none }
    else { store := s, phase := .unlisted }

def searchParts : List Uuid → CleanupOutcome
  | [] =>
    if fitsI32 c.target.messageId then { store := s, phase := .unreferenced }
    else { store := s, phase := .failed (.invalidPlan "cleanup message id out of range") }
  | upload :: uploads =>
    if (s.listMultipartParts upload).any fun p => p.refersTo c.target.location then
      { store := s, phase := .settling none }
    else { store := s, phase := .searching uploads }

def settle (location : Option TelegramLocation) : CleanupOutcome :=
  match s.completeCleanup c.target.id c.lease location with
  | (true, s') => { store := s', phase := .ended }
  | (false, s') =>
    { store := s'
      phase := .failed (.invalidPlan (match c.target.kind with
        | .evidence => "cleanup evidence lease lost"
        | .message => "cleanup lease lost")) }

/-- One step of `process_cleanup_target`, and the retry the worker schedules when it fails. -/
def advance (transport : Transport) (input : CleanupInput) :
    Option CleanupOutcome :=
  match c.phase with
  | .claimed =>
    if s.activeConnectionSetting = some c.target.connectionId then
      some { store := s, phase := .attached }
    else
      some { store := s.quarantineCleanup c.target.id c.lease
              "Cleanup belongs to a detached Telegram connection; recovery material retained"
             phase := .ended }
  | .attached =>
    if input.pinned then
      some { store := s.failCleanup c.target.id c.lease 5 input.now
              "Cleanup deferred while a read is active"
             phase := .ended }
    else some { store := s, phase := .unpinned }
  | .unpinned =>
    match c.target.kind with
    | .evidence => some (c.record s input)
    | .message => some (c.searchManifests s)
  | .recorded _ =>
    match input.io with
    | .ok location => some { store := s, phase := .settling (some location) }
    | .error _ =>
      some { store := s.quarantineCleanup c.target.id c.lease
              "Deletion-evidence acknowledgement is unknown; recovery material retained"
             phase := .ended }
  | .unlisted =>
    some { store := s, phase := .searching (s.listMultipartSessions.map MultipartSession.uploadId) }
  | .searching uploads => some (c.searchParts s uploads)
  | .unreferenced =>
    match transport.current, input.io with
    | some chat, _ => some { store := s, phase := .deleting chat }
    | none, .error e => some { store := s, phase := .failed e }
    | none, .ok _ => none
  | .deleting chat =>
    match input.io with
    | .ok _ =>
      some { store := s, phase := .settling none
             deletes := [{ chat, target := c.target, answered := true }] }
    | .error e =>
      some { store := s, phase := .failed e
             deletes := [{ chat, target := c.target, answered := false }] }
  | .settling location => some (c.settle s location)
  | .failed _ =>
    some { store := s.failCleanup c.target.id c.lease input.retryAfter input.now
            "Cleanup failed; durable retry scheduled"
           phase := .ended }
  | .ended => none

end CleanupTask

def CleanupPhase.pastPins : CleanupPhase → Bool
  | .unpinned | .unlisted | .searching _ | .unreferenced | .deleting _ => true
  | _ => false

def CleanupPhase.underWay : CleanupPhase → Bool
  | .attached => true
  | phase => phase.pastPins

/-- How a call gets from one phase to the next on its way to a delete. -/
inductive CleanupTask.Proceeds (s : MetadataStore) (transport : Transport) (pinned : Bool)
    (c : CleanupTask) : CleanupPhase → Prop where
  | leaves {phase : CleanupPhase} : phase.underWay = false → Proceeds s transport pinned c phase
  | attached : c.phase = .claimed → s.activeConnectionSetting = some c.target.connectionId →
      Proceeds s transport pinned c .attached
  | unpinned : c.phase = .attached → pinned = false → Proceeds s transport pinned c .unpinned
  | unlisted {manifests : List ObjectManifest} : c.phase = .unpinned → c.target.kind = .message →
      s.listManifests = .ok manifests → c.target.manifestsRefer manifests = false →
      Proceeds s transport pinned c .unlisted
  | sessions : c.phase = .unlisted → Proceeds s transport pinned c
      (.searching (s.listMultipartSessions.map MultipartSession.uploadId))
  | parts {upload : Uuid} {uploads : List Uuid} : c.phase = .searching (upload :: uploads) →
      (∀ p ∈ s.listMultipartParts upload, p.refersTo c.target.location = false) →
      Proceeds s transport pinned c (.searching uploads)
  | unreferenced : c.phase = .searching [] → Proceeds s transport pinned c .unreferenced
  | deleting {chat : String} : c.phase = .unreferenced → transport.current = some chat →
      Proceeds s transport pinned c (.deleting chat)

def StoreOp.ofCleaner : StoreOp → Bool
  | .claimCleanup .. | .completeCleanup .. | .failCleanup .. | .quarantineCleanup ..
  | .beginCleanupEvidenceAttempt .. => true
  | _ => false

inductive CleanupTask.Calls (c : CleanupTask) : StoreOp → Prop where
  | record (fresh : Uuid) (now : Int) : Calls c
      (.beginCleanupEvidenceAttempt c.target.id c.lease c.target.objectId fresh now)
  | fail (retryAfter now : Int) (message : String) : Calls c
      (.failCleanup c.target.id c.lease retryAfter now message)
  | quarantine (message : String) : Calls c (.quarantineCleanup c.target.id c.lease message)
  | complete (location : Option TelegramLocation) : c.phase = .settling location → Calls c
      (.completeCleanup c.target.id c.lease location)

theorem CleanupTask.Calls.ofCleaner (h : Calls c op) : op.ofCleaner = true := by
  cases h with
  | record | fail | quarantine | complete => rfl

def CleanupPhase.closing : CleanupPhase → Bool
  | .recorded _ | .settling _ => true
  | _ => false

inductive CleanupTask.Closes (s : MetadataStore) (c : CleanupTask) (o : CleanupOutcome) :
    Prop where
  | evidence : c.target.kind = .evidence → Closes s c o
  | recorded {token : String} : c.phase = .recorded token → Closes s c o
  | listed {manifests : List ObjectManifest} : c.phase = .unpinned → c.target.kind = .message →
      s.listManifests = .ok manifests → c.target.manifestsRefer manifests = true → Closes s c o
  | part {upload : Uuid} {uploads : List Uuid} : c.phase = .searching (upload :: uploads) →
      ((s.listMultipartParts upload).any fun p => p.refersTo c.target.location) = true →
      Closes s c o
  | deleted {chat : String} : c.phase = .deleting chat →
      o.deletes = [{ chat, target := c.target, answered := true }] → Closes s c o

/-- A step gets to its phase, deletes only when about to, and makes one store call at most. -/
structure CleanupTask.Advances (fromStr : String → Option ETagCondition) (s : MetadataStore)
    (transport : Transport) (pinned : Bool) (c : CleanupTask) (o : CleanupOutcome) : Prop where
  proceeds : c.Proceeds s transport pinned o.phase
  deletes : o.deletes = [] ∨ ∃ chat answered, c.phase = .deleting chat ∧
    o.deletes = [{ chat, target := c.target, answered }]
  store : o.store = s ∨ ∃ op, c.Calls op ∧ StoreStep fromStr op s o.store
  closes : o.phase.closing = true → c.Closes s o

namespace CleanupTask
variable {c : CleanupTask} {s s' : MetadataStore} {phase : CleanupPhase} {op : StoreOp}

theorem Advances.quiet (h : c.Proceeds s transport pinned phase) (hc : phase.closing = false) :
    c.Advances fromStr s transport pinned { store := s, phase } :=
  ⟨h, .inl rfl, .inl rfl, fun h => absurd (hc.symm.trans h) Bool.false_ne_true⟩

theorem Advances.leaves (h : phase.underWay = false)
    (hc : phase.closing = true → c.Closes s { store := s, phase }) :
    c.Advances fromStr s transport pinned { store := s, phase } :=
  ⟨.leaves h, .inl rfl, .inl rfl, hc⟩

theorem Advances.calls (h : c.Calls op) (hs : StoreStep fromStr op s s')
    (hp : phase.underWay = false) (hc : phase.closing = true → c.Closes s { store := s', phase }) :
    c.Advances fromStr s transport pinned { store := s', phase } :=
  ⟨.leaves hp, .inl rfl, .inr ⟨op, h, hs⟩, hc⟩

theorem Advances.record (hk : c.target.kind = .evidence) :
    c.Advances fromStr s transport pinned (c.record s input) := by
  unfold CleanupTask.record
  split
  · exact .leaves rfl nofun
  · split
    · exact .leaves rfl nofun
    · rename_i hb
      exact .calls (.record input.fresh input.now) (after_eq_some.2 (map_ok.2 ⟨_, hb, rfl⟩)) rfl
        fun _ => .evidence hk

theorem Advances.searchManifests (hp : c.phase = .unpinned) (hk : c.target.kind = .message) :
    c.Advances fromStr s transport pinned (c.searchManifests s) := by
  unfold CleanupTask.searchManifests
  split
  · exact .leaves rfl nofun
  · rename_i manifests hl
    split
    · rename_i hr
      exact .leaves rfl fun _ => .listed hp hk hl hr
    · rename_i hr
      exact .quiet (.unlisted hp hk hl (Bool.eq_false_of_not_eq_true hr)) rfl

theorem Advances.searchParts (hp : c.phase = .searching uploads) :
    c.Advances fromStr s transport pinned (c.searchParts s uploads) := by
  cases uploads with
  | nil =>
    simp only [CleanupTask.searchParts]
    split
    · exact .quiet (.unreferenced hp) rfl
    · exact .leaves rfl nofun
  | cons upload uploads =>
    simp only [CleanupTask.searchParts]
    split
    · rename_i hr
      exact .leaves rfl fun _ => .part hp hr
    · rename_i hr
      refine .quiet (.parts hp ?_) rfl
      simpa using hr

theorem Advances.settle (hp : c.phase = .settling location) :
    c.Advances fromStr s transport pinned (c.settle s location) := by
  have hs : StoreStep fromStr (.completeCleanup c.target.id c.lease location) s _ := rfl
  unfold CleanupTask.settle
  split
  · rename_i he
    rw [he] at hs
    exact .calls (.complete location hp) hs rfl nofun
  · rename_i he
    rw [he] at hs
    exact .calls (.complete location hp) hs rfl nofun

theorem advance_advances (fromStr : String → Option ETagCondition)
    (h : c.advance s transport input = some o) : c.Advances fromStr s transport input.pinned o := by
  unfold advance at h
  split at h
  · rename_i hp
    split at h
    · rename_i hc
      cases h
      exact .quiet (.attached hp hc) rfl
    · cases h
      exact .calls (.quarantine _) rfl rfl nofun
  · rename_i hp
    split at h
    · cases h
      exact .calls (.fail _ _ _) rfl rfl nofun
    · rename_i hn
      cases h
      exact .quiet (.unpinned hp (Bool.eq_false_of_not_eq_true hn)) rfl
  · rename_i hp
    split at h
    · rename_i hk
      cases h
      exact .record hk
    · rename_i hk
      cases h
      exact .searchManifests hp hk
  · rename_i hp
    split at h
    · cases h
      exact .leaves rfl fun _ => .recorded hp
    · cases h
      exact .calls (.quarantine _) rfl rfl nofun
  · rename_i hp
    cases h
    exact .quiet (.sessions hp) rfl
  · rename_i hp
    cases h
    exact .searchParts hp
  · rename_i hp
    split at h
    · rename_i hc
      cases h
      exact .quiet (.deleting hp hc) rfl
    · cases h
      exact .leaves rfl nofun
    · cases h
  · rename_i chat hp
    split at h
    · cases h
      exact ⟨.leaves rfl, .inr ⟨chat, true, hp, rfl⟩, .inl rfl, fun _ => .deleted hp rfl⟩
    · cases h
      exact ⟨.leaves rfl, .inr ⟨chat, false, hp, rfl⟩, .inl rfl, nofun⟩
  · rename_i hp
    cases h
    exact .settle hp
  · cases h
    exact .calls (.fail _ _ _) rfl rfl nofun
  · cases h

end CleanupTask

/-- The store, the transport, the calls of the cleanup worker and what they deleted. -/
structure CleaningWorld where
  store : MetadataStore
  transport : Transport := .closed
  tasks : List CleanupTask := []
  deletes : List RemoteDelete := []

def ConnectionAction.ofCleaner : ConnectionAction → Bool
  | .call op => op.ofCleaner
  | _ => false

inductive CleaningAction where
  | store (a : ConnectionAction)
  | claim (now : Int) (lease : Uuid)
  | advance (i : Nat) (input : CleanupInput)
  | abandon (i : Nat)
  | openTransport
  | installTransport
  | closeTransport

def CleaningAction.apply (fromStr : String → Option ETagCondition) (a : CleaningAction)
    (w : CleaningWorld) : Option CleaningWorld :=
  match a with
  | .store a =>
    if a.ofCleaner then none else (a.apply fromStr w.store).map fun store => { w with store }
  | .claim now lease =>
    match w.store.claimCleanup now lease with
    | (none, _) => none
    | (some target, s') => some { w with store := s', tasks := w.tasks ++ [{ target, lease }] }
  | .advance i input =>
    w.tasks[i]?.bind fun c => (c.advance w.store w.transport input).map fun o =>
      { w with
        store := o.store, tasks := w.tasks.set i { c with phase := o.phase }
        deletes := o.deletes ++ w.deletes }
  | .abandon i =>
    w.tasks[i]?.map fun c => { w with tasks := w.tasks.set i { c with phase := .ended } }
  | .openTransport =>
    match w.transport, w.store.storageChatSetting with
    | .closed, some chat => some { w with transport := .opening chat }
    | _, _ => none
  | .installTransport =>
    match w.transport with
    | .opening chat => some { w with transport := .opened chat }
    | _ => none
  | .closeTransport => some { w with transport := .closed }

def CleaningWorld.Stores (w : CleaningWorld) (target : CleanupTargetRow) : Prop :=
  ∃ t ∈ w.store.outbox.targets, SameTarget t target

def CleaningAction.handovers (s : MetadataStore) : CleaningAction → List Handover
  | .store a => a.handovers s
  | _ => []

def CleaningAction.ofTransport : CleaningAction → Bool
  | .openTransport | .installTransport | .closeTransport => true
  | _ => false

def CleaningStep (fromStr : String → Option ETagCondition) (a : CleaningAction)
    (w w' : CleaningWorld) : Prop :=
  a.apply fromStr w = some w'

inductive CleaningAction.Makes (w : CleaningWorld) : CleaningAction → StoreOp → Prop where
  | claim : Makes w (.claim now lease) (.claimCleanup now lease)
  | advance {c : CleanupTask} : w.tasks[i]? = some c → c.Calls op → Makes w (.advance i input) op

theorem CleaningAction.Makes.ofCleaner (h : Makes w a op) : op.ofCleaner = true := by
  cases h with
  | claim => rfl
  | advance _ hc => exact hc.ofCleaner

structure CleaningWorld.Initial (w : CleaningWorld) : Prop where
  store : EmptyDatabase w.store
  transport : w.transport = .closed
  tasks : w.tasks = []
  deletes : w.deletes = []

namespace CleaningStep
variable {w w' : CleaningWorld}

theorem store_ok (h : CleaningStep fromStr (.store a) w w') : a.ofCleaner = false ∧
      ∃ s', ConnectionStep fromStr a w.store s' ∧ w' = { w with store := s' } := by
  simp only [CleaningStep, CleaningAction.apply] at h
  split at h
  · cases h
  · rename_i hc
    obtain ⟨s', hs, rfl⟩ := Option.map_eq_some_iff.1 h
    exact ⟨Bool.eq_false_of_not_eq_true hc, s', hs, rfl⟩

theorem claim_ok (h : CleaningStep fromStr (.claim now lease) w w') :
    ∃ target, w.store.claimCleanup now lease = (some target, w'.store) ∧
      w' = { w with store := w'.store, tasks := w.tasks ++ [{ target, lease }] } := by
  simp only [CleaningStep, CleaningAction.apply] at h
  split at h
  · cases h
  · rename_i target s' hc
    cases h
    exact ⟨target, hc, rfl⟩

theorem advance_ok (h : CleaningStep fromStr (.advance i input) w w') :
    ∃ c o, w.tasks[i]? = some c ∧ c.advance w.store w.transport input = some o ∧ w' = { w with
        store := o.store, tasks := w.tasks.set i { c with phase := o.phase }
        deletes := o.deletes ++ w.deletes } := by
  obtain ⟨c, hc, h⟩ := Option.bind_eq_some_iff.1 h
  obtain ⟨o, ho, rfl⟩ := Option.map_eq_some_iff.1 h
  exact ⟨c, o, hc, ho, rfl⟩

theorem abandon_ok (h : CleaningStep fromStr (.abandon i) w w') : ∃ c, w.tasks[i]? = some c ∧
      w' = { w with tasks := w.tasks.set i { c with phase := .ended } } := by
  obtain ⟨c, hc, rfl⟩ := Option.map_eq_some_iff.1 h
  exact ⟨c, hc, rfl⟩

theorem transport_ok (h : CleaningStep fromStr a w w') (ha : a.ofTransport = true) :
    ∃ transport, w' = { w with transport } := by
  cases a with
  | openTransport | installTransport =>
    simp only [CleaningStep, CleaningAction.apply] at h
    split at h
    · cases h
      exact ⟨_, rfl⟩
    · cases h
  | closeTransport =>
    cases h
    exact ⟨_, rfl⟩
  | _ => cases ha

theorem store_cases (h : CleaningStep fromStr a w w') : w'.store = w.store ∨
    (∃ op, a.Makes w op ∧ StoreStep fromStr op w.store w'.store) ∨
      ∃ b, a = .store b ∧ ConnectionStep fromStr b w.store w'.store := by
  cases a with
  | store b =>
    obtain ⟨-, s', hs, rfl⟩ := h.store_ok
    exact .inr (.inr ⟨b, rfl, hs⟩)
  | claim now lease =>
    obtain ⟨target, hc, -⟩ := h.claim_ok
    refine .inr (.inl ⟨_, .claim, ?_⟩)
    exact congrArg (fun r => some r.2) hc
  | advance i input =>
    obtain ⟨c, o, hi, ho, rfl⟩ := h.advance_ok
    rcases (CleanupTask.advance_advances fromStr ho).store with hs | ⟨op, hop, hs⟩
    · exact .inl hs
    · exact .inr (.inl ⟨op, .advance hi hop, hs⟩)
  | abandon i =>
    obtain ⟨c, -, rfl⟩ := h.abandon_ok
    exact .inl rfl
  | openTransport | installTransport | closeTransport =>
    obtain ⟨transport, rfl⟩ := h.transport_ok rfl
    exact .inl rfl

theorem targets_evolve (hn : w.store.outbox.Numbered) (h : CleaningStep fromStr a w w') :
    w'.store.outbox.Numbered ∧
      Table.Evolves SameTarget (w.store.HandedOver (a.handovers w.store)) w.store.outbox.targets
        w'.store.outbox.targets := by
  rcases h.store_cases with he | ⟨op, ho, hs⟩ | ⟨b, rfl, hs⟩
  · rw [he]
    exact ⟨hn, .refl .refl _⟩
  · refine ⟨StoreOp.numbered_step hn hs, (StoreOp.targets_evolve hn hs).mono (fun _ _ h => h) ?_⟩
    intro t ht
    obtain ⟨x, hx, -⟩ := ht.target
    have hc := ho.ofCleaner
    cases op with
    | claimCleanup | completeCleanup | failCleanup | quarantineCleanup
    | beginCleanupEvidenceAttempt => cases hx
    | _ => cases hc
  · exact hs.targets_evolve hn

theorem claimed_stored (h : w.store.claimCleanup now lease = (some target, s')) :
    w.Stores target := by
  unfold claimCleanup at h
  dsimp only at h
  split at h
  · cases h
  · rename_i t ht
    cases h
    refine ⟨t, ?_, ⟨rfl, rfl, rfl, rfl, rfl, rfl⟩⟩
    rcases Option.or_eq_some_iff.1 ht with ht | ⟨-, ht⟩
    · exact (mem_select.1 (firstBy_mem ht)).1
    · exact (mem_select.1 (firstBy_mem ht)).1

section
variable (h : CleaningStep fromStr a w w')
include h

/-- A call after a step was there, is claimed or abandoned by it, or is taken on by it. -/
theorem task_cases (hc : c' ∈ w'.tasks) : c' ∈ w.tasks ∨ c'.phase = .claimed ∧ w.Stores c'.target ∨
      (c'.phase = .ended ∧ ∃ c ∈ w.tasks, c'.target = c.target) ∨
      ∃ i input c o, a = .advance i input ∧ w.tasks[i]? = some c ∧
        c.advance w.store w.transport input = some o ∧ (∀ d ∈ o.deletes, d ∈ w'.deletes) ∧
        c' = { c with phase := o.phase } := by
  cases a with
  | store a =>
    obtain ⟨-, s', -, rfl⟩ := h.store_ok
    exact .inl hc
  | claim now lease =>
    obtain ⟨target, hcl, he⟩ := h.claim_ok
    rw [he] at hc
    rcases List.mem_append.1 hc with hc | hc
    · exact .inl hc
    · rw [List.mem_singleton.1 hc]
      exact .inr (.inl ⟨rfl, claimed_stored hcl⟩)
  | advance i input =>
    obtain ⟨c, o, hi, ho, rfl⟩ := h.advance_ok
    rcases List.mem_or_eq_of_mem_set hc with hc | rfl
    · exact .inl hc
    · refine .inr (.inr (.inr ⟨i, input, c, o, rfl, hi, ho, ?_, rfl⟩))
      exact fun d => List.mem_append_left _
  | abandon i =>
    obtain ⟨c, hi, rfl⟩ := h.abandon_ok
    rcases List.mem_or_eq_of_mem_set hc with hc | rfl
    · exact .inl hc
    · exact .inr (.inr (.inl ⟨rfl, c, List.mem_of_getElem? hi, rfl⟩))
  | openTransport | installTransport | closeTransport =>
    obtain ⟨transport, rfl⟩ := h.transport_ok rfl
    exact .inl hc

theorem deletes_cases : w'.deletes = w.deletes ∨
    ∃ i input c chat answered, a = .advance i input ∧ w.tasks[i]? = some c ∧
      c.phase = .deleting chat ∧
      w'.deletes = { chat, target := c.target, answered } :: w.deletes := by
  cases a with
  | store a =>
    obtain ⟨-, s', -, rfl⟩ := h.store_ok
    exact .inl rfl
  | claim now lease =>
    obtain ⟨target, -, he⟩ := h.claim_ok
    rw [he]
    exact .inl rfl
  | advance i input =>
    obtain ⟨c, o, hi, ho, rfl⟩ := h.advance_ok
    rcases (CleanupTask.advance_advances fromStr ho).deletes with hd | ⟨chat, answered, hp, hd⟩
    · exact .inl (congrArg (· ++ w.deletes) hd)
    · exact .inr ⟨i, input, c, chat, answered, rfl, hi, hp, congrArg (· ++ w.deletes) hd⟩
  | abandon i =>
    obtain ⟨c, -, rfl⟩ := h.abandon_ok
    exact .inl rfl
  | openTransport | installTransport | closeTransport =>
    obtain ⟨transport, rfl⟩ := h.transport_ok rfl
    exact .inl rfl

theorem deletes_kept (hd : d ∈ w.deletes) : d ∈ w'.deletes := by
  rcases h.deletes_cases with he | ⟨i, input, c, chat, answered, -, -, -, he⟩
  · rw [he]
    exact hd
  · rw [he]
    exact List.mem_cons_of_mem _ hd

end

end CleaningStep

theorem SameTarget.symm (h : SameTarget t t') : SameTarget t' t :=
  ⟨h.id.symm, h.objectId.symm, h.peerId.symm, h.messageId.symm, h.connectionId.symm, h.kind.symm⟩

theorem CleaningWorld.Stores.step {w w' : CleaningWorld} (h : w.Stores target)
    (he : Table.Evolves SameTarget P w.store.outbox.targets w'.store.outbox.targets) :
    w'.Stores target := by
  obtain ⟨t, ht, hs⟩ := h
  obtain ⟨t', ht', hs'⟩ := he.kept t ht
  exact ⟨t', ht', hs'.symm.trans hs⟩

def cleanupInput : CleanupInput where
  fresh := ⟨90⟩
  now := (instant 5).unixTimestamp
  pinned := false
  io := .ok { peerId := "-1001", messageId := 9, documentId := none }
  retryAfter := 30

def cleanTarget (i n : Nat) (lease : Uuid) : List CleaningAction :=
  .claim cleanupInput.now lease :: List.replicate n (.advance i cleanupInput)

def connectChat (chat : String) : List CleaningAction :=
  [.store (.setTelegramBootstrapSettings ⟨40⟩ (some chat)), .closeTransport, .openTransport,
    .installTransport]

def cleaningCalls (ops : List StoreOp) : List CleaningAction := ops.map fun op => .store (.call op)

end TelegramS3
