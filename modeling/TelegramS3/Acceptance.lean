import TelegramS3.Receptions

namespace TelegramS3
open Relational Table Fallible Transition MetadataStore
set_option autoImplicit true

/-- A chunk that describes some bytes, sealed under its own object. -/
structure Describes (crypto : Crypto) (c : ChunkRef) (p : Bytes) : Prop where
  checksum : c.checksum = crypto.sha256Hex p
  source : c.sourceObjectId = none ∧ c.sourceChunkOrder = none

namespace ReceptionService

def jobState (svc : ReceptionService) (s : MetadataStore) : Option TransferState :=
  (s.transferJobs.get? svc.objectId).map TransferJob.state

def row (svc : ReceptionService) (s : MetadataStore) : Option ManifestRow :=
  s.objectManifests.get? svc.objectId

def Records (svc : ReceptionService) (s : MetadataStore) (received : List Bytes) : Prop :=
  ∃ r, svc.row s = some r ∧ Laid (Describes svc.crypto) 0 0 r.manifest.chunks received

end ReceptionService

/-- One finish succeeds at most; no later step changes the row or a staged file of what it accepted.
-/
structure AcceptedImmutable (svc : ReceptionService)
    (Step : ReceptionAction → ReceptionWorld → ReceptionWorld → Prop) : Prop where
  single : ∀ past w, Run (ReceptionWorld.Opened svc) Step past w → ∀ i j : Nat,
    w.calls[i]? = some (.answered .job) → w.calls[j]? = some (.answered .job) → i = j
  kept : ∀ past w, Run (ReceptionWorld.Opened svc) Step past w →
    ReceptionPhase.answered .job ∈ w.calls → ∀ a w', Step a w w' →
      svc.row w'.store = svc.row w.store ∧ w'.dir = w.dir
  content : ∀ past w, Run (ReceptionWorld.Opened svc) Step past w →
    ReceptionPhase.answered .job ∈ w.calls → svc.Records w.store w.received

/-- No finish takes the chunks twice, and no abort removes the directory of a queued job. -/
def Orderly (svc : ReceptionService) (a : ReceptionAction) (w : ReceptionWorld) : Prop :=
  ∀ i now io, a = .advance i now io →
    (w.calls[i]? = some (.waiting .finish) → w.taken = false) ∧
    (w.calls[i]? = some .discarding → svc.jobState w.store ≠ some .queued)

namespace ReceptionPhase

def locked : ReceptionPhase → Bool
  | .staging .. | .writing .. | .finalizing _ | .written _ | .staged _ | .conditioned _
  | .queued _ => true
  | _ => false

def took : ReceptionPhase → Bool
  | .finalizing _ | .written _ | .staged _ | .conditioned _ | .queued _ | .accepted _ | .failed _
  | .cleaning .. | .forgetting _ | .answered .job => true
  | _ => false

def queues : ReceptionPhase → Bool
  | .queued _ | .accepted _ | .answered .job => true
  | _ => false

def writes : ReceptionPhase → Bool
  | .writing .. => true
  | _ => false

def Backed (svc : ReceptionService) (s : MetadataStore) (received : List Bytes) :
    ReceptionPhase → Prop
  | .finalizing args =>
    args.objectId = svc.objectId ∧ Laid (Describes svc.crypto) 0 0 args.chunks received
  | .written m => m.objectId = svc.objectId ∧ Laid (Describes svc.crypto) 0 0 m.chunks received
  | .staged _ | .conditioned _ =>
    svc.jobState s = some .receiving → svc.Records s received
  | .queued _ | .accepted _ | .answered .job => svc.Records s received
  | _ => True

theorem backed_of_took {p : ReceptionPhase} (h : p.took = false) : p.Backed svc s received := by
  cases p with
  | finalizing | written | staged | conditioned | queued | accepted => cases h
  | answered a =>
    cases a with
    | job => cases h
    | status | cancelled | error | dropped => trivial
  | _ => trivial

theorem Backed.mono {p : ReceptionPhase} (h : p.Backed svc s received) (hr : svc.row s' = svc.row s)
    (hj : svc.jobState s' = some .receiving → svc.jobState s = some .receiving) :
    p.Backed svc s' received := by
  have hrec : svc.Records s received → svc.Records s' received := by
    rintro ⟨r, hrow, hl⟩
    exact ⟨r, hr.trans hrow, hl⟩
  cases p with
  | finalizing | written => exact h
  | staged | conditioned => exact fun hs => hrec (h (hj hs))
  | queued | accepted => exact hrec h
  | answered a =>
    cases a with
    | job => exact hrec h
    | status | cancelled | error | dropped => trivial
  | _ => trivial

theorem took_of_queues {p : ReceptionPhase} (h : p.queues = true) : p.took = true := by
  cases p with
  | queued | accepted => rfl
  | answered a =>
    cases a with
    | job => rfl
    | status | cancelled | error | dropped => cases h
  | _ => cases h

end ReceptionPhase

structure ReceptionWorld.Sound (svc : ReceptionService) (w : ReceptionWorld) : Prop where
  holder : ∀ (i : Nat) (p : ReceptionPhase), w.calls[i]? = some p → p.locked = true →
    w.holder = some i
  taker : ∀ (i j : Nat) (p q : ReceptionPhase), w.calls[i]? = some p → w.calls[j]? = some q →
    p.took = true → q.took = true → i = j
  taken : ∀ (i : Nat) (p : ReceptionPhase), w.calls[i]? = some p → p.took = true → w.taken = true
  queued : ∀ (i : Nat) (p : ReceptionPhase), w.calls[i]? = some p → p.queues = true →
    svc.jobState w.store = some .queued
  idle : svc.jobState w.store = some .queued → ∀ (i : Nat) (p : ReceptionPhase),
    w.calls[i]? = some p → p.writes = false
  laid : w.taken = false → Laid (Describes svc.crypto) 0 0 w.state.chunks w.received ∧
    w.state.offset = w.received.flatten.length
  backed : ∀ (i : Nat) (p : ReceptionPhase), w.calls[i]? = some p → p.Backed svc w.store w.received

section Store
variable {svc : ReceptionService} {s s' : MetadataStore}

theorem updateJob_jobState (h : s.updateJob (receivingJob svc.objectId) f message hf = .ok s')
    (hst : ∀ j : TransferJob, j.state = .receiving → (f j).state = st) :
    svc.jobState s = some .receiving ∧ svc.jobState s' = some st ∧ svc.row s' = svc.row s := by
  obtain ⟨ha, rfl⟩ := updateJob_ok h
  obtain ⟨j, hj, hr⟩ := any_receivingJob ha
  have hid : j.id = svc.objectId := key_of_get? hj
  refine ⟨?_, ?_, rfl⟩
  · rw [ReceptionService.jobState, hj, Option.map_some, hr]
  · have hp : receivingJob svc.objectId j = true := by simp [receivingJob, hid, hr]
    simp only [ReceptionService.jobState, get?_modify, hj, Option.map_some, hp, if_true, hst j hr]

theorem reserveStaging_jobState (h : s.reserveStaging svc.objectId bytes budget now = .ok s') :
    svc.jobState s = some .receiving ∧ svc.jobState s' = some .receiving ∧
      svc.row s' = svc.row s := by
  unfold MetadataStore.reserveStaging at h
  split at h
  · cases h
  · exact updateJob_jobState h fun _ hj => hj

theorem endReception_get? (s : MetadataStore) (id : Uuid) (p : TransferState → Bool)
    (f : TransferJob → TransferJob) (hf) (k : Uuid) :
    (s.endReception id p f hf).2.transferJobs.get? k = (s.transferJobs.get? k).map fun j =>
      if decide (j.id = id) && p j.state then f j else j := by
  unfold MetadataStore.endReception
  dsimp only
  split
  · exact get?_modify _ _ _ hf _
  · rename_i ha
    have hn := any_eq_false.1 (eq_false_of_ne_true ha)
    cases hj : s.transferJobs.get? k with
    | none => rfl
    | some j => rw [Option.map_some, hn j (mem_of_get? hj), if_neg Bool.false_ne_true]

theorem failReception_cases (svc : ReceptionService) (s : MetadataStore) (removed : Bool)
    (message : String) (now : Int) :
    (s.failReception svc.objectId removed message now).2 = s ∨ svc.jobState s = some .receiving ∧
        svc.jobState (s.failReception svc.objectId removed message now).2 ≠ some .receiving ∧
        svc.jobState (s.failReception svc.objectId removed message now).2 ≠ some .queued := by
  by_cases ha : s.transferJobs.any (receivingJob svc.objectId) = true
  · right
    obtain ⟨j, hj, hr⟩ := any_receivingJob ha
    have hid : j.id = svc.objectId := key_of_get? hj
    have hst : svc.jobState (s.failReception svc.objectId removed message now).2 =
        some (if removed then .receptionFailed else .recoveryRequired) := by
      rw [ReceptionService.jobState, MetadataStore.failReception, endReception_get?, hj]
      simp [hid, hr]
    refine ⟨by rw [ReceptionService.jobState, hj, Option.map_some, hr], ?_⟩
    rw [hst]
    cases removed <;> decide
  · left
    rw [MetadataStore.failReception, MetadataStore.endReception]
    exact congrArg Prod.snd (if_neg ha)

end Store

namespace ReceptionWorld.Sound
variable {svc : ReceptionService} {w w' : ReceptionWorld} {i : Nat} {p p' : ReceptionPhase}

theorem of_opened (h : w.Opened svc) : w.Sound svc := by
  have hn : ∀ (i : Nat) p, w.calls[i]? ≠ some p := by
    intro i p hp
    rw [h.calls] at hp
    cases hp
  refine ⟨?_, ?_, ?_, ?_, ?_, fun _ => ?_, ?_⟩
  · exact fun i p hp => absurd hp (hn i p)
  · exact fun i _ p _ hp => absurd hp (hn i p)
  · exact fun i p hp => absurd hp (hn i p)
  · exact fun i p hp => absurd hp (hn i p)
  · exact fun _ i p hp => absurd hp (hn i p)
  · rw [h.state.1, h.state.2, h.received]
    exact ⟨.nil, rfl⟩
  · exact fun i p hp => absurd hp (hn i p)

theorem getElem?_moved {l : List ReceptionPhase} (hp : l[i]? = some p) {j : Nat}
    (hq : (l.set i p')[j]? = some q) : j = i ∧ q = p' ∨ j ≠ i ∧ l[j]? = some q := by
  by_cases hij : i = j
  · subst hij
    rw [List.getElem?_set_self (List.getElem?_eq_some_iff.1 hp).1] at hq
    cases hq
    exact .inl ⟨rfl, rfl⟩
  · rw [List.getElem?_set_ne hij] at hq
    exact .inr ⟨fun he => hij he.symm, hq⟩

structure Moves (svc : ReceptionService) (w w' : ReceptionWorld) (i : Nat)
    (p p' : ReceptionPhase) : Prop where
  calls : w'.calls = w.calls.set i p'
  locked : p'.locked = true → w'.holder = some i
  holder : ∀ j, j ≠ i → w.holder = some j → w'.holder = some j
  took : p'.took = true → p.took = true ∨ w.taken = false
  taken : (p'.took = true ∨ w.taken = true) → w'.taken = true
  queues : p'.queues = true → svc.jobState w'.store = some .queued
  queued : svc.jobState w.store = some .queued → svc.jobState w'.store = some .queued
  idle : svc.jobState w'.store = some .queued →
    p'.writes = false ∧ (svc.jobState w.store = some .queued ∨ p.locked = true)
  laid : w'.taken = false → Laid (Describes svc.crypto) 0 0 w'.state.chunks w'.received ∧
    w'.state.offset = w'.received.flatten.length
  backed : p'.Backed svc w'.store w'.received
  others : ∀ j q, j ≠ i → w.calls[j]? = some q → q.Backed svc w.store w.received →
    q.Backed svc w'.store w'.received

theorem writes_locked {q : ReceptionPhase} (h : q.writes = true) : q.locked = true := by
  cases q with
  | writing => rfl
  | _ => cases h

section
variable (h : w.Sound svc)
include h

section
variable (hp : w.calls[i]? = some p)
include hp

theorem moved (hm : Moves svc w w' i p p') : w'.Sound svc := by
  have hcalls : ∀ (j : Nat) q, w'.calls[j]? = some q →
      j = i ∧ q = p' ∨ j ≠ i ∧ w.calls[j]? = some q := by
    intro j q hq
    rw [hm.calls] at hq
    exact getElem?_moved hp hq
  refine ⟨?_, ?_, ?_, ?_, ?_, hm.laid, ?_⟩
  · intro j q hq hl
    rcases hcalls j q hq with ⟨rfl, rfl⟩ | ⟨hne, hq⟩
    · exact hm.locked hl
    · exact hm.holder j hne (h.holder j q hq hl)
  · have key : ∀ (j : Nat) q, j ≠ i → w.calls[j]? = some q → q.took = true → p'.took = true →
        False := by
      intro j q hne hq ht ht'
      rcases hm.took ht' with hpt | hn
      · exact hne (h.taker j i q p hq hp ht hpt)
      · rw [h.taken j q hq ht] at hn
        cases hn
    intro j k q r hq hr hqt hrt
    rcases hcalls j q hq with ⟨rfl, rfl⟩ | ⟨hj, hq⟩ <;>
      rcases hcalls k r hr with ⟨rfl, rfl⟩ | ⟨hk, hr⟩
    · rfl
    · exact (key k r hk hr hrt hqt).elim
    · exact (key j q hj hq hqt hrt).elim
    · exact h.taker j k q r hq hr hqt hrt
  · intro j q hq ht
    rcases hcalls j q hq with ⟨-, rfl⟩ | ⟨-, hq⟩
    · exact hm.taken (.inl ht)
    · exact hm.taken (.inr (h.taken j q hq ht))
  · intro j q hq ht
    rcases hcalls j q hq with ⟨-, rfl⟩ | ⟨-, hq⟩
    · exact hm.queues ht
    · exact hm.queued (h.queued j q hq ht)
  · intro hs j q hq
    obtain ⟨hw, hold⟩ := hm.idle hs
    rcases hcalls j q hq with ⟨-, rfl⟩ | ⟨hne, hq⟩
    · exact hw
    · rcases hold with hold | hl
      · exact h.idle hold j q hq
      · by_contra hqw
        have hj := h.holder j q hq (writes_locked (eq_true_of_ne_false hqw))
        rw [h.holder i p hp hl] at hj
        exact hne (Option.some.inj hj).symm
  · intro j q hq
    rcases hcalls j q hq with ⟨-, rfl⟩ | ⟨hne, hq⟩
    · exact hm.backed
    · exact hm.others j q hne hq (h.backed j q hq)

theorem quiet (hc : w'.calls = w.calls.set i p') (hs : w'.store = w.store)
    (hr : w'.received = w.received) (ht : w'.taken = w.taken)
    (hst : w'.state.chunks = w.state.chunks ∧ w'.state.offset = w.state.offset)
    (hl : p'.locked = true → w'.holder = some i)
    (hh : ∀ j, j ≠ i → w.holder = some j → w'.holder = some j)
    (htook : p'.took = true → p.took = true) (hq : p'.queues = true → p.queues = true)
    (hw : p'.writes = false) (hb : p'.Backed svc w.store w.received) : w'.Sound svc := by
  refine h.moved hp ⟨hc, hl, hh, fun h' => .inl (htook h'), ?_, ?_, ?_, ?_, ?_, ?_, ?_⟩
  · rw [ht]
    rintro (h' | h')
    · exact h.taken i p hp (htook h')
    · exact h'
  · rw [hs]
    exact fun h' => h.queued i p hp (hq h')
  · rw [hs]
    exact fun h' => h'
  · rw [hs]
    exact fun h' => ⟨hw, .inl h'⟩
  · rw [ht, hst.1, hst.2, hr]
    exact h.laid
  · rw [hs, hr]
    exact hb
  · rw [hs, hr]
    exact fun _ _ _ _ h' => h'

theorem idles (hc : w'.calls = w.calls.set i p') (hs : w'.store = w.store)
    (hr : w'.received = w.received) (ht : w'.taken = w.taken)
    (hst : w'.state.chunks = w.state.chunks ∧ w'.state.offset = w.state.offset)
    (hh : w'.holder = w.holder ∨ p.locked = true) (hl : p'.locked = false)
    (htook : p'.took = true → p.took = true) (hq : p'.queues = true → p.queues = true)
    (hb : p'.Backed svc w.store w.received) : w'.Sound svc := by
  refine h.quiet hp hc hs hr ht hst ?_ ?_ htook hq ?_ hb
  · rw [hl]
    intro h'
    cases h'
  · intro j hne hj
    rcases hh with hh | hp'
    · rw [hh, hj]
    · rw [h.holder i p hp hp'] at hj
      exact absurd (Option.some.inj hj).symm hne
  · by_contra hw
    rw [writes_locked (eq_true_of_ne_false hw)] at hl
    cases hl

theorem leaves (hc : w'.calls = w.calls.set i p') (hs : w'.store = w.store)
    (hr : w'.received = w.received) (ht : w'.taken = w.taken)
    (hst : w'.state.chunks = w.state.chunks ∧ w'.state.offset = w.state.offset)
    (hh : w'.holder = w.holder ∨ p.locked = true) (hl : p'.locked = false)
    (htook : p'.took = false) : w'.Sound svc := by
  have hn : ∀ {P : Prop}, p'.took = true → P := by
    rw [htook]
    intro _ h'
    cases h'
  exact h.idles hp hc hs hr ht hst hh hl hn (fun h' => hn (ReceptionPhase.took_of_queues h'))
    (ReceptionPhase.backed_of_took htook)

theorem stored (hl : p'.locked = true → p.locked = true) (htook : p'.took = true → p.took = true)
    (hqs : p'.queues = true → svc.jobState s' = some .queued)
    (hqd : svc.jobState w.store = some .queued → svc.jobState s' = some .queued)
    (hidle : svc.jobState s' = some .queued →
      p'.writes = false ∧ (svc.jobState w.store = some .queued ∨ p.locked = true))
    (hb : p'.Backed svc s' w.received)
    (ho : ∀ j q, j ≠ i → w.calls[j]? = some q → q.Backed svc w.store w.received →
      q.Backed svc s' w.received) : ({ w with store := s' }.move i p').Sound svc := by
  refine h.moved hp ⟨rfl, fun h' => h.holder i p hp (hl h'), fun _ _ h' => h',
    fun h' => .inl (htook h'), ?_, hqs, hqd, hidle, h.laid, hb, ho⟩
  rintro (h' | h')
  · exact h.taken i p hp (htook h')
  · exact h'

theorem receiving (hs : svc.jobState w.store = some .receiving ∧ svc.jobState s' = some .receiving ∧
      svc.row s' = svc.row w.store) (hl : p'.locked = true → p.locked = true)
    (htook : p'.took = true → p.took = true) (hq : p'.queues = false)
    (hb : p'.Backed svc w.store w.received) : ({ w with store := s' }.move i p').Sound svc := by
  obtain ⟨hrec, hrec', hrow⟩ := hs
  refine h.stored hp hl htook ?_ ?_ ?_ (hb.mono hrow fun _ => hrec)
    fun _ _ _ _ hq => hq.mono hrow fun _ => hrec
  · rw [hq]
    intro h'
    cases h'
  · rw [hrec]
    intro h'
    cases h'
  · rw [hrec']
    intro h'
    cases h'

end

theorem queue {m : ObjectManifest} (hp : w.calls[i]? = some (.conditioned m))
    (hs : w.store.queueTransfer svc.objectId svc.objectId n now = .ok s') :
    ({ w with store := s' }.move i (.queued m)).Sound svc := by
  obtain ⟨hrec, hqueued, hrow⟩ := updateJob_jobState hs fun _ _ => rfl
  have hb : svc.Records w.store w.received := h.backed i _ hp hrec
  refine h.stored hp (fun _ => rfl) (fun _ => rfl) (fun _ => hqueued) (fun _ => hqueued)
    (fun _ => ⟨rfl, .inr rfl⟩) ?_ fun _ _ _ _ hq => hq.mono hrow fun _ => hrec
  obtain ⟨r, hr, hl⟩ := hb
  exact ⟨r, hrow.trans hr, hl⟩

theorem stage (hp : w.calls[i]? = some (.written m))
    (hs : w.store.stageManifest .put m now = .ok s') :
    ({ w with store := s' }.move i (.staged m)).Sound svc := by
  obtain ⟨-, rfl⟩ := stageManifest_ok hs
  obtain ⟨hid, hl⟩ := h.backed i _ hp
  have hrow : svc.row (w.store.stageRows .put m now) = some (w.store.stagedRow m now) := by
    rw [ReceptionService.row, MetadataStore.stageRows, get?_upsert]
    exact if_pos hid
  refine h.stored hp (fun _ => rfl) (fun _ => rfl) (fun h' => by cases h') (fun h' => h')
    (fun h' => ⟨rfl, .inl h'⟩) (fun _ => ⟨_, hrow, hl⟩) fun j q hne hq _ => ?_
  apply ReceptionPhase.backed_of_took
  by_contra ht
  exact hne (h.taker j i q _ hq hp (eq_true_of_ne_false ht) rfl)

theorem fail (hp : w.calls[i]? = some p) (removed : Bool) (message : String) (now : Int)
    (hl : p'.locked = false) (htook : p'.took = true → p.took = true) (hq : p'.queues = false)
    (hb : ∀ s received, p'.Backed svc s received) :
    ({ w with store := (w.store.failReception svc.objectId removed message now).2 }.move i
      p').Sound svc := by
  have hw : p'.writes = false := by
    by_contra hw
    rw [writes_locked (eq_true_of_ne_false hw)] at hl
    cases hl
  have hl' : p'.locked = true → p.locked = true := by
    rw [hl]
    intro h'
    cases h'
  have hq' : ∀ {P : Prop}, p'.queues = true → P := by
    rw [hq]
    intro _ h'
    cases h'
  rcases failReception_cases svc w.store removed message now with he | ⟨hrec, hnr, hnq⟩
  · rw [he]
    exact h.stored hp hl' htook hq' (fun h' => h') (fun h' => ⟨hw, .inl h'⟩) (hb _ _)
      fun _ _ _ _ h' => h'
  · refine h.stored hp hl' htook hq' ?_ (fun h' => absurd h' hnq) (hb _ _) ?_
    · rw [hrec]
      intro h'
      cases h'
    · intro j q _ hqj hqb
      have hn : q.queues = false := by
        by_contra hqq
        have h' := h.queued j q hqj (eq_true_of_ne_false hqq)
        rw [hrec] at h'
        cases h'
      cases q with
      | staged | conditioned => exact fun h' => absurd h' hnr
      | queued | accepted => cases hn
      | finalizing | written => exact hqb
      | answered a =>
        cases a with
        | job => cases hn
        | status | cancelled | error | dropped => trivial
      | _ => trivial

theorem backed_beside_writing (hp : w.calls[i]? = some (.writing bytes final)) (hne : j ≠ i)
    (hq : w.calls[j]? = some q) : q.Backed svc s pieces := by
  have hl : q.locked = false := by
    by_contra hl
    have hj := h.holder j q hq (eq_true_of_ne_false hl)
    rw [h.holder i _ hp rfl] at hj
    exact hne (Option.some.inj hj).symm
  have hn : q.queues = false := by
    by_contra hqq
    have hw := h.idle (h.queued j q hq (eq_true_of_ne_false hqq)) i _ hp
    cases hw
  cases q with
  | finalizing | written | staged | conditioned => cases hl
  | queued | accepted => cases hn
  | answered a =>
    cases a with
    | job => cases hn
    | status | cancelled | error | dropped => trivial
  | _ => trivial

theorem writeChunk (hp : w.calls[i]? = some (.writing bytes final)) (io : DiskOutcome) :
    (svc.writeChunk w i bytes final io).Sound svc := by
  unfold ReceptionService.writeChunk
  dsimp only
  split
  · exact h.leaves hp rfl rfl rfl rfl ⟨rfl, rfl⟩ (.inr rfl) rfl rfl
  · exact h.leaves hp rfl rfl rfl rfl ⟨rfl, rfl⟩ (.inr rfl) rfl rfl
  · exact h.leaves hp rfl rfl rfl rfl ⟨rfl, rfl⟩ (.inr rfl) rfl rfl
  · split
    · exact h.leaves hp rfl rfl rfl rfl ⟨rfl, rfl⟩ (.inr rfl) rfl rfl
    · refine h.moved hp ⟨rfl, fun h' => (by cases h'), fun j hne hj => ?_, fun h' => (by cases h'),
        ?_, fun h' => (by cases h'), fun h' => h', fun h' => ⟨rfl, .inl h'⟩, fun ht => ?_, trivial,
        fun j q hne hq _ => h.backed_beside_writing hp hne hq⟩
      · rw [h.holder i _ hp rfl] at hj
        exact absurd (Option.some.inj hj).symm hne
      · rintro (h' | h')
        · cases h'
        · exact h'
      · obtain ⟨hl, ho⟩ := h.laid ht
        refine ⟨hl.snoc ⟨rfl, rfl, rfl⟩ (Nat.zero_add _).symm ?_ rfl, ?_⟩
        · rw [Nat.zero_add]
          exact ho
        · simp only [ReceptionWorld.unlock, ReceptionWorld.answer, ReceptionWorld.move,
            ReceptionState.setFinal, List.flatten_append, List.length_append,
            List.flatten_singleton, ho]

theorem take (hp : w.calls[i]? = some (.waiting .finish)) (hf : w.holder = none)
    (ht : w.taken = false) :
    (({ w with state := { w.state with chunks := [], hashed := [] }, taken := true }.lock i).move i
      (.finalizing (svc.finishArgs w.state))).Sound svc := by
  refine h.moved hp ⟨rfl, fun _ => rfl, fun j _ hj => ?_, fun _ => .inr ht, fun _ => rfl,
    fun h' => (by cases h'), fun h' => h', fun h' => ⟨rfl, .inl h'⟩, fun h' => (by cases h'),
    ⟨rfl, (h.laid ht).1⟩, fun _ _ _ _ h' => h'⟩
  rw [hf] at hj
  cases hj

theorem enter (hp : w.calls[i]? = some (.waiting r)) (hf : w.holder = none)
    (ht : r = .finish → w.taken = false) : (svc.enter w i r).Sound svc := by
  cases r with
  | receive offset bytes final =>
    simp only [ReceptionService.enter]
    split
    · exact h.leaves hp rfl rfl rfl rfl ⟨rfl, rfl⟩ (.inl rfl) rfl rfl
    · split
      · exact h.leaves hp rfl rfl rfl rfl ⟨rfl, rfl⟩ (.inl rfl) rfl rfl
      · refine h.quiet hp rfl rfl rfl rfl ⟨rfl, rfl⟩ (fun _ => rfl) (fun j _ hj => ?_)
          (fun h' => by cases h') (fun h' => by cases h') rfl trivial
        rw [hf] at hj
        cases hj
  | finish =>
    simp only [ReceptionService.enter]
    split
    · exact h.take hp hf (ht rfl)
    · exact h.leaves hp rfl rfl rfl rfl ⟨rfl, rfl⟩ (.inl rfl) rfl rfl
  | abort =>
    exact h.leaves hp rfl rfl rfl rfl ⟨rfl, rfl⟩ (.inl rfl) rfl rfl

theorem writeManifest (hp : w.calls[i]? = some (.finalizing args)) (now : OffsetDateTime)
    (io : DiskOutcome) : (svc.writeManifest w i args now io).Sound svc := by
  have hb := h.backed i _ hp
  unfold ReceptionService.writeManifest
  split
  · exact h.idles hp rfl rfl rfl rfl ⟨rfl, rfl⟩ (.inr rfl) rfl (fun _ => rfl)
      (fun h' => by cases h') trivial
  · exact h.idles hp rfl rfl rfl rfl ⟨rfl, rfl⟩ (.inr rfl) rfl (fun _ => rfl)
      (fun h' => by cases h') trivial
  · exact h.quiet hp rfl rfl rfl rfl ⟨rfl, rfl⟩ (fun _ => h.holder i _ hp rfl) (fun _ _ h' => h')
      (fun _ => rfl) (fun h' => by cases h') rfl hb

section
variable (hp : w.calls[i]? = some p)
include hp

theorem gives_up (hl : p.locked = true) (ht : p.took = true) (e : ObjectFormatError) :
    (w.fail i e).Sound svc :=
  h.idles hp rfl rfl rfl rfl ⟨rfl, rfl⟩ (.inr hl) rfl (fun _ => ht) (fun h' => by cases h') trivial

theorem finalizes (hl : p.locked = true)
    (ht : p.took = true) (hs : ∀ s', r = .ok s' → ({ w with store := s' }.move i p').Sound svc) :
    (w.finalizeStep i r p').Sound svc := by
  unfold ReceptionWorld.finalizeStep
  split
  · exact hs _ rfl
  · exact h.gives_up hp hl ht _

theorem advance (hs : svc.advance w i now io p = some w')
    (ht : p = .waiting .finish → w.taken = false) : w'.Sound svc := by
  have hb := h.backed i p hp
  cases p with
  | started r =>
    simp only [ReceptionService.advance] at hs
    split at hs <;> cases hs
    · exact h.leaves hp rfl rfl rfl rfl ⟨rfl, rfl⟩ (.inl rfl) rfl rfl
    · exact h.leaves hp rfl rfl rfl rfl ⟨rfl, rfl⟩ (.inl rfl) rfl rfl
  | waiting r =>
    simp only [ReceptionService.advance] at hs
    split at hs
    · cases hs
    · rename_i hf
      cases hs
      apply h.enter hp
      · simpa using hf
      · rintro rfl
        exact ht rfl
  | staging bytes final =>
    simp only [ReceptionService.advance] at hs
    split at hs
    · split at hs <;> cases hs
      · rename_i s' hr
        exact h.receiving hp (reserveStaging_jobState hr) (fun _ => rfl) (fun h' => by cases h')
          rfl trivial
      · exact h.leaves hp rfl rfl rfl rfl ⟨rfl, rfl⟩ (.inr rfl) rfl rfl
    · cases hs
      exact h.leaves hp rfl rfl rfl rfl ⟨rfl, rfl⟩ (.inr rfl) rfl rfl
  | writing bytes final =>
    cases hs
    exact h.writeChunk hp io
  | finalizing args =>
    cases hs
    exact h.writeManifest hp now io
  | written m =>
    cases hs
    exact h.finalizes hp rfl rfl fun s' hr => h.stage hp hr
  | staged m =>
    cases hs
    refine h.finalizes hp rfl rfl fun s' hr => ?_
    exact h.receiving hp (updateJob_jobState hr fun _ hj => hj) (fun _ => rfl) (fun _ => rfl) rfl hb
  | conditioned m =>
    cases hs
    exact h.finalizes hp rfl rfl fun s' hr => h.queue hp hr
  | queued m =>
    simp only [ReceptionService.advance] at hs
    split at hs <;> cases hs
    · exact h.idles hp rfl rfl rfl rfl ⟨rfl, rfl⟩ (.inr rfl) rfl (fun _ => rfl) (fun _ => rfl) hb
    · exact h.gives_up hp rfl rfl _
  | accepted m =>
    cases hs
    exact h.idles hp rfl rfl rfl rfl ⟨rfl, rfl⟩ (.inl rfl) rfl (fun _ => rfl) (fun _ => rfl) hb
  | failed e =>
    cases io <;> cases hs
    · exact h.idles hp rfl rfl rfl rfl ⟨rfl, rfl⟩ (.inl rfl) rfl (fun _ => rfl)
        (fun h' => by cases h') trivial
    · exact h.idles hp rfl rfl rfl rfl ⟨rfl, rfl⟩ (.inl rfl) rfl (fun _ => rfl)
        (fun h' => by cases h') trivial
  | cleaning e removed =>
    cases hs
    exact h.fail hp removed _ _ rfl (fun _ => rfl) rfl fun _ _ => trivial
  | forgetting e =>
    cases hs
    exact h.leaves hp rfl rfl rfl rfl ⟨rfl, rfl⟩ (.inl rfl) rfl rfl
  | released =>
    cases hs
    exact h.leaves hp rfl rfl rfl rfl ⟨rfl, rfl⟩ (.inl rfl) rfl rfl
  | discarding =>
    cases io <;> cases hs
    · exact h.leaves hp rfl rfl rfl rfl ⟨rfl, rfl⟩ (.inl rfl) rfl rfl
    · exact h.leaves hp rfl rfl rfl rfl ⟨rfl, rfl⟩ (.inl rfl) rfl rfl
  | cancelling removed =>
    cases hs
    exact h.fail hp removed _ _ rfl (fun h' => by cases h') rfl fun _ _ => trivial
  | answered a => cases hs

theorem abandon (hs : w.abandon i p = some w') : w'.Sound svc := by
  cases p with
  | waiting | failed | discarding =>
    cases hs
    exact h.leaves hp rfl rfl rfl rfl ⟨rfl, rfl⟩ (.inl rfl) rfl rfl
  | writing =>
    cases hs
    exact h.leaves hp rfl rfl rfl rfl ⟨rfl, rfl⟩ (.inr rfl) rfl rfl
  | _ => cases hs

end

theorem start (r : ReceptionRequest) : Sound svc { w with calls := w.calls ++ [.started r] } := by
  have hcalls : ∀ (j : Nat) (q : ReceptionPhase), (w.calls ++ [.started r])[j]? = some q →
      w.calls[j]? = some q ∨ q = .started r := by
    intro j q hq
    rw [List.getElem?_append] at hq
    split at hq
    · exact .inl hq
    · exact .inr (List.mem_singleton.1 (List.mem_of_getElem? hq))
  refine ⟨?_, ?_, ?_, ?_, ?_, h.laid, ?_⟩
  · intro j q hq hl
    rcases hcalls j q hq with hq | rfl
    · exact h.holder j q hq hl
    · cases hl
  · intro j k q q' hq hq' ht ht'
    rcases hcalls j q hq with hq | rfl
    · rcases hcalls k q' hq' with hq' | rfl
      · exact h.taker j k q q' hq hq' ht ht'
      · cases ht'
    · cases ht
  · intro j q hq ht
    rcases hcalls j q hq with hq | rfl
    · exact h.taken j q hq ht
    · cases ht
  · intro j q hq ht
    rcases hcalls j q hq with hq | rfl
    · exact h.queued j q hq ht
    · cases ht
  · intro hs j q hq
    rcases hcalls j q hq with hq | rfl
    · exact h.idle hs j q hq
    · rfl
  · intro j q hq
    rcases hcalls j q hq with hq | rfl
    · exact h.backed j q hq
    · trivial

theorem step (hs : ReceptionStep svc a w w') (ho : Orderly svc a w) : w'.Sound svc := by
  cases a with
  | start r =>
    cases hs
    exact h.start r
  | advance i now io =>
    obtain ⟨p, hp, hs⟩ := Option.bind_eq_some_iff.1 hs
    apply h.advance hp hs
    rintro rfl
    exact (ho i now io rfl).1 hp
  | abandon i =>
    obtain ⟨p, hp, hs⟩ := Option.bind_eq_some_iff.1 hs
    exact h.abandon hp hs

end

theorem of_run (hr : Run (ReceptionWorld.Opened svc) (Guarded (ReceptionStep svc) (Orderly svc))
    past w) : w.Sound svc :=
  hr.invariant (fun _ h => of_opened h) fun _ _ _ h hs => h.step hs.1 hs.2

/-- No call changes the manifest row or a file of a job that a finish has queued. -/
theorem advance_kept {j : Nat} (h : w.Sound svc) (hj : w.calls[j]? = some (.answered .job))
    (hp : w.calls[i]? = some p) (hs : svc.advance w i now io p = some w')
    (ho : p ≠ .discarding) : svc.row w'.store = svc.row w.store ∧ w'.dir = w.dir := by
  have hqueued := h.queued j _ hj rfl
  have hnot : p.took = false := by
    by_contra ht
    have hij := h.taker i j p _ hp hj (eq_true_of_ne_false ht) rfl
    subst hij
    rw [hj] at hp
    cases hp
    cases hs
  have hfail : ∀ removed message now,
      (w.store.failReception svc.objectId removed message now).2 = w.store := by
    intro removed message now
    rcases failReception_cases svc w.store removed message now with he | ⟨hrec, -⟩
    · exact he
    · rw [hqueued] at hrec
      cases hrec
  cases p with
  | started r =>
    simp only [ReceptionService.advance] at hs
    split at hs <;> cases hs <;> exact ⟨rfl, rfl⟩
  | waiting r =>
    simp only [ReceptionService.advance] at hs
    split at hs
    · cases hs
    · cases hs
      cases r with
      | receive offset bytes final =>
        simp only [ReceptionService.enter]
        split
        · exact ⟨rfl, rfl⟩
        · split <;> exact ⟨rfl, rfl⟩
      | finish =>
        simp only [ReceptionService.enter]
        split <;> exact ⟨rfl, rfl⟩
      | abort => exact ⟨rfl, rfl⟩
  | staging bytes final =>
    simp only [ReceptionService.advance] at hs
    split at hs
    · split at hs <;> cases hs
      · rename_i hr
        exact ⟨(reserveStaging_jobState hr).2.2, rfl⟩
      · exact ⟨rfl, rfl⟩
    · cases hs
      exact ⟨rfl, rfl⟩
  | writing bytes final =>
    have hw := h.idle hqueued i _ hp
    cases hw
  | finalizing | written | staged | conditioned | queued | accepted | failed | cleaning
  | forgetting => cases hnot
  | released =>
    cases hs
    exact ⟨rfl, rfl⟩
  | discarding => exact absurd rfl ho
  | cancelling removed =>
    cases hs
    refine ⟨?_, rfl⟩
    exact congrArg svc.row (hfail _ _ _)
  | answered a => cases hs

end ReceptionWorld.Sound

def sampleService : ReceptionService where
  cfg := { storageChatId := "-1001", keyId := "k1" }
  crypto := taggingCrypto
  stagingBudget := 1000
  objectId := ⟨1⟩

def sampleUpload : ReceptionWorld where
  store := ((photosStore.beginTransfer ⟨1⟩ "photos" "a" (instant 1).unixTimestamp).toOption).getD {}
  state := { bucket := "photos", key := "a", contentType := "text/plain", expiresAt := none
             chunkSize := 2 }

/-- Two finish calls fetch the state; the second takes the chunks the first one has left. -/
def sampleCalls : List ReceptionAction :=
  .start (.receive 0 [1] true) :: .start .finish :: .start .finish ::
    [0, 0, 0, 0, 1, 2, 1, 1, 1, 1, 1, 1, 1, 2].map fun i => .advance i (instant 1) .done

def sampleLate : List ReceptionWorld × ReceptionWorld :=
  (exec (ReceptionAction.apply sampleService) [] sampleUpload sampleCalls).get (by decide +kernel)

def sampleRewritten : ReceptionWorld :=
  (ReceptionAction.apply sampleService (.advance 2 (instant 1) .done) sampleLate.2).get
    (by decide +kernel)

def ReceptionPhase.handedOut : ReceptionPhase → Bool
  | .answered .job => true
  | _ => false

theorem ReceptionPhase.eq_of_handedOut {p : ReceptionPhase} (h : p.handedOut = true) :
    p = .answered .job := by
  unfold handedOut at h
  split at h
  · rfl
  · cases h

end TelegramS3
