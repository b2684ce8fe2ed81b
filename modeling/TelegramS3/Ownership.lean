import TelegramS3.Detaching
import TelegramS3.Handovers
import TelegramS3.Visibility

namespace TelegramS3
open Relational Table Fallible Transition MetadataStore
set_option autoImplicit true

/-- The connection that owned the object of a target at first, and the one that owns it now. -/
structure OwnerNote where
  target : Nat
  enqueued : String
  current : String

structure OwnedWorld where
  store : MetadataStore
  notes : List OwnerNote := []

def Handover.notes (h : Handover) (t : CleanupTargetRow) : List OwnerNote :=
  if h.object = t.objectId && h.keys.any fun l => l = Keyed.key t then
    h.owner.toList.map fun c => { target := t.id, enqueued := c, current := c }
  else []

def ConnectionAction.adopt (s' : MetadataStore) (n : OwnerNote) : ConnectionAction → OwnerNote
  | .setTelegramBootstrapSettings .. =>
    if n.current = "legacy" then { n with current := s'.activeConnectionId } else n
  | _ => n

def MetadataStore.newTargets (s s' : MetadataStore) : List CleanupTargetRow :=
  s'.outbox.targets.select fun t => s.outbox.sequence < t.id

def OwnedWorld.after (w : OwnedWorld) (a : ConnectionAction) (s' : MetadataStore) : OwnedWorld where
  store := s'
  notes := w.notes.map (fun n => a.adopt s' n) ++
    (w.store.newTargets s').flatMap fun t => (a.handovers w.store).flatMap fun h => h.notes t

def ConnectionAction.enact (fromStr : String → Option ETagCondition) (a : ConnectionAction)
    (w : OwnedWorld) : Option OwnedWorld :=
  (a.apply fromStr w.store).map (w.after a)

def OwnedStep (fromStr : String → Option ETagCondition) (a : ConnectionAction)
    (w w' : OwnedWorld) : Prop :=
  a.enact fromStr w = some w'

structure OwnedWorld.Initial (w : OwnedWorld) : Prop where
  store : EmptyDatabase w.store
  notes : w.notes = []

/-- Every target has an owner noted, and carries its connection id. -/
def CarriesOwner (owner : OwnerNote → String)
    (Step : ConnectionAction → OwnedWorld → OwnedWorld → Prop) : Prop :=
  ∀ past w, Run OwnedWorld.Initial Step past w → ∀ t ∈ w.store.outbox.targets,
    (∃ n ∈ w.notes, n.target = t.id) ∧
      ∀ n ∈ w.notes, n.target = t.id → owner n = t.connectionId

/-- An object that gets a new target belongs to the active connection. -/
def EnqueuesOwn (a : ConnectionAction) (w : OwnedWorld) : Prop :=
  ∀ h ∈ a.handovers w.store, (∃ l ∈ h.keys, w.store.outbox.targets.contains l = false) →
    ∀ c ∈ h.owner, c = w.store.activeConnectionId

instance : Decidable (EnqueuesOwn a w) :=
  inferInstanceAs (Decidable (∀ h ∈ a.handovers w.store,
    (∃ l ∈ h.keys, w.store.outbox.targets.contains l = false) →
      ∀ c ∈ h.owner, c = w.store.activeConnectionId))

/-- Besides, no target is left in the legacy namespace when it is adopted. -/
def AdoptsBefore (a : ConnectionAction) (w : OwnedWorld) : Prop :=
  EnqueuesOwn a w ∧
    match a with
    | .setTelegramBootstrapSettings .. =>
      ∀ t ∈ w.store.outbox.targets, t.connectionId ≠ "legacy"
    | _ => True

def PartsOwned (s : MetadataStore) : Prop :=
  ∀ p ∈ s.multipartParts, s.multipartUploads.contains p.uploadId = true

namespace MetadataStore

theorem finishPartJob_upload {s s' : MetadataStore} {job lease upload : Uuid} (hn : number ≠ 0)
    (h : s.finishPartJob fromStr job lease upload number now = .ok s') :
    s.multipartUploads.contains upload = true := by
  unfold finishPartJob at h
  rw [if_neg hn] at h
  split at h
  · cases h
  · obtain ⟨_, hu, -⟩ := bind_ok.1 h
    obtain ⟨u, hu, ho⟩ := any_eq_true.1 (ensure_ok.1 hu)
    simp only [Bool.and_eq_true, decide_eq_true_eq] at ho
    exact contains_eq_true.2 ⟨u, hu, ho.1⟩

theorem queueMultipartCompletion_uploads {s s' : MetadataStore} {job operation upload : Uuid}
    (h : s.queueMultipartCompletion job operation upload now = .ok s') (k : Uuid) :
    s'.multipartUploads.contains k = s.multipartUploads.contains k := by
  unfold queueMultipartCompletion at h
  split at h
  · cases h
  · obtain ⟨_, -, h⟩ := bind_ok.1 h
    obtain ⟨_, -, h⟩ := bind_ok.1 h
    obtain ⟨s₁, hs₁, h⟩ := bind_ok.1 h
    obtain ⟨s₂, hs₂, h⟩ := bind_ok.1 h
    obtain ⟨-, rfl⟩ := updateJob_ok hs₁
    obtain ⟨-, rfl⟩ := insertMultipartJob_ok hs₂
    obtain rfl := pure_ok.1 h
    simp [Table.contains, supersedeCompletions]

end MetadataStore

namespace PartsOwned
variable {s s' : MetadataStore}

section
variable (h : PartsOwned s)
include h

theorem of_uploads (hp : ∀ p ∈ s'.multipartParts, p ∈ s.multipartParts ∨
      s'.multipartUploads.contains p.uploadId = true)
    (hu : ∀ p ∈ s'.multipartParts, s.multipartUploads.contains p.uploadId = true →
      s'.multipartUploads.contains p.uploadId = true) : PartsOwned s' := by
  intro p hp'
  rcases hp p hp' with hm | hm
  · exact hu p hp' (h p hm)
  · exact hm

theorem commit (hc : s.commitManifestInner fromStr operation transfer published now = .ok (m, s')) :
    PartsOwned s' := by
  obtain ⟨row, -, ⟨-, rfl⟩ | ⟨m, -, -, -, ⟨-, rfl⟩ | ⟨upload, -, rfl⟩⟩⟩ := commitManifestInner_ok hc
  · exact h
  · exact h
  · apply h.of_uploads
    · intro p hp
      exact .inl (mem_delete.1 hp).1
    · intro p _ hu
      have hk : ((s.committedStore operation transfer m now).closeUpload upload m
          now.unixTimestamp).multipartUploads.contains p.uploadId =
          s.multipartUploads.contains p.uploadId := by
        simp [Table.contains, closeUpload, committedStore, publishManifest]
      rw [hk]
      exact hu

theorem finishPart {job lease upload : Uuid}
    (hf : s.finishPartJob fromStr job lease upload number now = .ok s') : PartsOwned s' := by
  by_cases hn : number = 0
  · subst hn
    obtain ⟨operation, m, -, hc⟩ := finishPartJob_zero hf
    exact h.commit hc
  · have hu := finishPartJob_upload hn hf
    obtain ⟨row, -, -, rfl⟩ := finishPartJob_ok hn hf
    apply h.of_uploads
    · intro p hp
      rcases mem_upsert.1 hp with rfl | ⟨hp, -⟩
      · exact .inr hu
      · exact .inl hp
    · exact fun p _ h => h

theorem step {op : StoreOp} (hs : StoreStep fromStr op s s') : PartsOwned s' := by
  cases op with
  | commitManifest | commitTransferManifest =>
    obtain ⟨⟨m', s₁⟩, hc, rfl⟩ := map_ok.1 (after_eq_some.1 hs)
    exact h.commit hc
  | finishPartJob =>
    obtain ⟨⟨upload, number⟩, -, hf⟩ := Option.bind_eq_some_iff.1 hs
    exact h.finishPart (after_eq_some.1 hf)
  | createMultipartSession session now =>
    cases hs
    intro p hp
    have hu := h p hp
    simp only [Table.contains, createMultipartSession, get?_upsertWith] at hu ⊢
    split
    · rfl
    · exact hu
  | abortParts upload now =>
    obtain ⟨-, rfl⟩ := abortParts_ok (after_eq_some.1 hs)
    intro p hp
    obtain ⟨hp, hne⟩ := mem_delete.1 hp
    obtain ⟨u, hu, hk⟩ := contains_eq_true.1 (h p hp)
    refine contains_eq_true.2 ⟨u, mem_delete.2 ⟨hu, ?_⟩, hk⟩
    have he : u.uploadId = p.uploadId := hk
    rw [he]
    exact hne
  | queueMultipartCompletion job upload now =>
    have hq := after_eq_some.1 hs
    have hp : s'.multipartParts = s.multipartParts := StoreOp.frame hs .parts rfl
    intro p hm
    rw [hp] at hm
    rw [queueMultipartCompletion_uploads hq]
    exact h p hm
  | beginConnectionRemoval job deleteUploadedFiles now =>
    obtain ⟨objects, rfl⟩ := beginConnectionRemoval_ok (after_eq_some.1 hs)
    intro p hp
    have hu := h p hp
    simp only [Table.contains, hideConnection, get?_modify, Option.isSome_map] at hu ⊢
    exact hu
  | _ =>
    have hp : s'.multipartParts = s.multipartParts := StoreOp.frame hs .parts rfl
    have hu : s'.multipartUploads = s.multipartUploads := StoreOp.frame hs .uploads rfl
    unfold PartsOwned
    rw [hp, hu]
    exact h

theorem connect (hs : ConnectionStep fromStr a s s') : PartsOwned s' := by
  cases a with
  | call op => exact h.step (StoreOp.serve_eq_some hs).1
  | setTelegramBootstrapSettings fresh chat =>
    cases hs
    intro p hp
    have hu := h p hp
    simp only [Table.contains, setTelegramBootstrapSettings, get?_modify, Option.isSome_map] at hu ⊢
    exact hu
  | clearTelegramBootstrapSettings | clearActiveConnectionId | finishConnectionRemoval =>
    cases hs
    exact h
  | deleteTelegramAccount id =>
    obtain rfl := deleteTelegramAccount_ok (after_eq_some.1 hs)
    exact h
  | purgeConnectionOperations connectionId =>
    cases hs
    intro p hp
    obtain ⟨hp, hne⟩ := mem_delete.1 hp
    obtain ⟨u, hu, hk⟩ := contains_eq_true.1 (h p hp)
    refine contains_eq_true.2 ⟨u, mem_delete.2 ⟨hu, ?_⟩, hk⟩
    have hn := any_eq_false.1 hne u hu
    have he : u.uploadId = p.uploadId := hk
    simpa [he] using hn

theorem of_part (hx : s.OfPart x) : x.owner.isSome = true := by
  obtain ⟨p, hp, now, retained, rfl⟩ := hx
  have hu := h p hp
  simp only [partHandover, Option.isSome_map]
  exact hu

theorem handovers_owned {op : StoreOp} (hx : x ∈ op.handovers s) : x.owner.isSome = true := by
  cases op with
  | transferAction id action now =>
    simp only [StoreOp.handovers] at hx
    split at hx
    · obtain ⟨j, -, rfl⟩ := List.mem_map.1 hx
      rfl
    · cases hx
  | tombstoneManifest | tombstoneExpiredActiveManifests | deleteActiveKey | reopen =>
    obtain ⟨r, -, rfl⟩ := List.mem_map.1 hx
    rfl
  | commitManifest => exact h.of_part (.commit hx)
  | commitTransferManifest => exact h.of_part (.completion hx)
  | finishPartJob => exact h.of_part (.finish hx)
  | abortParts => exact h.of_part (.upload hx)
  | beginConnectionRemoval job deleteUploadedFiles now =>
    simp only [StoreOp.handovers, removalHandovers] at hx
    split at hx
    · simp only [List.mem_append, List.mem_map] at hx
      rcases hx with (⟨r, -, rfl⟩ | ⟨j, -, rfl⟩) | ⟨u, -, rfl⟩
      · rfl
      · rfl
      · rfl
    · cases hx
  | _ => cases hx

end

end PartsOwned

/-- The notes are about stored targets, and every target carries the owners noted for it. -/
structure OwnedWorld.Sound (owner : OwnerNote → String) (w : OwnedWorld) : Prop where
  numbered : w.store.outbox.Numbered
  parts : PartsOwned w.store
  stored : ∀ n ∈ w.notes, ∃ t ∈ w.store.outbox.targets, t.id = n.target
  noted : ∀ t ∈ w.store.outbox.targets, ∃ n ∈ w.notes, n.target = t.id
  owned : ∀ t ∈ w.store.outbox.targets, ∀ n ∈ w.notes, n.target = t.id → owner n = t.connectionId

theorem ConnectionAction.adopt_target (a : ConnectionAction) (s' : MetadataStore) (n : OwnerNote) :
    (a.adopt s' n).target = n.target := by
  cases a with
  | setTelegramBootstrapSettings =>
    simp only [adopt]
    split
    · rfl
    · rfl
  | _ => rfl

theorem OwnedWorld.mem_after {w : OwnedWorld} (hn : n ∈ (w.after a s').notes) :
    (∃ o ∈ w.notes, a.adopt s' o = n) ∨ ∃ t ∈ w.store.newTargets s', ∃ h ∈ a.handovers w.store, ∃ c,
        h.owner = some c ∧ Keyed.key t ∈ h.keys ∧ n = ⟨t.id, c, c⟩ := by
  rcases List.mem_append.1 hn with hn | hn
  · exact .inl (List.mem_map.1 hn)
  · right
    obtain ⟨t, ht, hn⟩ := List.mem_flatMap.1 hn
    obtain ⟨h, hh, hn⟩ := List.mem_flatMap.1 hn
    unfold Handover.notes at hn
    split at hn
    · rename_i hk
      obtain ⟨c, hc, rfl⟩ := List.mem_map.1 hn
      obtain ⟨l, hl, he⟩ := List.any_eq_true.1 (Bool.and_eq_true_iff.1 hk).2
      rw [of_decide_eq_true he] at hl
      exact ⟨t, ht, h, hh, c, Option.mem_toList.1 hc, hl, rfl⟩
    · cases hn

theorem OwnedWorld.note_mem {w : OwnedWorld} (ht : t ∈ w.store.newTargets s')
    (hh : h ∈ a.handovers w.store) (ho : h.object = t.objectId) (hk : Keyed.key t ∈ h.keys)
    (hc : h.owner = some c) : ⟨t.id, c, c⟩ ∈ (w.after a s').notes := by
  apply List.mem_append_right
  refine List.mem_flatMap.2 ⟨t, ht, List.mem_flatMap.2 ⟨h, hh, ?_⟩⟩
  unfold Handover.notes
  have ha : (h.keys.any fun l => l = Keyed.key t) = true :=
    List.any_eq_true.2 ⟨_, hk, decide_eq_true rfl⟩
  rw [if_pos (Bool.and_eq_true_iff.2 ⟨decide_eq_true ho, ha⟩)]
  exact List.mem_map.2 ⟨c, Option.mem_toList.2 hc, rfl⟩

theorem NewTarget.key_mem {h : Handover} (ht : NewTarget c h.object h.locations t) :
    Keyed.key t ∈ h.keys := by
  rcases ht.place with ⟨-, hp, hm⟩ | ⟨-, hl⟩
  · have he : Keyed.key t = ("evidence:" ++ h.object.text, 0) := congrArg₂ Prod.mk hp hm
    rw [he]
    exact List.mem_cons_self
  · exact List.mem_cons_of_mem _ hl

namespace OwnedWorld.Sound
variable {owner : OwnerNote → String} {w : OwnedWorld} {s' : MetadataStore}

theorem after (h : w.Sound owner) (hs : ConnectionStep fromStr a w.store s')
    (ha : EnqueuesOwn a w) (hnew : ∀ i c, owner ⟨i, c, c⟩ = c)
    (hold : ∀ n ∈ w.notes, ∀ t ∈ w.store.outbox.targets, n.target = t.id →
      owner (a.adopt s' n) = owner n) : (w.after a s').Sound owner := by
  obtain ⟨hnum, he⟩ := hs.targets_evolve h.numbered
  have hnewTarget : ∀ t ∈ s'.outbox.targets, w.store.HandedOver (a.handovers w.store) t →
      t ∈ w.store.newTargets s' :=
    fun t ht hh => mem_select.2 ⟨ht, decide_eq_true hh.later⟩
  refine ⟨hnum, h.parts.connect hs, ?_, ?_, ?_⟩
  · intro n hn
    rcases mem_after hn with ⟨o, ho, rfl⟩ | ⟨t, ht, -, -, c, -, -, rfl⟩
    · obtain ⟨t, ht, hid⟩ := h.stored o ho
      obtain ⟨t', ht', hs'⟩ := he.kept t ht
      refine ⟨t', ht', ?_⟩
      rw [a.adopt_target, hs'.id, hid]
    · exact ⟨t, (mem_select.1 ht).1, rfl⟩
  · intro t' ht'
    rcases he.origin t' ht' with ⟨t, ht, hst⟩ | hh
    · obtain ⟨n, hn, hid⟩ := h.noted t ht
      refine ⟨a.adopt s' n, List.mem_append_left _ (List.mem_map_of_mem hn), ?_⟩
      rw [a.adopt_target, hid, hst.id]
    · obtain ⟨x, hx, hxt⟩ := hh.target
      obtain ⟨c, hc⟩ : ∃ c, x.owner = some c := by
        cases a with
        | call op => exact Option.isSome_iff_exists.1 (h.parts.handovers_owned hx)
        | _ => cases hx
      exact ⟨_, note_mem (hnewTarget t' ht' hh) hx hxt.objectId.symm hxt.key_mem hc, rfl⟩
  · intro t' ht' n hn hid
    rcases mem_after hn with ⟨o, ho, rfl⟩ | ⟨t, ht, x, hx, c, hc, hk, rfl⟩
    · rw [a.adopt_target] at hid
      obtain ⟨t, ht, hto⟩ := h.stored o ho
      obtain ⟨t₁, ht₁, hst⟩ := he.kept t ht
      have h₁ : t₁ = t' := hnum.distinct t₁ ht₁ t' ht' (by rw [hst.id, hto, hid])
      subst h₁
      rw [hold o ho t ht hto.symm, h.owned t ht o ho hto.symm, hst.connectionId]
    · obtain ⟨hm, hlt⟩ := mem_select.1 ht
      have h₁ : t = t' := hnum.distinct t hm t' ht' hid
      subst h₁
      have hfree := h.numbered.fresh_key he hm (of_decide_eq_true hlt)
      rw [hnew, ha x hx ⟨_, hk, hfree⟩ c hc]
      rcases he.origin t hm with ⟨t₀, ht₀, hst⟩ | hh
      · have hb := h.numbered.bound t₀ ht₀
        rw [← hst.id] at hb
        exact absurd (of_decide_eq_true hlt) (Nat.not_lt.2 hb)
      · obtain ⟨y, -, hy⟩ := hh.target
        exact hy.connectionId.symm

theorem init (h : w.Initial) : w.Sound owner where
  numbered := h.store.numbered
  parts := by simp [PartsOwned, h.store.parts]
  stored := by simp [h.notes]
  noted := by simp [h.store.targets]
  owned := by simp [h.store.targets]

end OwnedWorld.Sound

theorem OwnedStep.connection (h : OwnedStep fromStr a w w') :
    ∃ s', ConnectionStep fromStr a w.store s' ∧ w' = w.after a s' := by
  obtain ⟨s', hs, rfl⟩ := Option.map_eq_some_iff.1 h
  exact ⟨s', hs, rfl⟩

/-- Targets carry the owner of their object at enqueue time, and its owner after adoptions. -/
theorem targets_carry_owner (fromStr : String → Option ETagCondition) :
    CarriesOwner OwnerNote.enqueued (Guarded (OwnedStep fromStr) EnqueuesOwn) ∧
      CarriesOwner OwnerNote.current (Guarded (OwnedStep fromStr) AdoptsBefore) := by
  constructor
  · intro past w hr
    have hs : w.Sound OwnerNote.enqueued := by
      apply hr.invariant (I := fun w => w.Sound OwnerNote.enqueued)
      · exact fun w h => .init h
      · intro a w w' h hstep
        obtain ⟨s', hs, rfl⟩ := hstep.1.connection
        apply h.after hs hstep.2 (fun _ _ => rfl)
        intro n _ t _ _
        cases a with
        | setTelegramBootstrapSettings =>
          simp only [ConnectionAction.adopt]
          split
          · rfl
          · rfl
        | _ => rfl
    exact fun t ht => ⟨hs.noted t ht, hs.owned t ht⟩
  · intro past w hr
    have hs : w.Sound OwnerNote.current := by
      apply hr.invariant (I := fun w => w.Sound OwnerNote.current)
      · exact fun w h => .init h
      · intro a w w' h hstep
        obtain ⟨s', hs, rfl⟩ := hstep.1.connection
        apply h.after hs hstep.2.1 (fun _ _ => rfl)
        intro n hn t ht hid
        cases a with
        | setTelegramBootstrapSettings =>
          have hne := hstep.2.2 t ht
          rw [← h.owned t ht n hn hid] at hne
          rw [ConnectionAction.adopt, if_neg hne]
        | _ => rfl
    exact fun t ht => ⟨hs.noted t ht, hs.owned t ht⟩

/-- A removal keeps the uploaded files, another account is connected, the service starts again. -/
def reconnected : List ConnectionAction :=
  (.setTelegramBootstrapSettings ⟨40⟩ (some "-1001") ::
    (uploadOps (emptyObject ⟨1⟩ "photos" "a.jpg") ⟨7⟩ 1).map .call) ++
    [keepingRemoval, .clearTelegramBootstrapSettings, .clearActiveConnectionId,
      .purgeConnectionOperations (Uuid.text ⟨40⟩), .finishConnectionRemoval ⟨50⟩ .completed 0,
      .setTelegramBootstrapSettings ⟨41⟩ (some "-1002"), .call (.reopen (instant 3))]

def reconnectedRun : List OwnedWorld × OwnedWorld :=
  (exec (ConnectionAction.enact fun _ => none) [] { store := photosStore } reconnected).get
    (by decide +kernel)

/-- A file is uploaded and deleted before the first account is connected. -/
def adopted : List ConnectionAction :=
  (uploadOps (emptyObject ⟨1⟩ "photos" "a.jpg") ⟨7⟩ 1).map .call ++
    [.call (.deleteActiveKey "photos" "a.jpg" "deleted" {} (instant 2)),
      .setTelegramBootstrapSettings ⟨40⟩ (some "-1001")]

def enactOwn (a : ConnectionAction) (w : OwnedWorld) : Option OwnedWorld :=
  if EnqueuesOwn a w then a.enact (fun _ => none) w else none

def adoptedRun : List OwnedWorld × OwnedWorld :=
  (exec enactOwn [] { store := photosStore } adopted).get (by decide +kernel)

/-- The restart enqueues the object under another account, and adoption leaves a target behind. -/
theorem targets_lose_owner : ¬ CarriesOwner OwnerNote.enqueued (OwnedStep fun _ => none) ∧
      ¬ CarriesOwner OwnerNote.current (Guarded (OwnedStep fun _ => none) EnqueuesOwn) := by
  have hi : OwnedWorld.Initial { store := photosStore } :=
    ⟨⟨⟨⟨rfl, rfl, rfl⟩, rfl, rfl⟩, rfl⟩, rfl⟩
  constructor
  · intro h
    have hr : Run OwnedWorld.Initial (OwnedStep fun _ => none) reconnectedRun.1
        reconnectedRun.2 := Run.of_exec_isSome hi (by decide +kernel)
    obtain ⟨t, ht, n, hn, hid, hne⟩ : ∃ t ∈ reconnectedRun.2.store.outbox.targets.rows,
        ∃ n ∈ reconnectedRun.2.notes, n.target = t.id ∧ n.enqueued ≠ t.connectionId := by
      decide +kernel
    exact hne ((h _ _ hr t ht).2 n hn hid)
  · intro h
    have hr : Run OwnedWorld.Initial (fun a w w' => enactOwn a w = some w') adoptedRun.1
        adoptedRun.2 := Run.of_exec_isSome hi (by decide +kernel)
    have hg : Run OwnedWorld.Initial (Guarded (OwnedStep fun _ => none) EnqueuesOwn)
        adoptedRun.1 adoptedRun.2 := by
      apply hr.mono
      intro a w w' hs
      obtain ⟨ha, hs⟩ := Option.ite_none_right_eq_some.1 hs
      exact ⟨hs, ha⟩
    obtain ⟨t, ht, n, hn, hid, hne⟩ : ∃ t ∈ adoptedRun.2.store.outbox.targets.rows,
        ∃ n ∈ adoptedRun.2.notes, n.target = t.id ∧ n.current ≠ t.connectionId := by
      decide +kernel
    exact hne ((h _ _ hg t ht).2 n hn hid)

end TelegramS3
