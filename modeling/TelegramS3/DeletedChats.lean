import TelegramS3.Cleaning
import TelegramS3.Serving

namespace TelegramS3
open Relational Fallible Transition MetadataStore
set_option autoImplicit true

/-- Every delete goes to the chat of its target, which is a message of the outbox. -/
def DeletesRecorded (Step : CleaningAction → CleaningWorld → CleaningWorld → Prop) : Prop :=
  ∀ past w, Run CleaningWorld.Initial Step past w → ∀ d ∈ w.deletes,
    d.chat = d.target.peerId ∧
      ∃ t ∈ w.store.outbox.targets, t.kind = .message ∧ t.location = d.location

def Transport.chat : Transport → Option String
  | .closed => none
  | .opening chat | .opened chat => some chat

/-- The chat is the configured one, when there is one, and that of the transport. -/
structure ChatFits (configured : Option String) (transport : Transport) (chat : String) : Prop where
  configured : ∀ c ∈ configured, c = chat
  transport : ∀ c ∈ transport.chat, c = chat

def CleaningWorld.Fits (w : CleaningWorld) : String → Prop :=
  ChatFits w.store.storageChatSetting w.transport

def CleanupPhase.unaddressed : CleanupPhase → Bool
  | .deleting _ => false
  | phase => phase.underWay

/-- Settings name the chat of the deletes under way and of the messages enqueued for them. -/
def KeepsChat (a : CleaningAction) (w : CleaningWorld) : Prop :=
  match a with
  | .store (.setTelegramBootstrapSettings fresh chat) =>
      (∀ t ∈ w.store.outbox.targets, t.kind = .message →
        t.connectionId = w.store.activeConnectionSetting.getD fresh.text →
          ChatFits chat w.transport t.peerId) ∧
      ∀ task ∈ w.tasks, task.phase.unaddressed = true → task.target.kind = .message →
        ChatFits chat w.transport task.target.peerId
  | .store (.call op) => w.store.activeConnectionSetting.isSome = true →
      ∀ h ∈ op.handovers w.store, ∀ l ∈ h.locations,
        w.store.outbox.targets.contains l = false → w.Fits l.1
  | _ => True

def CleanupTask.Addressed (w : CleaningWorld) (c : CleanupTask) : Prop :=
  match c.phase with
  | .attached | .unpinned => c.target.kind = .message → w.Fits c.target.peerId
  | .unlisted | .searching _ | .unreferenced => c.target.kind = .message ∧ w.Fits c.target.peerId
  | .deleting chat => c.target.kind = .message ∧ chat = c.target.peerId
  | _ => True

structure CleaningWorld.Addressed (w : CleaningWorld) : Prop where
  numbered : w.store.outbox.Numbered
  targets : ∀ t ∈ w.store.outbox.targets, t.kind = .message →
    w.store.activeConnectionSetting = some t.connectionId → w.Fits t.peerId
  tasks : ∀ c ∈ w.tasks, w.Stores c.target ∧ c.Addressed w
  deletes : ∀ d ∈ w.deletes, d.chat = d.target.peerId ∧ d.target.kind = .message ∧
    w.Stores d.target

theorem CleanupTask.Addressed.of_fits {c : CleanupTask} (h : c.Addressed w)
    (hf : c.phase.unaddressed = true → c.target.kind = .message → w.Fits c.target.peerId →
      w'.Fits c.target.peerId) : c.Addressed w' := by
  unfold Addressed at h ⊢
  cases hp : c.phase with
  | attached | unpinned =>
    rw [hp] at h hf
    exact fun hk => hf rfl hk (h hk)
  | unlisted | searching | unreferenced =>
    rw [hp] at h hf
    exact ⟨h.1, hf rfl h.1 h.2⟩
  | deleting chat =>
    rw [hp] at h
    exact h
  | _ => trivial

theorem CleanupTask.Addressed.of_phase {c : CleanupTask} (h : c.phase.underWay = false) :
    c.Addressed w := by
  unfold Addressed
  cases hp : c.phase with
  | attached | unpinned | unlisted | searching | unreferenced | deleting =>
    rw [hp] at h
    cases h
  | _ => trivial

theorem StoreOp.keeps_settings (h : StoreStep fromStr op s s') : StoreTable.settings.Same s s' := by
  apply StoreOp.frame h
  cases op <;> rfl

namespace CleaningWorld
variable {w w' : CleaningWorld}

/-- Only saving the settings can set a connection or a chat. -/
theorem settings_step (hs : CleaningStep fromStr a w w')
    (ha : ∀ fresh chat, a ≠ .store (.setTelegramBootstrapSettings fresh chat)) :
    (∀ c ∈ w'.store.activeConnectionSetting, c ∈ w.store.activeConnectionSetting) ∧
      ∀ c ∈ w'.store.storageChatSetting, c ∈ w.store.storageChatSetting := by
  have hop {op : StoreOp} (h : StoreStep fromStr op w.store w'.store) :
      (∀ c ∈ w'.store.activeConnectionSetting, c ∈ w.store.activeConnectionSetting) ∧
        ∀ c ∈ w'.store.storageChatSetting, c ∈ w.store.storageChatSetting := by
    obtain ⟨hc, -, ht⟩ := StoreOp.keeps_settings h
    rw [hc, ht]
    exact ⟨fun _ hc => hc, fun _ hc => hc⟩
  rcases hs.store_cases with he | ⟨op, -, h⟩ | ⟨b, rfl, h⟩
  · rw [he]
    exact ⟨fun _ hc => hc, fun _ hc => hc⟩
  · exact hop h
  · generalize w'.store = s' at h hop
    cases b with
    | call op => exact hop (StoreOp.serve_eq_some h).1
    | setTelegramBootstrapSettings fresh chat => exact absurd rfl (ha fresh chat)
    | clearTelegramBootstrapSettings =>
      cases h
      exact ⟨fun _ hc => hc, nofun⟩
    | clearActiveConnectionId =>
      cases h
      exact ⟨nofun, fun _ hc => hc⟩
    | deleteTelegramAccount =>
      obtain rfl := deleteTelegramAccount_ok (after_eq_some.1 h)
      exact ⟨fun _ hc => hc, fun _ hc => hc⟩
    | purgeConnectionOperations | finishConnectionRemoval =>
      cases h
      exact ⟨fun _ hc => hc, fun _ hc => hc⟩

theorem transport_step (hs : CleaningStep fromStr a w w') :
    ∀ c ∈ w'.transport.chat, c ∈ w.store.storageChatSetting ∨ c ∈ w.transport.chat := by
  cases a with
  | store =>
    obtain ⟨-, s', -, rfl⟩ := hs.store_ok
    exact fun _ => .inr
  | claim =>
    obtain ⟨target, -, he⟩ := hs.claim_ok
    rw [he]
    exact fun _ => .inr
  | advance =>
    obtain ⟨c, o, -, -, rfl⟩ := hs.advance_ok
    exact fun _ => .inr
  | abandon =>
    obtain ⟨c, -, rfl⟩ := hs.abandon_ok
    exact fun _ => .inr
  | openTransport =>
    simp only [CleaningStep, CleaningAction.apply] at hs
    split at hs
    · rename_i hchat
      cases hs
      exact fun c hc => .inl (by rw [hchat]; exact hc)
    · cases hs
  | installTransport =>
    simp only [CleaningStep, CleaningAction.apply] at hs
    split at hs
    · rename_i ht
      cases hs
      exact fun c hc => .inr (by rw [ht]; exact hc)
    · cases hs
  | closeTransport =>
    cases hs
    exact fun _ hc => by cases hc

theorem Addressed.advance_task {i : Nat} {c : CleanupTask} {o : CleanupOutcome}
    (h : w.Addressed) (hi : w.tasks[i]? = some c)
    (hs : c.advance w.store w.transport input = some o) :
    CleanupTask.Addressed w { c with phase := o.phase } := by
  obtain ⟨⟨t, ht, hst⟩, hc⟩ := h.tasks c (List.mem_of_getElem? hi)
  have hpr := (CleanupTask.advance_advances (fun _ => none) hs).proceeds
  generalize hph : o.phase = phase at hpr
  cases hpr with
  | leaves hp => exact .of_phase hp
  | attached _ hconn =>
    intro hk
    have hk' : c.target.kind = .message := hk
    rw [hst.kind] at hk'
    rw [hst.connectionId] at hconn
    have hf := h.targets t ht hk' hconn
    rw [← hst.peerId] at hf
    exact hf
  | unpinned hp _ =>
    simp only [CleanupTask.Addressed, hp] at hc
    exact hc
  | unlisted hp hk _ _ =>
    simp only [CleanupTask.Addressed, hp] at hc
    exact ⟨hk, hc hk⟩
  | sessions hp | parts hp | unreferenced hp =>
    simp only [CleanupTask.Addressed, hp] at hc
    exact hc
  | deleting hp hchat =>
    simp only [CleanupTask.Addressed, hp] at hc
    refine ⟨hc.1, hc.2.transport _ ?_⟩
    cases htr : w.transport with
    | opened chat =>
      rw [htr] at hchat
      exact hchat
    | _ =>
      rw [htr] at hchat
      cases hchat

theorem Addressed.of_step (h : w.Addressed) (hs : CleaningStep fromStr a w w')
    (hold : ∀ t ∈ w.store.outbox.targets, t.kind = .message →
      w'.store.activeConnectionSetting = some t.connectionId → w'.Fits t.peerId)
    (hnew : ∀ t ∈ w'.store.outbox.targets, w.store.HandedOver (a.handovers w.store) t →
      t.kind = .message → w'.store.activeConnectionSetting = some t.connectionId → w'.Fits t.peerId)
    (hfits : ∀ c ∈ w'.tasks, c.phase.unaddressed = true → c.target.kind = .message →
      w.Fits c.target.peerId → w'.Fits c.target.peerId) : w'.Addressed := by
  obtain ⟨hn, he⟩ := hs.targets_evolve h.numbered
  refine ⟨hn, ?_, ?_, ?_⟩
  · intro t' ht' hk hc
    rcases he.origin t' ht' with ⟨t, ht, hst⟩ | hh
    · rw [hst.kind] at hk
      rw [hst.connectionId] at hc
      rw [hst.peerId]
      exact hold t ht hk hc
    · exact hnew t' ht' hh hk hc
  · intro c' hc'
    rcases hs.task_cases hc' with hc | ⟨hp, hst⟩ | ⟨hp, c, hc, ht⟩ |
      ⟨i, input, c, o, -, hi, ho, -, rfl⟩
    · exact ⟨(h.tasks c' hc).1.step he, (h.tasks c' hc).2.of_fits (hfits c' hc')⟩
    · exact ⟨hst.step he, .of_phase (by rw [hp]; rfl)⟩
    · rw [ht]
      exact ⟨(h.tasks c hc).1.step he, .of_phase (by rw [hp]; rfl)⟩
    · exact ⟨(h.tasks c (List.mem_of_getElem? hi)).1.step he,
        (h.advance_task hi ho).of_fits (hfits _ hc')⟩
  · intro d hd
    have hkept : ∀ d ∈ w.deletes, d.chat = d.target.peerId ∧ d.target.kind = .message ∧
        w'.Stores d.target := by
      intro d hd
      obtain ⟨hc, hk, hst⟩ := h.deletes d hd
      exact ⟨hc, hk, hst.step he⟩
    rcases hs.deletes_cases with hd' | ⟨i, input, c, chat, answered, -, hi, hp, hd'⟩
    · rw [hd'] at hd
      exact hkept d hd
    · rw [hd'] at hd
      rcases List.mem_cons.1 hd with rfl | hd
      · obtain ⟨hst, hc⟩ := h.tasks c (List.mem_of_getElem? hi)
        simp only [CleanupTask.Addressed, hp] at hc
        exact ⟨hc.2, hc.1, hst.step he⟩
      · exact hkept d hd

theorem Addressed.step (h : w.Addressed) (hs : CleaningStep fromStr a w w')
    (ha : KeepsChat a w) : w'.Addressed := by
  by_cases hne : ∃ fresh chat, a = .store (.setTelegramBootstrapSettings fresh chat)
  · obtain ⟨fresh, chat, rfl⟩ := hne
    have hs' := hs
    obtain ⟨-, s', hc, rfl⟩ := hs'.store_ok
    cases hc
    apply h.of_step hs
    · intro t ht hk hc
      exact ha.1 t ht hk (Option.some.inj hc).symm
    · rintro t - ⟨⟨x, hx, -⟩, -⟩
      cases hx
    · exact fun c hm hp hk _ => ha.2 c hm hp hk
  · obtain ⟨hconn, hchat⟩ := settings_step hs fun fresh chat he => hne ⟨fresh, chat, he⟩
    have hfits : ∀ chat, w.Fits chat → w'.Fits chat := by
      refine fun chat hf => ⟨fun c hc => hf.configured c (hchat c hc), fun c hc => ?_⟩
      rcases transport_step hs c hc with hc | hc
      · exact hf.configured c hc
      · exact hf.transport c hc
    apply h.of_step hs
    · exact fun t ht hk hc => hfits _ (h.targets t ht hk (hconn _ hc))
    · intro t ht hh hk hc
      have hfree := h.numbered.fresh_key (hs.targets_evolve h.numbered).2 ht hh.later
      have hsome := Option.isSome_iff_exists.2 ⟨_, hconn _ hc⟩
      obtain ⟨x, hx, hxt⟩ := hh.target
      rcases hxt.place with ⟨hev, -⟩ | ⟨-, hl⟩
      · rw [hk] at hev
        cases hev
      · cases a with
        | store b =>
          cases b with
          | call op => exact hfits _ (ha hsome x hx _ hl hfree)
          | _ => cases hx
        | _ => cases hx
    · exact fun c _ _ _ => hfits _

theorem Addressed.init (h : w.Initial) : w.Addressed where
  numbered := h.store.numbered
  targets := by simp [h.store.targets]
  tasks := by simp [h.tasks]
  deletes := by simp [h.deletes]

end CleaningWorld

/-- Deletes reach recorded messages only, when chats are kept. -/
theorem deletes_recorded (fromStr : String → Option ETagCondition) :
    DeletesRecorded (Guarded (CleaningStep fromStr) KeepsChat) := by
  intro past w hr d hd
  have h : w.Addressed := by
    apply hr.invariant (I := CleaningWorld.Addressed)
    · intro w h
      exact .init h
    · intro a w w' h hs
      exact h.step hs.1 hs.2
  obtain ⟨hc, hk, t, ht, hst⟩ := h.deletes d hd
  refine ⟨hc, t, ht, hst.kind.symm.trans hk, ?_⟩
  rw [RemoteDelete.location, hc, hst.peerId, hst.messageId]
  rfl

/-- An object is stored and deleted, then the account gets another chat. -/
def movedChat : List CleaningAction :=
  connectChat "-1001" ++ cleaningCalls (storeObject ⟨1⟩ ⟨11⟩ ⟨21⟩ "aa" 5 1) ++
    cleaningCalls [.deleteActiveKey "photos" "a" "deleted" {} (instant 2)] ++
    connectChat "-1002" ++ cleanTarget 0 5 ⟨60⟩ ++ cleanTarget 1 7 ⟨61⟩

def movedChatRun : List CleaningWorld × CleaningWorld :=
  (exec (CleaningAction.apply fun _ => none) [] { store := photosStore } movedChat).get
    (by decide +kernel)

/-- The message is deleted in the new chat. -/
theorem moved_chat_deletes_foreign_message : ¬ DeletesRecorded (CleaningStep fun _ => none) := by
  intro h
  have hi : CleaningWorld.Initial { store := photosStore } :=
    ⟨⟨⟨⟨rfl, rfl, rfl⟩, rfl, rfl⟩, rfl⟩, rfl, rfl, rfl⟩
  have hr : Run CleaningWorld.Initial (CleaningStep fun _ => none) movedChatRun.1
      movedChatRun.2 := Run.of_exec_isSome hi (by decide +kernel)
  obtain ⟨d, hd, hne⟩ : ∃ d ∈ movedChatRun.2.deletes, d.chat ≠ d.target.peerId := by
    decide +kernel
  exact hne (h _ _ hr d hd).1

end TelegramS3
