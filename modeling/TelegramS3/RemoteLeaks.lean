import TelegramS3.DanglingChunks
import TelegramS3.Tracking

namespace TelegramS3
open Relational Table Fallible Transition MetadataStore
set_option autoImplicit true

def CleaningWorld.Deleted (w : CleaningWorld) (l : String × Int) : Prop :=
  ∃ d ∈ w.deletes, d.answered = true ∧ d.location = l

structure LeakWorld where
  cleaning : CleaningWorld
  accepted : List (String × Int) := []

inductive LeakAction where
  | clean (a : CleaningAction)
  | removeReplicaLocation (objectId : Uuid) (chunkOrder : Nat) (accountId : String)

def CleaningAction.accepts : CleaningAction → List (String × Int)
  | .store (.call op) => op.accepts
  | _ => []

def LeakAction.apply (fromStr : String → Option ETagCondition) (a : LeakAction) (w : LeakWorld) :
    Option LeakWorld :=
  match a with
  | .clean a => (a.apply fromStr w.cleaning).map fun cleaning =>
      { cleaning, accepted := a.accepts ++ w.accepted }
  | .removeReplicaLocation objectId chunkOrder accountId => some
      { w with
        cleaning.store := w.cleaning.store.removeReplicaLocation objectId chunkOrder accountId }

def LeakStep (fromStr : String → Option ETagCondition) (a : LeakAction) (w w' : LeakWorld) : Prop :=
  a.apply fromStr w = some w'

structure LeakWorld.Initial (w : LeakWorld) : Prop where
  cleaning : w.cleaning.Initial
  accepted : w.accepted = []

def MetadataStore.Referenced (s : MetadataStore) (l : String × Int) : Prop :=
  s.Named l ∨ ∃ r ∈ s.objectManifests, r.Standing ∧ ∃ c ∈ r.manifest.chunks, ∃ q ∈ c.replicas,
    (q.telegramPeerId, q.telegramMessageId) = l

/-- When all targets are done, an accepted document that nothing refers to has been deleted. -/
def NoRemoteLeak (Step : LeakAction → LeakWorld → LeakWorld → Prop) : Prop :=
  ∀ past w, Run LeakWorld.Initial Step past w → ∀ l ∈ w.accepted,
    ¬ w.cleaning.store.Referenced l →
      (∀ t ∈ w.cleaning.store.outbox.targets, t.completed = true) → w.cleaning.Deleted l

/-- Calls keep track of documents, and what is dropped with an account has targets. -/
def ConnectionAction.KeepsNamed (s : MetadataStore) : ConnectionAction → Prop
  | .call op => KeepsTrack op s
  | .deleteTelegramAccount id => ∀ q ∈ s.replicaLocations, q.accountId = id → s.Targeted q.location
  | .purgeConnectionOperations connectionId =>
    (∀ j ∈ s.transferJobs, j.connectionId = connectionId → j.state.terminal = false →
      ∀ c ∈ s.transferChunks, c.jobId = j.id → s.Targeted c.location.location) ∧
    ∀ u ∈ s.multipartUploads, u.connectionId = connectionId → ∀ p ∈ s.multipartParts,
      p.uploadId = u.uploadId → ∀ l ∈ p.part.documents, 0 < l.2 → s.Targeted l
  | _ => True

/-- The search of a cleanup call finds nothing, and its transport stores in its chat. -/
def CleanupTask.FindsNothing (w : CleaningWorld) (c : CleanupTask) : Prop :=
  match c.phase with
  | .unpinned => c.target.kind = .message → ∀ manifests, w.store.listManifests = .ok manifests →
      c.target.manifestsRefer manifests = false
  | .searching (upload :: _) => ∀ p ∈ w.store.listMultipartParts upload,
      p.refersTo c.target.location = false
  | .unreferenced => ∀ chat, w.transport.current = some chat → chat = c.target.peerId
  | _ => True

/-- No step drops the last that is known of a document. -/
def KeepsDocuments (a : LeakAction) (w : LeakWorld) : Prop :=
  match a with
  | .clean (.store b) => b.KeepsNamed w.cleaning.store
  | .clean (.advance i _) => ∀ c, w.cleaning.tasks[i]? = some c → c.FindsNothing w.cleaning
  | .clean _ => True
  | .removeReplicaLocation objectId chunkOrder accountId =>
    ∀ q ∈ w.cleaning.store.replicaLocations, q.objectId = objectId → q.chunkOrder = chunkOrder →
      q.accountId = accountId → w.cleaning.store.Targeted q.location

/-- What becomes of a target: it is done before, or evidence, or the call completes it. -/
structure Finishes (op : StoreOp) (t t' : CleanupTargetRow) : Prop where
  same : SameTarget t t'
  completed : t'.completed = true → t.completed = true ∨ t.kind = .evidence ∨
    ∃ lease location, op = .completeCleanup t.id lease location

theorem Finishes.of_completed (h : SameTarget t t') (hc : t'.completed = t.completed) :
    Finishes op t t' := ⟨h, fun h => .inl (hc ▸ h)⟩

theorem Finishes.refl (op : StoreOp) (t : CleanupTargetRow) : Finishes op t t :=
  .of_completed (.refl t) rfl

theorem StoreOp.finishes (h : StoreStep fromStr op s s') :
    Table.Evolves (Finishes op) (fun t => t.completed = false) s.outbox.targets
      s'.outbox.targets := by
  cases op with
  | claimCleanup now lease =>
    cases h
    unfold MetadataStore.claimCleanup
    dsimp only
    split
    · exact .refl (.refl _) _
    · exact .of_update rfl (.refl _) fun t _ _ => .of_completed ⟨rfl, rfl, rfl, rfl, rfl, rfl⟩ rfl
  | failCleanup | quarantineCleanup | makeCleanupDue | retryCleanupEvidence =>
    cases h
    exact .of_update rfl (.refl _) fun t _ _ => .of_completed ⟨rfl, rfl, rfl, rfl, rfl, rfl⟩ rfl
  | beginCleanupEvidenceAttempt id lease objectId fresh now =>
    obtain ⟨⟨r, s₁⟩, hc, rfl⟩ := map_ok.1 (after_eq_some.1 h)
    obtain rfl := beginCleanupEvidenceAttempt_ok hc
    exact .of_update rfl (.refl _) fun t _ _ => .of_completed ⟨rfl, rfl, rfl, rfl, rfl, rfl⟩ rfl
  | completeCleanup id lease location =>
    cases h
    apply Table.Evolves.of_update rfl (.refl _)
    intro t _ hp
    simp only [Bool.and_eq_true, decide_eq_true_eq] at hp
    obtain ⟨⟨rfl, -⟩, -⟩ := hp
    exact ⟨⟨rfl, rfl, rfl, rfl, rfl, rfl⟩, fun _ => .inr (.inr ⟨lease, location, rfl⟩)⟩
  | resolveCleanupEvidence id location =>
    cases h
    apply Table.Evolves.of_update rfl (.refl _)
    intro t _ hp
    simp only [Bool.and_eq_true, decide_eq_true_eq] at hp
    exact ⟨⟨rfl, rfl, rfl, rfl, rfl, rfl⟩, fun _ => .inr (.inl hp.2)⟩
  | _ =>
    apply (StoreOp.inserts_handovers h rfl).evolves.mono
    · rintro t _ rfl
      exact .refl _ t
    · intro t ht
      obtain ⟨x, -, hx⟩ := ht.target
      exact hx.completed

namespace CleanupTask
variable {c : CleanupTask}

def Answered (w : CleaningWorld) (c : CleanupTask) : Prop :=
  match c.phase with
  | .deleting chat => chat = c.target.peerId
  | .recorded _ | .settling _ => c.target.kind = .message → w.Deleted c.target.location
  | _ => True

theorem Answered.of_open (hc : c.phase.closing = false) (hd : ∀ chat, c.phase ≠ .deleting chat) :
    c.Answered w := by
  unfold Answered
  cases hp : c.phase with
  | deleting chat => exact absurd hp (hd chat)
  | recorded | settling =>
    rw [hp] at hc
    cases hc
  | _ => trivial

theorem Answered.of_closing (hc : c.phase.closing = true)
    (h : c.target.kind = .message → w.Deleted c.target.location) : c.Answered w := by
  unfold Answered
  cases hp : c.phase with
  | recorded | settling => exact h
  | _ =>
    rw [hp] at hc
    cases hc

theorem Answered.keep (h : c.Answered w) (hd : ∀ l, w.Deleted l → w'.Deleted l) :
    c.Answered w' := by
  unfold Answered at h ⊢
  split at h
  · exact h
  · exact fun hk => hd _ (h hk)
  · exact fun hk => hd _ (h hk)
  · trivial

theorem Answered.advance (h : c.Answered w) (hf : c.FindsNothing w)
    (hs : c.advance w.store w.transport input = some o)
    (hd : ∀ l, w.Deleted l → w'.Deleted l) (ho : ∀ d ∈ o.deletes, d ∈ w'.deletes) :
    Answered w' { c with phase := o.phase } := by
  cases hcl : o.phase.closing with
  | true =>
    apply Answered.of_closing hcl
    intro hk
    cases (advance_advances (fun _ => none) hs).closes hcl with
    | evidence he =>
      rw [he] at hk
      cases hk
    | recorded hp =>
      simp only [Answered, hp] at h
      exact hd _ (h hk)
    | listed hp hm hl hr =>
      simp only [FindsNothing, hp] at hf
      rw [hf hm _ hl] at hr
      cases hr
    | part hp hr =>
      simp only [FindsNothing, hp] at hf
      obtain ⟨p, hpm, hpr⟩ := List.any_eq_true.1 hr
      rw [hf p hpm] at hpr
      cases hpr
    | deleted hp hod =>
      simp only [Answered, hp] at h
      subst h
      exact ⟨_, ho _ (hod ▸ List.mem_singleton.2 rfl), rfl, rfl⟩
  | false =>
    cases hp : o.phase with
    | deleting chat =>
      have hpr := (advance_advances (fun _ => none) hs).proceeds
      rw [hp] at hpr
      cases hpr with
      | leaves hl => cases hl
      | deleting hph hchat =>
        simp only [FindsNothing, hph] at hf
        exact hf _ hchat
    | _ =>
      apply Answered.of_open
      · rw [hp] at hcl
        exact hcl
      · exact nofun

end CleanupTask

/-- Evidence has no message id, done messages are deleted, and so are those of calls that close
them. -/
structure CleaningWorld.Answered (w : CleaningWorld) : Prop where
  numbered : w.store.outbox.Numbered
  places : ∀ t ∈ w.store.outbox.targets, t.kind = .evidence → t.messageId = 0
  done : ∀ t ∈ w.store.outbox.targets, t.completed = true → t.kind = .message →
    w.Deleted t.location
  tasks : ∀ c ∈ w.tasks, w.Stores c.target ∧ c.Answered w

namespace CleaningStep
variable {w w' : CleaningWorld}

theorem deleted (h : CleaningStep fromStr a w w') (hl : w.Deleted l) : w'.Deleted l := by
  obtain ⟨d, hd, ha, hl⟩ := hl
  exact ⟨d, h.deletes_kept hd, ha, hl⟩

theorem finished_before (h : CleaningStep fromStr a w w') (ht : t' ∈ w'.store.outbox.targets)
    (hc : t'.completed = true) : (∃ t ∈ w.store.outbox.targets, t.completed = true ∧
      SameTarget t t') ∨ t'.kind = .evidence ∨
        ∃ c ∈ w.tasks, ∃ location, c.phase = .settling location ∧ t'.id = c.target.id := by
  have of_op {op : StoreOp} (hs : StoreStep fromStr op w.store w'.store)
      (hop : ∀ id lease location, op = .completeCleanup id lease location →
        ∃ c ∈ w.tasks, ∃ location, c.phase = .settling location ∧ id = c.target.id) :
      (∃ t ∈ w.store.outbox.targets, t.completed = true ∧ SameTarget t t') ∨ t'.kind = .evidence ∨
        ∃ c ∈ w.tasks, ∃ location, c.phase = .settling location ∧ t'.id = c.target.id := by
    rcases (StoreOp.finishes hs).origin t' ht with ⟨t, ht₀, hf⟩ | hn
    · rcases hf.completed hc with hd | he | ⟨lease, location, rfl⟩
      · exact .inl ⟨t, ht₀, hd, hf.same⟩
      · exact .inr (.inl (hf.same.kind.trans he))
      · obtain ⟨c, hcm, l, hp, hid⟩ := hop _ _ _ rfl
        exact .inr (.inr ⟨c, hcm, l, hp, hf.same.id.trans hid⟩)
    · rw [hn] at hc
      cases hc
  rcases h.store_cases with he | ⟨op, hm, hs⟩ | ⟨b, rfl, hs⟩
  · rw [he] at ht
    exact .inl ⟨t', ht, hc, .refl t'⟩
  · apply of_op hs
    rintro id lease location rfl
    cases hm with
    | advance hi hcall =>
      cases hcall with
      | complete _ hp => exact ⟨_, List.mem_of_getElem? hi, _, hp, rfl⟩
  · have hno := h.store_ok.1
    rcases hs.cases with ⟨op, rfl, hs, -⟩ | hr
    · apply of_op hs
      rintro id lease location rfl
      cases hno
    · rw [hr.outbox] at ht
      exact .inl ⟨t', ht, hc, .refl t'⟩

end CleaningStep

namespace CleaningWorld
variable {w w' : CleaningWorld}

theorem Answered.step_done (h : w.Answered) (hs : CleaningStep fromStr a w w')
    (ht : t' ∈ w'.store.outbox.targets) (hc : t'.completed = true) (hk : t'.kind = .message) :
    w'.Deleted t'.location := by
  apply hs.deleted
  rcases hs.finished_before ht hc with ⟨t, ht₀, hd, hsame⟩ | he | ⟨c, hcm, location, hp, hid⟩
  · have hl := h.done t ht₀ hd (hsame.kind.symm.trans hk)
    rw [CleanupTargetRow.location, ← hsame.peerId, ← hsame.messageId] at hl
    exact hl
  · rw [he] at hk
    cases hk
  · obtain ⟨⟨t, ht₀, hst⟩, ha⟩ := h.tasks c hcm
    obtain ⟨hn, he⟩ := hs.targets_evolve h.numbered
    obtain ⟨t₁, ht₁, hs₁⟩ := he.kept t ht₀
    obtain rfl := hn.distinct t₁ ht₁ t' ht (hs₁.id.trans (hst.id.symm.trans hid.symm))
    have hkc : c.target.kind = .message := hst.kind.trans (hs₁.kind.symm.trans hk)
    simp only [CleanupTask.Answered, hp] at ha
    have hl := ha hkc
    rw [CleanupTargetRow.location, hst.peerId, hst.messageId, ← hs₁.peerId, ← hs₁.messageId] at hl
    exact hl

theorem Answered.step (h : w.Answered) (hs : CleaningStep fromStr a w w')
    (ha : ∀ i input, a = .advance i input → ∀ c, w.tasks[i]? = some c → c.FindsNothing w) :
    w'.Answered := by
  obtain ⟨hn, he⟩ := hs.targets_evolve h.numbered
  have hkeep : ∀ c ∈ w.tasks, w'.Stores c.target ∧ c.Answered w' := fun c hc =>
    ⟨(h.tasks c hc).1.step he, (h.tasks c hc).2.keep fun _ => hs.deleted⟩
  refine ⟨hn, ?_, fun t ht hc hk => h.step_done hs ht hc hk, ?_⟩
  · intro t' ht' hk
    rcases he.origin t' ht' with ⟨t, ht, hst⟩ | hh
    · rw [hst.messageId]
      exact h.places t ht (hst.kind.symm.trans hk)
    · obtain ⟨x, -, hx⟩ := hh.target
      rcases hx.place with ⟨-, -, hm⟩ | ⟨hm, -⟩
      · exact hm
      · rw [hm] at hk
        cases hk
  · intro c hc
    rcases hs.task_cases hc with hc | ⟨hp, hst⟩ | ⟨hp, c₀, hc₀, ht⟩ |
      ⟨i, input, c₀, o, hadv, hi, ho, hd, rfl⟩
    · exact hkeep c hc
    · exact ⟨hst.step he, .of_open (by rw [hp]; rfl) fun chat he => by rw [hp] at he; cases he⟩
    · rw [ht]
      exact ⟨(h.tasks c₀ hc₀).1.step he,
        .of_open (by rw [hp]; rfl) fun chat he => by rw [hp] at he; cases he⟩
    · have hc₀ := h.tasks c₀ (List.mem_of_getElem? hi)
      exact ⟨hc₀.1.step he, hc₀.2.advance (ha i input hadv c₀ hi) ho (fun _ => hs.deleted) hd⟩

theorem Answered.init (h : w.Initial) : w.Answered where
  numbered := h.store.numbered
  places := by simp [h.store.targets]
  done := by simp [h.store.targets]
  tasks := by simp [h.tasks]

end CleaningWorld

theorem MetadataStore.Named.step {s s' : MetadataStore} (hl : s.Named l) (hp : 0 < l.2)
    (hrow : ∀ r ∈ s.objectManifests, r.Standing → RowSurvives s' r)
    (hrep : ∀ q ∈ s.replicaLocations, q ∈ s'.replicaLocations ∨ s'.Targeted q.location)
    (hpart : ∀ p ∈ s.multipartParts, p ∈ s'.multipartParts ∨
      ∀ l ∈ p.part.documents, 0 < l.2 → s'.Targeted l)
    (htransfer : ∀ c ∈ s.transferChunks, ∀ j ∈ s.transferJobs, j.id = c.jobId →
      j.state.terminal = false → c ∈ s'.transferChunks ∧ Survives s' j ∨
        s'.Targeted c.location.location) : s'.Named l ∨ s'.Targeted l := by
  cases hl with
  | manifest hl =>
    obtain ⟨r, hr, hst, hl⟩ := hl
    obtain ⟨r', hr', -, hst', hd⟩ := hrow r hr hst
    exact .inl (.manifest ⟨r', hr', hst', hd l hl hp⟩)
  | replica hl =>
    obtain ⟨q, hq, rfl, r, hr, hid, hst⟩ := hl
    obtain ⟨r', hr', hid', hst', -⟩ := hrow r hr hst
    rcases hrep q hq with hq' | ht
    · exact .inl (.replica ⟨q, hq', rfl, r', hr', hid'.trans hid, hst'⟩)
    · exact .inr ht
  | part hl =>
    obtain ⟨p, hpm, hl⟩ := hl
    rcases hpart p hpm with hp' | ht
    · exact .inl (.part ⟨p, hp', hl⟩)
    · exact .inr (ht l hl hp)
  | transfer hl =>
    obtain ⟨c, hc, rfl, j, hj, hid, hlive⟩ := hl
    rcases htransfer c hc j hj hid hlive with ⟨hc', j', hj', he, hl'⟩ | ht
    · exact .inl (.transfer ⟨c, hc', rfl, j', hj', (Prod.mk.inj he).1.trans hid, hl'⟩)
    · exact .inr ht

theorem MetadataStore.Named.drop_replicas {s : MetadataStore} (hl : s.Named l) (hp : 0 < l.2)
    {p : ReplicaLocationRow → Bool} {accounts : Table AccountRow}
    (ht : ∀ q ∈ s.replicaLocations, p q = true → s.Targeted q.location) :
    ({ s with telegramAccounts := accounts, replicaLocations := s.replicaLocations.delete p } :
      MetadataStore).Named l ∨ s.Targeted l := by
  apply hl.step hp
  · exact fun r hr hst => .of_mem hr hst
  · intro q hq
    cases hpq : p q with
    | true => exact .inr (ht q hq hpq)
    | false => exact .inl (mem_delete.2 ⟨hq, hpq⟩)
  · exact fun p hp => .inl hp
  · exact fun c hc j hj _ hl => .inl ⟨hc, j, hj, rfl, hl⟩

theorem MetadataStore.Named.purge {s : MetadataStore} (hl : s.Named l) (hp : 0 < l.2)
    (hk : (ConnectionAction.purgeConnectionOperations connectionId).KeepsNamed s) :
    (s.purgeConnectionOperations connectionId).Named l ∨ s.Targeted l := by
  apply hl.step hp
  · exact fun r hr hst => .of_mem hr hst
  · exact fun q hq => .inl hq
  · intro p hpm
    cases hu : s.multipartUploads.any fun u =>
        u.uploadId = p.uploadId && u.connectionId = connectionId with
    | true =>
      obtain ⟨u, hum, hup⟩ := any_eq_true.1 hu
      simp only [Bool.and_eq_true, decide_eq_true_eq] at hup
      exact .inr (hk.2 u hum hup.2 p hpm hup.1.symm)
    | false => exact .inl (mem_delete.2 ⟨hpm, hu⟩)
  · intro c hc j hj hid hlive
    by_cases hconn : j.connectionId = connectionId
    · exact .inr (hk.1 j hj hconn hlive c hc hid.symm)
    · refine .inl ⟨mem_delete.2 ⟨hc, ?_⟩, j, mem_delete.2 ⟨hj, decide_eq_false hconn⟩, rfl, hlive⟩
      by_contra ho
      obtain ⟨i, hi, hio⟩ := any_eq_true.1 (Bool.eq_true_of_not_eq_false ho)
      simp only [Bool.and_eq_true, decide_eq_true_eq] at hio
      obtain rfl := eq_of_key_eq hi hj (hio.1.trans hid.symm)
      exact hconn hio.2

theorem ConnectionStep.keeps_named (h : Coherent s) (ho : ∀ j ∈ s.transferJobs, j.OneId)
    (hn : s.outbox.Numbered) (hs : ConnectionStep fromStr a s s') (hk : a.KeepsNamed s)
    (hp : 0 < l.2) (hl : s.Named l) : s'.Named l ∨ s'.Targeted l := by
  cases a with
  | call op => exact StoreOp.keeps_named h ho hn (StoreOp.serve_eq_some hs).1 hk hp hl
  | setTelegramBootstrapSettings fresh chat =>
    cases hs
    apply hl.step hp
    · intro r hr hst
      by_cases hc : r.connectionId = "legacy"
      · exact ⟨_, mem_of_update_true rfl hr (decide_eq_true hc), rfl, hst, fun l hl _ => hl⟩
      · exact .of_mem (mem_of_update_false rfl hr (decide_eq_false hc)) hst
    · exact fun q hq => .inl hq
    · exact fun p hp => .inl hp
    · intro c hc j hj _ hlive
      refine .inl ⟨hc, ?_⟩
      by_cases hj' : j.connectionId = "legacy"
      · exact ⟨_, mem_of_update_true rfl hj (decide_eq_true hj'), rfl, hlive⟩
      · exact ⟨j, mem_of_update_false rfl hj (decide_eq_false hj'), rfl, hlive⟩
  | clearTelegramBootstrapSettings | clearActiveConnectionId | finishConnectionRemoval =>
    cases hs
    apply hl.step hp
    · exact fun r hr hst => .of_mem hr hst
    · exact fun q hq => .inl hq
    · exact fun p hp => .inl hp
    · exact fun c hc j hj _ hl => .inl ⟨hc, j, hj, rfl, hl⟩
  | deleteTelegramAccount id =>
    obtain rfl := deleteTelegramAccount_ok (after_eq_some.1 hs)
    exact hl.drop_replicas hp fun q hq hp => hk q hq (of_decide_eq_true hp)
  | purgeConnectionOperations connectionId =>
    cases hs
    exact hl.purge hp hk

theorem KeepsTrack.of_cleaner (ho : op.ofCleaner = true) : KeepsTrack op s := by
  cases op with
  | claimCleanup | completeCleanup | failCleanup | quarantineCleanup
  | beginCleanupEvidenceAttempt =>
    refine ⟨?_, fun _ _ _ _ _ _ => rfl, trivial⟩
    intro j _ _ he
    cases he
  | _ => cases ho

namespace CleaningStep
variable {w w' : CleaningWorld}

theorem keeps_named (h : Coherent w.store) (ho : ∀ j ∈ w.store.transferJobs, j.OneId)
    (hn : w.store.outbox.Numbered) (hs : CleaningStep fromStr a w w')
    (hk : ∀ b, a = .store b → b.KeepsNamed w.store) (hp : 0 < l.2) (hl : w.store.Named l) :
    w'.store.Named l ∨ w'.store.Targeted l := by
  rcases hs.store_cases with he | ⟨op, hm, hc⟩ | ⟨b, rfl, hc⟩
  · rw [he]
    exact .inl hl
  · exact StoreOp.keeps_named h ho hn hc (.of_cleaner hm.ofCleaner) hp hl
  · exact hc.keeps_named h ho hn (hk b rfl) hp hl

theorem keeps_targeted (hn : w.store.outbox.Numbered) (hs : CleaningStep fromStr a w w')
    (hl : w.store.Targeted l) : w'.store.Targeted l := by
  obtain ⟨t, ht, hk⟩ := contains_eq_true.1 hl
  obtain ⟨t', ht', hsame⟩ := (hs.targets_evolve hn).2.kept t ht
  refine contains_eq_true.2 ⟨t', ht', ?_⟩
  rw [← hk]
  exact congrArg₂ Prod.mk hsame.peerId hsame.messageId

theorem accepts_named (hs : CleaningStep fromStr a w w')
    (hk : ∀ b, a = .store b → b.KeepsNamed w.store) (hl : l ∈ a.accepts) :
    0 < l.2 ∧ w'.store.Named l := by
  cases a with
  | store b =>
    obtain ⟨-, s', hc, rfl⟩ := hs.store_ok
    cases b with
    | call op =>
      have hkeep : KeepsTrack op w.store := hk _ rfl
      exact StoreOp.accepts_named (StoreOp.serve_eq_some hc).1 hkeep.writes hl
    | _ => cases hl
  | _ => cases hl

end CleaningStep

/-- Accepted documents are named or have a target. -/
structure LeakWorld.Tracked (w : LeakWorld) : Prop where
  coherent : Coherent w.cleaning.store
  oneId : ∀ j ∈ w.cleaning.store.transferJobs, j.OneId
  answered : w.cleaning.Answered
  accepted : ∀ l ∈ w.accepted, 0 < l.2 ∧
    (w.cleaning.store.Named l ∨ w.cleaning.store.Targeted l)

namespace LeakWorld
variable {w w' : LeakWorld}

theorem Tracked.clean (h : w.Tracked)
    (hs : CleaningStep fromStr a w.cleaning c) (ha : KeepsDocuments (.clean a) w) :
    Tracked { cleaning := c, accepted := a.accepts ++ w.accepted } := by
  have hk : ∀ b, a = .store b → b.KeepsNamed w.cleaning.store := by
    rintro b rfl
    exact ha
  have hf : ∀ i input, a = .advance i input → ∀ c, w.cleaning.tasks[i]? = some c →
      c.FindsNothing w.cleaning := by
    rintro i input rfl
    exact ha
  have hn := h.answered.numbered
  refine ⟨hs.coherent h.coherent, hs.oneId h.oneId, h.answered.step hs hf, ?_⟩
  intro l hl
  rcases List.mem_append.1 hl with hl | hl
  · obtain ⟨hp, hl⟩ := hs.accepts_named hk hl
    exact ⟨hp, .inl hl⟩
  · obtain ⟨hp, hl⟩ := h.accepted l hl
    refine ⟨hp, ?_⟩
    rcases hl with hl | hl
    · exact hs.keeps_named h.coherent h.oneId hn hk hp hl
    · exact .inr (hs.keeps_targeted hn hl)

theorem Tracked.step (h : w.Tracked) (hs : LeakStep fromStr a w w') (ha : KeepsDocuments a w) :
    w'.Tracked := by
  cases a with
  | clean a =>
    obtain ⟨cleaning, hc, rfl⟩ := Option.map_eq_some_iff.1 hs
    exact h.clean hc ha
  | removeReplicaLocation objectId chunkOrder accountId =>
    cases hs
    refine ⟨⟨h.coherent.rows, h.coherent.operation, h.coherent.keys⟩, h.oneId,
      ⟨h.answered.numbered, h.answered.places, h.answered.done, h.answered.tasks⟩, ?_⟩
    intro l hl
    obtain ⟨hp, hl⟩ := h.accepted l hl
    refine ⟨hp, ?_⟩
    rcases hl with hl | hl
    · apply hl.drop_replicas hp
      intro q hq hpq
      simp only [Bool.and_eq_true, decide_eq_true_eq] at hpq
      exact ha q hq hpq.1.1 hpq.1.2 hpq.2
    · exact .inr hl

theorem Tracked.init (h : w.Initial) : w.Tracked where
  coherent := h.cleaning.store.objects.coherent
  oneId := by simp [h.cleaning.store.jobs]
  answered := .init h.cleaning
  accepted := by simp [h.accepted]

end LeakWorld

/-- An upload has sent its chunk and waits for a retry when its key is deleted. -/
def deletedUpload : List LeakAction :=
  let now := (instant 1).unixTimestamp
  let location : TelegramLocation := { peerId := "-1001", messageId := 5, documentId := none }
  let ops : List StoreOp :=
    [.beginTransfer ⟨1⟩ "photos" "a" now, .stageManifest .put (storedObject ⟨1⟩ "aa" 0) (instant 1),
      .queueTransfer ⟨1⟩ 1 now, .claimTransfer now ⟨11⟩, .beginSendAttempt ⟨1⟩ ⟨11⟩ 0 ⟨21⟩ now,
      .finishSendAttempt ⟨1⟩ ⟨11⟩ 0 ⟨21⟩ location now,
      .transferFailed ⟨1⟩ ⟨11⟩ (some 30) "timeout" now,
      .deleteActiveKey "photos" "a" "deleted" {} (instant 2)]
  (cleaningCalls ops).map .clean

def deletedUploadRun : List LeakWorld × LeakWorld :=
  (exec (LeakAction.apply fun _ => none) [] { cleaning := { store := photosStore } }
    deletedUpload).get (by decide +kernel)

end TelegramS3
