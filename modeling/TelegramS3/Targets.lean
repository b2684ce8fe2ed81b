import TelegramS3.Handovers

namespace TelegramS3
open Relational Table Fallible MetadataStore
set_option autoImplicit true

/-- A row as enqueueing the cleanup of an object inserts it. -/
structure NewTarget (connectionId : String) (object : Uuid) (locations : List (String × Int))
    (t : CleanupTargetRow) : Prop where
  objectId : t.objectId = object
  connectionId : t.connectionId = connectionId
  state : t.state = .pending
  lease : t.lease = none
  completed : t.completed = false
  place : t.kind = .evidence ∧ t.peerId = "evidence:" ++ object.text ∧ t.messageId = 0 ∨
    t.kind = .message ∧ (t.peerId, t.messageId) ∈ locations

namespace CleanupOutbox

/-- The outbox after some targets were inserted, each of them a `P`. -/
inductive Inserts (P : CleanupTargetRow → Prop) (o : CleanupOutbox) : CleanupOutbox → Prop where
  | refl : Inserts P o o
  | insert {o' : CleanupOutbox} {l : String × Int} : Inserts P o o' →
      P { id := o'.sequence + 1, objectId, peerId := l.1, messageId := l.2, connectionId, kind
          dueAt } →
      Inserts P o (o'.insertTarget objectId connectionId kind dueAt l)

theorem Inserts.trans (h : Inserts P o o') (h' : Inserts P o' o'') : Inserts P o o'' := by
  induction h' with
  | refl => exact h
  | insert _ hP ih => exact .insert ih hP

theorem Inserts.mono (hQ : ∀ t, P t → Q t) (h : Inserts P o o') : Inserts Q o o' := by
  induction h with
  | refl => exact .refl
  | insert _ hP ih => exact .insert ih (hQ _ hP)

theorem Inserts.evolves (h : Inserts P o o') : Table.Evolves Eq P o.targets o'.targets := by
  induction h with
  | refl => exact .refl (fun _ => rfl) _
  | insert _ hP ih =>
    unfold insertTarget
    split
    · exact ih
    · exact ih.append (.insertOrIgnore _ hP)

structure Numbered (o : CleanupOutbox) : Prop where
  bound : ∀ t ∈ o.targets, t.id ≤ o.sequence
  distinct : ∀ t ∈ o.targets, ∀ u ∈ o.targets, t.id = u.id → t = u

theorem Inserts.numbered (h : Inserts P o o') (ho : o.Numbered) : o'.Numbered := by
  induction h with
  | refl => exact ho
  | insert _ _ ih =>
    unfold insertTarget
    split
    · exact ih
    · constructor
      · intro t ht
        rcases mem_insertOrIgnore.1 ht with ht | ⟨rfl, -⟩
        · exact Nat.le_succ_of_le (ih.bound t ht)
        · exact Nat.le_refl _
      · intro t ht u hu he
        rcases mem_insertOrIgnore.1 ht with ht | ⟨rfl, -⟩
        · rcases mem_insertOrIgnore.1 hu with hu | ⟨rfl, -⟩
          · exact ih.distinct t ht u hu he
          · have hb := ih.bound t ht
            rw [he] at hb
            exact absurd hb (Nat.not_succ_le_self _)
        · rcases mem_insertOrIgnore.1 hu with hu | ⟨rfl, -⟩
          · have hb := ih.bound u hu
            rw [← he] at hb
            exact absurd hb (Nat.not_succ_le_self _)
          · rfl

theorem Numbered.of_update {o o' : CleanupOutbox} {p : CleanupTargetRow → Bool}
    {f : CleanupTargetRow → CleanupTargetRow} (h : o.Numbered) (hs : o'.sequence = o.sequence)
    (hr : o'.targets.rows = o.targets.rows.map fun t => if p t then f t else t)
    (hf : ∀ t, (f t).id = t.id) : o'.Numbered := by
  have hg : ∀ t, (if p t then f t else t).id = t.id := by
    intro t
    split
    · exact hf t
    · rfl
  constructor
  · intro t ht
    rw [mem_def, hr, List.mem_map] at ht
    obtain ⟨t, ht, rfl⟩ := ht
    rw [hg, hs]
    exact h.bound t ht
  · intro t ht u hu he
    rw [mem_def, hr, List.mem_map] at ht hu
    obtain ⟨t, ht, rfl⟩ := ht
    obtain ⟨u, hu, rfl⟩ := hu
    rw [hg, hg] at he
    rw [h.distinct t ht u hu he]

theorem foldl_inserts {l : List β}
    (h : ∀ o, ∀ b ∈ l, Inserts P o (f o b)) (o : CleanupOutbox) : Inserts P o (l.foldl f o) := by
  induction l generalizing o with
  | nil => exact .refl
  | cons b l ih =>
    apply (h o b List.mem_cons_self).trans
    apply ih
    intro o b hb
    exact h o b (List.mem_cons_of_mem _ hb)

theorem enqueue_inserts (o : CleanupOutbox) (object : Uuid) (connectionId : String) (dueAt : Int)
    (locations : List (String × Int)) :
    Inserts (NewTarget connectionId object locations) o
      (o.enqueue object connectionId dueAt locations) := by
  have he : Inserts (NewTarget connectionId object locations) o
      (o.insertEvidence object connectionId dueAt) :=
    .insert .refl ⟨rfl, rfl, rfl, rfl, rfl, .inl ⟨rfl, rfl, rfl⟩⟩
  apply he.trans
  apply foldl_inserts
  intro o l hl
  exact .insert .refl ⟨rfl, rfl, rfl, rfl, rfl, .inr ⟨rfl, hl⟩⟩

end CleanupOutbox

/-- A target of a handover, as it is inserted. -/
structure MetadataStore.HandedOver (s : MetadataStore) (hs : List Handover)
    (t : CleanupTargetRow) : Prop where
  target : ∃ h ∈ hs, NewTarget s.activeConnectionId h.object h.locations t
  later : s.outbox.sequence < t.id

theorem CleanupOutbox.Inserts.later (h : Inserts P o o') :
    o.sequence ≤ o'.sequence ∧ Inserts (fun t => P t ∧ o.sequence < t.id) o o' := by
  induction h with
  | refl => exact ⟨Nat.le_refl _, .refl⟩
  | @insert _ _ _ _ o' _ _ hP ih =>
    refine ⟨?_, .insert ih.2 ⟨hP, Nat.lt_succ_of_le ih.1⟩⟩
    unfold insertTarget
    split
    · exact ih.1
    · exact Nat.le_succ_of_le ih.1

theorem MetadataStore.handOver_inserts (s : MetadataStore) (hs : List Handover) :
    CleanupOutbox.Inserts (s.HandedOver hs) s.outbox (s.handOver hs) := by
  have hi : CleanupOutbox.Inserts
      (fun t => ∃ h ∈ hs, NewTarget s.activeConnectionId h.object h.locations t) s.outbox
      (s.handOver hs) := by
    apply CleanupOutbox.foldl_inserts
    intro o h hh
    exact (o.enqueue_inserts h.object s.activeConnectionId h.dueAt h.locations).mono
      fun t ht => ⟨h, hh, ht⟩
  exact hi.later.2.mono fun t ht => ⟨ht.1, ht.2⟩

variable {op : StoreOp}

theorem StoreOp.inserts_handovers (h : StoreStep fromStr op s s') (hw : op.cleansUp = false) :
    CleanupOutbox.Inserts (s.HandedOver (op.handovers s)) s.outbox s'.outbox := by
  rcases StoreOp.outbox_step h hw with he | he
  · rw [he]
    exact .refl
  · rw [he]
    exact s.handOver_inserts (op.handovers s)

/-- The columns of a target that no statement rewrites. -/
structure SameTarget (t t' : CleanupTargetRow) : Prop where
  id : t'.id = t.id
  objectId : t'.objectId = t.objectId
  peerId : t'.peerId = t.peerId
  messageId : t'.messageId = t.messageId
  connectionId : t'.connectionId = t.connectionId
  kind : t'.kind = t.kind

theorem SameTarget.refl (t : CleanupTargetRow) : SameTarget t t := ⟨rfl, rfl, rfl, rfl, rfl, rfl⟩

theorem SameTarget.trans (h : SameTarget a b) (h' : SameTarget b c) : SameTarget a c :=
  ⟨h'.id.trans h.id, h'.objectId.trans h.objectId, h'.peerId.trans h.peerId,
    h'.messageId.trans h.messageId, h'.connectionId.trans h.connectionId, h'.kind.trans h.kind⟩

def CleanupTargetRow.Settled (t : CleanupTargetRow) : Prop :=
  t.completed = true ↔ t.state = .completed

def CleanupTargetRow.taken (t : CleanupTargetRow) : Bool := t.state = .running || t.completed

def EvidenceDone (s : MetadataStore) (object : Uuid) : Prop :=
  ∃ e ∈ s.outbox.targets, e.objectId = object ∧ e.kind = .evidence ∧ e.completed = true

def StoreOp.cleanupLease : StoreOp → Option Uuid
  | .completeCleanup _ lease _ | .failCleanup _ lease _ _ _ | .quarantineCleanup _ lease _
  | .beginCleanupEvidenceAttempt _ lease _ _ _ => some lease
  | _ => none

theorem StoreOp.handovers_of_lease (h : op.cleanupLease = some lease) : op.handovers s = [] := by
  cases op with
  | completeCleanup | failCleanup | quarantineCleanup | beginCleanupEvidenceAttempt => rfl
  | _ => cases h

structure TargetStep (s : MetadataStore) (op : StoreOp) (t t' : CleanupTargetRow) : Prop where
  same : SameTarget t t'
  settled : t.Settled → t'.Settled
  final : t.Settled → t.completed = true → t' = t
  evidence : t.kind = .message → t'.taken = true → t.taken = true ∨ EvidenceDone s t.objectId
  fenced : ∀ lease, op.cleanupLease = some lease → t' = t ∨ t.lease = some lease
  leased : ∀ lease, t'.lease = some lease → t.lease = some lease ∨
    ∃ now, op = .claimCleanup now lease ∧
      (s.claimCleanup now lease).1.map CleanupTargetRow.id = some t.id

variable {s s' : MetadataStore}

theorem TargetStep.refl (s : MetadataStore) (op : StoreOp) (t : CleanupTargetRow) :
    TargetStep s op t t :=
  ⟨.refl t, id, fun _ _ => rfl, fun _ h => .inl h, fun _ _ => .inl rfl, fun _ h => .inl h⟩

namespace MetadataStore

theorem updateRunningTarget_step {id : Nat}
    (hop : op.cleanupLease = some lease) (hs : ∀ t, SameTarget t (f t))
    (hd : ∀ t, t.completed = false → (f t).Settled) (hl : ∀ t, (f t).lease = none) :
    Table.Evolves (TargetStep s op) P s.outbox.targets
      (s.updateRunningTarget id lease f hf).2.outbox.targets := by
  apply Table.Evolves.of_update rfl (.refl s op)
  intro t ht hp
  simp only [Bool.and_eq_true, decide_eq_true_eq] at hp
  obtain ⟨⟨-, hlease⟩, hrun⟩ := hp
  have hopen : t.Settled → t.completed = false := by
    intro h
    by_contra hc
    rw [Bool.not_eq_false] at hc
    rw [h.1 hc] at hrun
    cases hrun
  constructor
  · exact hs t
  · intro h
    exact hd t (hopen h)
  · intro h hc
    rw [hopen h] at hc
    cases hc
  · intro _ _
    exact .inl (by simp [CleanupTargetRow.taken, hrun])
  · intro l hl
    rw [hop] at hl
    cases hl
    exact .inr hlease
  · intro l h
    rw [hl t] at h
    cases h

theorem openTarget_step
    (hop : op.cleanupLease = none ∨ ∃ lease, op.cleanupLease = some lease ∧ t.lease = some lease)
    (hc : t.completed = false) (hs : SameTarget t t') (hd : t.Settled → t'.Settled)
    (he : t.kind = .message → t'.taken = t.taken)
    (hl : t'.lease = none ∨ t'.lease = t.lease) : TargetStep s op t t' where
  same := hs
  settled := hd
  final _ h := by
    rw [hc] at h
    cases h
  evidence hk h := .inl ((he hk).symm.trans h)
  fenced l hl := by
    rcases hop with hop | ⟨lease, hop, ht⟩
    · rw [hop] at hl
      cases hl
    · rw [hop] at hl
      cases hl
      exact .inr ht
  leased l h := by
    rcases hl with hl | hl
    · rw [hl] at h
      cases h
    · exact .inl (hl ▸ h)

theorem claimCleanup_step (hn : s.outbox.Numbered) (now : Int) (lease : Uuid) :
    Table.Evolves (TargetStep s (.claimCleanup now lease)) P
      s.outbox.targets (s.claimCleanup now lease).2.outbox.targets := by
  generalize hr : s.claimCleanup now lease = r
  unfold claimCleanup at hr
  dsimp only at hr
  split at hr
  · cases hr
    exact .refl (.refl s _) _
  · rename_i c hc
    have hdue : c ∈ s.outbox.targets ∧ s.cleanupClaimable now c = true := by
      rcases Option.or_eq_some_iff.1 hc with h | ⟨-, h⟩
      · have hm := mem_select.1 (firstBy_mem h)
        exact ⟨hm.1, (Bool.and_eq_true_iff.1 hm.2).2⟩
      · have hm := mem_select.1 (firstBy_mem h)
        exact ⟨hm.1, (Bool.and_eq_true_iff.1 hm.2).2⟩
    have hid : (s.claimCleanup now lease).1.map CleanupTargetRow.id = some c.id := by
      simp [claimCleanup, hc]
    cases hr
    apply Table.Evolves.of_update rfl (.refl s _)
    intro t ht hp
    simp only [Bool.and_eq_true, decide_eq_true_eq, Bool.not_eq_true'] at hp
    obtain rfl := hn.distinct t ht c hdue.1 hp.1
    constructor
    · exact ⟨rfl, rfl, rfl, rfl, rfl, rfl⟩
    · intro _
      simp [CleanupTargetRow.Settled, hp.2]
    · intro _ h
      rw [hp.2] at h
      cases h
    · intro hk _
      have hclaim := hdue.2
      simp only [cleanupClaimable, hk, Bool.and_eq_true] at hclaim
      obtain ⟨e, he, hed⟩ := any_eq_true.1 hclaim.2.2
      simp only [Bool.and_eq_true, decide_eq_true_eq] at hed
      exact .inr ⟨e, he, hed.1.1, hed.1.2, hed.2⟩
    · intro l hl
      cases hl
    · intro l hl
      cases hl
      exact .inr ⟨now, rfl, hid⟩

theorem claimCleanup_numbered (hn : s.outbox.Numbered) (now : Int)
    (lease : Uuid) : (s.claimCleanup now lease).2.outbox.Numbered := by
  unfold claimCleanup
  dsimp only
  split
  · exact hn
  · exact hn.of_update rfl rfl fun _ => rfl

end MetadataStore

section
variable (hn : s.outbox.Numbered) (h : StoreStep fromStr op s s')
include hn h

/-- What a call does to the outbox, target by target. -/
theorem StoreOp.target_step :
    Table.Evolves (TargetStep s op) (s.HandedOver (op.handovers s)) s.outbox.targets
      s'.outbox.targets := by
  cases op with
  | claimCleanup now lease =>
    cases h
    exact claimCleanup_step hn now lease
  | completeCleanup | failCleanup | quarantineCleanup =>
    cases h
    apply updateRunningTarget_step rfl
    · exact fun t => ⟨rfl, rfl, rfl, rfl, rfl, rfl⟩
    · intro t hc
      simp [CleanupTargetRow.Settled, hc]
    · exact fun t => rfl
  | beginCleanupEvidenceAttempt id lease objectId fresh now =>
    obtain ⟨⟨r, s₁⟩, hc, rfl⟩ := map_ok.1 (after_eq_some.1 h)
    obtain rfl := beginCleanupEvidenceAttempt_ok hc
    apply Table.Evolves.of_update rfl (.refl s _)
    intro t ht hp
    simp only [Bool.and_eq_true, decide_eq_true_eq, Bool.not_eq_true'] at hp
    exact openTarget_step (.inr ⟨lease, rfl, hp.1.1.2⟩) hp.2 ⟨rfl, rfl, rfl, rfl, rfl, rfl⟩
      (fun hd => hd) (fun _ => rfl) (.inr rfl)
  | resolveCleanupEvidence | retryCleanupEvidence =>
    cases h
    apply Table.Evolves.of_update rfl (.refl s _)
    intro t ht hp
    simp only [Bool.and_eq_true, decide_eq_true_eq, Bool.not_eq_true'] at hp
    apply openTarget_step (.inl rfl) hp.1.2
    · exact ⟨rfl, rfl, rfl, rfl, rfl, rfl⟩
    · intro _
      simp [CleanupTargetRow.Settled, hp.1.2]
    · intro hk
      rw [hk] at hp
      cases hp.2
    · exact .inl rfl
  | makeCleanupDue objectId now =>
    cases h
    apply Table.Evolves.of_update rfl (.refl s _)
    intro t ht hp
    simp only [Bool.and_eq_true, decide_eq_true_eq, Bool.not_eq_true'] at hp
    exact openTarget_step (.inl rfl) hp.1.2 ⟨rfl, rfl, rfl, rfl, rfl, rfl⟩ (fun hd => hd)
      (fun _ => rfl) (.inr rfl)
  | _ =>
    apply ((StoreOp.inserts_handovers h rfl).evolves).mono _ (fun _ hP => hP)
    rintro t _ rfl
    exact .refl s _ t

theorem StoreOp.numbered_step : s'.outbox.Numbered := by
  cases op with
  | claimCleanup now lease =>
    cases h
    exact claimCleanup_numbered hn now lease
  | beginCleanupEvidenceAttempt id lease objectId fresh now =>
    obtain ⟨⟨r, s₁⟩, hc, rfl⟩ := map_ok.1 (after_eq_some.1 h)
    obtain rfl := beginCleanupEvidenceAttempt_ok hc
    exact hn.of_update rfl rfl fun _ => rfl
  | completeCleanup | failCleanup | quarantineCleanup | resolveCleanupEvidence
  | retryCleanupEvidence | makeCleanupDue =>
    cases h
    exact hn.of_update rfl rfl fun _ => rfl
  | _ => exact (StoreOp.inserts_handovers h rfl).numbered hn

theorem StoreOp.targets_evolve :
    Table.Evolves SameTarget (s.HandedOver (op.handovers s)) s.outbox.targets s'.outbox.targets :=
  (StoreOp.target_step hn h).mono (fun _ _ ht => ht.same) fun _ hP => hP

end

theorem CleanupOutbox.Numbered.fresh_key (hn : s.outbox.Numbered)
    (he : Table.Evolves SameTarget P s.outbox.targets s'.outbox.targets)
    (ht : t ∈ s'.outbox.targets) (hlt : s.outbox.sequence < t.id) :
    s.outbox.targets.contains (Keyed.key t) = false := by
  by_contra hc
  obtain ⟨t₀, ht₀, hk⟩ := contains_eq_true.1 (Bool.eq_true_of_not_eq_false hc)
  obtain ⟨t₁, ht₁, hs⟩ := he.kept t₀ ht₀
  have hk₁ : Keyed.key t₁ = Keyed.key t :=
    (show Keyed.key t₁ = Keyed.key t₀ from congrArg₂ Prod.mk hs.peerId hs.messageId).trans hk
  have hid : t.id = t₀.id := by
    rw [← eq_of_key_eq ht₁ ht hk₁]
    exact hs.id
  have hb := hn.bound t₀ ht₀
  rw [← hid] at hb
  exact absurd hlt (Nat.not_lt.2 hb)

end TelegramS3
