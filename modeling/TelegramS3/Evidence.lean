import TelegramS3.Run
import TelegramS3.Targets

namespace TelegramS3
open Relational Fallible Transition MetadataStore
set_option autoImplicit true

structure CleanupWorld where
  store : MetadataStore
  leases : List Uuid := []

def CleanupWorld.targets (w : CleanupWorld) : Table CleanupTargetRow := w.store.outbox.targets

def CleanupWorld.apply (fromStr : String → Option ETagCondition) (op : StoreOp)
    (w : CleanupWorld) : Option CleanupWorld :=
  match op with
  | .claimCleanup now lease =>
    if lease ∈ w.leases then none
    else some { store := (w.store.claimCleanup now lease).2, leases := lease :: w.leases }
  | op => (op.apply fromStr w.store).map fun s => { w with store := s }

def CleanupStep (fromStr : String → Option ETagCondition) (op : StoreOp) (w w' : CleanupWorld) :
    Prop :=
  w.apply fromStr op = some w'

structure CleanupWorld.Initial (w : CleanupWorld) : Prop where
  targets : w.targets = ∅
  leases : w.leases = []

/-- Evidence is stored before messages are taken, completed targets stay, lost leases change none.
-/
structure EvidenceFirst (Step : StoreOp → CleanupWorld → CleanupWorld → Prop) : Prop where
  evidence : ∀ past w, Run CleanupWorld.Initial Step past w → ∀ t ∈ w.targets,
    t.kind = .message → t.state = .running ∨ t.completed = true → EvidenceDone w.store t.objectId
  final : ∀ past w, Run CleanupWorld.Initial Step past w → ∀ v ∈ past, ∀ t ∈ v.targets,
    t.completed = true → t ∈ w.targets
  fenced : ∀ past w, Run CleanupWorld.Initial Step past w → ∀ v ∈ past, ∀ t ∈ v.targets,
    ∀ lease, t.lease = some lease → (∀ u ∈ w.targets, u.id = t.id → u.lease ≠ some lease) →
      ∀ op w', Step op w w' → op.cleanupLease = some lease → ∀ u, u ∈ w'.targets ↔ u ∈ w.targets

structure CleanupWorld.Sound (w : CleanupWorld) : Prop where
  numbered : w.store.outbox.Numbered
  settled : ∀ t ∈ w.targets, t.Settled
  evidence : ∀ t ∈ w.targets, t.kind = .message → t.taken = true → EvidenceDone w.store t.objectId
  leases : ∀ t ∈ w.targets, ∀ lease, t.lease = some lease → lease ∈ w.leases
  owner : ∀ t ∈ w.targets, ∀ u ∈ w.targets, ∀ lease, t.lease = some lease →
    u.lease = some lease → u.id = t.id

theorem CleanupStep.store (h : CleanupStep fromStr op w w') :
    StoreStep fromStr op w.store w'.store := by
  unfold CleanupStep CleanupWorld.apply at h
  split at h
  · split at h
    · cases h
    · cases h
      rfl
  · obtain ⟨s, hs, rfl⟩ := Option.map_eq_some_iff.1 h
    exact hs

theorem CleanupStep.leases (h : CleanupStep fromStr op w w') :
    (∀ lease ∈ w.leases, lease ∈ w'.leases) ∧
      ∀ now lease, op = .claimCleanup now lease → lease ∉ w.leases ∧ lease ∈ w'.leases := by
  unfold CleanupStep CleanupWorld.apply at h
  split at h
  · split at h
    · cases h
    · rename_i now lease hl
      cases h
      refine ⟨fun _ => List.mem_cons_of_mem _, ?_⟩
      intro now' lease' he
      cases he
      exact ⟨hl, List.mem_cons_self⟩
  · rename_i hn
    obtain ⟨s, hs, rfl⟩ := Option.map_eq_some_iff.1 h
    exact ⟨fun _ hl => hl, fun now lease he => (hn now lease he).elim⟩

namespace CleanupWorld
variable {w w' : CleanupWorld}

theorem Sound.init (h : w.Initial) : w.Sound := by
  have hn : w.store.outbox.targets = ∅ := h.targets
  constructor
  · exact ⟨by simp [hn], by simp [hn]⟩
  · simp [h.targets]
  · simp [h.targets]
  · simp [h.targets]
  · simp [h.targets]

theorem Sound.step (h : w.Sound) (hs : CleanupStep fromStr op w w') : w'.Sound := by
  have hev := StoreOp.target_step h.numbered hs.store
  have hdone : ∀ object, EvidenceDone w.store object → EvidenceDone w'.store object := by
    rintro object ⟨e, he, ho, hk, hc⟩
    obtain ⟨e', he', hstep⟩ := hev.kept e he
    rw [hstep.final (h.settled e he) hc] at he'
    exact ⟨e, he', ho, hk, hc⟩
  constructor
  · exact StoreOp.numbered_step h.numbered hs.store
  · intro t' ht'
    rcases hev.origin t' ht' with ⟨t, ht, hstep⟩ | ⟨⟨x, -, hnew⟩, -⟩
    · exact hstep.settled (h.settled t ht)
    · simp [CleanupTargetRow.Settled, hnew.completed, hnew.state]
  · intro t' ht' hk htaken
    rcases hev.origin t' ht' with ⟨t, ht, hstep⟩ | ⟨⟨x, -, hnew⟩, -⟩
    · rw [hstep.same.kind] at hk
      rw [hstep.same.objectId]
      rcases hstep.evidence hk htaken with hold | hdone'
      · exact hdone _ (h.evidence t ht hk hold)
      · exact hdone _ hdone'
    · simp [CleanupTargetRow.taken, hnew.completed, hnew.state] at htaken
  · intro t' ht' lease hl
    rcases hev.origin t' ht' with ⟨t, ht, hstep⟩ | ⟨⟨x, -, hnew⟩, -⟩
    · rcases hstep.leased lease hl with hl | ⟨now, rfl, -⟩
      · exact hs.leases.1 lease (h.leases t ht lease hl)
      · exact (hs.leases.2 now lease rfl).2
    · rw [hnew.lease] at hl
      cases hl
  · intro t' ht' u' hu' lease hlt hlu
    rcases hev.origin t' ht' with ⟨t, ht, hst⟩ | ⟨⟨x, -, hnew⟩, -⟩
    · rcases hev.origin u' hu' with ⟨u, hu, hsu⟩ | ⟨⟨x, -, hnew⟩, -⟩
      · rw [hst.same.id, hsu.same.id]
        rcases hst.leased lease hlt with hlt | ⟨now, rfl, hid⟩
        · rcases hsu.leased lease hlu with hlu | ⟨now, rfl, -⟩
          · exact h.owner t ht u hu lease hlt hlu
          · exact absurd (h.leases t ht lease hlt) (hs.leases.2 now lease rfl).1
        · rcases hsu.leased lease hlu with hlu | ⟨now', he, hid'⟩
          · exact absurd (h.leases u hu lease hlu) (hs.leases.2 now lease rfl).1
          · cases he
            exact Option.some.inj (hid'.symm.trans hid)
      · rw [hnew.lease] at hlu
        cases hlu
    · rw [hnew.lease] at hlt
      cases hlt

/-- An earlier completed target is still there, and its lease is on no other target. -/
structure Remembers (w : CleanupWorld) (t : CleanupTargetRow) : Prop where
  final : t.completed = true → t ∈ w.targets
  issued : ∀ lease, t.lease = some lease → lease ∈ w.leases
  owner : ∀ lease, t.lease = some lease → ∀ u ∈ w.targets, u.lease = some lease → u.id = t.id

theorem Sound.remembers (h : w.Sound) (ht : t ∈ w.targets) : w.Remembers t :=
  ⟨fun _ => ht, h.leases t ht, fun lease hl u hu hlu => h.owner t ht u hu lease hl hlu⟩

theorem Remembers.step (h : w.Remembers t) (hw : w.Sound) (hs : CleanupStep fromStr op w w') :
    w'.Remembers t := by
  have hev := StoreOp.target_step hw.numbered hs.store
  constructor
  · intro hc
    have ht := h.final hc
    obtain ⟨t', ht', hstep⟩ := hev.kept t ht
    rw [hstep.final (hw.settled t ht) hc] at ht'
    exact ht'
  · intro lease hl
    exact hs.leases.1 lease (h.issued lease hl)
  · intro lease hl u' hu' hlu
    rcases hev.origin u' hu' with ⟨u, hu, hstep⟩ | ⟨⟨x, -, hnew⟩, -⟩
    · rcases hstep.leased lease hlu with hlu | ⟨now, rfl, -⟩
      · rw [hstep.same.id]
        exact h.owner lease hl u hu hlu
      · exact absurd (h.issued lease hl) (hs.leases.2 now lease rfl).1
    · rw [hnew.lease] at hlu
      cases hlu

end CleanupWorld

theorem CleanupStep.history (h : Run CleanupWorld.Initial (CleanupStep fromStr) past w) :
    w.Sound ∧ ∀ v ∈ past, ∀ t ∈ v.targets, w.Remembers t := by
  apply h.history_invariant
    (I := fun past w => w.Sound ∧ ∀ v ∈ past, ∀ t ∈ v.targets, w.Remembers t)
  · intro w hw
    exact ⟨.init hw, fun _ hv => absurd hv List.not_mem_nil⟩
  · rintro past op w w' ⟨hw, hpast⟩ hs
    refine ⟨hw.step hs, ?_⟩
    intro v hv t ht
    rcases List.mem_cons.1 hv with rfl | hv
    · exact (hw.remembers ht).step hw hs
    · exact (hpast v hv t ht).step hw hs

theorem evidence_first (fromStr : String → Option ETagCondition) :
    EvidenceFirst (CleanupStep fromStr) where
  evidence past w hr t ht hk htaken := by
    apply (CleanupStep.history hr).1.evidence t ht hk
    simpa [CleanupTargetRow.taken] using htaken
  final past w hr v hv t ht hc := ((CleanupStep.history hr).2 v hv t ht).final hc
  fenced past w hr v hv t ht lease hl hlost op w' hs hop := by
    obtain ⟨hw, hpast⟩ := CleanupStep.history hr
    have hfree : ∀ u ∈ w.targets, u.lease ≠ some lease := by
      intro u hu hlu
      exact hlost u hu ((hpast v hv t ht).owner lease hl u hu hlu) hlu
    have hev := StoreOp.target_step hw.numbered hs.store
    intro u
    constructor
    · intro hu
      rcases hev.origin u hu with ⟨t, ht, hstep⟩ | ⟨⟨x, hx, -⟩, -⟩
      · rcases hstep.fenced lease hop with rfl | hlt
        · exact ht
        · exact absurd hlt (hfree t ht)
      · rw [StoreOp.handovers_of_lease hop] at hx
        cases hx
    · intro hu
      obtain ⟨u', hu', hstep⟩ := hev.kept u hu
      rcases hstep.fenced lease hop with rfl | hlu
      · exact hu'
      · exact absurd hlu (hfree u hu)

end TelegramS3
