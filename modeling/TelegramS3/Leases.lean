import TelegramS3.Jobs

namespace TelegramS3
open Relational Table Fallible TransferState MetadataStore
set_option autoImplicit true

/-- What a call leaves of a job when it does not claim it: a lease is not passed on. -/
structure JobEdit (op : StoreOp) (j j' : TransferJob) : Prop where
  id : j'.id = j.id
  conditionals : j'.writeConditionals = j.writeConditionals ∨
    ∃ c now, op = .setTransferConditionals j.id c now ∧ j'.writeConditionals = c
  operation : j'.operationId = j.operationId ∨ op.queues = some j.id
  leased : j'.state.leased = true → j.state.leased = true ∧ j'.lease = j.lease

namespace JobEdit
variable {op : StoreOp}

theorem refl (j : TransferJob) : JobEdit op j j :=
  ⟨rfl, .inl rfl, .inl rfl, fun h => ⟨h, rfl⟩⟩

theorem of_columns (h : (j'.id, j'.writeConditionals, j'.operationId, j'.state.leased, j'.lease) =
      (j.id, j.writeConditionals, j.operationId, j.state.leased, j.lease)) : JobEdit op j j' := by
  simp only [Prod.mk.injEq] at h
  obtain ⟨hid, hc, ho, hs, hl⟩ := h
  exact ⟨hid, .inl hc, .inl ho, fun h => ⟨hs ▸ h, hl⟩⟩

theorem of_free (h : (j'.id, j'.writeConditionals, j'.operationId) =
      (j.id, j.writeConditionals, j.operationId)) (hs : j'.state.leased = false) :
    JobEdit op j j' := by
  simp only [Prod.mk.injEq] at h
  refine ⟨h.1, .inl h.2.1, .inl h.2.2, ?_⟩
  rw [hs]
  exact fun hl => absurd hl Bool.false_ne_true

theorem trans (h : JobEdit op a b) (h' : JobEdit op b c) : JobEdit op a c where
  id := h'.id.trans h.id
  conditionals := by
    rcases h'.conditionals with hc | ⟨c, now, ho, hc⟩
    · rcases h.conditionals with hb | ⟨c, now, ho, hb⟩
      · exact .inl (hc.trans hb)
      · exact .inr ⟨c, now, ho, hc.trans hb⟩
    · rw [h.id] at ho
      exact .inr ⟨c, now, ho, hc⟩
  operation := by
    rcases h'.operation with ho | ho
    · rw [ho]
      exact h.operation
    · rw [h.id] at ho
      exact .inr ho
  leased hc := by
    obtain ⟨hb, hl'⟩ := h'.leased hc
    obtain ⟨ha, hl⟩ := h.leased hb
    exact ⟨ha, hl'.trans hl⟩

end JobEdit

def JobsEdit (op : StoreOp) (s s' : MetadataStore) : Prop :=
  Table.Rel (JobEdit op) s.transferJobs s'.transferJobs

namespace JobsEdit
variable {op : StoreOp}

theorem of_eq (h : s'.transferJobs = s.transferJobs) : JobsEdit op s s' := by
  unfold JobsEdit
  rw [h]
  exact .refl .refl _

theorem trans (h : JobsEdit op s t) (h' : JobsEdit op t u) : JobsEdit op s u :=
  Table.Rel.trans (R := JobEdit op) (S := JobEdit op) (fun _ _ _ => JobEdit.trans) h h'

section
variable {s s' : MetadataStore} {p : TransferJob → Bool} {f : TransferJob → TransferJob}
  (h : s'.transferJobs.rows = s.transferJobs.rows.map fun j => if p j then f j else j)
include h

theorem of_rows (hp : ∀ j ∈ s.transferJobs, p j = true → JobEdit op j (f j)) : JobsEdit op s s' :=
  .of_update h (fun _ _ hj => hj.id) .refl hp

theorem of_freed (hc : ∀ j, ((f j).id, (f j).writeConditionals, (f j).operationId) =
      (j.id, j.writeConditionals, j.operationId)) (hs : ∀ j, (f j).state.leased = false) :
    JobsEdit op s s' :=
  .of_rows h fun j _ _ => .of_free (hc j) (hs j)

end

end JobsEdit

namespace MetadataStore
variable {op : StoreOp}

theorem normalizeTransfers_edit (s : MetadataStore) (now : Int) :
    JobsEdit op s (s.normalizeTransfers now) := by
  have h₁ : JobsEdit op s (s.expireReceptions now) := .of_freed rfl (fun _ => rfl) fun _ => rfl
  have h₂ : ∀ t : MetadataStore, JobsEdit op t (t.retainAmbiguousSends now) :=
    fun t => .of_freed rfl (fun _ => rfl) fun _ => rfl
  have h₃ : ∀ t : MetadataStore, JobsEdit op t (t.normalizeSendAttempts now) := fun t => .of_eq rfl
  have h₄ : ∀ t : MetadataStore, JobsEdit op t t.cancelClosedMultipart :=
    fun t => .of_freed rfl (fun _ => rfl) fun _ => rfl
  have h₅ : ∀ t : MetadataStore, JobsEdit op t t.supersedeOlder :=
    fun t => .of_freed rfl (fun _ => rfl) fun _ => rfl
  exact (((h₁.trans (h₂ _)).trans (h₃ _)).trans (h₄ _)).trans (h₅ _)

end MetadataStore

/-- What a claim finds: no send of the job is unresolved, no older job of its key is live. -/
structure Claimed (s : MetadataStore) (lease : Uuid) (j : TransferJob) : Prop where
  state : j.state = .uploading
  lease : j.lease = some lease
  resolved : s.ambiguousSend j.id = false
  first : s.olderPending j.bucket j.key j.sequence = false

inductive LeaseStep (op : StoreOp) (s' : MetadataStore) (j j' : TransferJob) : Prop where
  | edit : JobEdit op j j' → LeaseStep op s' j j'
  | claim (now : Int) (lease : Uuid) : op = .claimTransfer now lease → j'.id = j.id →
      j'.writeConditionals = j.writeConditionals → j'.operationId = j.operationId →
      Claimed s' lease j' → LeaseStep op s' j j'

section
variable (h : LeaseStep op s' j j')
include h

theorem LeaseStep.id : j'.id = j.id := by
  cases h with
  | edit h => exact h.id
  | claim _ _ _ h _ _ _ => exact h

theorem LeaseStep.conditionals : j'.writeConditionals = j.writeConditionals ∨
      ∃ c now, op = .setTransferConditionals j.id c now ∧ j'.writeConditionals = c := by
  cases h with
  | edit h => exact h.conditionals
  | claim _ _ _ _ hc _ _ => exact .inl hc

theorem LeaseStep.operation : j'.operationId = j.operationId ∨ op.queues = some j.id := by
  cases h with
  | edit h => exact h.operation
  | claim _ _ _ _ _ ho _ => exact .inl ho

theorem LeaseStep.leased (hl : j'.state.leased = true) :
    (j.state.leased = true ∧ j'.lease = j.lease) ∨
      ∃ now lease, op = .claimTransfer now lease ∧ Claimed s' lease j' := by
  cases h with
  | edit h => exact .inl (h.leased hl)
  | claim now lease ho _ _ _ hc => exact .inr ⟨now, lease, ho, hc⟩

end

namespace MetadataStore

theorem claimTransfer_leases (s : MetadataStore) (now : Int) (lease : Uuid) :
    Table.Rel (LeaseStep (.claimTransfer now lease) (s.claimTransfer now lease).2)
      s.transferJobs (s.claimTransfer now lease).2.transferJobs := by
  have hn : JobsEdit (.claimTransfer now lease) s (s.normalizeTransfers now) :=
    s.normalizeTransfers_edit now
  generalize hs : (s.claimTransfer now lease).2 = s'
  unfold claimTransfer at hs
  dsimp only at hs
  split at hs
  · subst hs
    exact .mono (fun _ _ => .edit) hn
  · rename_i j hj
    obtain ⟨hm, hc⟩ := mem_select.1 (firstBy_mem hj)
    simp only [claimable, Bool.and_eq_true, Bool.not_eq_true'] at hc
    have ho : s'.olderPending j.bucket j.key j.sequence = false := by
      simp only [olderPending, any_eq_false] at hc ⊢
      intro r hr
      simp only [← hs, mem_modify] at hr
      obtain ⟨i, hi, rfl⟩ := hr
      by_cases he : i.id = j.id
      · rw [eq_of_key_eq hi hm he]
        simp [TransferJob.claim]
      · simpa [he] using hc.2 i hi
    have ha : s'.ambiguousSend j.id = false := by
      rw [← hs]
      exact hc.1.2
    have hr : Table.Rel (LeaseStep (.claimTransfer now lease) s')
        (s.normalizeTransfers now).transferJobs s'.transferJobs := by
      rw [← hs] at ho ha ⊢
      refine .of_update rfl (fun _ _ h => h.id) (fun r => .edit (.refl r)) ?_
      intro r hr hid
      have he : r = j := eq_of_key_eq hr hm (of_decide_eq_true hid)
      subst he
      exact .claim now lease rfl rfl rfl rfl ⟨rfl, rfl, ha, ho⟩
    refine .trans ?_ hn hr
    intro a b c hab hbc
    cases hbc with
    | edit hbc => exact .edit (hab.trans hbc)
    | claim now lease ho hid hc hop hcl =>
      refine .claim now lease ho (hid.trans hab.id) (hc.trans ?_) (hop.trans ?_) hcl
      · apply hab.conditionals.resolve_right
        rintro ⟨_, _, h, -⟩
        cases h
      · apply hab.operation.resolve_right
        intro h
        cases h

end MetadataStore

open MetadataStore

theorem JobUpdate.edit (h : JobUpdate s op j j')
    (hn : ∀ now lease, op ≠ .claimTransfer now lease) : JobEdit op j j' := by
  cases h with
  | touch | reserve | pause => exact .of_columns rfl
  | conditionals => exact ⟨rfl, .inr ⟨_, _, rfl, rfl⟩, .inl rfl, fun hl => ⟨hl, rfl⟩⟩
  | queue _ _ hq _ => exact ⟨rfl, .inl rfl, .inr hq, nofun⟩
  | failReception filesRemoved _ => exact .of_free rfl (by cases filesRemoved <;> rfl)
  | expire | retain | claim => exact absurd rfl (hn _ _)
  | drop b _ _ _ _ _ hb => exact .of_free rfl (by cases b <;> first | rfl | cases hb)
  | commit hst => exact ⟨rfl, .inl rfl, .inl rfl, fun _ => ⟨by rw [hst]; rfl, rfl⟩⟩
  | fail _ waits => exact .of_free rfl (by cases waits <;> rfl)
  | requeue _ paused => exact .of_free rfl (by cases paused <;> rfl)
  | reject | retry | clean | resume | complete | completePart => exact .of_free rfl rfl

section
variable {op : StoreOp} (h : StoreStep fromStr op s s')
include h

theorem StoreOp.leases_step : Table.Rel (LeaseStep op s') s.transferJobs s'.transferJobs ∨
      ∃ objectId bucket key now, op = .beginTransfer objectId bucket key now := by
  cases op with
  | beginTransfer objectId bucket key now => exact .inr ⟨objectId, bucket, key, now, rfl⟩
  | claimTransfer now lease =>
    cases h
    exact .inl (s.claimTransfer_leases now lease)
  | _ =>
    refine .inl (.mono (fun _ _ => .edit) (StoreOp.jobs_rel h ?_ fun _ _ _ _ he => by cases he))
    exact ⟨.refl, fun _ _ _ => .trans, fun _ _ h => h.id, fun _ _ h => h.edit nofun⟩

theorem StoreOp.lease_step (hj : s.transferJobs.get? job = some j) :
    ∃ j', s'.transferJobs.get? job = some j' ∧ LeaseStep op s' j j' := by
  rcases StoreOp.leases_step h with hl | ⟨objectId, bucket, key, now, rfl⟩
  · exact hl.some_left hj
  · obtain ⟨-, rfl⟩ := beginTransfer_ok (after_eq_some.1 h)
    exact ⟨j, get?_insertOrIgnore_of_some hj _, .edit (.refl j)⟩

theorem StoreOp.lease_before (hj : s'.transferJobs.get? job = some j')
    (hl : j'.state.leased = true) :
    ∃ j, s.transferJobs.get? job = some j ∧ LeaseStep op s' j j' := by
  rcases StoreOp.leases_step h with hr | ⟨objectId, bucket, key, now, rfl⟩
  · exact hr.some_right hj
  · obtain ⟨-, rfl⟩ := beginTransfer_ok (after_eq_some.1 h)
    rcases mem_insertOrIgnore.1 (mem_of_get? hj) with hm | ⟨rfl, -⟩
    · refine ⟨j', get?_eq_some.2 ⟨hm, key_of_get? hj⟩, .edit (.refl j')⟩
    · cases hl

end

end TelegramS3
