import TelegramS3.Jobs

namespace TelegramS3
open Relational Table Fallible MetadataStore
set_option autoImplicit true

/-- A queued job that nothing but an older job of its key keeps from being claimed. -/
structure Ready (s : MetadataStore) (now : Int) (j : TransferJob) : Prop where
  job : j ∈ s.transferJobs
  queued : j.state = .queued
  due : j.nextRetry ≤ now
  sent : s.ambiguousSend j.id = false
  session : s.closedMultipart j.id = false
  newer : s.newerCommitted j.bucket j.key j.sequence = false

namespace MetadataStore

section
variable {s s' : MetadataStore} {sequence : Nat}
  (h : Table.Rel JobMove s.transferJobs s'.transferJobs)
include h

theorem newerCommitted_of_moves (hn : s.newerCommitted bucket key sequence = false) :
    s'.newerCommitted bucket key sequence = false := by
  rw [newerCommitted, any_eq_false] at hn ⊢
  intro j' hj'
  obtain ⟨j, hj, hm⟩ := h.some_right (mem_iff_get?.1 hj')
  have hj := hn j (mem_of_get? hj)
  rw [hm.same.bucket, hm.same.key, hm.same.sequence]
  cases hp : j'.state.published with
  | false => simp
  | true =>
    rw [hm.move.published_right hp, hp] at hj
    exact hj

theorem olderPending_of_moves (hn : s.olderPending bucket key sequence = false) :
    s'.olderPending bucket key sequence = false := by
  rw [olderPending, any_eq_false] at hn ⊢
  intro j' hj'
  obtain ⟨j, hj, hm⟩ := h.some_right (mem_iff_get?.1 hj')
  have hj := hn j (mem_of_get? hj)
  rw [hm.same.bucket, hm.same.key, hm.same.sequence]
  cases ht : j.state.terminal with
  | false =>
    rw [ht] at hj
    simp_all
  | true => simp [hm.move.terminal ht]

end

end MetadataStore

theorem Ready.kept (h : Ready s now j) : j ∈ (s.normalizeTransfers now).transferJobs := by
  have hl : j.state.leased = false := by rw [h.queued]; rfl
  have h₁ : j ∈ (s.expireReceptions now).transferJobs :=
    mem_of_update_false rfl h.job (by simp [h.queued])
  have h₂ : j ∈ ((s.expireReceptions now).retainAmbiguousSends now).transferJobs :=
    mem_of_update_false rfl h₁ (by simp [hl])
  have h₃ : j ∈ (s.recoverTransfers now).transferJobs := by
    apply mem_of_update_false rfl h₂
    rw [Bool.and_eq_false_iff]
    exact .inr h.session
  apply mem_of_update_false rfl h₃
  rw [Bool.and_eq_false_iff]
  exact .inr (newerCommitted_of_moves (.mono (fun _ _ h => h.1) (s.recoverTransfers_rows now))
    h.newer)

theorem Ready.unsent (h : Ready s now j) :
    (s.normalizeTransfers now).ambiguousSend j.id = false := by
  have hs := any_eq_false.1 h.sent
  refine any_eq_false.2 ?_
  intro a' ha'
  simp only [normalizeTransfers, supersedeOlder, cancelClosedMultipart, normalizeSendAttempts,
    mem_modify] at ha'
  obtain ⟨a, ha, rfl⟩ := ha'
  have hn := hs a ha
  split
  · rename_i hp
    simp only [Bool.and_eq_true, decide_eq_true_eq] at hp
    simpa [hp.1] using hn
  · exact hn

theorem Ready.claimable (h : Ready s now j)
    (ho : s.olderPending j.bucket j.key j.sequence = false) :
    (s.normalizeTransfers now).claimable now j = true := by
  have hp := olderPending_of_moves (s.normalizeTransfers_jobs now).rows ho
  simp [MetadataStore.claimable, h.queued, h.due, h.unsent, hp]

structure Alone (s : MetadataStore) (j : TransferJob) : Prop where
  ended : ∀ i ∈ s.transferJobs, i.id ≠ j.id → i.state.terminal = true
  newest : ∀ i ∈ s.transferJobs, i.sequence ≤ j.sequence

theorem Alone.older (h : Alone s j) (hj : j ∈ s.transferJobs) :
    s.olderPending j.bucket j.key j.sequence = false := by
  refine any_eq_false.2 ?_
  intro i hi
  by_cases hid : i.id = j.id
  · have he : i = j := eq_of_key_eq hi hj hid
    simp [he]
  · simp [h.ended i hi hid]

theorem Alone.newer (h : Alone s j) : s.newerCommitted j.bucket j.key j.sequence = false := by
  refine any_eq_false.2 ?_
  intro i hi
  simp [h.newest i hi]

theorem Alone.moves (h : Alone s j)
    (hm : Table.Rel JobMove s.transferJobs s'.transferJobs) : Alone s' j where
  ended i' hi' hid := by
    obtain ⟨i, hi, hm⟩ := hm.some_right (mem_iff_get?.1 hi')
    exact hm.move.terminal (h.ended i (mem_of_get? hi) (hm.same.id ▸ hid))
  newest i' hi' := by
    obtain ⟨i, hi, hm⟩ := hm.some_right (mem_iff_get?.1 hi')
    rw [hm.same.sequence]
    exact h.newest i (mem_of_get? hi)

theorem Alone.congr (h : Alone s j) (hid : j'.id = j.id) (hq : j'.sequence = j.sequence) :
    Alone s j' where
  ended i hi hne := h.ended i hi (hid ▸ hne)
  newest i hi := hq ▸ h.newest i hi

theorem Ready.claim (h : Ready s now j) (ha : Alone s j) (lease : Uuid) :
    TransferJob.claim now lease j ∈ (s.claimTransfer now lease).2.transferJobs := by
  have hn := ha.moves (s.normalizeTransfers_jobs now).rows
  have hf : firstBy TransferJob.sequence ((s.normalizeTransfers now).transferJobs.select
      ((s.normalizeTransfers now).claimable now)) = some j := by
    apply firstBy_eq_some_of_forall
    · exact mem_select.2 ⟨h.kept, h.claimable (ha.older h.job)⟩
    · intro i hi
      obtain ⟨hi, hc⟩ := mem_select.1 hi
      apply eq_of_key_eq hi h.kept
      by_contra hid
      have hl := claimable_live hc
      rw [hn.ended i hi hid] at hl
      cases hl
  simp only [claimTransfer, hf]
  exact mem_of_update_true rfl h.kept (decide_eq_true rfl)

theorem enterCommitting_claimed {s : MetadataStore} (hj : j ∈ s.transferJobs)
    (hl : j.lease = some lease) (hst : j.state = .uploading) (hn : now ≤ j.leaseUntil) :
    ∃ jobs, s.enterCommitting j.id lease now = .ok { s with transferJobs := jobs } ∧
      { j with state := .committing } ∈ jobs ∧ Table.Rel JobMove s.transferJobs jobs := by
  have hp : (decide (j.id = j.id) && decide (j.lease = some lease) &&
      decide (j.state = .uploading) && decide (now ≤ j.leaseUntil)) = true := by
    simp [hl, hst, hn]
  have hany : s.transferJobs.any (fun r => decide (r.id = j.id) && decide (r.lease = some lease) &&
      decide (r.state = .uploading) && decide (now ≤ r.leaseUntil)) = true :=
    any_eq_true.2 ⟨j, hj, hp⟩
  refine ⟨_, if_pos hany, ?_, ?_⟩
  · simp only [mem_modify]
    exact ⟨j, hj, if_pos hp⟩
  · refine .of_update rfl (fun _ _ h => h.same.id) JobMove.refl ?_
    intro r _ hr
    simp only [Bool.and_eq_true, decide_eq_true_eq] at hr
    refine ⟨.of_columns rfl, .live ?_ rfl⟩
    rw [hr.1.2]
    rfl

end TelegramS3
