import TelegramS3.ActiveJobs

namespace TelegramS3
open Relational Table Fallible MetadataStore TransferState
set_option autoImplicit true

def StoreOp.endsTransfer (s : MetadataStore) (op : StoreOp) (j : TransferJob) : Bool :=
  match op with
  | .failReception id .. | .rejectTransferForQuota id .. => j.id = id
  | .claimTransfer .. => s.closedMultipart j.id || s.newerCommitted j.bucket j.key j.sequence
  | .deleteActiveKey bucket key .. => j.bucket = bucket && j.key = key
  | .abortParts upload _ => s.jobOfUpload upload j.id
  | .queueMultipartCompletion job upload _ => s.partOf upload 0 j.id && j.id != job
  | .finishPartJob id _ _ =>
    match s.multipartJob id with
    | none => false
    | some (upload, number) => number != 0 && s.supersededBy id upload number j
  | _ => false

inductive TransferEnds (op : StoreOp) (s : MetadataStore) (j : TransferJob) : Prop where
  | dropped : op.endsTransfer s j = true → TransferEnds op s j
  | cancelled (now : Int) : op = .transferAction j.id "cancel" now → j.state.waiting = true →
      TransferEnds op s j
  | removed (job : Uuid) (deleteUploadedFiles : Bool) (now : OffsetDateTime) :
      op = .beginConnectionRemoval job deleteUploadedFiles now →
      j.connectionId = s.activeConnectionId → TransferEnds op s j
  | published : op.publishes = some j.id → TransferEnds op s j

def Survives (s' : MetadataStore) (j : TransferJob) : Prop :=
  ∃ j' ∈ s'.transferJobs,
    (j'.id, j'.bucket, j'.key, j'.sequence) = (j.id, j.bucket, j.key, j.sequence) ∧
      j'.state.terminal = false

theorem Survives.of_eq {s s' : MetadataStore} (h : s'.transferJobs = s.transferJobs)
    (hj : j ∈ s.transferJobs) (hl : j.state.terminal = false) : Survives s' j :=
  ⟨j, h ▸ hj, rfl, hl⟩

namespace TransferEnds
variable {op : StoreOp} {s : MetadataStore}

theorem of_after (h : TransferEnds op s j') (hc : (j'.id, j'.connectionId) = (j.id, j.connectionId))
    (hd : op.endsTransfer s j' = true → op.endsTransfer s j = true)
    (hw : ∀ now, op = .transferAction j.id "cancel" now → j'.state.waiting = true →
      j.state.waiting = true) : TransferEnds op s j := by
  obtain ⟨hid, hconn⟩ := Prod.mk.inj hc
  cases h with
  | dropped h => exact .dropped (hd h)
  | cancelled now ho h =>
    rw [hid] at ho
    exact .cancelled now ho (hw now ho h)
  | removed job deleteUploadedFiles now ho h =>
    exact .removed job deleteUploadedFiles now ho (hconn ▸ h)
  | published h => exact .published (hid ▸ h)

end TransferEnds

namespace MetadataStore

theorem newerCommitted_recovered {s : MetadataStore} {sequence : Nat}
    (h : (s.recoverTransfers now).newerCommitted bucket key sequence = true) :
    s.newerCommitted bucket key sequence = true := by
  obtain ⟨k, hk, hp⟩ := any_eq_true.1 h
  obtain ⟨i, hi, hm, -⟩ := (s.recoverTransfers_rows now).some_right (mem_iff_get?.1 hk)
  simp only [Bool.and_eq_true, decide_eq_true_eq] at hp
  obtain ⟨⟨⟨hb, hkey⟩, hq⟩, hst⟩ := hp
  apply any_eq_true.2
  refine ⟨i, mem_of_get? hi, ?_⟩
  rw [← hm.same.bucket, ← hm.same.key, ← hm.same.sequence, hm.move.published_right hst]
  simp only [Bool.and_eq_true, decide_eq_true_eq]
  exact ⟨⟨⟨hb, hkey⟩, hq⟩, hst⟩

end MetadataStore

theorem JobDropped.ends (h : JobDropped s j op) : TransferEnds op s j := by
  cases h with
  | closed hc => exact .dropped (Bool.or_eq_true_iff.2 (.inl hc))
  | outdated hc => exact .dropped (Bool.or_eq_true_iff.2 (.inr (newerCommitted_recovered hc)))
  | cancelled hw => exact .cancelled _ rfl hw
  | deleted => exact .dropped (by simp [StoreOp.endsTransfer])
  | aborted hu => exact .dropped hu
  | completion hp hn => exact .dropped (Bool.and_eq_true_iff.2 ⟨hp, bne_iff_ne.2 hn⟩)
  | duplicate hm hn hd =>
    refine .dropped ?_
    simp only [StoreOp.endsTransfer, hm, hd, Bool.and_true, bne_iff_ne]
    exact hn
  | removed hc => exact .removed _ _ _ rfl hc

theorem JobUpdate.columns (h : JobUpdate s op j j') :
    (j'.id, j'.bucket, j'.key, j'.sequence) = (j.id, j.bucket, j.key, j.sequence) := by
  cases h <;> rfl

theorem JobUpdate.ends (ho : ∀ j ∈ s.transferJobs, j.OneId)
    (h : JobUpdate s op j j') (hj : j'.state.terminal = true ∨ TransferEnds op s j') :
    j.state.terminal = true ∨ TransferEnds op s j := by
  cases h with
  | touch | reserve | conditionals | pause =>
    refine hj.imp_right fun he => ?_
    exact he.of_after rfl (fun hd => hd) fun _ _ hw => hw
  | queue _ _ hq _ =>
    refine hj.elim nofun fun he => .inr (he.of_after rfl ?_ ?_)
    · cases op with
      | queueTransfer | queueMultipartCompletion => exact fun hd => hd
      | _ => cases hq
    · rintro now rfl
      cases hq
  | failReception | reject => exact .inr (.dropped (decide_eq_true rfl))
  | expire | retain | claim | commit =>
    refine hj.elim nofun fun he => .inr ?_
    exact he.of_after rfl (fun hd => hd) nofun
  | drop _ _ _ _ hd => exact .inr hd.ends
  | fail _ b | requeue _ b =>
    refine hj.elim (fun ht => by cases b <;> cases ht) fun he => .inr ?_
    exact he.of_after rfl (fun hd => hd) nofun
  | resume =>
    refine hj.elim nofun fun he => .inr ?_
    exact he.of_after rfl (fun hd => hd) nofun
  | retry hst =>
    refine hj.elim nofun fun he => .inr (he.of_after rfl (fun hd => hd) ?_)
    intro _ _ _
    rcases hst with hst | hst <;> rw [hst] <;> rfl
  | clean hc =>
    left
    generalize j.state = st at hc
    cases st <;> first | rfl | cases hc
  | complete _ hm hc hop _ => exact .inr (.published (hc.publishes ho ((ho _ hm).operation _ hop)))
  | completePart => exact .inr (.published rfl)

/-- A transfer that has not ended goes on or ends in one of four ways. -/
theorem StoreOp.job_survives (ho : ∀ j ∈ s.transferJobs, j.OneId)
    (hs : StoreStep fromStr op s s') (hj : j ∈ s.transferJobs)
    (hl : j.state.terminal = false) : Survives s' j ∨ TransferEnds op s j := by
  have hlaw : JobLaw s op fun i i' =>
      (i'.id, i'.bucket, i'.key, i'.sequence) = (i.id, i.bucket, i.key, i.sequence) ∧
        (i'.state.terminal = true ∨ TransferEnds op s i' →
          i.state.terminal = true ∨ TransferEnds op s i) := by
    refine ⟨fun i => ⟨rfl, fun he => he⟩, ?_, ?_, ?_⟩
    · rintro a b c ⟨hab, ha⟩ ⟨hbc, hb⟩
      exact ⟨hbc.trans hab, fun hc => ha (hb hc)⟩
    · exact fun a b h => (Prod.mk.inj h.1).1
    · exact fun a b h => ⟨h.columns, h.ends ho⟩
  obtain ⟨j', hj', hc, he⟩ := StoreOp.job_kept hs hlaw (mem_iff_get?.1 hj)
  cases hl' : j'.state.terminal with
  | false => exact .inl ⟨j', mem_of_get? hj', hc, hl'⟩
  | true =>
    rcases he (.inl hl') with ht | he
    · rw [hl] at ht
      cases ht
    · exact .inr he

end TelegramS3
