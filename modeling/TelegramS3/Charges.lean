import TelegramS3.Connections

namespace TelegramS3
open Relational Table Fallible MetadataStore TransferState
set_option autoImplicit true

variable {s s' : MetadataStore}

def TransferJob.charge (j : TransferJob) : Nat := if j.state.published then 0 else j.bytes

namespace MetadataStore

def charge (s : MetadataStore) (id : Uuid) : Nat := s.transferJobs.share TransferJob.charge id

theorem stagedBytes_eq (s : MetadataStore) :
    s.stagedBytes = s.transferJobs.total TransferJob.charge := by
  unfold stagedBytes Table.total Table.select
  induction s.transferJobs.rows with
  | nil => rfl
  | cons j jobs ih =>
    rw [List.filter_cons, List.map_cons, List.sum_cons, ← ih, TransferJob.charge]
    cases hp : j.state.published with
    | true => exact (Nat.zero_add _).symm
    | false => rfl

theorem charge_of_get? {id : Uuid} (h : s.transferJobs.get? id = some j) :
    s.charge id = j.charge := by
  rw [charge, Table.share, h]
  rfl

theorem charge_of_none {id : Uuid} (h : s.transferJobs.get? id = none) : s.charge id = 0 := by
  rw [charge, Table.share, h]
  rfl

theorem reserveStaging_charge {id : Uuid}
    (h : s.reserveStaging id bytes budget now = .ok s') (k : Uuid) :
    s'.charge k = s.charge k + if k = id then bytes else 0 := by
  obtain ⟨hany, rfl⟩ := reserveStaging_ok h
  obtain ⟨j, hj, hstate⟩ := any_receivingJob hany
  unfold charge Table.share
  rw [get?_modify]
  by_cases hk : k = id
  · subst hk
    have hid : j.id = k := key_of_get? hj
    simp [hj, receivingJob, hid, hstate, TransferJob.charge, TransferState.published]
  · rw [if_neg hk, Nat.add_zero, map_update_of_not]
    intro i hi
    have hid : i.id = k := key_of_get? hi
    simp [receivingJob, hid, hk]

theorem beginTransfer_charge {id : Uuid}
    (h : s.beginTransfer id bucket key now = .ok s') (k : Uuid) : s.charge k ≤ s'.charge k := by
  obtain ⟨-, rfl⟩ := beginTransfer_ok h
  cases hj : s.transferJobs.get? k with
  | none =>
    rw [charge_of_none hj]
    exact Nat.zero_le _
  | some j =>
    rw [charge_of_get? hj]
    exact Nat.le_of_eq (charge_of_get? (get?_insertOrIgnore_of_some hj _)).symm

theorem reserveStaging_stagedBytes {id : Uuid} (h : s.reserveStaging id bytes budget now = .ok s') :
    s'.stagedBytes ≤ s.stagedBytes + bytes := by
  rw [stagedBytes_eq, stagedBytes_eq]
  apply total_le_add id
  intro j hj
  have hshare : s'.charge j.id = j.charge := share_of_mem hj
  rw [← hshare]
  exact Nat.le_of_eq (reserveStaging_charge h _)

end MetadataStore

def StoreOp.staging : StoreOp → Bool
  | .beginTransfer .. | .reserveStaging .. | .failReception .. | .cleanupCompletedStaging .. => true
  | _ => false

def ConnectionAction.Releases (s : MetadataStore) (j : TransferJob) : ConnectionAction → Prop
  | .call (.rejectTransferForQuota id ..) | .call (.commitTransferManifest id ..) => j.id = id
  | .call (.commitManifest operation _) => j.operationId = some operation
  | .call (.finishPartJob id ..) => j.id = id ∨
    ∃ operation, (s.transferJobs.get? id).bind TransferJob.operationId = some operation ∧
      j.operationId = some operation
  | .purgeConnectionOperations connectionId => j.connectionId = connectionId
  | _ => False

structure Charged (R : TransferJob → Prop) (j j' : TransferJob) : Prop where
  id : j'.id = j.id
  kept : ¬ R j → j'.bytes = j.bytes ∧ (j'.state.published = true → j.state.published = true)

namespace Charged
variable {R : TransferJob → Prop}

theorem refl (j : TransferJob) : Charged R j j := ⟨rfl, fun _ => ⟨rfl, fun h => h⟩⟩

theorem charge_le (h : Charged R j j') (hr : ¬ R j) : j.charge ≤ j'.charge := by
  obtain ⟨hb, hp⟩ := h.kept hr
  unfold TransferJob.charge
  rw [hb]
  cases h' : j'.state.published with
  | false =>
    split
    · exact Nat.zero_le _
    · exact Nat.le_refl _
  | true => rw [hp h']

end Charged

def JobsCharged (R : TransferJob → Prop) (s s' : MetadataStore) : Prop :=
  Table.Rel (Charged R) s.transferJobs s'.transferJobs

namespace JobsCharged
variable {R : TransferJob → Prop} {s s' : MetadataStore} {p : TransferJob → Bool}
  {f : TransferJob → TransferJob}

theorem of_eq (h : s'.transferJobs = s.transferJobs) : JobsCharged R s s' := by
  unfold JobsCharged
  rw [h]
  exact .refl .refl _

section
variable (h : s'.transferJobs.rows = s.transferJobs.rows.map fun j => if p j then f j else j)
include h

theorem of_rows (hp : ∀ j ∈ s.transferJobs, p j = true → Charged R j (f j)) : JobsCharged R s s' :=
  .of_update h (fun _ _ hj => hj.id) .refl hp

theorem of_columns (hc : ∀ j, ((f j).id, (f j).bytes, (f j).state) = (j.id, j.bytes, j.state)) :
    JobsCharged R s s' := by
  refine .of_rows h fun j _ _ => ?_
  obtain ⟨hid, hc⟩ := Prod.mk.inj (hc j)
  obtain ⟨hb, hs⟩ := Prod.mk.inj hc
  exact ⟨hid, fun _ => ⟨hb, fun hp => hs ▸ hp⟩⟩

theorem of_released (hc : ∀ j, (f j).id = j.id) (hr : ∀ j, p j = true → R j) : JobsCharged R s s' :=
  .of_rows h fun j _ hj => ⟨hc j, fun hn => absurd (hr j hj) hn⟩

end

theorem charge_le {id : Uuid} (h : JobsCharged R s s')
    (hr : ∀ j, s.transferJobs.get? id = some j → ¬ R j) : s.charge id ≤ s'.charge id := by
  cases hj : s.transferJobs.get? id with
  | none =>
    rw [charge_of_none hj]
    exact Nat.zero_le _
  | some j =>
    obtain ⟨j', hj', hc⟩ := h.some_left hj
    rw [charge_of_get? hj, charge_of_get? hj']
    exact hc.charge_le (hr j hj)

end JobsCharged

namespace MetadataStore
variable {R : TransferJob → Prop}

theorem failReception_charged (s : MetadataStore) (id : Uuid) (removed : Bool) (message : String)
    (now : Int) : JobsCharged (fun j => removed = true ∧ j.id = id) s
      (s.failReception id removed message now).2 := by
  unfold failReception endReception
  dsimp only
  split
  · refine .of_rows rfl fun j _ hj => ⟨rfl, fun hn => ?_⟩
    simp only [Bool.and_eq_true, decide_eq_true_eq] at hj
    cases removed with
    | true => exact absurd ⟨rfl, hj.1⟩ hn
    | false => exact ⟨rfl, fun hp => absurd hp Bool.false_ne_true⟩
  · exact .of_eq rfl

theorem markCleaned_charged (s : MetadataStore) (id : Uuid) :
    JobsCharged (fun j => j.id = id) s (s.markCleaned id) := by
  refine .of_released rfl (fun _ => rfl) fun j hj => ?_
  simp only [Bool.and_eq_true, decide_eq_true_eq] at hj
  exact hj.1

end MetadataStore

theorem JobUpdate.charged (h : JobUpdate s op j j') (ho : op.staging = false) :
    Charged (fun j => (ConnectionAction.call op).Releases s j) j j' ∧
      ((ConnectionAction.call op).Releases s j' → (ConnectionAction.call op).Releases s j) := by
  cases h with
  | touch | pause | conditionals =>
    exact ⟨⟨rfl, fun _ => ⟨rfl, fun hp => hp⟩⟩, fun hr => hr⟩
  | reserve | failReception | clean => cases ho
  | queue _ _ hq _ =>
    refine ⟨⟨rfl, fun _ => ⟨rfl, nofun⟩⟩, ?_⟩
    cases op with
    | queueTransfer | queueMultipartCompletion => exact fun hr => hr
    | _ => cases hq
  | reject => exact ⟨⟨rfl, fun hn => absurd rfl hn⟩, fun hr => hr⟩
  | drop b _ _ _ _ _ hb =>
    refine ⟨⟨rfl, fun _ => ⟨rfl, fun hp => ?_⟩⟩, fun hr => hr⟩
    rw [published_of_dropped hb] at hp
    cases hp
  | expire | retain | claim | commit | retry | resume =>
    exact ⟨⟨rfl, fun _ => ⟨rfl, nofun⟩⟩, fun hr => hr⟩
  | fail _ b | requeue _ b =>
    exact ⟨⟨rfl, fun _ => ⟨rfl, fun hp => by cases b <;> cases hp⟩⟩, fun hr => hr⟩
  | complete _ _ hc hop _ =>
    refine ⟨⟨rfl, fun hn => absurd ?_ hn⟩, fun hr => hr⟩
    cases hc with
    | manifest => exact hop
    | transfer => exact rfl
    | session hj => exact .inr ⟨_, hj, hop⟩
  | completePart => exact ⟨⟨rfl, fun hn => absurd (.inl rfl) hn⟩, fun hr => hr⟩

theorem StoreOp.charged (h : StoreStep fromStr op s s') (ho : op.staging = false) :
    JobsCharged (fun j => (ConnectionAction.call op).Releases s j) s s' := by
  have hn : ∀ objectId bucket key now, op ≠ .beginTransfer objectId bucket key now := by
    rintro _ _ _ _ rfl
    cases ho
  refine Table.Rel.mono (fun _ _ hc => hc.1) (StoreOp.jobs_rel h ⟨fun j => ⟨.refl j, fun hr => hr⟩, ?_,
    fun _ _ hc => hc.1.id, fun _ _ hu => hu.charged ho⟩ hn)
  rintro a b c ⟨hab, hra⟩ ⟨hbc, hrb⟩
  refine ⟨⟨hbc.id.trans hab.id, fun hr => ?_⟩, fun hr => hra (hrb hr)⟩
  obtain ⟨hb, hp⟩ := hab.kept hr
  obtain ⟨hb', hp'⟩ := hbc.kept fun hr' => hr (hra hr')
  exact ⟨hb'.trans hb, fun hc => hp (hp' hc)⟩

def ConnectionAction.staging : ConnectionAction → Bool
  | .call op => op.staging
  | _ => false

theorem ConnectionStep.charge_le {id : Uuid} (h : ConnectionStep fromStr a s s')
    (ha : a.staging = false) (hr : ∀ j, s.transferJobs.get? id = some j → ¬ a.Releases s j) :
    s.charge id ≤ s'.charge id := by
  have hcharged : JobsCharged (fun j => a.Releases s j) s s' → s.charge id ≤ s'.charge id :=
    fun hs => hs.charge_le hr
  cases a with
  | call op => exact hcharged (StoreOp.charged (StoreOp.serve_eq_some h).1 ha)
  | setTelegramBootstrapSettings fresh chat =>
    cases h
    exact hcharged (.of_columns rfl fun _ => rfl)
  | clearTelegramBootstrapSettings | clearActiveConnectionId | finishConnectionRemoval =>
    cases h
    exact hcharged (.of_eq rfl)
  | deleteTelegramAccount account =>
    obtain rfl := deleteTelegramAccount_ok (after_eq_some.1 h)
    exact hcharged (.of_eq rfl)
  | purgeConnectionOperations connectionId =>
    cases h
    cases hj : s.transferJobs.get? id with
    | none =>
      rw [charge_of_none hj]
      exact Nat.zero_le _
    | some j =>
      have hkeep : (s.purgeConnectionOperations connectionId).transferJobs.get? id = some j := by
        have hne : j.connectionId ≠ connectionId := hr j hj
        rw [purgeConnectionOperations, get?_delete, hj, Option.filter_some]
        simp [hne]
      rw [charge_of_get? hj, charge_of_get? hkeep]

end TelegramS3
