import Mathlib.Data.List.Pairwise
import TelegramS3.Sending

namespace TelegramS3
open Relational Table Fallible Transition MetadataStore
set_option autoImplicit true

def Holds (s : MetadataStore) (job lease : Uuid) : Prop :=
  ∃ j, s.transferJobs.get? job = some j ∧ j.state.leased = true ∧ j.lease = some lease

theorem Holds.unique (h : Holds s job lease) (h' : Holds s job lease') : lease = lease' := by
  obtain ⟨j, hj, -, hl⟩ := h
  obtain ⟨i, hi, -, hl'⟩ := h'
  rw [hj] at hi
  cases hi
  exact Option.some.inj (hl.symm.trans hl')

theorem Holds.before (hs : StoreStep fromStr op s s') (h : Holds s' job lease)
    (hn : ∀ now, op ≠ .claimTransfer now lease) : Holds s job lease := by
  obtain ⟨j', hj', hst, hl⟩ := h
  obtain ⟨j, hj, hstep⟩ := StoreOp.lease_before hs hj' hst
  rcases hstep.leased hst with ⟨hst, he⟩ | ⟨now, lease', ho, hc⟩
  · exact ⟨j, hj, hst, he ▸ hl⟩
  · rw [hc.lease] at hl
    cases hl
    exact absurd ho (hn now)

theorem holds_of_leasedJob (h : s.transferJobs.any (leasedJob job lease) = true) :
    Holds s job lease := by
  obtain ⟨j, hj, hl⟩ := any_eq_true.1 h
  simp only [leasedJob, Bool.and_eq_true, decide_eq_true_eq] at hl
  exact ⟨j, get?_eq_some.2 ⟨hj, hl.1.1⟩, hl.2, hl.1.2⟩

theorem holds_of_holdsLease (h : s.holdsLease job lease now = true) : Holds s job lease := by
  apply holds_of_leasedJob
  obtain ⟨j, hj, hl⟩ := any_eq_true.1 h
  exact any_eq_true.2 ⟨j, hj, (Bool.and_eq_true_iff.1 hl).1⟩

def SendAttemptRow.Ended (a : SendAttemptRow) : Prop :=
  a.state = .retryable ∨ a.state = .unknown ∧ mentionsFloodWait a.error = true

/-- What an update makes of an attempt: nothing is reopened. -/
structure AttemptEdit (a a' : SendAttemptRow) : Prop where
  key : Keyed.key a' = Keyed.key a
  ambiguous : a'.state.ambiguous = true → a.state.ambiguous = true
  live : a'.state ≠ .retryable → a.state ≠ .retryable

theorem AttemptEdit.refl (a : SendAttemptRow) : AttemptEdit a a := ⟨rfl, id, id⟩

theorem AttemptEdit.columns (h : AttemptEdit a a') :
    a'.jobId = a.jobId ∧ a'.chunkOrder = a.chunkOrder := by
  have hk := h.key
  simp only [Keyed.key, Prod.mk.injEq] at hk
  exact ⟨hk.1, hk.2.1⟩

theorem ambiguousSend_eq_true {s : MetadataStore} : s.ambiguousSend job = true ↔
      ∃ a ∈ s.sendAttempts, a.jobId = job ∧ a.state.ambiguous = true := by
  have hs : ∀ st : AttemptState, (st = .sending ∨ st = .unknown) ↔ st.ambiguous = true := by
    intro st
    cases st <;> simp [AttemptState.ambiguous]
  simp [ambiguousSend, hasAttempt, any_eq_true, hs]

theorem ambiguousSend_eq_false {s : MetadataStore} (h : s.ambiguousSend job = false)
    (ha : a ∈ s.sendAttempts) (hj : a.jobId = job) : a.state.ambiguous = false := by
  by_contra hn
  rw [ambiguousSend_eq_true.2 ⟨a, ha, hj, eq_true_of_ne_false hn⟩] at h
  cases h

namespace Telegram
variable {t : Telegram}

theorem gone_eq_true : t.gone k = true ↔ k ∉ t.keys := by
  simp [gone]

theorem mem_keys : k ∈ t.keys ↔ k ∈ t.inFlight ∨ ∃ l, (k, l) ∈ t.documents := by
  simp [keys]

theorem mem_keys_accept (hk : k ∈ t.inFlight) : x ∈ (t.accept k l).keys ↔ x ∈ t.keys := by
  simp only [accept, mem_keys, List.mem_filter, bne_iff_ne, List.mem_cons, Prod.mk.injEq]
  constructor
  · rintro (⟨hx, -⟩ | ⟨m, ⟨rfl, -⟩ | hm⟩)
    · exact .inl hx
    · exact .inl hk
    · exact .inr ⟨m, hm⟩
  · rintro (hx | ⟨m, hm⟩)
    · by_cases he : x = k
      · exact .inr ⟨l, .inl ⟨he, rfl⟩⟩
      · exact .inl ⟨hx, he⟩
    · exact .inr ⟨m, .inr hm⟩

theorem accept_pairwise (hp : t.keys.Pairwise fun k l => ¬ SendKey.Same k l)
    (hk : k ∈ t.inFlight) : (t.accept k l).keys.Pairwise fun k l => ¬ SendKey.Same k l := by
  obtain ⟨hf, hd, hc⟩ := List.pairwise_append.1 hp
  refine List.pairwise_append.2 ⟨hf.filter _, List.pairwise_cons.2 ⟨hc k hk, hd⟩, ?_⟩
  have hsymm : Std.Symm fun k l => ¬ SendKey.Same k l := by
    constructor
    rintro a b hn ⟨h₁, h₂⟩
    exact hn ⟨h₁.symm, h₂.symm⟩
  intro x hx y hy
  obtain ⟨hm, hne⟩ := List.mem_filter.1 hx
  rcases List.mem_cons.1 hy with rfl | hy
  · exact hf.forall hm hk (bne_iff_ne.1 hne)
  · exact hc x hm y hy

theorem lose_sublist (t : Telegram) (k : SendKey) : (t.lose k).keys.Sublist t.keys :=
  List.filter_sublist.append_right _

end Telegram

/-- The attempts and checkpoints of the store against the documents at Telegram. -/
structure Accounted (issued : List Uuid) (s : MetadataStore) (t : Telegram) : Prop where
  drawn : ∀ j ∈ s.transferJobs, j.id ∈ issued
  sent : ∀ k ∈ t.keys, (∃ a, s.sendAttempts.get? k = some a) ∨
    s.transferJobs.get? k.1 = none ∧ k.1 ∈ issued
  single : t.keys.Pairwise fun k l => ¬ SendKey.Same k l
  ended : ∀ a ∈ s.sendAttempts, a.Ended → Keyed.key a ∉ t.keys
  checkpointed : ∀ a ∈ s.sendAttempts, a.state = .checkpointed →
    s.checkpointLocation a.jobId a.chunkOrder ≠ none
  accepted : ∀ job order l, s.checkpointLocation job order = some l → t.Accepted job order l
  open_unique : ∀ a ∈ s.sendAttempts, ∀ b ∈ s.sendAttempts, a.jobId = b.jobId →
    a.state.ambiguous = true → b.state.ambiguous = true → a = b
  live_unique : ∀ a ∈ s.sendAttempts, ∀ b ∈ s.sendAttempts, a.jobId = b.jobId →
    a.chunkOrder = b.chunkOrder → a.state ≠ .retryable → b.state ≠ .retryable → a = b

structure Draws (issued issued' : List Uuid) (s s' : MetadataStore) : Prop where
  sub : issued ⊆ issued'
  jobs : ∀ j' ∈ s'.transferJobs,
    (∃ j ∈ s.transferJobs, j.id = j'.id) ∨ j'.id ∉ issued ∧ j'.id ∈ issued'

namespace Draws
variable {s s' : MetadataStore}

theorem of_rel (hR : ∀ j j', R j j' → j'.id = j.id)
    (h : Table.Rel R s.transferJobs s'.transferJobs) : Draws issued issued s s' where
  sub := fun _ h => h
  jobs j' hj' := by
    obtain ⟨j, hj, hr⟩ := h.some_right (mem_iff_get?.1 hj')
    exact .inl ⟨j, mem_of_get? hj, (hR j j' hr).symm⟩

theorem all_issued (h : Draws issued issued' s s') (hi : ∀ j ∈ s.transferJobs, j.id ∈ issued) :
    ∀ j ∈ s'.transferJobs, j.id ∈ issued' := by
  intro j' hj'
  rcases h.jobs j' hj' with ⟨j, hj, he⟩ | ⟨-, hm⟩
  · exact he ▸ h.sub (hi j hj)
  · exact hm

theorem none_kept (h : Draws issued issued' s s')
    (hn : s.transferJobs.get? job = none) (hi : job ∈ issued) :
    s'.transferJobs.get? job = none := by
  rw [get?_eq_none]
  rintro j' hj' rfl
  rcases h.jobs j' hj' with ⟨j, hj, he⟩ | ⟨hm, -⟩
  · exact get?_eq_none.1 hn j hj he
  · exact hm hi

end Draws

namespace Accounted
variable {issued issued' : List Uuid} {s s' : MetadataStore} {t : Telegram}

theorem unique_edit (h : Accounted issued s t)
    (hr : Table.Descends AttemptEdit s.sendAttempts s'.sendAttempts) :
    (∀ a ∈ s'.sendAttempts, ∀ b ∈ s'.sendAttempts, a.jobId = b.jobId →
      a.state.ambiguous = true → b.state.ambiguous = true → a = b) ∧
    (∀ a ∈ s'.sendAttempts, ∀ b ∈ s'.sendAttempts, a.jobId = b.jobId →
      a.chunkOrder = b.chunkOrder → a.state ≠ .retryable → b.state ≠ .retryable → a = b) := by
  constructor
  · intro a' ha' b' hb' hj hsa hsb
    obtain ⟨a, ha, hea⟩ := hr a' ha'
    obtain ⟨b, hb, heb⟩ := hr b' hb'
    rw [hea.columns.1, heb.columns.1] at hj
    have he := h.open_unique a ha b hb hj (hea.ambiguous hsa) (heb.ambiguous hsb)
    subst he
    exact eq_of_key_eq ha' hb' (hea.key.trans heb.key.symm)
  · intro a' ha' b' hb' hj ho hsa hsb
    obtain ⟨a, ha, hea⟩ := hr a' ha'
    obtain ⟨b, hb, heb⟩ := hr b' hb'
    rw [hea.columns.1, heb.columns.1] at hj
    rw [hea.columns.2, heb.columns.2] at ho
    have he := h.live_unique a ha b hb hj ho (hea.live hsa) (heb.live hsb)
    subst he
    exact eq_of_key_eq ha' hb' (hea.key.trans heb.key.symm)

structure Quiet (t : Telegram) (a a' : SendAttemptRow) : Prop where
  edit : AttemptEdit a a'
  checkpointed : a'.state = .checkpointed → a.state = .checkpointed
  ended : a'.Ended → a.Ended ∨ Keyed.key a ∉ t.keys

theorem quiet_refl (a : SendAttemptRow) : Quiet t a a := ⟨.refl a, id, .inl⟩

section
variable (h : Accounted issued s t)
include h

theorem quiet (hd : Draws issued issued' s s')
    (hr : Table.Rel (Quiet t) s.sendAttempts s'.sendAttempts)
    (hc : s'.transferChunks = s.transferChunks) : Accounted issued' s' t := by
  have hloc : ∀ job order, s'.checkpointLocation job order = s.checkpointLocation job order := by
    intro job order
    rw [checkpointLocation, checkpointLocation, hc]
  have hback : Table.Descends (Quiet t) s.sendAttempts s'.sendAttempts := by
    intro a' ha'
    obtain ⟨a, ha, hq⟩ := hr.some_right (mem_iff_get?.1 ha')
    exact ⟨a, mem_of_get? ha, hq⟩
  have hedit : Table.Descends AttemptEdit s.sendAttempts s'.sendAttempts := by
    intro a' ha'
    obtain ⟨a, ha, hq⟩ := hback a' ha'
    exact ⟨a, ha, hq.edit⟩
  have hu := h.unique_edit hedit
  refine ⟨hd.all_issued h.drawn, ?_, h.single, ?_, ?_, ?_, hu.1, hu.2⟩
  · intro k hk
    rcases h.sent k hk with ⟨a, ha⟩ | ⟨hn, hi⟩
    · obtain ⟨a', ha', -⟩ := hr.some_left ha
      exact .inl ⟨a', ha'⟩
    · exact .inr ⟨hd.none_kept hn hi, hd.sub hi⟩
  · intro a' ha' he
    obtain ⟨a, ha, hq⟩ := hback a' ha'
    rw [hq.edit.key]
    exact (hq.ended he).elim (h.ended a ha) id
  · intro a' ha' hst
    obtain ⟨a, ha, hq⟩ := hback a' ha'
    rw [hq.edit.columns.1, hq.edit.columns.2, hloc]
    exact h.checkpointed a ha (hq.checkpointed hst)
  · intro job order l hl
    rw [hloc] at hl
    exact h.accepted job order l hl

theorem same (hd : Draws issued issued' s s') (ha : s'.sendAttempts = s.sendAttempts)
    (hc : s'.transferChunks = s.transferChunks) : Accounted issued' s' t := by
  apply h.quiet hd _ hc
  rw [ha]
  exact .refl quiet_refl _

theorem checkpoint (hd : Draws issued issued' s s') (hk : s.sendAttempts.get? k = some a)
    (hopen : a.state.ambiguous = true) (hl : (k, l) ∈ t.documents)
    (ha : ∀ i, s'.sendAttempts.get? i = if i = k then some a' else s.sendAttempts.get? i)
    (hst : a'.state = .checkpointed)
    (hc : ∀ job order, s'.checkpointLocation job order =
      if (job, order) = (k.1, k.2.1) then some l else s.checkpointLocation job order) :
    Accounted issued' s' t := by
  have hkey : Keyed.key a' = k := by
    have hg := ha k
    rw [if_pos rfl] at hg
    exact key_of_get? hg
  have hmem : ∀ b ∈ s'.sendAttempts, b ∈ s.sendAttempts ∨ b = a' := by
    intro b hb
    have hg := mem_iff_get?.1 hb
    rw [ha] at hg
    split at hg
    · cases hg
      exact .inr rfl
    · exact .inl (mem_of_get? hg)
  have hedit : Table.Descends AttemptEdit s.sendAttempts s'.sendAttempts := by
    intro b hb
    rcases hmem b hb with hm | rfl
    · exact ⟨b, hm, .refl b⟩
    · refine ⟨a, mem_of_get? hk, hkey.trans (key_of_get? hk).symm, fun _ => hopen, ?_⟩
      intro _ hn
      rw [hn] at hopen
      cases hopen
  have hu := h.unique_edit hedit
  refine ⟨hd.all_issued h.drawn, ?_, h.single, ?_, ?_, ?_, hu.1, hu.2⟩
  · intro i hi
    rcases h.sent i hi with ⟨b, hb⟩ | ⟨hn, hi⟩
    · refine .inl ?_
      rw [ha]
      split
      · exact ⟨a', rfl⟩
      · exact ⟨b, hb⟩
    · exact .inr ⟨hd.none_kept hn hi, hd.sub hi⟩
  · intro b hb he
    rcases hmem b hb with hm | rfl
    · exact h.ended b hm he
    · rw [SendAttemptRow.Ended, hst] at he
      rcases he with he | ⟨he, -⟩ <;> cases he
  · intro b hb hst
    rw [hc]
    split
    · simp
    · rename_i hne
      rcases hmem b hb with hm | rfl
      · exact h.checkpointed b hm hst
      · subst hkey
        exact absurd rfl hne
  · intro job order l' hl'
    rw [hc] at hl'
    split at hl'
    · rename_i he
      cases hl'
      simp only [Prod.mk.injEq] at he
      obtain ⟨rfl, rfl⟩ := he
      exact ⟨k.2.2, hl⟩
    · exact h.accepted job order l' hl'

theorem clear (ho : s.ambiguousSend job = false) (hn : s.checkpointLocation job order = none)
    (ha : a ∈ s.sendAttempts) (hj : a.jobId = job) (hc : a.chunkOrder = order) :
    a.state = .retryable := by
  have hamb := ambiguousSend_eq_false ho ha hj
  have hch := h.checkpointed a ha
  rw [hj, hc] at hch
  cases hst : a.state with
  | sending | unknown =>
    rw [hst] at hamb
    cases hamb
  | checkpointed => exact absurd hn (hch hst)
  | retryable => rfl

theorem launch {a : SendAttemptRow} (hst : a.state = .sending)
    (hj : s.transferJobs.get? a.jobId ≠ none) (ho : s.ambiguousSend a.jobId = false)
    (hn : s.checkpointLocation a.jobId a.chunkOrder = none)
    (hf : s.sendAttempts.get? (Keyed.key a) = none) :
    Accounted issued { s with sendAttempts := s.sendAttempts.insertOrIgnore a }
      { t with inFlight := [Keyed.key a] ++ t.inFlight } := by
  have hclear : ∀ b ∈ s.sendAttempts, b.jobId = a.jobId → b.chunkOrder = a.chunkOrder →
      b.state = .retryable := fun b hb hj hc => h.clear ho hn hb hj hc
  have hmem : ∀ b, b ∈ s.sendAttempts.insertOrIgnore a → b ∈ s.sendAttempts ∨ b = a := by
    intro b hb
    rcases mem_insertOrIgnore.1 hb with hb | ⟨rfl, -⟩
    · exact .inl hb
    · exact .inr rfl
  refine ⟨h.drawn, ?_, List.pairwise_cons.2 ⟨?_, h.single⟩, ?_, ?_, h.accepted, ?_, ?_⟩
  · intro k hk
    rcases List.mem_cons.1 hk with rfl | hk
    · exact .inl ⟨a, by simp [hf]⟩
    · rcases h.sent k hk with ⟨b, hb⟩ | hp
      · exact .inl ⟨b, get?_insertOrIgnore_of_some hb a⟩
      · exact .inr hp
  · rintro k hk ⟨hkj, hko⟩
    rcases h.sent k hk with ⟨b, hb⟩ | ⟨hn, -⟩
    · obtain ⟨hm, rfl⟩ := get?_eq_some.1 hb
      exact h.ended b hm (.inl (hclear b hm hkj.symm hko.symm)) hk
    · rw [← hkj] at hn
      exact hj hn
  · intro b hb he hk
    rcases hmem b hb with hm | rfl
    · rcases List.mem_cons.1 hk with hk | hk
      · exact get?_eq_none.1 hf b hm hk
      · exact h.ended b hm he hk
    · rw [SendAttemptRow.Ended, hst] at he
      rcases he with he | ⟨he, -⟩ <;> cases he
  · intro b hb hc
    rcases hmem b hb with hm | rfl
    · exact h.checkpointed b hm hc
    · rw [hst] at hc
      cases hc
  · intro b hb c hc hjob hsb hsc
    rcases hmem b hb with hmb | rfl <;> rcases hmem c hc with hmc | rfl
    · exact h.open_unique b hmb c hmc hjob hsb hsc
    · rw [ambiguousSend_eq_false ho hmb hjob] at hsb
      cases hsb
    · rw [ambiguousSend_eq_false ho hmc hjob.symm] at hsc
      cases hsc
    · rfl
  · intro b hb c hc hjob hord hsb hsc
    rcases hmem b hb with hmb | rfl <;> rcases hmem c hc with hmc | rfl
    · exact h.live_unique b hmb c hmc hjob hord hsb hsc
    · exact absurd (hclear b hmb hjob hord) hsb
    · exact absurd (hclear c hmc hjob.symm hord.symm) hsc
    · rfl

theorem accept (hk : k ∈ t.inFlight) : Accounted issued s (t.accept k l) where
  drawn := h.drawn
  sent x hx := h.sent x ((Telegram.mem_keys_accept hk).1 hx)
  single := Telegram.accept_pairwise h.single hk
  ended a ha he hm := h.ended a ha he ((Telegram.mem_keys_accept hk).1 hm)
  checkpointed := h.checkpointed
  accepted job order l hl := by
    obtain ⟨attempt, hd⟩ := h.accepted job order l hl
    exact ⟨attempt, List.mem_cons_of_mem _ hd⟩
  open_unique := h.open_unique
  live_unique := h.live_unique

theorem lose (k : SendKey) : Accounted issued s (t.lose k) where
  drawn := h.drawn
  sent x hx := h.sent x ((t.lose_sublist k).subset hx)
  single := h.single.sublist (t.lose_sublist k)
  ended a ha he hm := h.ended a ha he ((t.lose_sublist k).subset hm)
  checkpointed := h.checkpointed
  accepted := h.accepted
  open_unique := h.open_unique
  live_unique := h.live_unique

end

end Accounted

theorem Draws.of_store (hs : StoreStep fromStr op s s')
    (hf : ∀ objectId ∈ (ConnectionAction.call op).draws, objectId ∉ issued) :
    Draws issued ((ConnectionAction.call op).draws ++ issued) s s' := by
  rcases StoreOp.leases_step hs with hl | ⟨objectId, bucket, key, now, rfl⟩
  · have hd : Draws issued issued s s' := .of_rel (fun _ _ h => h.id) hl
    refine ⟨List.subset_append_right _ _, ?_⟩
    intro j' hj'
    exact .inl ((hd.jobs j' hj').resolve_right fun h => h.1 h.2)
  · obtain ⟨-, rfl⟩ := beginTransfer_ok (after_eq_some.1 hs)
    refine ⟨List.subset_append_right _ _, ?_⟩
    intro j' hj'
    rcases mem_insertOrIgnore.1 hj' with hm | ⟨rfl, -⟩
    · exact .inl ⟨j', hm, rfl⟩
    · exact .inr ⟨hf objectId (List.mem_singleton_self _), List.mem_cons_self⟩

theorem Draws.of_kept (hs : StoreStep fromStr op s s')
    (hd : (ConnectionAction.call op).draws = []) : Draws issued issued s s' := by
  have hf : ∀ objectId ∈ (ConnectionAction.call op).draws, objectId ∉ issued := by simp [hd]
  have h := Draws.of_store hs hf
  rwa [hd, List.nil_append] at h

namespace Accounted
variable {issued : List Uuid} {s s' : MetadataStore} {t : Telegram}

theorem relabelFloodWaits (s : MetadataStore) (retryAfter : Nat) (now : Int) :
    Table.Rel (Quiet t) s.sendAttempts
      (s.reclassifyFloodWaitAttempts retryAfter now).sendAttempts := by
  refine .of_update rfl (fun _ _ h => h.edit.key) quiet_refl fun a _ hp => ?_
  simp only [Bool.and_eq_true, decide_eq_true_eq] at hp
  refine ⟨⟨rfl, fun h => (by cases h), fun h => absurd rfl h⟩, fun h => (by cases h), ?_⟩
  exact fun _ => .inl (.inr hp)

theorem claimAttempts (s : MetadataStore) (now : Int) (lease : Uuid) :
    Table.Rel (Quiet t) s.sendAttempts (s.claimTransfer now lease).2.sendAttempts := by
  have hm : mentionsFloodWait (some "Worker lease expired before Telegram acknowledgement") =
      false := by decide
  have hn : Table.Rel (Quiet t) s.sendAttempts (s.normalizeTransfers now).sendAttempts := by
    refine .of_update rfl (fun _ _ h => h.edit.key) quiet_refl fun a _ hp => ?_
    simp only [Bool.and_eq_true, decide_eq_true_eq] at hp
    refine ⟨⟨rfl, fun _ => ?_, fun _ => ?_⟩, fun h => (by cases h), ?_⟩
    · rw [hp.1]
      rfl
    · rw [hp.1]
      decide
    · rintro (h | ⟨-, h⟩)
      · cases h
      · exact absurd (hm.symm.trans h) Bool.false_ne_true
  unfold claimTransfer
  dsimp only
  split
  · exact hn
  · exact hn

theorem call (h : Accounted issued s t) (hs : StoreStep fromStr op s s') (hop : op.sends = false)
    (hf : ∀ objectId ∈ (ConnectionAction.call op).draws, objectId ∉ issued) :
    Accounted ((ConnectionAction.call op).draws ++ issued) s' t := by
  have hd := Draws.of_store hs hf
  cases op with
  | claimTransfer | beginSendAttempt | finishSendAttempt | markSendAttemptUnknown
  | markSendAttemptRetryable | resolveSendAttempt | commitTransferManifest => cases hop
  | reclassifyFloodWaitAttempts retryAfter now =>
    cases hs
    exact h.quiet hd (relabelFloodWaits s retryAfter now) rfl
  | _ => exact h.same hd (StoreOp.frame hs .attempts rfl) (StoreOp.frame hs .chunks rfl)

theorem claim (h : Accounted issued s t) (now : Int) (lease : Uuid) :
    Accounted (lease :: issued) (s.claimTransfer now lease).2 t := by
  have hs : StoreStep (fun _ => none) (.claimTransfer now lease) s
      (s.claimTransfer now lease).2 := rfl
  have hd : Draws issued issued s (s.claimTransfer now lease).2 := .of_kept hs rfl
  have hq := h.quiet hd (claimAttempts s now lease) (StoreOp.frame hs .chunks rfl)
  exact ⟨fun j hj => List.mem_cons_of_mem _ (hq.drawn j hj),
    fun k hk => (hq.sent k hk).imp id (.imp id (List.mem_cons_of_mem _)), hq.single, hq.ended,
    hq.checkpointed, hq.accepted, hq.open_unique, hq.live_unique⟩

end Accounted

theorem checkpointLocation_checkpoint (s : MetadataStore) (id : Uuid) (n : Nat)
    (l : TelegramLocation) (job : Uuid) (order : Nat) :
    (s.checkpoint id n l).checkpointLocation job order =
      if (job, order) = (id, n) then some l else s.checkpointLocation job order := by
  simp only [checkpointLocation, MetadataStore.checkpoint, get?_upsert, Keyed.key]
  by_cases he : (job, order) = (id, n)
  · simp [he]
  · rw [if_neg he, if_neg (Ne.symm he)]

namespace Accounted
variable {issued : List Uuid} {s s' : MetadataStore} {t : Telegram}

theorem finish (h : Accounted issued s t)
    (hs : s.finishSendAttempt job lease order attempt l now = .ok s')
    (hl : ((job, order, attempt), l) ∈ t.documents) : Accounted issued s' t := by
  have hstep : StoreStep (fun _ => none) (.finishSendAttempt job lease order attempt l now) s s' :=
    after_eq_some.2 hs
  have hd : Draws issued issued s s' := .of_kept hstep rfl
  obtain ⟨-, s₁, hu, rfl⟩ := finishSendAttempt_ok hs
  obtain ⟨a, ha, hst, hrows, he⟩ := updateAttempt_get? hu
  refine h.checkpoint hd ha (by rw [hst]; rfl) hl hrows rfl ?_
  intro job' order'
  rw [show ((s₁.checkpoint job order l).countChunks job now).checkpointLocation job' order' =
    (s₁.checkpoint job order l).checkpointLocation job' order' from rfl,
    checkpointLocation_checkpoint, he]
  rfl

theorem resolve (h : Accounted issued s t)
    (hs : s.resolveSendAttempt job order attempt found error now = .ok s')
    (hm : t.mayFind (job, order, attempt) found = true) : Accounted issued s' t := by
  have hstep : StoreStep (fun _ => none) (.resolveSendAttempt job order attempt found error now)
      s s' := after_eq_some.2 hs
  have hd : Draws issued issued s s' := .of_kept hstep rfl
  obtain ⟨s₁, hu, rfl⟩ := resolveSendAttempt_ok hs
  obtain ⟨a, ha, hst, hrows, he⟩ := updateAttempt_get? hu
  have hopen : a.state.ambiguous = true := by
    rw [hst]
    rfl
  cases found with
  | some l =>
    refine h.checkpoint hd ha hopen (List.elem_iff.1 hm) hrows rfl ?_
    intro job' order'
    rw [show ((s₁.checkpointFound job order (some l)).countChunks job now).checkpointLocation
      job' order' = (s₁.checkpoint job order l).checkpointLocation job' order' from rfl,
      checkpointLocation_checkpoint, he]
    rfl
  | none =>
    have hc : s₁.transferChunks = s.transferChunks := by rw [he]
    refine h.quiet hd (.of_set quiet_refl ha hrows ?_) hc
    refine ⟨⟨rfl, fun h => (by cases h), fun h => absurd rfl h⟩, fun h => (by cases h), ?_⟩
    intro _
    rw [key_of_get? ha]
    exact .inr (Telegram.gone_eq_true.1 hm)

theorem mark (h : Accounted issued s t)
    (hs : s.markSendAttempt job lease order attempt st retryable kind text message now = .ok s')
    (hst : st = .retryable ∨ st = .unknown)
    (hg : st = .retryable ∨ mentionsFloodWait (some text) = true →
      (job, order, attempt) ∉ t.keys) : Accounted issued s' t := by
  unfold markSendAttempt at hs
  split at hs
  · cases hs
  obtain ⟨a, ha, hsa, hrows, he⟩ := updateAttempt_get? hs
  have hjobs : s'.transferJobs = s.transferJobs := by rw [he]
  have hc : s'.transferChunks = s.transferChunks := by rw [he]
  have hd : Draws issued issued s s' := by
    refine .of_rel (R := Eq) (fun _ _ h => h ▸ rfl) ?_
    rw [hjobs]
    exact .refl (fun _ => rfl) _
  refine h.quiet hd (.of_set quiet_refl ha hrows ?_) hc
  refine ⟨⟨rfl, fun _ => ?_, fun _ => ?_⟩, ?_, ?_⟩
  · rw [hsa]
    rfl
  · rw [hsa]
    decide
  · intro hn
    rcases hst with rfl | rfl <;> cases hn
  · intro hend
    rw [key_of_get? ha]
    refine .inr (hg ?_)
    rcases hend with h | ⟨-, h⟩
    · exact .inl h
    · exact .inr h

end Accounted

section Purge
variable {s : MetadataStore} {connectionId : String}

theorem ownsJob_of_mem (h : j ∈ s.transferJobs) :
    s.ownsJob connectionId j.id = decide (j.connectionId = connectionId) := by
  rw [Bool.eq_iff_iff, ownsJob, any_eq_true]
  simp only [Bool.and_eq_true, decide_eq_true_eq]
  constructor
  · rintro ⟨i, hi, he, hc⟩
    rw [← eq_of_key_eq hi h he]
    exact hc
  · intro hc
    exact ⟨j, h, rfl, hc⟩

theorem purge_jobs (h : j ∈ (s.purgeConnectionOperations connectionId).transferJobs) :
    j ∈ s.transferJobs ∧ s.ownsJob connectionId j.id = false := by
  obtain ⟨hm, hc⟩ := mem_delete.1 h
  rw [ownsJob_of_mem hm]
  exact ⟨hm, hc⟩

theorem purge_attempts (k : SendKey) :
    (s.purgeConnectionOperations connectionId).sendAttempts.get? k =
      if s.ownsJob connectionId k.1 then none else s.sendAttempts.get? k := by
  rw [show (s.purgeConnectionOperations connectionId).sendAttempts =
    s.sendAttempts.delete fun a => s.ownsJob connectionId a.jobId from rfl, get?_delete]
  cases hr : s.sendAttempts.get? k with
  | none => simp
  | some a =>
    have hk : a.jobId = k.1 := by rw [← key_of_get? hr]; rfl
    cases ho : s.ownsJob connectionId k.1 <;> simp [Option.filter, hk, ho]

theorem purge_checkpointLocation (job : Uuid) (order : Nat) :
    (s.purgeConnectionOperations connectionId).checkpointLocation job order =
      if s.ownsJob connectionId job then none else s.checkpointLocation job order := by
  rw [checkpointLocation, show (s.purgeConnectionOperations connectionId).transferChunks =
    s.transferChunks.delete fun c => s.ownsJob connectionId c.jobId from rfl, get?_delete,
    checkpointLocation]
  cases hr : s.transferChunks.get? (job, order) with
  | none => simp
  | some c =>
    have hk : c.jobId = job := congrArg Prod.fst (key_of_get? hr)
    cases ho : s.ownsJob connectionId job <;> simp [Option.filter, hk, ho]

end Purge

namespace Accounted
variable {issued : List Uuid} {s s' : MetadataStore} {t : Telegram}

theorem purge (h : Accounted issued s t) (connectionId : String) :
    Accounted issued (s.purgeConnectionOperations connectionId) t := by
  have hmem : ∀ a ∈ (s.purgeConnectionOperations connectionId).sendAttempts,
      a ∈ s.sendAttempts ∧ s.ownsJob connectionId a.jobId = false :=
    fun a ha => mem_delete.1 ha
  have hedit : Table.Descends AttemptEdit s.sendAttempts
      (s.purgeConnectionOperations connectionId).sendAttempts :=
    fun a ha => ⟨a, (hmem a ha).1, .refl a⟩
  have hu := h.unique_edit hedit
  refine ⟨fun j hj => h.drawn j (purge_jobs hj).1, ?_, h.single,
    fun a ha => h.ended a (hmem a ha).1, ?_, ?_, hu.1, hu.2⟩
  · intro k hk
    rw [purge_attempts]
    cases ho : s.ownsJob connectionId k.1 with
    | true =>
      obtain ⟨j, hj, hjc⟩ := any_eq_true.1 ho
      simp only [Bool.and_eq_true, decide_eq_true_eq] at hjc
      refine .inr ⟨?_, hjc.1 ▸ h.drawn j hj⟩
      rw [get?_eq_none]
      intro i hi he
      have hn := (purge_jobs hi).2
      rw [show i.id = k.1 from he, ho] at hn
      cases hn
    | false =>
      refine (h.sent k hk).imp id (.imp_left fun hn => ?_)
      rw [get?_eq_none] at hn ⊢
      exact fun i hi => hn i (purge_jobs hi).1
  · intro a ha hst
    obtain ⟨hm, ho⟩ := hmem a ha
    rw [purge_checkpointLocation, ho]
    exact h.checkpointed a hm hst
  · intro job order l hl
    rw [purge_checkpointLocation] at hl
    split at hl
    · cases hl
    · exact h.accepted job order l hl

theorem connect (h : Accounted issued s t) (hs : ConnectionStep fromStr a s s')
    (ha : a.sends = false) (hf : ∀ objectId ∈ a.draws, objectId ∉ issued) :
    Accounted (a.draws ++ issued) s' t := by
  have hsame : s'.transferJobs = s.transferJobs → s'.sendAttempts = s.sendAttempts →
      s'.transferChunks = s.transferChunks → Accounted issued s' t := by
    intro hj hat hc
    refine h.same (.of_rel (R := Eq) (fun _ _ h => h ▸ rfl) ?_) hat hc
    rw [hj]
    exact .refl (fun _ => rfl) _
  cases a with
  | call op => exact h.call (StoreOp.serve_eq_some hs).1 ha hf
  | setTelegramBootstrapSettings fresh chat =>
    cases hs
    refine h.same (.of_rel (R := fun j j' => j'.id = j.id) (fun _ _ h => h) ?_) rfl rfl
    exact .of_update rfl (fun _ _ h => h) (fun _ => rfl) fun _ _ _ => rfl
  | purgeConnectionOperations connectionId =>
    cases hs
    exact h.purge connectionId
  | deleteTelegramAccount id =>
    obtain rfl := deleteTelegramAccount_ok (after_eq_some.1 hs)
    exact hsame rfl rfl rfl
  | clearTelegramBootstrapSettings | clearActiveConnectionId | finishConnectionRemoval =>
    cases hs
    exact hsame rfl rfl rfl

end Accounted
end TelegramS3
