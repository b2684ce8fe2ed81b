import Mathlib.Data.List.Sort
import TelegramS3.Accounting

namespace TelegramS3
open Relational Table Fallible Transition MetadataStore
set_option autoImplicit true

def MetadataStore.Sending (s : MetadataStore) (k : SendKey) : Prop :=
  ∃ a, s.sendAttempts.get? k = some a ∧ a.state = .sending

/-- What a call leaves of a job it does not send for. -/
structure Undisturbed (job : Uuid) (s s' : MetadataStore) : Prop where
  resolved : s.ambiguousSend job = false → s'.ambiguousSend job = false
  absent : ∀ order, s.ambiguousSend job = false → s.checkpointLocation job order = none →
    s'.checkpointLocation job order = none
  sending : ∀ k : SendKey, k.1 = job → s.Sending k → s'.Sending k

namespace Undisturbed
variable {s s' : MetadataStore} {job : Uuid}

theorem resolved_of_descends
    (h : ∀ a' ∈ s'.sendAttempts, a'.jobId = job → a'.state.ambiguous = true →
      ∃ a ∈ s.sendAttempts, a.jobId = job ∧ a.state.ambiguous = true)
    (hs : s.ambiguousSend job = false) : s'.ambiguousSend job = false := by
  by_contra hn
  obtain ⟨a', ha', hj, hst⟩ := ambiguousSend_eq_true.1 (eq_true_of_ne_false hn)
  rw [ambiguousSend_eq_true.2 (h a' ha' hj hst)] at hs
  cases hs

theorem of_same (ha : s'.sendAttempts = s.sendAttempts)
    (hc : s'.transferChunks = s.transferChunks) : Undisturbed job s s' where
  resolved := resolved_of_descends fun a ha' hj hst => ⟨a, ha ▸ ha', hj, hst⟩
  absent order _ hn := by
    rw [checkpointLocation, hc]
    exact hn
  sending k _ h := by
    rw [MetadataStore.Sending, ha]
    exact h

theorem of_set (hk : s.sendAttempts.get? k = some a)
    (hrows : ∀ i, s'.sendAttempts.get? i = if i = k then some a' else s.sendAttempts.get? i)
    (hloc : ∀ order, job ≠ k.1 → s'.checkpointLocation job order = s.checkpointLocation job order)
    (hj : job ≠ k.1 ∨ a.state = .unknown) : Undisturbed job s s' := by
  have hkey : Keyed.key a' = k := by
    have hg := hrows k
    rw [if_pos rfl] at hg
    exact key_of_get? hg
  have hne : s.ambiguousSend job = false → job ≠ k.1 := by
    intro hs he
    have hst := hj.resolve_left fun hn => hn he
    obtain ⟨hm, rfl⟩ := get?_eq_some.1 hk
    have hf := ambiguousSend_eq_false hs hm he.symm
    rw [hst] at hf
    cases hf
  refine ⟨fun hs => ?_, fun order hs hn => by rw [hloc order (hne hs), hn], ?_⟩
  · refine resolved_of_descends (fun b hb hbj hbs => ?_) hs
    have hg := mem_iff_get?.1 hb
    rw [hrows] at hg
    split at hg
    · rename_i he
      refine absurd ?_ (hne hs)
      rw [← hbj, ← he]
      rfl
    · exact ⟨b, mem_of_get? hg, hbj, hbs⟩
  · rintro i hi ⟨b, hb, hbs⟩
    refine ⟨b, ?_, hbs⟩
    rw [hrows, if_neg]
    · exact hb
    · rintro rfl
      rw [hk] at hb
      cases hb
      rcases hj with hj | hj
      · exact hj hi.symm
      · rw [hj] at hbs
        cases hbs

theorem reclassify (s : MetadataStore) (retryAfter : Nat) (now : Int) :
    Undisturbed job s (s.reclassifyFloodWaitAttempts retryAfter now) := by
  have hr := Accounted.relabelFloodWaits (t := {}) s retryAfter now
  refine ⟨resolved_of_descends fun a' ha' hj hst => ?_, fun _ _ hn => hn, ?_⟩
  · obtain ⟨a, ha, hq⟩ := hr.some_right (mem_iff_get?.1 ha')
    exact ⟨a, mem_of_get? ha, hq.edit.columns.1.symm.trans hj, hq.edit.ambiguous hst⟩
  · rintro k - ⟨a, ha, hst⟩
    refine ⟨a, ?_, hst⟩
    rw [show (s.reclassifyFloodWaitAttempts retryAfter now).sendAttempts =
      (s.relabelFloodWaits now).sendAttempts from rfl, MetadataStore.relabelFloodWaits,
      get?_modify, ha]
    simp [hst]

theorem call (hs : StoreStep fromStr op s s') (hop : op.sends = false) : Undisturbed job s s' := by
  cases op with
  | claimTransfer | beginSendAttempt | finishSendAttempt | markSendAttemptUnknown
  | markSendAttemptRetryable | resolveSendAttempt | commitTransferManifest => cases hop
  | reclassifyFloodWaitAttempts retryAfter now =>
    cases hs
    exact reclassify s retryAfter now
  | _ => exact of_same (StoreOp.frame hs .attempts rfl) (StoreOp.frame hs .chunks rfl)

end Undisturbed

theorem Holds.of_edit (hr : JobsEdit op s s') (h : Holds s' job lease) : Holds s job lease := by
  obtain ⟨j', hj', hst, hl⟩ := h
  obtain ⟨j, hj, he⟩ := hr.some_right hj'
  obtain ⟨hst, he⟩ := he.leased hst
  exact ⟨j, hj, hst, he ▸ hl⟩

section Claim
variable {s : MetadataStore} {job lease lease' : Uuid}

theorem Holds.before_claim (h : Holds (s.claimTransfer now lease').2 job lease)
    (hne : lease ≠ lease') : Holds (s.normalizeTransfers now) job lease := by
  unfold claimTransfer at h
  dsimp only at h
  split at h
  · exact h
  · obtain ⟨j', hj', hst, hl⟩ := h
    rw [get?_modify, Option.map_eq_some_iff] at hj'
    obtain ⟨j, hj, rfl⟩ := hj'
    split at hl
    · cases hl
      exact absurd rfl hne
    · rename_i hp
      rw [if_neg hp] at hst
      exact ⟨j, hj, hst, hl⟩

theorem Holds.not_normalized (h : Holds (s.normalizeTransfers now) job lease)
    (ha : a ∈ s.sendAttempts) (hj : a.jobId = job) (hst : a.state = .sending) :
    ((s.expireReceptions now).retainAmbiguousSends now).transferJobs.any (fun j =>
      j.id = a.jobId && ((j.state = .recoveryRequired && j.lease.isNone) ||
        (j.state.leased && j.leaseUntil < now))) = false := by
  subst hj
  have h₃ : ∀ t : MetadataStore, JobsEdit (.renewReceiving a.jobId now) t
      ((t.normalizeSendAttempts now).cancelClosedMultipart).supersedeOlder := by
    intro t
    have h₁ : JobsEdit (.renewReceiving a.jobId now) t (t.normalizeSendAttempts now) := .of_eq rfl
    have h₂ : ∀ t : MetadataStore,
        JobsEdit (.renewReceiving a.jobId now) t t.cancelClosedMultipart :=
      fun t => .of_freed rfl (fun _ => rfl) fun _ => rfl
    have h₃ : ∀ t : MetadataStore, JobsEdit (.renewReceiving a.jobId now) t t.supersedeOlder :=
      fun t => .of_freed rfl (fun _ => rfl) fun _ => rfl
    exact (h₁.trans (h₂ _)).trans (h₃ _)
  obtain ⟨j, hj, hleased, -⟩ := Holds.of_edit (h₃ _) h
  have hamb : (s.expireReceptions now).ambiguousSend a.jobId = true :=
    ambiguousSend_eq_true.2 ⟨a, ha, rfl, by rw [hst]; rfl⟩
  have hlive : ¬ j.leaseUntil < now := by
    rw [retainAmbiguousSends, get?_modify, Option.map_eq_some_iff] at hj
    obtain ⟨i, hi, rfl⟩ := hj
    have hid : i.id = a.jobId := key_of_get? hi
    split
    · rename_i hp
      rw [if_pos hp] at hleased
      cases hleased
    · rename_i hp
      rw [if_neg hp] at hleased
      intro hlt
      apply hp
      simp [hleased, hlt, hid, hamb]
  obtain ⟨hm, hid⟩ := get?_eq_some.1 hj
  rw [any_eq_false]
  intro i hi
  by_cases he : i.id = a.jobId
  · have hij : i = j := eq_of_key_eq hi hm (he.trans hid.symm)
    subst hij
    have hr : i.state ≠ .recoveryRequired := by
      intro hr
      rw [hr] at hleased
      cases hleased
    simp [hr, hlive]
  · simp [he]

theorem Undisturbed.claim (h : Holds (s.claimTransfer now lease').2 job lease)
    (hne : lease ≠ lease') : Undisturbed job s (s.claimTransfer now lease').2 := by
  have hs : StoreStep (fun _ => none) (.claimTransfer now lease') s
      (s.claimTransfer now lease').2 := rfl
  have hr := Accounted.claimAttempts (t := {}) s now lease'
  refine ⟨resolved_of_descends fun a' ha' hj hst => ?_, fun order _ hn => ?_, ?_⟩
  · obtain ⟨a, ha, hq⟩ := hr.some_right (mem_iff_get?.1 ha')
    exact ⟨a, mem_of_get? ha, hq.edit.columns.1.symm.trans hj, hq.edit.ambiguous hst⟩
  · rw [checkpointLocation, StoreOp.frame hs .chunks rfl]
    exact hn
  · rintro k rfl ⟨a, ha, hst⟩
    obtain ⟨hm, hk⟩ := get?_eq_some.1 ha
    have hp := (h.before_claim hne).not_normalized hm (congrArg Prod.fst hk) hst
    have he : (s.claimTransfer now lease').2.sendAttempts =
        (((s.expireReceptions now).retainAmbiguousSends now).normalizeSendAttempts
          now).sendAttempts := by
      unfold claimTransfer
      dsimp only
      split <;> rfl
    refine ⟨a, ?_, hst⟩
    rw [he, normalizeSendAttempts, get?_modify,
      show ((s.expireReceptions now).retainAmbiguousSends now).sendAttempts.get? k = some a from ha,
      Option.map_some, hp]
    simp

theorem claimTransfer_resolved (h : (s.claimTransfer now lease).1 = some j) :
    (s.claimTransfer now lease).2.ambiguousSend j.id = false := by
  unfold claimTransfer at h ⊢
  dsimp only at h ⊢
  split at h
  · cases h
  · rename_i i hi
    cases h
    obtain ⟨-, hc⟩ := mem_select.1 (firstBy_mem hi)
    simp only [claimable, Bool.and_eq_true, Bool.not_eq_true'] at hc
    exact hc.1.2

end Claim

section Calls
variable {s s' : MetadataStore} {job id lease lease' attempt : Uuid}

theorem Undisturbed.purge (h : Holds (s.purgeConnectionOperations connectionId) job lease) :
    Undisturbed job s (s.purgeConnectionOperations connectionId) := by
  obtain ⟨j, hj, -⟩ := h
  obtain ⟨hm, rfl⟩ := get?_eq_some.1 hj
  have ho : s.ownsJob connectionId (Keyed.key j) = false := (purge_jobs hm).2
  refine ⟨resolved_of_descends fun a ha hja hst => ?_, fun order _ hn => ?_, ?_⟩
  · exact ⟨a, (mem_delete.1 ha).1, hja, hst⟩
  · rw [purge_checkpointLocation, ho]
    exact hn
  · rintro k hk ⟨a, ha, hst⟩
    refine ⟨a, ?_, hst⟩
    rw [purge_attempts, hk, ho]
    exact ha

/-- A lease that is held after a call that does not send was held before, undisturbed. -/
theorem Holds.connect (hs : ConnectionStep fromStr a s s') (ha : a.sends = false)
    (h : Holds s' job lease) : Holds s job lease ∧ Undisturbed job s s' := by
  cases a with
  | call op =>
    obtain ⟨hs, -⟩ := StoreOp.serve_eq_some hs
    refine ⟨h.before hs ?_, .call hs ha⟩
    rintro now rfl
    cases ha
  | setTelegramBootstrapSettings fresh chat =>
    cases hs
    have he : JobsEdit (.renewReceiving job 0) s (s.setTelegramBootstrapSettings fresh chat) :=
      .of_rows rfl fun _ _ _ => .of_columns rfl
    exact ⟨h.of_edit he, .of_same rfl rfl⟩
  | purgeConnectionOperations connectionId =>
    cases hs
    refine ⟨?_, .purge h⟩
    obtain ⟨j, hj, hl⟩ := h
    obtain ⟨hm, hk⟩ := get?_eq_some.1 hj
    exact ⟨j, get?_eq_some.2 ⟨(purge_jobs hm).1, hk⟩, hl⟩
  | deleteTelegramAccount id =>
    obtain rfl := deleteTelegramAccount_ok (after_eq_some.1 hs)
    exact ⟨h, .of_same rfl rfl⟩
  | clearTelegramBootstrapSettings | clearActiveConnectionId | finishConnectionRemoval =>
    cases hs
    exact ⟨h, .of_same rfl rfl⟩

theorem Undisturbed.begin (hs : s.beginSendAttempt id lease order attempt now = .ok s')
    (hne : job ≠ id) : Undisturbed job s s' := by
  obtain ⟨-, hf, rfl⟩ := beginSendAttempt_ok hs
  refine ⟨resolved_of_descends fun a ha hj hst => ?_, fun _ _ hn => hn, ?_⟩
  · rcases mem_insertOrIgnore.1 ha with hm | ⟨rfl, -⟩
    · exact ⟨a, hm, hj, hst⟩
    · exact absurd hj.symm hne
  · rintro k - ⟨a, ha, hst⟩
    exact ⟨a, get?_insertOrIgnore_of_some ha _, hst⟩

theorem checkpointLocation_of_ne (hne : job ≠ id) :
    ((s.checkpoint id n l).countChunks id now).checkpointLocation job order =
      s.checkpointLocation job order := by
  rw [show ((s.checkpoint id n l).countChunks id now).checkpointLocation job order =
    (s.checkpoint id n l).checkpointLocation job order from rfl, checkpointLocation_checkpoint,
    if_neg fun he => hne (congrArg Prod.fst he)]

theorem Undisturbed.finish (hs : s.finishSendAttempt id lease order attempt l now = .ok s')
    (hne : job ≠ id) : Undisturbed job s s' := by
  obtain ⟨-, s₁, hu, rfl⟩ := finishSendAttempt_ok hs
  obtain ⟨a, ha, -, hrows, he⟩ := updateAttempt_get? hu
  refine .of_set ha hrows (fun n _ => ?_) (.inl hne)
  rw [checkpointLocation_of_ne hne, he]
  rfl

theorem Undisturbed.mark
    (hs : s.markSendAttempt id lease order attempt st retryable kind text message now = .ok s')
    (hne : job ≠ id) : Undisturbed job s s' := by
  unfold markSendAttempt at hs
  split at hs
  · cases hs
  obtain ⟨a, ha, -, hrows, he⟩ := updateAttempt_get? hs
  refine .of_set ha hrows (fun n _ => ?_) (.inl hne)
  rw [he]
  rfl

theorem Undisturbed.resolve (hs : s.resolveSendAttempt id order attempt found error now = .ok s') :
    Undisturbed job s s' := by
  obtain ⟨s₁, hu, rfl⟩ := resolveSendAttempt_ok hs
  obtain ⟨a, ha, hst, hrows, he⟩ := updateAttempt_get? hu
  cases found with
  | none =>
    refine .of_set ha hrows (fun n _ => ?_) (.inr hst)
    rw [he]
    rfl
  | some l =>
    refine .of_set ha hrows (fun n hne => ?_) (.inr hst)
    rw [show s₁.checkpointFound id order (some l) = s₁.checkpoint id order l from rfl,
      checkpointLocation_of_ne hne, he]
    rfl

end Calls

def SendTarget.Placed (t : Telegram) (job : Uuid) : SendTarget → Prop
  | .chunk _ done c _ => t.Places job done ∧ c.referencesRemotePayload = false
  | .document m => t.Places job m.chunks

def Worker.Placed (t : Telegram) (p : Worker) : Prop :=
  match p.phase with
  | .chunks _ done _ => t.Places p.job done
  | .absent d | .sending d _ => d.Placed t p.job
  | .answered d attempt reply => d.Placed t p.job ∧
      ∀ l, reply = .ok l → ((p.job, d.order, attempt), l) ∈ t.documents
  | .fenced m => t.Places p.job m.chunks
  | .ready m => t.Places p.job m.chunks ∧ t.Accepted p.job manifestOrder m.telegram
  | _ => True

def Worker.Relies (s : MetadataStore) (t : Telegram) (p : Worker) : Prop :=
  match p.phase with
  | .absent d => s.ambiguousSend p.job = false ∧ s.checkpointLocation p.job d.order = none
  | .sending d attempt => s.Sending (p.job, d.order, attempt)
  | .answered d attempt reply => s.Sending (p.job, d.order, attempt) ∧
      ∀ e, reply = .error e → e.floodWait = true → (p.job, d.order, attempt) ∉ t.keys
  | .stopped => True
  | _ => s.ambiguousSend p.job = false

structure Worker.Sound (s : MetadataStore) (t : Telegram) (p : Worker) : Prop where
  placed : p.Placed t
  relies : Holds s p.job p.lease → p.Relies s t

theorem Telegram.Places.mono {t t' : Telegram} (h : t.Places job chunks)
    (hd : t.documents ⊆ t'.documents) : t'.Places job chunks := by
  intro c hc hr
  obtain ⟨attempt, ha⟩ := h c hc hr
  exact ⟨attempt, hd ha⟩

theorem SendTarget.Placed.mono {t t' : Telegram} {d : SendTarget} (h : d.Placed t job)
    (hd : t.documents ⊆ t'.documents) : d.Placed t' job := by
  cases d with
  | chunk m done c rest => exact ⟨h.1.mono hd, h.2⟩
  | document m => exact Telegram.Places.mono h hd

namespace Worker
variable {s s' : MetadataStore} {t t' : Telegram} {p : Worker}

theorem Placed.mono (h : p.Placed t) (hd : t.documents ⊆ t'.documents) : p.Placed t' := by
  obtain ⟨job, objectId, lease, phase⟩ := p
  cases phase with
  | chunks m done rest => exact Telegram.Places.mono h hd
  | absent d => exact SendTarget.Placed.mono h hd
  | sending d attempt => exact SendTarget.Placed.mono h hd
  | answered d attempt reply => exact ⟨h.1.mono hd, fun l hl => hd (h.2 l hl)⟩
  | fenced m => exact Telegram.Places.mono h hd
  | ready m =>
    obtain ⟨attempt, ha⟩ := h.2
    exact ⟨h.1.mono hd, attempt, hd ha⟩
  | loading | finishing | stopped => trivial

theorem Relies.step (h : p.Relies s t) (hu : Undisturbed p.job s s')
    (hk : ∀ k a, s.sendAttempts.get? k = some a → k ∈ t'.keys → k ∈ t.keys) :
    p.Relies s' t' := by
  obtain ⟨job, objectId, lease, phase⟩ := p
  cases phase with
  | absent d => exact ⟨hu.resolved h.1, hu.absent _ h.1 h.2⟩
  | sending d attempt => exact hu.sending _ rfl h
  | answered d attempt reply =>
    obtain ⟨a, ha, -⟩ := h.1
    exact ⟨hu.sending _ rfl h.1, fun e he hf hm => h.2 e he hf (hk _ a ha hm)⟩
  | stopped => trivial
  | loading | chunks | fenced | ready | finishing => exact hu.resolved h

theorem Sound.step (h : p.Sound s t) (hd : t.documents ⊆ t'.documents)
    (hk : ∀ k a, s.sendAttempts.get? k = some a → k ∈ t'.keys → k ∈ t.keys)
    (hh : Holds s' p.job p.lease → Holds s p.job p.lease ∧ Undisturbed p.job s s') :
    p.Sound s' t' := by
  refine ⟨h.placed.mono hd, fun hl => ?_⟩
  obtain ⟨hold, hu⟩ := hh hl
  exact (h.relies hold).step hu hk

theorem Placed.located {d : SendTarget} (h : d.Placed t p.job)
    (hl : t.Accepted p.job d.order l) : Placed t { p with phase := d.located l } := by
  cases d with
  | chunk m done c rest =>
    intro x hx hr
    rcases List.mem_append.1 hx with hx | hx
    · exact h.1 x hx hr
    · rw [List.mem_singleton.1 hx]
      exact hl
  | document m => exact ⟨h, hl⟩

theorem Relies.located {d : SendTarget} (h : s.ambiguousSend p.job = false) :
    Relies s t { p with phase := d.located l } := by
  cases d <;> exact h

theorem Sound.lookUp (h : d.Placed t p.job) (ha : Accounted issued s t)
    (hs : Holds s p.job p.lease → s.ambiguousSend p.job = false) :
    Sound s t { p with phase := s.lookUp p.job d } := by
  unfold MetadataStore.lookUp
  split
  · rename_i l hl
    exact ⟨.located h (ha.accepted _ _ l hl), fun hh => .located (hs hh)⟩
  · rename_i hn
    exact ⟨h, fun hh => ⟨hs hh, hn⟩⟩

theorem Sound.read (h : p.Sound s t) (ha : Accounted issued s t) :
    Sound s t { p with phase := p.read s } := by
  have hp := h.placed
  have hr := h.relies
  obtain ⟨job, objectId, lease, phase⟩ := p
  cases phase with
  | loading =>
    simp only [Worker.read]
    split
    · refine ⟨fun c hc => ?_, hr⟩
      cases hc
    · exact ⟨trivial, fun _ => trivial⟩
  | chunks m done rest =>
    cases rest with
    | nil => exact h
    | cons c rest =>
      simp only [Worker.read]
      split
      · rename_i hc
        split
        · exact ⟨trivial, fun _ => trivial⟩
        · refine ⟨fun x hx hn => ?_, hr⟩
          rcases List.mem_append.1 hx with hx | hx
          · exact hp x hx hn
          · rw [List.mem_singleton.1 hx, hc] at hn
            cases hn
      · rename_i hc
        exact Sound.lookUp (d := .chunk m done c rest) ⟨hp, eq_false_of_ne_true hc⟩ ha hr
  | fenced m => exact Sound.lookUp (d := .document m) hp ha hr
  | absent | sending | answered | ready | finishing | stopped => exact h

end Worker

/-- The store calls of a worker, each with the phase it starts from. -/
inductive WorkerCall (p : Worker) : StoreOp → WorkerPhase → Prop where
  | fence : p.phase = .chunks m done [] →
      WorkerCall p (.enterCommitting p.job p.lease now) (.fenced { m with
        chunks := done.insertionSort fun a b => a.order ≤ b.order, commitState := .committed })
  | begin : p.phase = .absent d →
      WorkerCall p (.beginSendAttempt p.job p.lease d.order attempt now) (.sending d attempt)
  | finish : p.phase = .answered d attempt (.ok l) →
      WorkerCall p (.finishSendAttempt p.job p.lease d.order attempt l now) (d.located l)
  | flood : p.phase = .answered d attempt (.error e) → isExplicitFloodWait e = true →
      WorkerCall p (.markSendAttemptRetryable p.job p.lease d.order attempt "telegram_flood_wait"
        e.text now) .stopped
  | lost : p.phase = .answered d attempt (.error e) →
      WorkerCall p (.markSendAttemptUnknown p.job p.lease d.order attempt "telegram_send"
        e.text now) .stopped
  | update : p.phase = .ready m → WorkerCall p (.updateManifest m) .finishing
  | commit : p.phase = .ready m →
      WorkerCall p (.commitTransferManifest p.job p.lease m now) .stopped
  | part : p.phase = .finishing → WorkerCall p (.finishPartJob p.job p.lease now) .stopped

theorem WorkerCall.of_step (h : p.step s mv = some (op, phase)) : WorkerCall p op phase := by
  unfold Worker.step at h
  split at h
  · rename_i hp
    cases h
    exact .fence hp
  · rename_i hp
    cases h
    exact .begin hp
  · rename_i d attempt reply now hp
    cases reply with
    | ok l =>
      cases h
      exact .finish hp
    | error e =>
      simp only [Worker.recordOp] at h
      split at h
      · rename_i he
        cases h
        exact .flood hp he
      · cases h
        exact .lost hp
  · rename_i hp
    split at h
    · cases h
      exact .update hp
    · cases h
      exact .commit hp
  · rename_i hp
    cases h
    exact .part hp
  · cases h

theorem holds_of_mark
    (h : s.markSendAttempt job lease order attempt st retryable kind text message now = .ok s') :
    Holds s job lease := by
  unfold markSendAttempt at h
  split at h
  · cases h
  · rename_i hl
    exact holds_of_leasedJob (by simpa using hl)

theorem WorkerCall.fenced (hc : WorkerCall p op phase) (hs : StoreStep fromStr op s s') :
    Holds s p.job p.lease ∨
      s'.sendAttempts = s.sendAttempts ∧ s'.transferChunks = s.transferChunks := by
  cases hc with
  | begin h => exact .inl (holds_of_holdsLease (beginSendAttempt_ok (after_eq_some.1 hs)).1)
  | finish h => exact .inl (holds_of_holdsLease (finishSendAttempt_ok (after_eq_some.1 hs)).1)
  | flood | lost => exact .inl (holds_of_mark (after_eq_some.1 hs))
  | fence | update | commit | part =>
    exact .inr ⟨StoreOp.frame hs .attempts rfl, StoreOp.frame hs .chunks rfl⟩

theorem WorkerCall.undisturbed (hc : WorkerCall p op phase)
    (hs : StoreStep fromStr op s s') (hne : lease ≠ p.lease) (h : Holds s' job lease) :
    Holds s job lease ∧ Undisturbed job s s' := by
  have hold : Holds s job lease := by
    apply h.before hs
    rintro now rfl
    cases hc
  refine ⟨hold, ?_⟩
  rcases hc.fenced hs with hp | ⟨ha, hch⟩
  · have hj : job ≠ p.job := by
      rintro rfl
      exact hne (hold.unique hp)
    cases hc with
    | begin h => exact .begin (after_eq_some.1 hs) hj
    | finish h => exact .finish (after_eq_some.1 hs) hj
    | flood h | lost h => exact .mark (after_eq_some.1 hs) hj
    | fence | update | commit | part =>
      exact .of_same (StoreOp.frame hs .attempts rfl) (StoreOp.frame hs .chunks rfl)
  · exact .of_same ha hch

def Telegram.handed (t : Telegram) (op : StoreOp) : Telegram :=
  { t with inFlight := op.launches ++ t.inFlight }

theorem Accounted.finished (h : Accounted issued s t)
    (hs : s.finishSendAttempt job lease order attempt l now = .ok s') :
    s'.ambiguousSend job = false := by
  obtain ⟨-, s₁, hu, rfl⟩ := finishSendAttempt_ok hs
  obtain ⟨a, ha, hst, hrows, -⟩ := updateAttempt_get? hu
  obtain ⟨hm, hk⟩ := get?_eq_some.1 ha
  by_contra hn
  obtain ⟨b, hb, hj, hsb⟩ := ambiguousSend_eq_true.1 (eq_true_of_ne_false hn)
  have hg := mem_iff_get?.1 hb
  rw [show ((s₁.checkpoint job order l).countChunks job now).sendAttempts =
    s₁.sendAttempts from rfl, hrows] at hg
  split at hg
  · cases hg
    cases hsb
  · rename_i hne
    apply hne
    have hab := h.open_unique a hm b (mem_of_get? hg)
      ((congrArg Prod.fst hk).trans hj.symm) (by rw [hst]; rfl) hsb
    rw [← hab]
    exact hk

namespace WorkerCall
variable {s s' : MetadataStore} {t : Telegram} {p : Worker}

section
variable (hc : WorkerCall p op phase) (hs : StoreStep fromStr op s s')
include hc hs

theorem accounted (h : Accounted issued s t) (hp : p.Sound s t) :
    Accounted issued s' (t.handed op) := by
  have hplaced := hp.placed
  have hrelies := hp.relies
  obtain ⟨job, objectId, lease, q⟩ := p
  cases hc with
  | begin he =>
    cases he
    obtain ⟨hl, hn, rfl⟩ := beginSendAttempt_ok (after_eq_some.1 hs)
    have hold := holds_of_holdsLease hl
    obtain ⟨j, hj, -⟩ := id hold
    exact h.launch rfl (by rw [hj]; exact Option.some_ne_none j) (hrelies hold).1
      (hrelies hold).2 hn
  | finish he =>
    cases he
    exact h.finish (after_eq_some.1 hs) (hplaced.2 _ rfl)
  | @flood _ _ e _ he hfl =>
    cases he
    have hm := after_eq_some.1 hs
    refine h.mark hm (.inl rfl) fun _ => ?_
    exact (hrelies (holds_of_mark hm)).2 e rfl (by simp [SendError.floodWait, hfl])
  | @lost _ _ e _ he =>
    cases he
    have hm := after_eq_some.1 hs
    refine h.mark hm (.inr rfl) fun hg => ?_
    have htext := hg.resolve_left (by decide)
    exact (hrelies (holds_of_mark hm)).2 e rfl (by simp [SendError.floodWait, htext])
  | fence | update | commit | part =>
    exact h.same (.of_kept hs rfl) (StoreOp.frame hs .attempts rfl) (StoreOp.frame hs .chunks rfl)

theorem mem_handed (hk : s.sendAttempts.get? k = some a) (hm : k ∈ (t.handed op).keys) :
    k ∈ t.keys := by
  cases hc with
  | begin he =>
    obtain ⟨-, hn, -⟩ := beginSendAttempt_ok (after_eq_some.1 hs)
    rcases List.mem_cons.1 hm with rfl | hm
    · rw [hn] at hk
      cases hk
    · exact hm
  | fence | finish | flood | lost | update | commit | part => exact hm

theorem sound (h : Accounted issued s t) (hp : p.Sound s t) :
    Worker.Sound s' (t.handed op) { p with phase } := by
  have hplaced := hp.placed
  have hrelies := hp.relies
  have hbefore : Holds s' p.job p.lease → Holds s p.job p.lease := by
    intro hh
    apply hh.before hs
    rintro now rfl
    cases hc
  obtain ⟨job, objectId, lease, q⟩ := p
  cases hc with
  | fence he =>
    cases he
    refine ⟨fun c hm hr => hplaced c ((List.mem_insertionSort _).1 hm) hr, fun hh => ?_⟩
    exact (Undisturbed.call hs rfl).resolved (hrelies (hbefore hh))
  | begin he =>
    cases he
    obtain ⟨-, hn, rfl⟩ := beginSendAttempt_ok (after_eq_some.1 hs)
    exact ⟨hplaced, fun _ => ⟨_, get?_insertOrIgnore_self hn, rfl⟩⟩
  | finish he =>
    cases he
    exact ⟨.located hplaced.1 ⟨_, hplaced.2 _ rfl⟩,
      fun _ => .located (h.finished (after_eq_some.1 hs))⟩
  | update he =>
    cases he
    exact ⟨trivial, fun hh => (Undisturbed.call hs rfl).resolved (hrelies (hbefore hh))⟩
  | flood | lost | commit | part => exact ⟨trivial, fun _ => trivial⟩

end

end WorkerCall
namespace SendWorld

structure Sound (w : SendWorld) : Prop where
  accounted : Accounted w.issued w.store w.telegram
  distinct : (w.workers.map Worker.lease).Nodup
  issued : ∀ p ∈ w.workers, p.lease ∈ w.issued
  workers : ∀ p ∈ w.workers, p.Sound w.store w.telegram

theorem Initial.sound {w : SendWorld} (h : w.Initial) : w.Sound := by
  have hk : w.telegram.keys = [] := by rw [h.telegram]; rfl
  refine ⟨⟨?_, ?_, ?_, ?_, ?_, ?_, ?_, ?_⟩, ?_, ?_, ?_⟩
  all_goals simp [h.jobs, h.attempts, h.workers, hk, checkpointLocation, h.chunks]

section Workers
variable {l : List Worker} {p q : Worker}

theorem map_lease_set (hp : l[i]? = some p) (phase : WorkerPhase) :
    (l.set i { p with phase }).map Worker.lease = l.map Worker.lease := by
  rw [List.map_set]
  apply List.ext_getElem?
  intro j
  rw [List.getElem?_set]
  split
  · rename_i he
    subst he
    obtain ⟨hi, rfl⟩ := List.getElem?_eq_some_iff.1 hp
    simp [hi]
  · rfl

theorem mem_set_worker (hn : (l.map Worker.lease).Nodup) (hp : l[i]? = some p)
    (hq : q ∈ l.set i p') : q = p' ∨ q ∈ l ∧ q.lease ≠ p.lease := by
  obtain ⟨j, hj⟩ := List.mem_iff_getElem?.1 hq
  rw [List.getElem?_set] at hj
  split at hj
  · split at hj
    · exact .inl (Option.some.inj hj).symm
    · cases hj
  · rename_i hne
    refine .inr ⟨List.mem_iff_getElem?.2 ⟨j, hj⟩, fun he => hne ?_⟩
    obtain ⟨hi, -⟩ := List.getElem?_eq_some_iff.1 hp
    apply (List.getElem?_inj (l := l.map Worker.lease) (by simpa using hi) hn).1
    rw [List.getElem?_map, List.getElem?_map, hp, hj]
    exact congrArg some he.symm

end Workers

namespace Sound
variable {w w' : SendWorld}

section
variable (h : w.Sound)
include h

theorem connect (hs : SendStep fromStr (.call a) w w') : w'.Sound := by
  simp only [SendStep, SendAction.apply] at hs
  split at hs
  · cases hs
  · rename_i hn
    simp only [Bool.or_eq_true, List.any_eq_true, List.contains_iff_mem, not_or, not_exists,
      not_and, Bool.not_eq_true] at hn
    obtain ⟨s', ha, rfl⟩ := Option.map_eq_some_iff.1 hs
    refine ⟨h.accounted.connect ha hn.1 hn.2, h.distinct,
      fun p hp => List.mem_append_right _ (h.issued p hp), fun p hp => ?_⟩
    exact (h.workers p hp).step (fun _ h => h) (fun _ _ _ h => h) (Holds.connect ha hn.1)

theorem claim (hs : SendStep fromStr (.claim now lease) w w') : w'.Sound := by
  simp only [SendStep, SendAction.apply] at hs
  split at hs
  · cases hs
  rename_i hn
  rw [List.contains_iff_mem] at hn
  cases hs
  have hc : StoreStep fromStr (.claimTransfer now lease) w.store
      (w.store.claimTransfer now lease).2 := rfl
  have hnew : ∀ p ∈ (w.store.claimTransfer now lease).1.toList.map fun j =>
      ({ job := j.id, objectId := j.objectId, lease } : Worker), p.lease = lease ∧
        p.Sound (w.store.claimTransfer now lease).2 w.telegram := by
    intro p hp
    obtain ⟨j, hj, rfl⟩ := List.mem_map.1 hp
    exact ⟨rfl, trivial, fun _ => claimTransfer_resolved (Option.mem_toList.1 hj)⟩
  have hold : ∀ p ∈ w.workers, p.lease ≠ lease := by
    rintro p hp rfl
    exact hn (h.issued p hp)
  refine ⟨h.accounted.claim now lease, ?_, ?_, ?_⟩
  · rw [List.map_append, List.nodup_append]
    refine ⟨h.distinct, ?_, ?_⟩
    · cases (w.store.claimTransfer now lease).1 <;> simp
    · intro a ha b hb
      obtain ⟨p, hp, rfl⟩ := List.mem_map.1 ha
      obtain ⟨q, hq, rfl⟩ := List.mem_map.1 hb
      rw [(hnew q hq).1]
      exact hold p hp
  · intro p hp
    rcases List.mem_append.1 hp with hp | hp
    · exact List.mem_cons_of_mem _ (h.issued p hp)
    · rw [(hnew p hp).1]
      exact List.mem_cons_self
  · intro p hp
    rcases List.mem_append.1 hp with hm | hm
    · refine (h.workers p hm).step (fun _ h => h) (fun _ _ _ h => h) fun hh => ?_
      refine ⟨hh.before hc ?_, .claim hh (hold p hm)⟩
      intro now' he
      cases he
      exact hold p hm rfl
    · exact (hnew p hm).2

theorem run (hs : SendStep fromStr (.run i mv) w w') : w'.Sound := by
  obtain ⟨p, hp, hs⟩ := Option.bind_eq_some_iff.1 hs
  obtain ⟨⟨op, phase⟩, hstep, hs⟩ := Option.bind_eq_some_iff.1 hs
  obtain ⟨s', ha, rfl⟩ := Option.map_eq_some_iff.1 hs
  have hc := WorkerCall.of_step hstep
  have hsound := h.workers p (List.mem_iff_getElem?.2 ⟨i, hp⟩)
  refine ⟨hc.accounted ha h.accounted hsound, ?_, ?_, ?_⟩
  · rw [map_lease_set hp]
    exact h.distinct
  · intro q hq
    rcases mem_set_worker h.distinct hp hq with rfl | ⟨hq, -⟩
    · exact h.issued p (List.mem_iff_getElem?.2 ⟨i, hp⟩)
    · exact h.issued q hq
  · intro q hq
    rcases mem_set_worker h.distinct hp hq with rfl | ⟨hq, hne⟩
    · exact hc.sound ha h.accounted hsound
    · exact (h.workers q hq).step (fun _ h => h) (fun _ _ hk hm => hc.mem_handed ha hk hm)
        (hc.undisturbed ha hne)

theorem moved {p : Worker} {q : WorkerPhase} (hp : w.workers[i]? = some p)
    (hq : Worker.Sound w.store w.telegram { p with phase := q }) :
    { w with workers := w.workers.set i { p with phase := q } }.Sound := by
  refine ⟨h.accounted, ?_, ?_, ?_⟩
  · rw [map_lease_set hp]
    exact h.distinct
  · intro r hm
    rcases mem_set_worker h.distinct hp hm with rfl | ⟨hm, -⟩
    · exact h.issued p (List.mem_iff_getElem?.2 ⟨i, hp⟩)
    · exact h.issued r hm
  · intro r hm
    rcases mem_set_worker h.distinct hp hm with rfl | ⟨hm, -⟩
    · exact hq
    · exact h.workers r hm

theorem reply (hs : SendStep fromStr (.reply i r) w w') : w'.Sound := by
  obtain ⟨p, hp, hs⟩ := Option.bind_eq_some_iff.1 hs
  have hsound := h.workers p (List.mem_iff_getElem?.2 ⟨i, hp⟩)
  obtain ⟨job, objectId, lease, q⟩ := p
  cases q with
  | sending d attempt =>
    simp only at hs
    split at hs
    · rename_i hr
      cases hs
      refine h.moved hp ⟨⟨hsound.placed, ?_⟩, fun hh => ⟨hsound.relies hh, ?_⟩⟩
      · rintro l rfl
        exact List.contains_iff_mem.1 hr
      · rintro e rfl hf
        rw [Telegram.mayReply, hf] at hr
        exact Telegram.gone_eq_true.1 hr
    · cases hs
  | loading | chunks | absent | answered | fenced | ready | finishing | stopped => cases hs

theorem telegram (ha : Accounted w.issued w.store t)
    (hd : w.telegram.documents ⊆ t.documents) (hk : ∀ k, k ∈ t.keys → k ∈ w.telegram.keys) :
    { w with telegram := t }.Sound :=
  ⟨ha, h.distinct, h.issued, fun p hp =>
    (h.workers p hp).step hd (fun k _ _ => hk k) fun hh => ⟨hh, .of_same rfl rfl⟩⟩

theorem resolve (hs : SendStep fromStr (.resolve k found error now) w w') : w'.Sound := by
  simp only [SendStep, SendAction.apply] at hs
  split at hs
  · rename_i hm
    obtain ⟨s', hr, rfl⟩ := Option.map_eq_some_iff.1 hs
    have hr := after_eq_some.1 hr
    have hstep : StoreStep fromStr (.resolveSendAttempt k.1 k.2.1 k.2.2 found error now)
        w.store s' := after_eq_some.2 hr
    refine ⟨h.accounted.resolve hr hm, h.distinct, h.issued, fun p hp => ?_⟩
    refine (h.workers p hp).step (fun _ h => h) (fun _ _ _ h => h) fun hh => ?_
    refine ⟨hh.before hstep ?_, .resolve hr⟩
    intro now' he
    cases he
  · cases hs

theorem step (hs : SendStep fromStr a w w') : w'.Sound := by
  cases a with
  | call a => exact h.connect hs
  | claim now lease => exact h.claim hs
  | read i =>
    obtain ⟨p, hp, rfl⟩ := Option.map_eq_some_iff.1 hs
    exact h.moved hp ((h.workers p (List.mem_iff_getElem?.2 ⟨i, hp⟩)).read h.accounted)
  | run i mv => exact h.run hs
  | reply i r => exact h.reply hs
  | stop i =>
    obtain ⟨p, hp, rfl⟩ := Option.map_eq_some_iff.1 hs
    exact h.moved hp ⟨trivial, fun _ => trivial⟩
  | accept k l =>
    simp only [SendStep, SendAction.apply] at hs
    split at hs
    · rename_i hk
      cases hs
      have hk := List.contains_iff_mem.1 hk
      exact h.telegram (h.accounted.accept hk) (List.subset_cons_self _ _)
        fun _ => (Telegram.mem_keys_accept hk).1
    · cases hs
  | lose k =>
    cases hs
    exact h.telegram (h.accounted.lose k) (fun _ h => h)
      fun _ hm => (w.telegram.lose_sublist k).subset hm
  | resolve k found error now => exact h.resolve hs

end

end Sound

theorem sound_of_run (hr : Run Initial (SendStep fromStr) past w) : w.Sound :=
  hr.invariant (fun _ h => h.sound) fun _ _ _ h hs => h.step hs

end SendWorld

theorem WorkerCall.rows (hc : WorkerCall p op phase) (hp : p.phase = .ready m)
    (hs : StoreStep fromStr op s s') (hr : r ∈ s'.objectManifests) :
    r ∈ s.objectManifests ∨ ∃ state, r.manifest = m.withState state := by
  cases hc with
  | update he =>
    rw [hp] at he
    cases he
    cases hs
    simp only [updateManifest, mem_modify] at hr
    obtain ⟨r, hm, rfl⟩ := hr
    split
    · exact .inr ⟨m.commitState, rfl⟩
    · exact .inl hm
  | @commit _ now he =>
    rw [hp] at he
    cases he
    obtain ⟨⟨m', s₁⟩, hcommit, rfl⟩ := map_ok.1 (after_eq_some.1 hs)
    obtain ⟨e, -, ⟨-, rfl⟩ | ⟨m₀, hsub, -, -, hs₁⟩⟩ := commitManifestInner_ok hcommit
    · exact .inl hr
    · have hm := commitSubject_published hsub
      subst hm
      have hrows : r ∈ (s.publishManifest p.job m₀ now).objectManifests := by
        rcases hs₁ with ⟨-, rfl⟩ | ⟨upload, -, rfl⟩ <;> exact hr
      simp only [publishManifest, mem_modify] at hrows
      obtain ⟨o, hm, rfl⟩ := hrows
      split
      · exact .inr ⟨.committed, rfl⟩
      · exact .inl hm
  | fence he | begin he | finish he | flood he | lost he | part he =>
    rw [hp] at he
    cases he

theorem published_at_most_once (fromStr : String → Option ETagCondition) :
    AtMostOnce (SendStep fromStr) where
  accepted past w hr := by
    obtain ⟨-, hd, -⟩ := List.pairwise_append.1 (SendWorld.sound_of_run hr).accounted.single
    exact List.pairwise_map.1 hd
  open_unique past w hr := (SendWorld.sound_of_run hr).accounted.open_unique
  recorded past w hr i now w' p m hs hp hm := by
    have hsound := (SendWorld.sound_of_run hr).workers p (List.mem_iff_getElem?.2 ⟨i, hp⟩)
    have hplaced := hsound.placed
    rw [Worker.Placed, hm] at hplaced
    obtain ⟨q, hq, hs⟩ := Option.bind_eq_some_iff.1 hs
    rw [hp] at hq
    cases hq
    obtain ⟨⟨op, phase⟩, hstep, hs⟩ := Option.bind_eq_some_iff.1 hs
    obtain ⟨s', ha, rfl⟩ := Option.map_eq_some_iff.1 hs
    refine ⟨hplaced.1, hplaced.2, fun r hr => ?_⟩
    rcases (WorkerCall.of_step hstep).rows hm ha hr with hr | ⟨state, hr⟩
    · exact .inl hr
    · rw [hr]
      exact .inr ⟨rfl, rfl⟩

/-- What was sent has its attempt on record, and checkpoints name accepted documents. -/
structure WriteAhead (Step : SendAction → SendWorld → SendWorld → Prop) : Prop where
  sent : ∀ past w, Run SendWorld.Initial Step past w → ∀ k ∈ w.telegram.keys,
    (∃ a, w.store.sendAttempts.get? k = some a) ∨ w.store.transferJobs.get? k.1 = none
  accepted : ∀ past w, Run SendWorld.Initial Step past w → ∀ job order l,
    w.store.checkpointLocation job order = some l → w.telegram.Accepted job order l

theorem sends_write_ahead : WriteAhead (SendStep fromStr) where
  sent _ _ hr k hk := ((SendWorld.sound_of_run hr).accounted.sent k hk).imp_right And.left
  accepted _ _ hr := (SendWorld.sound_of_run hr).accounted.accepted

/-- One object from its reception to its publication, with one send. -/
def publicationActions (l : TelegramLocation) (now : Int) : List SendAction :=
  [.call (.call (.beginTransfer ⟨1⟩ "photos" "a" now)),
    .call (.call (.stageManifest .put (emptyObject ⟨1⟩ "photos" "a") (instant 1))),
    .call (.call (.queueTransfer ⟨1⟩ 0 now)), .claim now ⟨11⟩, .read 0, .run 0 (.fence now),
    .read 0, .run 0 (.begin ⟨21⟩ now), .accept (⟨1⟩, manifestOrder, ⟨21⟩) l, .reply 0 (.ok l),
    .run 0 (.record now), .run 0 (.publish (instant 1))]

example : (exec (SendAction.apply fun _ => none) [] { store := photosStore }
    (publicationActions { peerId := "-1001", messageId := 7, documentId := none }
      (instant 1).unixTimestamp)).map
      (fun r => (r.2.telegram.documents.length, r.2.store.activeObjectId "photos" "a")) =
    some (1, some ⟨1⟩) := by
  decide

end TelegramS3
