import TelegramS3.Publication

namespace TelegramS3
open Relational Table Fallible Transition MetadataStore
set_option autoImplicit true

def CommittedIn (states : List MetadataStore) (operation : Uuid) : Prop :=
  ∃ t ∈ states, ∃ e ∈ t.operationJournal, e.operationId = operation ∧ e.state = .committed

/-- Committing an operation again fails or leaves objects, index and outbox as they are. -/
def CommitIdempotent (fromStr : String → Option ETagCondition)
    (Step : StoreOp → MetadataStore → MetadataStore → Prop) : Prop :=
  ∀ past s, Run EmptyStore Step past s → ∀ operation, CommittedIn (s :: past) operation →
    ∀ now m s', s.commitManifest fromStr operation now = .ok (m, s') →
      s'.objectManifests = s.objectManifests ∧ s'.activeObjects = s.activeObjects ∧
        s'.outbox.targets = s.outbox.targets

def Carried (s : MetadataStore) (operation : Uuid) : Prop :=
  ∃ j ∈ s.transferJobs, j.operationId = some operation

/-- A commit without a lease is for the operation of a transfer. -/
def CommitsCarried (op : StoreOp) (s : MetadataStore) : Prop :=
  ∀ operation now, op = .commitManifest operation now → Carried s operation

def JournalQuiet (s s' : MetadataStore) : Prop :=
  ∀ e' ∈ s'.operationJournal, e'.state = .committed →
    ∃ e ∈ s.operationJournal, e.operationId = e'.operationId ∧ e.state = .committed

theorem JournalQuiet.of_eq (h : s'.operationJournal = s.operationJournal) : JournalQuiet s s' := by
  intro e he hst
  rw [h] at he
  exact ⟨e, he, rfl, hst⟩

theorem JournalQuiet.trans (h : JournalQuiet s t) (h' : JournalQuiet t u) : JournalQuiet s u := by
  intro e'' he'' hst
  obtain ⟨e', he', hid', hst'⟩ := h' e'' he'' hst
  obtain ⟨e, he, hid, hst⟩ := h e' he' hst'
  exact ⟨e, he, hid.trans hid', hst⟩

variable {s s' : MetadataStore}

theorem JournalQuiet.of_delete
    (h : s'.operationJournal = s.operationJournal.delete p) : JournalQuiet s s' := by
  intro e he hst
  rw [h] at he
  exact ⟨e, (mem_delete.1 he).1, rfl, hst⟩

theorem JournalQuiet.of_update {p : JournalRow → Bool} {f : JournalRow → JournalRow}
    (h : s'.operationJournal.rows = s.operationJournal.rows.map fun e => if p e then f e else e)
    (hf : ∀ e, (f e).state ≠ .committed) : JournalQuiet s s' := by
  intro e' he' hst
  rw [mem_def, h, List.mem_map] at he'
  obtain ⟨e, he, rfl⟩ := he'
  split at hst
  · exact absurd hst (hf e)
  · rw [if_neg ‹_›]
    exact ⟨e, he, rfl, hst⟩

theorem stageRows_quiet (s : MetadataStore) (kind : OperationKind) (m : ObjectManifest)
    (now : OffsetDateTime) : JournalQuiet s (s.stageRows kind m now) := by
  intro e he hst
  rcases mem_upsertWith.1 he with rfl | ⟨he, -⟩
  · revert hst
    generalize s.operationJournal.get? _ = o
    cases o <;> exact nofun
  · exact ⟨e, he, rfl, hst⟩

def Settled (s : MetadataStore) (operation : Uuid) : Prop :=
  ∃ j ∈ s.transferJobs, j.operationId = some operation ∧ j.state.published = true

theorem committedStore_settles (h : ∃ j ∈ s.transferJobs, j.operationId = some operation ∧
      completes operation transfer j = true) (m : ObjectManifest) (now : OffsetDateTime) :
    Settled (s.committedStore operation transfer m now) operation := by
  obtain ⟨j, hj, ho, hc⟩ := h
  refine ⟨TransferJob.complete now.unixTimestamp j, ?_, ho, rfl⟩
  simp only [committedStore, mem_modify]
  exact ⟨j, hj, if_pos hc⟩

theorem commitFence_carried (h : s.commitFence operation transfer now = .ok ())
    (hc : transfer = none → Carried s operation) :
    ∃ j ∈ s.transferJobs, j.operationId = some operation ∧
      completes operation transfer j = true := by
  cases transfer with
  | none =>
    obtain ⟨j, hj, ho⟩ := hc rfl
    exact ⟨j, hj, ho, decide_eq_true ho⟩
  | some t =>
    obtain ⟨jobId, lease⟩ := t
    obtain ⟨j, hj, hstate, hlease, ho⟩ := commitFence_job h
    have hid : j.id = jobId := key_of_get? hj
    exact ⟨j, mem_of_get? hj, ho, by simp [completes, hid, hstate, hlease]⟩

theorem publishManifest_journal (m : ObjectManifest)
    (he' : e' ∈ (s.publishManifest operation m now).operationJournal)
    (hst : e'.state = .committed) :
    (∃ e ∈ s.operationJournal, e.operationId = e'.operationId ∧ e.state = .committed) ∨
      e'.operationId = operation := by
  simp only [publishManifest] at he'
  obtain ⟨e, -, ho, rfl⟩ | ⟨he, -⟩ := of_mem_modify he'
  · exact .inr (of_decide_eq_true ho)
  · exact .inl ⟨e', he, rfl, hst⟩

theorem commitManifestInner_journal
    (h : s.commitManifestInner fromStr operation transfer published now = .ok (m', s'))
    (hc : transfer = none → Carried s operation)
    (he' : e' ∈ s'.operationJournal) (hst : e'.state = .committed) :
    (∃ e ∈ s.operationJournal, e.operationId = e'.operationId ∧ e.state = .committed) ∨
      Settled s' e'.operationId := by
  obtain ⟨e, -, ⟨-, rfl⟩ | ⟨m, -, hf, -, hs⟩⟩ := commitManifestInner_ok h
  · exact .inl ⟨e', he', rfl, hst⟩
  · have hj := commitFence_carried hf hc
    obtain ⟨-, rfl⟩ | ⟨upload, -, rfl⟩ := hs
    all_goals
      rcases publishManifest_journal m he' hst with he | ho
      · exact .inl he
      · rw [ho]
        exact .inr (committedStore_settles hj m now)

theorem StoreOp.journal_step {op : StoreOp} (hs : StoreStep fromStr op s s')
    (hc : CommitsCarried op s) (he' : e' ∈ s'.operationJournal) (hst : e'.state = .committed) :
    (∃ e ∈ s.operationJournal, e.operationId = e'.operationId ∧ e.state = .committed) ∨
      Settled s' e'.operationId := by
  have hq : JournalQuiet s s' →
      (∃ e ∈ s.operationJournal, e.operationId = e'.operationId ∧ e.state = .committed) ∨
        Settled s' e'.operationId := fun h => .inl (h e' he' hst)
  cases StoreOp.index_step hs with
  | kept hf => exact hq (.of_eq hf.journal)
  | staged kind m now => exact hq (stageRows_quiet s kind m now)
  | discarded _ _ _ _ _ hj => exact hq (.of_delete hj)
  | committed now hcall h =>
    refine commitManifestInner_journal h (fun ht => ?_) he' hst
    cases hcall with
    | plain => exact hc _ now rfl
    | leased => cases ht
    | completion _ hop =>
      obtain ⟨j, hj, ho⟩ := Option.bind_eq_some_iff.1 hop
      exact ⟨j, mem_of_get? hj, ho⟩
  | written | moved | reopened => exact hq (.of_eq rfl)
  | tombstoned _ _ _ _ _ _ _ hj _ =>
    exact hq (.of_update (congrArg Table.rows hj) fun _ h => by cases h)
  | expired =>
    refine hq (tombstoneExpiredActiveManifests_induction (.of_eq rfl) fun t r ht _ => ?_)
    exact ht.trans (.of_update rfl fun _ h => by cases h)
  | hidden => exact hq (.of_update rfl fun _ h => by cases h)

theorem Settled.step (h : Settled s operation) (ho : ∀ j ∈ s.transferJobs, j.OneId)
    (hs : StoreStep fromStr op s s') : Settled s' operation := by
  obtain ⟨j, hj, hop, hp⟩ := h
  obtain ⟨j', hj', hstep⟩ := StoreOp.job_step hs (mem_iff_get?.1 hj)
  refine ⟨j', mem_of_get? hj', ?_, hstep.published hp⟩
  rcases hstep.same.operation with he | he
  · exact he.trans hop
  · rw [he, (ho j hj).operation operation hop]

theorem Settled.commit (h : Settled s operation) (ho : ∀ j ∈ s.transferJobs, j.OneId)
    (hc : s.commitManifest fromStr operation now = .ok (m', s')) : s' = s := by
  obtain ⟨e, -, ⟨-, rfl⟩ | ⟨m, -, hf, -, -⟩⟩ := commitManifestInner_ok hc
  · rfl
  · obtain ⟨j, hj, hop, hp⟩ := h
    simp only [commitFence] at hf
    split at hf
    · rename_i hn
      exact absurd (decide_eq_true hop) (List.find?_eq_none.1 hn j hj)
    · rename_i i hi
      have him : i ∈ s.transferJobs := List.mem_of_find?_eq_some hi
      have hio := List.find?_some hi
      simp only [decide_eq_true_eq] at hio
      have hid : i.id = j.id :=
        ((ho i him).operation _ hio).symm.trans ((ho j hj).operation _ hop)
      have he : i = j := eq_of_key_eq him hj hid
      subst he
      have hl : i.state.published = false :=
        TransferState.published_of_leased (ensure_ok.1 hf)
      rw [hp] at hl
      cases hl

/-- Every operation committed so far has a published job. -/
structure CommitsSettled (past : List MetadataStore) (s : MetadataStore) : Prop where
  oneId : ∀ j ∈ s.transferJobs, j.OneId
  settled : ∀ operation, CommittedIn (s :: past) operation → Settled s operation

theorem CommitsSettled.step (h : CommitsSettled past s)
    (hs : Guarded (StoreStep fromStr) CommitsCarried op s s') : CommitsSettled (s :: past) s' where
  oneId := StoreOp.oneId_step h.oneId hs.1
  settled := by
    rintro operation ⟨t, ht, e', he', rfl, hst⟩
    have hb : CommittedIn (s :: past) e'.operationId ∨ Settled s' e'.operationId := by
      rcases List.mem_cons.1 ht with rfl | ht
      · rcases StoreOp.journal_step hs.1 hs.2 he' hst with ⟨e, he, hid, hst⟩ | hj
        · exact .inl ⟨s, List.mem_cons_self, e, he, hid, hst⟩
        · exact .inr hj
      · exact .inl ⟨t, ht, e', he', rfl, hst⟩
    rcases hb with hb | hb
    · exact (h.settled _ hb).step h.oneId hs.1
    · exact hb

def replacedVersions : List StoreOp :=
  [.stageManifest .put (emptyObject ⟨1⟩ "photos" "a") (instant 1), .commitManifest ⟨1⟩ (instant 1),
    .stageManifest .put (emptyObject ⟨2⟩ "photos" "a") (instant 2), .commitManifest ⟨2⟩ (instant 2)]

def replacedRun : List MetadataStore × MetadataStore :=
  (exec (StoreOp.apply fun _ => none) [] photosStore replacedVersions).get (by decide)

end TelegramS3
