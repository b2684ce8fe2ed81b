import TelegramS3.Reopening
import TelegramS3.Rows

namespace TelegramS3
open Relational Table Fallible Transition Versioned MetadataStore
set_option autoImplicit true

inductive CheckPhase where
  | listed | checked | retired
  deriving DecidableEq

/-- A manifest as it was when a reconcile or a verifier listed it. -/
structure Check where
  manifest : ObjectManifest
  phase : CheckPhase := .listed
  deriving DecidableEq

def Check.quarantines (c : Check) : Bool :=
  match c.phase, c.manifest.commitState with
  | .listed, .committed | .checked, .committed | .checked, .staging => true
  | _, _ => false

def Check.restores (c : Check) : Bool :=
  match c.phase, c.manifest.commitState with
  | .checked, .recoveryRequired | .retired, _ => true
  | _, _ => false

def Check.quarantineOp (c : Check) (now : OffsetDateTime) : StoreOp :=
  .updateManifestState c.manifest.objectId .recoveryRequired now

def Check.restoreOp (c : Check) (now : OffsetDateTime) : StoreOp :=
  .updateManifestState c.manifest.objectId .committed now

theorem Check.quarantines_state {c : Check} (h : c.quarantines = true) :
    c.manifest.commitState = .committed ∨ c.manifest.commitState = .staging := by
  unfold Check.quarantines at h
  split at h
  · exact .inl ‹_›
  · exact .inl ‹_›
  · exact .inr ‹_›
  · cases h

/-- The store with the checks under way and the objects staged, quarantined and departed. -/
structure RestoreWorld where
  store : MetadataStore
  issued : List Uuid := []
  checks : List Check := []
  quarantined : List Uuid := []
  lost : List Uuid := []

inductive RestoreAction where
  | call (op : StoreOp)
  | list
  | check (c : Check)
  | quarantine (c : Check) (now : OffsetDateTime)
  | restore (c : Check) (now : OffsetDateTime)
  | leave (c : Check)

def overwritten (s s' : MetadataStore) (object : Uuid) : Bool :=
  s.objectManifests.any fun r => r.objectId = object &&
    (s'.activeObjectId r.bucket r.objectKey).any fun n =>
      n != object && s.activeObjectId r.bucket r.objectKey != some n

def StoreOp.deletes (op : StoreOp) (s : MetadataStore) (object : Uuid) : Bool :=
  match op with
  | .deleteActiveKey bucket key .. => s.objectManifests.any fun r =>
    r.objectId = object && r.bucket = bucket && r.objectKey = key
  | .tombstoneManifest id .. => id = object
  | .tombstoneExpiredActiveManifests now => s.activeCommitted.any fun r =>
    r.objectId = object && r.manifest.isExpired now
  | .beginConnectionRemoval .. => s.objectManifests.any fun r =>
    r.objectId = object && r.connectionId = s.activeConnectionId
  | _ => false

def StoreOp.setsState : StoreOp → Bool
  | .updateManifestState .. => true
  | _ => false

namespace RestoreWorld

/-- The store after a call, with the quarantined objects that the call overwrote or deleted. -/
def move (w : RestoreWorld) (op : StoreOp) (s : MetadataStore) : RestoreWorld :=
  { w with
    store := s
    issued := op.stagedObject.toList ++ w.issued
    lost := (w.quarantined.filter fun o =>
      overwritten w.store s o || op.deletes w.store o) ++ w.lost }

def Held (w : RestoreWorld) (object : Uuid) : Prop :=
  ∃ c ∈ w.checks, c.manifest.objectId = object ∧
    (c.manifest.commitState = .recoveryRequired ∨ c.phase = .retired)

/-- A version without a transfer that is quarantined, or held by a reconcile. -/
structure AtRisk (w : RestoreWorld) (r : ManifestRow) : Prop where
  jobless : w.store.transferJobs.get? r.objectId = none
  restorable : r.commitState = .recoveryRequired ∨ w.Held r.objectId

def Unrivalled (w : RestoreWorld) (object : Uuid) : Prop :=
  ∀ row ∈ w.store.objectManifests, row.objectId = object → ∀ r ∈ w.store.objectManifests,
    r.bucket = row.bucket → r.objectKey = row.objectKey → w.AtRisk r → r.objectId = object

end RestoreWorld

/-- Checks alone set states, ids staged are new, and write-backs go to the row read. -/
def RestoreAction.apply (fromStr : String → Option ETagCondition) (a : RestoreAction)
    (w : RestoreWorld) : Option RestoreWorld :=
  match a with
  | .call op =>
    if op.setsState || op.stagedObject.any (· ∈ w.issued) then none
    else (op.serve fromStr w.store).map (w.move op)
  | .list => (after w.store.listManifests).map fun l =>
    { w with checks := l.map (fun m => { manifest := m }) ++ w.checks }
  | .check c =>
    if c ∈ w.checks ∧ c.phase = .listed ∧
        w.store.transferJobs.get? c.manifest.objectId = none then
      some { w with checks := { c with phase := .checked } :: w.checks.erase c }
    else none
  | .quarantine c now =>
    if c ∈ w.checks ∧ c.quarantines = true then
      ((c.quarantineOp now).apply fromStr w.store).map fun s =>
        { w.move (c.quarantineOp now) s with
          checks := (if c.phase = .checked ∧ c.manifest.commitState = .committed then
            [{ c with phase := .retired }] else []) ++ w.checks.erase c
          quarantined := c.manifest.objectId :: w.quarantined }
    else none
  | .restore c now =>
    if c ∈ w.checks ∧ c.restores = true then
      ((c.restoreOp now).apply fromStr w.store).map fun s =>
        { w.move (c.restoreOp now) s with checks := w.checks.erase c }
    else none
  | .leave c => some { w with checks := w.checks.erase c }

def RestoreStep (fromStr : String → Option ETagCondition) (a : RestoreAction)
    (w w' : RestoreWorld) : Prop :=
  a.apply fromStr w = some w'

structure RestoreWorld.Initial (w : RestoreWorld) : Prop where
  store : EmptyStore w.store
  checks : w.checks = []
  quarantined : w.quarantined = []
  lost : w.lost = []

/-- A restored object finds its key empty or its own, and none that has departed returns. -/
def RestoresNothingNewer (Step : RestoreAction → RestoreWorld → RestoreWorld → Prop) : Prop :=
  ∀ past w, Run RestoreWorld.Initial Step past w →
    (∀ c now w', Step (.restore c now) w w' → ∀ r ∈ w.store.objectManifests,
      r.objectId = c.manifest.objectId →
        w.store.activeObjectId r.bucket r.objectKey = none ∨
          w.store.activeObjectId r.bucket r.objectKey = some r.objectId) ∧
    ∀ object ∈ w.lost, ∀ r ∈ w.store.objectManifests, r.objectId = object →
      w.store.activeObjectId r.bucket r.objectKey ≠ some object

/-- While a version may be restored, its key is neither committed again nor deleted; write-backs
keep states, commits without a job are first ones, jobs are opened for new or staged objects, and
the index is rebuilt as it was. -/
def CallsSafely (op : StoreOp) (w : RestoreWorld) : Prop :=
  match op with
  | .beginTransfer object .. => object ∉ w.issued ∨
    ∃ r ∈ w.store.objectManifests, r.objectId = object ∧ r.commitState = .staging
  | .updateManifest m => ∀ r ∈ w.store.objectManifests, r.objectId = m.objectId →
    m.commitState = r.commitState
  | .commitManifest operation _ => w.Unrivalled operation ∧
    ((∃ j ∈ w.store.transferJobs, j.operationId = some operation) ∨
      w.store.transferJobs.get? operation = none ∧
      ∀ r ∈ w.store.objectManifests, r.objectId = operation → r.commitState = .staging)
  | .commitTransferManifest object .. | .finishPartJob object .. => w.Unrivalled object
  | .deleteActiveKey bucket key .. => ∀ r ∈ w.store.objectManifests, r.bucket = bucket →
    r.objectKey = key → ¬ w.AtRisk r
  | .tombstoneManifest object .. => ¬ w.Held object
  | .tombstoneExpiredActiveManifests now => ∀ r ∈ w.store.activeCommitted,
    r.manifest.isExpired now = true → ¬ w.Held r.objectId
  | .beginConnectionRemoval .. => ∀ object, ¬ w.Held object
  | .reopen _ => w.store.versions.Consistent
  | _ => True

/-- Quarantined are shown committed objects and staged ones without a transfer or shown version. -/
def RestoresSafely (a : RestoreAction) (w : RestoreWorld) : Prop :=
  match a with
  | .call op => CallsSafely op w
  | .quarantine c _ => ∀ r ∈ w.store.objectManifests, r.objectId = c.manifest.objectId →
    if c.manifest.commitState = .staging then
      r.commitState = .staging ∧ w.store.transferJobs.get? r.objectId = none ∧
        w.store.activeObjectId r.bucket r.objectKey = none
    else w.store.activeObjectId r.bucket r.objectKey = some r.objectId
  | .restore c _ => w.Unrivalled c.manifest.objectId
  | _ => True

def JobEnded (s : MetadataStore) (object : Uuid) : Prop :=
  ∀ j, s.transferJobs.get? object = some j → j.state.terminal = true

theorem StoreOp.job_of_step (hs : StoreStep fromStr op s s')
    (hn : ∀ bucket key now, op ≠ .beginTransfer object bucket key now)
    (hj : s'.transferJobs.get? object = some j') :
    ∃ j, s.transferJobs.get? object = some j ∧ JobStep op s s' j j' := by
  rcases StoreOp.jobs_step hs with hr | ⟨opened, bucket, key, now, rfl, -, rfl⟩
  · exact hr.rows.some_right hj
  · have hid : j'.id = object := key_of_get? hj
    rcases mem_insertOrIgnore.1 (mem_of_get? hj) with hm | ⟨rfl, -⟩
    · exact ⟨j', get?_eq_some.2 ⟨hm, hid⟩, .move (.refl j')⟩
    · exact absurd (by rw [← hid]; rfl) (hn bucket key now)

theorem JobEnded.step (h : JobEnded s object) (hs : StoreStep fromStr op s s')
    (hn : ∀ bucket key now, op ≠ .beginTransfer object bucket key now) : JobEnded s' object := by
  intro j' hj'
  obtain ⟨j, hj, hm⟩ := StoreOp.job_of_step hs hn hj'
  exact hm.terminal (h j hj)

theorem JobEnded.not_leased (h : JobEnded s object) : ¬ JobLeased s object := by
  rintro ⟨j, hj, hl⟩
  have ht := h j hj
  rw [TransferState.terminal_of_leased hl] at ht
  cases ht

theorem JobPublished.ended (h : JobPublished s object) : JobEnded s object := by
  intro i hi
  obtain ⟨j, hj, hp⟩ := h
  rw [hi] at hj
  cases hj
  cases hs : i.state <;> simp_all [TransferState.published, TransferState.terminal]

theorem jobless_step (h : s.transferJobs.get? object = none) (hs : StoreStep fromStr op s s')
    (hn : ∀ bucket key now, op ≠ .beginTransfer object bucket key now) :
    s'.transferJobs.get? object = none := by
  cases hj : s'.transferJobs.get? object with
  | none => rfl
  | some j' =>
    obtain ⟨j, hj, -⟩ := StoreOp.job_of_step hs hn hj
    rw [h] at hj
    cases hj

theorem jobless_before (h : s'.transferJobs.get? object = none)
    (hs : StoreStep fromStr op s s') : s.transferJobs.get? object = none := by
  cases hj : s.transferJobs.get? object with
  | none => rfl
  | some j =>
    obtain ⟨j', hj', -⟩ := StoreOp.job_step hs hj
    rw [h] at hj'
    cases hj'

/-- What a key shows after a call, it showed before, or the call commits or restores it. -/
theorem pointer_step (h : Coherent s) (ho : ∀ j ∈ s.transferJobs, j.OneId)
    (hs : StoreStep fromStr op s s') (hc : ∀ now, op = .reopen now → s.versions.Consistent)
    (hp : s'.activeObjectId bucket key = some n) :
    s.activeObjectId bucket key = some n ∨ ∃ r ∈ s.objectManifests, r.objectId = n ∧
      r.bucket = bucket ∧ r.objectKey = key ∧ op.shows = some n ∧
      (Commits op s s' n ∨ ∃ now, op = .updateManifestState n .committed now) := by
  by_cases hre : ∃ now, op = .reopen now
  · obtain ⟨now, rfl⟩ := hre
    cases hs
    rw [(s.reopen_keeps_iff now).2 (hc now rfl)] at hp
    exact .inl hp
  · obtain ⟨a, ha, rfl, rfl, rfl⟩ := activeObjectId_eq_some.1 hp
    rcases StoreOp.exposed_row h ho hs (fun now he => hre ⟨now, he⟩) ha with
      ha | ⟨r, hr, hsh, hw⟩
    · exact .inl (activeObjectId_eq_some.2 ⟨a, ha, rfl, rfl, rfl⟩)
    · refine .inr ⟨r, hr, hsh.object.symm, hsh.bucket.symm, hsh.key.symm, ?_⟩
      rw [hsh.object]
      rcases hw with ⟨hx, hw⟩ | ⟨now, rfl⟩
      · refine ⟨?_, .inl hw⟩
        cases op with
        | updateManifestState => cases hx
        | _ => exact hx
      · exact ⟨rfl, .inr ⟨now, rfl⟩⟩

def CommitState.reached : CommitState → Bool
  | .committed | .recoveryRequired => true
  | _ => false

/-- The object has been committed or quarantined, or was so when a check listed it. -/
inductive RestoreWorld.Reached (w : RestoreWorld) (object : Uuid) : Prop where
  | quarantined : object ∈ w.quarantined → w.Reached object
  | row (r : ManifestRow) : r ∈ w.store.objectManifests → r.objectId = object →
      r.commitState.reached = true → w.Reached object
  | check (c : Check) : c ∈ w.checks → c.manifest.objectId = object →
      c.manifest.commitState.reached = true → w.Reached object

/-- The object was staged and has left that state for good, and its job has ended. -/
structure RestoreWorld.Departed (w : RestoreWorld) (object : Uuid) : Prop where
  issued : object ∈ w.issued
  ended : JobEnded w.store object
  rows : ∀ r ∈ w.store.objectManifests, r.objectId = object → r.commitState ≠ .staging

structure StepSafe (op : StoreOp) (w : RestoreWorld) : Prop where
  fresh : ∀ object, op.stagedObject = some object → object ∉ w.issued
  opened : ∀ object bucket key now, op = .beginTransfer object bucket key now →
    object ∉ w.issued ∨
      ∃ r ∈ w.store.objectManifests, r.objectId = object ∧ r.commitState = .staging
  written : ∀ m, op = .updateManifest m → ∀ r ∈ w.store.objectManifests,
    r.objectId = m.objectId → m.commitState = r.commitState
  set : ∀ object state now, op = .updateManifestState object state now → state ≠ .staging
  first : ∀ operation now, op = .commitManifest operation now →
    (∃ j ∈ w.store.transferJobs, j.operationId = some operation) ∨
      w.store.transferJobs.get? operation = none ∧
      ∀ r ∈ w.store.objectManifests, r.objectId = operation → r.commitState = .staging
  shown : ∀ object, op.shows = some object → w.Unrivalled object
  reopened : ∀ now, op = .reopen now → w.store.versions.Consistent

structure RestoreWorld.Sound (w : RestoreWorld) : Prop where
  coherent : Coherent w.store
  oneId : ∀ j ∈ w.store.transferJobs, j.OneId
  issued : ∀ r ∈ w.store.objectManifests, r.objectId ∈ w.issued
  departed : ∀ object, w.Reached object → w.Departed object
  jobless : ∀ c ∈ w.checks, c.phase ≠ .listed → c.manifest.commitState.reached = true →
    w.store.transferJobs.get? c.manifest.objectId = none
  retired : ∀ c ∈ w.checks, c.phase = .retired → c.manifest.commitState = .committed
  alone : ∀ r ∈ w.store.objectManifests, w.AtRisk r →
    w.store.activeObjectId r.bucket r.objectKey = none ∨
      w.store.activeObjectId r.bucket r.objectKey = some r.objectId
  lost : ∀ object ∈ w.lost, object ∈ w.quarantined ∧ ∀ r ∈ w.store.objectManifests,
    r.objectId = object → w.store.activeObjectId r.bucket r.objectKey ≠ some object ∧ ¬ w.AtRisk r

namespace RestoreWorld

theorem Departed.not_opened (h : Departed w object) (hb : StepSafe op w) (bucket key : String)
    (now : Int) : op ≠ .beginTransfer object bucket key now := by
  intro he
  rcases hb.opened object bucket key now he with hn | ⟨r, hr, hid, hst⟩
  · exact hn h.issued
  · exact h.rows r hr hid hst

theorem Departed.step (h : Departed w object) (hw : Sound w) (hb : StepSafe op w)
    (hs : StoreStep fromStr op w.store s') : (w.move op s').Departed object where
  issued := List.mem_append_right _ h.issued
  ended := h.ended.step hs (h.not_opened hb)
  rows r' hr' hid := by
    cases StoreOp.row_step hw.coherent hw.oneId hs hr' with
    | kept hr => exact h.rows r' hr hid
    | staged kind m now ho he =>
      subst he
      exact absurd h.issued (hb.fresh object (by rw [ho, ← hid]; rfl))
    | published r m now _ _ _ _ he => simp [he, ManifestRow.publish]
    | tombstoned r now _ he => simp [he, ManifestRow.tombstone]
    | moved r state now _ ho he =>
      rw [he]
      exact hb.set _ _ _ ho
    | written r m hr ho hrm he =>
      rw [he]
      rw [hb.written m ho r hr hrm]
      exact h.rows r hr (by rw [he] at hid; exact hid)

theorem Departed.not_commits (h : Departed w object) (hb : StepSafe op w)
    (hr : r ∈ w.store.objectManifests) (hid : r.objectId = object) :
    ¬ Commits op w.store s' object := by
  intro hc
  cases hc with
  | job hl _ => exact h.ended.not_leased hl
  | jobless now ho hn =>
    rcases hb.first object now ho with ⟨j, hj, hjo⟩ | ⟨-, hst⟩
    · exact hn j hj hjo
    · exact h.rows r hr hid (hst r hr hid)

theorem Sound.row_departed (h : Sound w) (hb : StepSafe op w)
    (hs : StoreStep fromStr op w.store s') (hr : r' ∈ s'.objectManifests)
    (hst : r'.commitState.reached = true)
    (hm : ∀ state now, op = .updateManifestState r'.objectId state now →
      (w.move op s').Departed r'.objectId) : (w.move op s').Departed r'.objectId := by
  have hold : ∀ r ∈ w.store.objectManifests, r.commitState.reached = true →
      (w.move op s').Departed r.objectId :=
    fun r hr hst => (h.departed _ (.row r hr rfl hst)).step h hb hs
  cases StoreOp.row_step h.coherent h.oneId hs hr with
  | kept hr => exact hold r' hr hst
  | staged kind m now _ he =>
    rw [he] at hst
    cases hst
  | published r m now hrow hp hc _ he =>
    have hid : r'.objectId = r.objectId := by rw [he]; rfl
    rw [hid]
    refine ⟨List.mem_append_right _ (h.issued r hrow), ?_, ?_⟩
    · cases hc with
      | job _ hj => exact hj.ended
      | jobless now ho hn =>
        rcases hb.first _ now ho with ⟨j, hj, hjo⟩ | ⟨hj, -⟩
        · exact absurd hjo (hn j hj)
        · have he : JobEnded w.store r.objectId := fun j hj' => by rw [hj] at hj'; cases hj'
          exact he.step hs fun _ _ _ hx => by rw [hx] at ho; cases ho
    · intro o ho hoid
      have : o = r' := eq_of_key_eq ho hr (hoid.trans hid.symm)
      rw [this, he]
      simp [ManifestRow.publish]
  | tombstoned r now _ he =>
    rw [he] at hst
    cases hst
  | moved r state now _ ho he =>
    have hid : r'.objectId = r.objectId := by rw [he]
    exact hm state now (hid ▸ ho)
  | written r m hrow ho hrm he =>
    have hid : r'.objectId = r.objectId := by rw [he]
    rw [hid]
    apply hold r hrow
    rw [← hb.written m ho r hrow hrm]
    rw [he] at hst
    exact hst

theorem Sound.held_departed (h : Sound w) (hh : w.Held object) : w.Departed object := by
  obtain ⟨c, hc, rfl, hst | hp⟩ := hh
  · exact h.departed _ (.check c hc rfl (by rw [hst]; rfl))
  · exact h.departed _ (.check c hc rfl (by rw [h.retired c hc hp]; rfl))

theorem Sound.atRisk_before (h : Sound w) (hb : StepSafe op w)
    (hs : StoreStep fromStr op w.store s') (hr : r' ∈ s'.objectManifests)
    (hj : s'.transferJobs.get? r'.objectId = none)
    (hx : (r'.commitState = .recoveryRequired ∧
      ∀ now, op ≠ .updateManifestState r'.objectId .recoveryRequired now) ∨ w.Held r'.objectId) :
    ∃ r ∈ w.store.objectManifests, r.objectId = r'.objectId ∧ r.bucket = r'.bucket ∧
      r.objectKey = r'.objectKey ∧ w.AtRisk r := by
  have hjob := jobless_before hj hs
  rcases hx with ⟨hst, hq⟩ | hh
  · cases StoreOp.row_step h.coherent h.oneId hs hr with
    | kept hr => exact ⟨r', hr, rfl, rfl, rfl, hjob, .inl hst⟩
    | staged kind m now _ he =>
      rw [he] at hst
      cases hst
    | published r m now _ _ _ _ he =>
      rw [he] at hst
      cases hst
    | tombstoned r now _ he =>
      rw [he] at hst
      cases hst
    | moved r state now _ ho he =>
      have hid : r'.objectId = r.objectId := by rw [he]
      rw [he] at hst
      have hst : state = .recoveryRequired := hst
      exact absurd (by rw [ho, hst, hid]) (hq now)
    | written r m hrow ho hrm he =>
      have hid : r'.objectId = r.objectId := by rw [he]
      rw [hid] at hjob
      have hst : m.commitState = .recoveryRequired := by rw [he] at hst; exact hst
      refine ⟨r, hrow, hid.symm, by rw [he], by rw [he], hjob, .inl ?_⟩
      rw [← hb.written m ho r hrow hrm]
      exact hst
  · have hn : op.stagedObject ≠ some r'.objectId :=
      fun he => hb.fresh _ he (h.held_departed hh).issued
    obtain ⟨r, hrow, hid, hbk, hk⟩ := (StoreOp.row_step h.coherent h.oneId hs hr).before hn
    exact ⟨r, hrow, hid, hbk, hk, hid ▸ hjob, .inr (hid ▸ hh)⟩

theorem Sound.alone_step (h : Sound w) (hb : StepSafe op w)
    (hs : StoreStep fromStr op w.store s') (hr : r ∈ w.store.objectManifests) (ha : w.AtRisk r) :
    s'.activeObjectId r.bucket r.objectKey = none ∨
      s'.activeObjectId r.bucket r.objectKey = some r.objectId := by
  cases hp : s'.activeObjectId r.bucket r.objectKey with
  | none => exact .inl rfl
  | some n =>
    right
    rcases pointer_step h.coherent h.oneId hs hb.reopened hp with
      hp | ⟨row, hrow, hid, hbk, hk, hsh, -⟩
    · rcases h.alone r hr ha with hn | hn
      · rw [hn] at hp
        cases hp
      · rw [← hp, hn]
    · rw [hb.shown n hsh row hrow hid r hr hbk.symm hk.symm ha]

end RestoreWorld

theorem StoreOp.deletes_hides (h : Coherent s) (hs : StoreStep fromStr op s s')
    (hd : op.deletes s object = true) (hr : r ∈ s.objectManifests) (hid : r.objectId = object) :
    s'.activeObjectId r.bucket r.objectKey ≠ some object := by
  intro hp
  have hone : ∀ {p : ManifestRow → Bool}, (s.objectManifests.any fun r =>
      decide (r.objectId = object) && p r) = true → p r = true := by
    intro p ha
    obtain ⟨o, ho, ha⟩ := any_eq_true.1 ha
    simp only [Bool.and_eq_true, decide_eq_true_eq] at ha
    have he : o = r := eq_of_key_eq ho hr (ha.1.trans hid.symm)
    rw [← he]
    exact ha.2
  cases op with
  | deleteActiveKey bucket key reason c now =>
    simp only [deletes, Bool.and_assoc] at hd
    have hk := hone hd
    simp only [Bool.and_eq_true, decide_eq_true_eq] at hk
    rw [hk.1, hk.2] at hp
    obtain ⟨⟨m', s₁⟩, hc, rfl⟩ := map_ok.1 (after_eq_some.1 hs)
    obtain ⟨-, ⟨hn, rfl⟩ | ⟨shown, m, hact, -, rfl⟩⟩ := deleteActiveKey_ok hc
    · have hp : s.activeObjectId bucket key = some object := hp
      rw [hn] at hp
      cases hp
    · obtain ⟨a, ha, hab, hak, -⟩ := activeObjectId_eq_some.1 hp
      obtain ⟨ha, hdel⟩ := mem_delete.1 ha
      have ha' : s.activeObjectId bucket key = some a.objectId :=
        activeObjectId_eq_some.2 ⟨a, ha, hab, hak, rfl⟩
      rw [hact] at ha'
      cases ha'
      simp [hab, hak] at hdel
  | tombstoneManifest deleted reason c now =>
    have hdo : deleted = object := of_decide_eq_true hd
    subst hdo
    obtain ⟨⟨m', s₁⟩, hc, rfl⟩ := map_ok.1 (after_eq_some.1 hs)
    obtain ⟨m, hm, rfl⟩ := tombstoneManifestWithConditionals_ok hc
    obtain ⟨a, ha, hab, hak, hao⟩ := activeObjectId_eq_some.1 hp
    have hdel := (mem_delete.1 ha).2
    rw [← loaded_manifest hm hr hid] at hdel
    have hrow := h.rows r hr
    simp [hab, hak, hao, hrow.bucket, hrow.key, hrow.objectId, hid] at hdel
  | tombstoneExpiredActiveManifests now =>
    cases hs
    have hp : (s.tombstoneExpiredActiveManifests now).versions.active (r.bucket, r.objectKey) =
      some object := hp
    rw [tombstoneExpiredActiveManifests_versions] at hp
    have hn := (Option.filter_eq_some_iff.1 hp).2
    simp only [deletes, List.any_eq_true, Bool.and_eq_true, decide_eq_true_eq] at hd
    obtain ⟨o, ho, hoid, hex⟩ := hd
    simp only [Bool.not_eq_true', List.any_eq_false, List.mem_filter, decide_eq_true_eq] at hn
    exact hn o ⟨ho, hex⟩ hoid
  | beginConnectionRemoval =>
    obtain ⟨objects, rfl⟩ := beginConnectionRemoval_ok (after_eq_some.1 hs)
    obtain ⟨a, ha, -, -, hao⟩ := activeObjectId_eq_some.1 hp
    have hdel := (mem_delete.1 ha).2
    rw [any_eq_false] at hdel
    have hk := hone hd
    have hn := hdel r hr
    rw [hid, hao] at hn
    simp only [decide_true, Bool.true_and] at hn
    rw [hn] at hk
    cases hk
  | _ => cases hd

theorem StoreOp.deletes_settles (hs : StoreStep fromStr op s s') (hd : op.deletes s object = true)
    (hk : ∀ bucket key reason c now, op ≠ .deleteActiveKey bucket key reason c now)
    (hr : r' ∈ s'.objectManifests) (hid : r'.objectId = object) :
    r'.commitState ≠ .recoveryRequired := by
  cases op with
  | deleteActiveKey bucket key reason c now => exact absurd rfl (hk bucket key reason c now)
  | tombstoneManifest deleted reason c now =>
    have hdo : deleted = object := of_decide_eq_true hd
    subst hdo
    obtain ⟨⟨m', s₁⟩, hc, rfl⟩ := map_ok.1 (after_eq_some.1 hs)
    obtain ⟨m, -, rfl⟩ := tombstoneManifestWithConditionals_ok hc
    rcases of_mem_update rfl hr with ⟨r, -, -, rfl⟩ | ⟨-, hp⟩
    · simp
    · exact absurd hid (of_decide_eq_false hp)
  | tombstoneExpiredActiveManifests now =>
    cases hs
    simp only [deletes, List.any_eq_true, Bool.and_eq_true, decide_eq_true_eq] at hd
    obtain ⟨o, ho, hoid, -⟩ := hd
    obtain ⟨ho, hco⟩ := mem_activeCommitted ho
    rcases tombstoneExpiredActiveManifests_row r' hr with hr | ⟨r, hr, rfl⟩
    · have he : r' = o := eq_of_key_eq hr ho (hid.trans hoid.symm)
      rw [he, hco]
      simp
    · simp [ManifestRow.tombstone]
  | beginConnectionRemoval job deleteUploadedFiles now =>
    obtain ⟨objects, rfl⟩ := beginConnectionRemoval_ok (after_eq_some.1 hs)
    obtain ⟨o, ho, hp⟩ := any_eq_true.1 hd
    simp only [Bool.and_eq_true, decide_eq_true_eq] at hp
    simp only [hideConnection, mem_modify] at hr
    obtain ⟨r, hr, rfl⟩ := hr
    have hro : r.objectId = object := by
      rw [← hid]
      split <;> rfl
    have he : r = o := eq_of_key_eq hr ho (hro.trans hp.1.symm)
    subst he
    by_cases ht : r.commitState = .tombstoned
    · simp [hp.2, ht]
    · simp [hp.2, ht]
  | _ => cases hd

namespace RestoreWorld

/-- A row at risk after a call was at risk before, or is one whose key shows nothing now. -/
def Before (w : RestoreWorld) (op : StoreOp) (s' : MetadataStore) (r' : ManifestRow) : Prop :=
  (∃ r ∈ w.store.objectManifests, r.objectId = r'.objectId ∧ r.bucket = r'.bucket ∧
    r.objectKey = r'.objectKey ∧ w.AtRisk r) ∨
  s'.activeObjectId r'.bucket r'.objectKey = none ∧ r'.objectId ∉ (w.move op s').lost

/-- What was lost stays lost, and what a call overwrites or deletes is lost after it. -/
theorem Sound.lost_step (h : Sound w) (hb : StepSafe op w) (hs : StoreStep fromStr op w.store s')
    (hback : ∀ r' ∈ s'.objectManifests, (w.move op s').AtRisk r' → w.Before op s' r')
    (hrest : ∀ object now, op = .updateManifestState object .committed now → object ∉ w.lost)
    (hdel : ∀ object, op.deletes w.store object = true → ∀ r' ∈ s'.objectManifests,
      r'.objectId = object → ¬ (w.move op s').AtRisk r') :
    ∀ object ∈ (w.move op s').lost, object ∈ w.quarantined ∧ ∀ r' ∈ s'.objectManifests,
      r'.objectId = object → s'.activeObjectId r'.bucket r'.objectKey ≠ some object ∧
        ¬ (w.move op s').AtRisk r' := by
  intro object hl
  have hq : object ∈ w.quarantined := by
    rcases List.mem_append.1 hl with hn | ho
    · exact (List.mem_filter.1 hn).1
    · exact (h.lost object ho).1
  refine ⟨hq, ?_⟩
  intro r' hr' hid
  have hd := h.departed object (.quarantined hq)
  have hst : op.stagedObject ≠ some r'.objectId :=
    fun he => hb.fresh _ he (hid.symm ▸ hd.issued)
  obtain ⟨r, hr, hrid, hrb, hrk⟩ := (StoreOp.row_step h.coherent h.oneId hs hr').before hst
  have hro : r.objectId = object := hrid.trans hid
  have hrisk : (w.move op s').AtRisk r' → w.AtRisk r := by
    intro hx
    rcases hback r' hr' hx with ⟨o, ho, hoid, -, -, ha⟩ | ⟨-, hn⟩
    · rwa [show r = o from eq_of_key_eq hr ho (hrid.trans hoid.symm)]
    · exact absurd (hid.symm ▸ hl) hn
  rw [← hrb, ← hrk]
  rcases List.mem_append.1 hl with hn | ho
  · simp only [List.mem_filter, Bool.or_eq_true] at hn
    rcases hn.2 with hov | hde
    · obtain ⟨o, ho, hov⟩ := any_eq_true.1 hov
      simp only [Bool.and_eq_true, decide_eq_true_eq, Option.any_eq_true, bne_iff_ne, ne_eq] at hov
      obtain ⟨hoid, n, hpn, hno, hpo⟩ := hov
      obtain rfl : o = r := eq_of_key_eq ho hr (hoid.trans hro.symm)
      refine ⟨?_, ?_⟩
      · rw [hpn]
        exact fun he => hno (Option.some.inj he)
      · intro hx
        rcases pointer_step h.coherent h.oneId hs hb.reopened hpn with
          hp | ⟨row, hrow, hrn, hbk, hk, hsh, -⟩
        · exact hpo hp
        · exact hno ((hb.shown n hsh row hrow hrn o ho hbk.symm hk.symm (hrisk hx)).symm.trans hoid)
    · exact ⟨StoreOp.deletes_hides h.coherent hs hde hr hro, hdel object hde r' hr' hid⟩
  · obtain ⟨-, hlost⟩ := h.lost object ho
    obtain ⟨hnp, hna⟩ := hlost r hr hro
    refine ⟨?_, fun hx => hna (hrisk hx)⟩
    intro hp
    rcases pointer_step h.coherent h.oneId hs hb.reopened hp with
      hp | ⟨row, hrow, hrn, -, -, -, hc | ⟨now, hc⟩⟩
    · exact hnp hp
    · exact hd.not_commits hb hrow hrn hc
    · exact hrest object now hc ho

end RestoreWorld

theorem CallsSafely.stepSafe (hc : CallsSafely op w) (hset : op.setsState = false)
    (hf : ∀ object, op.stagedObject = some object → object ∉ w.issued) : StepSafe op w where
  fresh := hf
  opened object bucket key now he := by
    subst he
    exact hc
  written m he := by
    subst he
    exact hc
  set object state now he := by
    subst he
    cases hset
  first operation now he := by
    subst he
    exact hc.2
  shown object he := by
    cases op with
    | commitManifest =>
      cases he
      exact hc.1
    | commitTransferManifest | finishPartJob =>
      cases he
      exact hc
    | updateManifestState => cases hset
    | _ => cases he
  reopened now he := by
    subst he
    exact hc

namespace RestoreWorld

section
variable (h : Sound w)
include h

theorem Sound.deleted (hb : StepSafe op w) (hc : CallsSafely op w) (hset : op.setsState = false)
    (hs : StoreStep fromStr op w.store s') (hd : op.deletes w.store object = true)
    (hr' : r' ∈ s'.objectManifests) (hid' : r'.objectId = object) : ¬ (w.move op s').AtRisk r' := by
  rintro ⟨hj, hst⟩
  have hq : ∀ now, op ≠ .updateManifestState r'.objectId .recoveryRequired now := by
    rintro now rfl
    cases hset
  by_cases hk : ∃ bucket key reason c now, op = .deleteActiveKey bucket key reason c now
  · obtain ⟨bucket, key, reason, c, now, rfl⟩ := hk
    obtain ⟨o, ho, hoid, -, -, ha⟩ := h.atRisk_before hb hs hr' hj (hst.imp_left fun hx => ⟨hx, hq⟩)
    obtain ⟨row, hrow, hp⟩ := any_eq_true.1 hd
    simp only [Bool.and_eq_true, decide_eq_true_eq] at hp
    have he : o = row := eq_of_key_eq ho hrow (hoid.trans (hid'.trans hp.1.1.symm))
    rw [he] at ha
    exact hc row hrow hp.1.2 hp.2 ha
  · have hn : r'.commitState ≠ .recoveryRequired := StoreOp.deletes_settles hs hd
      (fun bucket key reason c now he => hk ⟨bucket, key, reason, c, now, he⟩) hr' hid'
    have hh : w.Held object := hid' ▸ hst.resolve_left hn
    cases op with
    | deleteActiveKey bucket key reason c now => exact hk ⟨bucket, key, reason, c, now, rfl⟩
    | tombstoneManifest =>
      obtain rfl := of_decide_eq_true hd
      exact hc hh
    | tombstoneExpiredActiveManifests now =>
      simp only [StoreOp.deletes, List.any_eq_true, Bool.and_eq_true, decide_eq_true_eq] at hd
      obtain ⟨o, ho, rfl, hex⟩ := hd
      exact hc o ho hex hh
    | beginConnectionRemoval => exact hc object hh
    | _ => cases hd

/-- A call keeps the invariant, if it leaves the staged state of what it quarantines or restores. -/
theorem Sound.move (hb : StepSafe op w) (hs : StoreStep fromStr op w.store s')
    (hw : WritesOwnManifest op w.store) (hq : ∀ object ∈ q, (w.move op s').Departed object)
    (hset : ∀ object state now, op = .updateManifestState object state now →
      (w.move op s').Departed object ∧ (state = .committed → object ∉ w.lost))
    (hback : ∀ r' ∈ s'.objectManifests, (w.move op s').AtRisk r' → w.Before op s' r')
    (hdel : ∀ object, op.deletes w.store object = true → ∀ r' ∈ s'.objectManifests,
      r'.objectId = object → ¬ (w.move op s').AtRisk r') :
    Sound { w.move op s' with quarantined := q ++ w.quarantined } := by
  constructor
  · exact h.coherent.step hs hw
  · exact StoreOp.oneId_step h.oneId hs
  · intro r' hr'
    by_cases hst : op.stagedObject = some r'.objectId
    · exact List.mem_append_left _ (by simp [hst])
    · obtain ⟨r, hr, hid, -⟩ := (StoreOp.row_step h.coherent h.oneId hs hr').before hst
      exact List.mem_append_right _ (hid ▸ h.issued r hr)
  · intro object hx
    have hd : (w.move op s').Departed object := by
      cases hx with
      | quarantined hx =>
        rcases List.mem_append.1 hx with hx | hx
        · exact hq object hx
        · exact (h.departed object (.quarantined hx)).step h hb hs
      | row r hr hid hst =>
        subst hid
        exact h.row_departed hb hs hr hst fun state now he => (hset _ _ _ he).1
      | check c hx hid hst => exact (h.departed object (.check c hx hid hst)).step h hb hs
    exact ⟨hd.issued, hd.ended, hd.rows⟩
  · intro c hx hp hst
    have hd := h.departed _ (.check c hx rfl hst)
    exact jobless_step (h.jobless c hx hp hst) hs (hd.not_opened hb)
  · exact h.retired
  · intro r' hr' ha
    rcases hback r' hr' ⟨ha.jobless, ha.restorable⟩ with ⟨r, hr, hid, hbk, hk, ha⟩ | ⟨hn, -⟩
    · rw [← hid, ← hbk, ← hk]
      exact h.alone_step hb hs hr ha
    · exact .inl hn
  · intro object ho
    obtain ⟨hlq, hrows⟩ := h.lost_step hb hs hback
      (fun object now he => (hset object _ now he).2 rfl) hdel object ho
    exact ⟨List.mem_append_right _ hlq, fun r hr hro => ⟨(hrows r hr hro).1,
      fun ha => (hrows r hr hro).2 ⟨ha.jobless, ha.restorable⟩⟩⟩

theorem Sound.call (hset : op.setsState = false)
    (hf : ∀ object, op.stagedObject = some object → object ∉ w.issued) (hc : CallsSafely op w)
    (hs : StoreStep fromStr op w.store s') (hw : WritesOwnManifest op w.store) :
    Sound (w.move op s') := by
  have hb := hc.stepSafe hset hf
  refine h.move hb hs hw (q := []) nofun ?_ ?_
    fun object hd r' hr' hid => h.deleted hb hc hset hs hd hr' hid
  · rintro object state now rfl
    cases hset
  · intro r' hr' ha
    refine .inl (h.atRisk_before hb hs hr' ha.jobless (ha.restorable.imp_left fun hx => ⟨hx, ?_⟩))
    rintro now rfl
    cases hset

theorem Sound.recheck
    (hl : ∀ c ∈ l, c.manifest.commitState.reached = true → w.Reached c.manifest.objectId)
    (hj : ∀ c ∈ l, c.phase ≠ .listed → c.manifest.commitState.reached = true →
      w.store.transferJobs.get? c.manifest.objectId = none)
    (hr : ∀ c ∈ l, c.phase = .retired → c.manifest.commitState = .committed)
    (hh : ∀ r ∈ w.store.objectManifests, Held { w with checks := l } r.objectId →
      r.commitState = .recoveryRequired ∨ w.Held r.objectId) : Sound { w with checks := l } := by
  have hback : ∀ r ∈ w.store.objectManifests, AtRisk { w with checks := l } r → w.AtRisk r :=
    fun r hrow ha => ⟨ha.jobless, ha.restorable.elim .inl (hh r hrow)⟩
  constructor
  · exact h.coherent
  · exact h.oneId
  · exact h.issued
  · intro object hx
    have hx : w.Reached object := by
      cases hx with
      | quarantined hx => exact .quarantined hx
      | row r hr hid hst => exact .row r hr hid hst
      | check c hc hid hst => exact hid ▸ hl c hc hst
    have hd := h.departed object hx
    exact ⟨hd.issued, hd.ended, hd.rows⟩
  · exact hj
  · exact hr
  · exact fun r hrow ha => h.alone r hrow (hback r hrow ha)
  · intro object ho
    obtain ⟨hq, hrows⟩ := h.lost object ho
    exact ⟨hq, fun r hrow hid => ⟨(hrows r hrow hid).1, fun ha => (hrows r hrow hid).2
      (hback r hrow ha)⟩⟩

theorem Sound.leave (c : Check) : Sound { w with checks := w.checks.erase c } := by
  have hm : ∀ i ∈ w.checks.erase c, i ∈ w.checks := fun i hi => List.mem_of_mem_erase hi
  refine h.recheck ?_ (fun i hi => h.jobless i (hm i hi)) (fun i hi => h.retired i (hm i hi)) ?_
  · exact fun i hi hst => .check i (hm i hi) rfl hst
  · rintro r - ⟨i, hi, hid, hst⟩
    exact .inr ⟨i, hm i hi, hid, hst⟩

theorem Sound.list (hl : w.store.listManifests = .ok l) :
    Sound { w with checks := l.map (fun m => { manifest := m }) ++ w.checks } := by
  have hn : ∀ i ∈ l.map (fun m => ({ manifest := m } : Check)), i.phase = .listed ∧
      ∃ r ∈ w.store.objectManifests, r.objectId = i.manifest.objectId ∧
        r.commitState = i.manifest.commitState := by
    intro i hi
    obtain ⟨m, hm, rfl⟩ := List.mem_map.1 hi
    obtain ⟨r, hr, rfl⟩ := mem_readManifests hl hm
    have hr : r ∈ w.store.objectManifests ∧ r.connectionId = w.store.activeConnectionId := by
      simpa using hr
    have hrow := h.coherent.rows r hr.1
    exact ⟨rfl, r, hr.1, hrow.objectId.symm, hrow.state.symm⟩
  apply h.recheck
  · intro i hi hst
    rcases List.mem_append.1 hi with hi | hi
    · obtain ⟨-, r, hr, hid, hrs⟩ := hn i hi
      exact .row r hr hid (hrs ▸ hst)
    · exact .check i hi rfl hst
  · intro i hi hp
    rcases List.mem_append.1 hi with hi | hi
    · exact absurd (hn i hi).1 hp
    · exact h.jobless i hi hp
  · intro i hi hp
    rcases List.mem_append.1 hi with hi | hi
    · rw [(hn i hi).1] at hp
      cases hp
    · exact h.retired i hi hp
  · rintro r hr ⟨i, hi, hid, hst⟩
    rcases List.mem_append.1 hi with hi | hi
    · obtain ⟨hp, o, ho, hoid, hos⟩ := hn i hi
      have he : o = r := eq_of_key_eq ho hr (hoid.trans hid)
      rcases hst with hst | hst
      · exact .inl (by rw [← he, hos, hst])
      · rw [hp] at hst
        cases hst
    · exact .inr ⟨i, hi, hid, hst⟩

theorem Sound.advance (hc : c ∈ w.checks)
    (hj : w.store.transferJobs.get? c.manifest.objectId = none)
    (hp : phase = .retired → c.manifest.commitState = .committed ∧
      ∀ r ∈ w.store.objectManifests, r.objectId = c.manifest.objectId →
      r.commitState = .recoveryRequired) :
    Sound { w with checks := { c with phase } :: w.checks.erase c } := by
  have hm : ∀ i ∈ w.checks.erase c, i ∈ w.checks := fun i hi => List.mem_of_mem_erase hi
  apply h.recheck
  · intro i hi hst
    rcases List.mem_cons.1 hi with rfl | hi
    · exact .check c hc rfl hst
    · exact .check i (hm i hi) rfl hst
  · intro i hi hip hst
    rcases List.mem_cons.1 hi with rfl | hi
    · exact hj
    · exact h.jobless i (hm i hi) hip hst
  · intro i hi hip
    rcases List.mem_cons.1 hi with rfl | hi
    · exact (hp hip).1
    · exact h.retired i (hm i hi) hip
  · rintro r hr ⟨i, hi, hid, hst⟩
    rcases List.mem_cons.1 hi with rfl | hi
    · rcases hst with hst | hst
      · exact .inr ⟨c, hc, hid, .inl hst⟩
      · exact .inl ((hp hst).2 r hr hid.symm)
    · exact .inr ⟨i, hm i hi, hid, hst⟩

theorem Sound.restorable (hc : c ∈ w.checks) (hp : c.restores = true) :
    w.Held c.manifest.objectId ∧ w.store.transferJobs.get? c.manifest.objectId = none := by
  have hst : (c.phase = .checked ∧ c.manifest.commitState = .recoveryRequired) ∨
      c.phase = .retired := by
    unfold Check.restores at hp
    split at hp
    · exact .inl ⟨‹_›, ‹_›⟩
    · exact .inr ‹_›
    · cases hp
  rcases hst with ⟨hp, hst⟩ | hp
  · exact ⟨⟨c, hc, rfl, .inl hst⟩, h.jobless c hc (by simp [hp]) (by rw [hst]; rfl)⟩
  · have hst := h.retired c hc hp
    exact ⟨⟨c, hc, rfl, .inr hp⟩, h.jobless c hc (by simp [hp]) (by rw [hst]; rfl)⟩

theorem Sound.restore (hc : c ∈ w.checks) (hp : c.restores = true)
    (hu : w.Unrivalled c.manifest.objectId) (hs : StoreStep fromStr (c.restoreOp now) w.store s') :
    Sound (w.move (c.restoreOp now) s') := by
  obtain ⟨hh, hj⟩ := h.restorable hc hp
  obtain ⟨⟨m', s₁⟩, hup, -⟩ := map_ok.1 (after_eq_some.1 hs)
  obtain ⟨m, hm, -⟩ := updateManifestState_ok hup
  obtain ⟨row, hrow, -⟩ := loadManifestByObjectId_ok hm
  have hid : row.objectId = c.manifest.objectId := key_of_get? hrow
  have hb : StepSafe (c.restoreOp now) w := by
    constructor
    · rintro object ⟨⟩
    · rintro object bucket key now ⟨⟩
    · rintro m ⟨⟩
    · rintro object state now ⟨⟩
      simp
    · rintro operation now ⟨⟩
    · rintro object ⟨⟩
      exact hu
    · rintro now ⟨⟩
  refine h.move hb hs (by rintro m ⟨⟩) (q := []) nofun ?_ ?_ (by rintro object ⟨⟩)
  · rintro object state now ⟨⟩
    refine ⟨(h.held_departed hh).step h hb hs, fun _ hl => ?_⟩
    exact ((h.lost _ hl).2 row (mem_of_get? hrow) hid).2 ⟨hid ▸ hj, .inr (hid ▸ hh)⟩
  · intro r' hr' ha
    refine .inl (h.atRisk_before hb hs hr' ha.jobless
      (ha.restorable.imp_left fun hx => ⟨hx, fun now' he => ?_⟩))
    cases (StoreOp.updateManifestState.inj he).2.1

end

theorem updateManifestState_hides
    (hs : StoreStep fromStr (.updateManifestState object .recoveryRequired now) s s') :
    (∀ r ∈ s'.objectManifests, r.objectId = object → r.commitState = .recoveryRequired) ∧
      ∀ bucket key, s'.activeObjectId bucket key ≠ some object := by
  obtain ⟨⟨m', s₁⟩, hup, rfl⟩ := map_ok.1 (after_eq_some.1 hs)
  obtain ⟨m, -, rfl⟩ := updateManifestState_ok hup
  constructor
  · intro r hr hid
    rcases of_mem_update rfl hr with ⟨o, -, -, rfl⟩ | ⟨-, hp⟩
    · rfl
    · exact absurd hid (of_decide_eq_false hp)
  · intro bucket key hp
    obtain ⟨a, ha, -, -, hao⟩ := activeObjectId_eq_some.1 hp
    have hd := (mem_delete.1 ha).2
    simp [hao] at hd

section Quarantine
variable {c : Check} {w : RestoreWorld} {s' : MetadataStore}

theorem quarantine_stepSafe : StepSafe (c.quarantineOp now) w := by
  constructor
  · rintro object ⟨⟩
  · rintro object bucket key now ⟨⟩
  · rintro m ⟨⟩
  · rintro object state now ⟨⟩
    simp
  · rintro operation now ⟨⟩
  · rintro object ⟨⟩
  · rintro now ⟨⟩

theorem Sound.quarantine_pointer (h : Sound w)
    (hs : StoreStep fromStr (c.quarantineOp now) w.store s')
    (hp : s'.activeObjectId bucket key = some n) : w.store.activeObjectId bucket key = some n := by
  rcases pointer_step h.coherent h.oneId hs (by rintro now ⟨⟩) hp with
    hp | ⟨-, -, -, -, -, hsh, -⟩
  · exact hp
  · cases hsh

theorem quarantine_row (hs : StoreStep fromStr (c.quarantineOp now) w.store s') :
    ∃ row ∈ w.store.objectManifests, row.objectId = c.manifest.objectId := by
  obtain ⟨⟨m', s₁⟩, hup, -⟩ := map_ok.1 (after_eq_some.1 hs)
  obtain ⟨m, hm, -⟩ := updateManifestState_ok hup
  obtain ⟨row, hrow, -⟩ := loadManifestByObjectId_ok hm
  exact ⟨row, mem_of_get? hrow, key_of_get? hrow⟩

theorem Sound.quarantine_departed (h : Sound w) (hc : c ∈ w.checks) (hq : c.quarantines = true)
    (hsafe : RestoresSafely (.quarantine c now) w)
    (hs : StoreStep fromStr (c.quarantineOp now) w.store s') :
    (w.move (c.quarantineOp now) s').Departed c.manifest.objectId := by
  obtain ⟨row, hrow, hid⟩ := quarantine_row hs
  have hjob : JobEnded w.store c.manifest.objectId := by
    rcases c.quarantines_state hq with hst | hst
    · exact (h.departed _ (.check c hc rfl (by rw [hst]; rfl))).ended
    · have hrs := hsafe row hrow hid
      rw [if_pos hst, hid] at hrs
      intro j hj
      rw [hrs.2.1] at hj
      cases hj
  refine ⟨List.mem_append_right _ (hid ▸ h.issued row hrow), hjob.step hs ?_, ?_⟩
  · rintro bucket key now ⟨⟩
  · intro r hr hro
    rw [(updateManifestState_hides hs).1 r hr hro]
    simp

section
variable (h : Sound w) (hsafe : RestoresSafely (.quarantine c now) w)
  (hs : StoreStep fromStr (c.quarantineOp now) w.store s')
include h hsafe hs

theorem Sound.quarantine_not_lost :
    c.manifest.objectId ∉ (w.move (c.quarantineOp now) s').lost := by
  intro hl
  rcases List.mem_append.1 hl with hl | hl
  · simp only [List.mem_filter, Bool.or_eq_true] at hl
    rcases hl.2 with hov | hde
    · obtain ⟨o, -, hov⟩ := any_eq_true.1 hov
      simp only [Bool.and_eq_true, Option.any_eq_true, bne_iff_ne, ne_eq] at hov
      obtain ⟨-, n, hpn, -, hpo⟩ := hov
      exact hpo (h.quarantine_pointer hs hpn)
    · cases hde
  · obtain ⟨hlq, hrows⟩ := h.lost _ hl
    obtain ⟨row, hrow, hid⟩ := quarantine_row hs
    have hrs := hsafe row hrow hid
    split at hrs
    · exact (h.departed _ (.quarantined hlq)).rows row hrow hid hrs.1
    · exact (hrows row hrow hid).1 (hid ▸ hrs)

theorem Sound.quarantine_alone (hr : r ∈ w.store.objectManifests)
    (hid : r.objectId = c.manifest.objectId) : s'.activeObjectId r.bucket r.objectKey = none := by
  cases hp : s'.activeObjectId r.bucket r.objectKey with
  | none => rfl
  | some n =>
    have hp' := h.quarantine_pointer hs hp
    have hrs := hsafe r hr hid
    split at hrs
    · rw [hrs.2.2] at hp'
      cases hp'
    · rw [hrs] at hp'
      cases hp'
      exact absurd (hid ▸ hp) ((updateManifestState_hides hs).2 _ _)

end

theorem Sound.quarantine (h : Sound w) (hc : c ∈ w.checks) (hq : c.quarantines = true)
    (hsafe : RestoresSafely (.quarantine c now) w)
    (hs : StoreStep fromStr (c.quarantineOp now) w.store s') :
    Sound { w.move (c.quarantineOp now) s' with
      quarantined := c.manifest.objectId :: w.quarantined } := by
  have hdep := h.quarantine_departed hc hq hsafe hs
  have hb : StepSafe (c.quarantineOp now) w := quarantine_stepSafe
  refine h.move hb hs (by rintro m ⟨⟩) (q := [_]) ?_ ?_ ?_ (by rintro object ⟨⟩)
  · intro object ho
    rw [List.mem_singleton.1 ho]
    exact hdep
  · rintro object state now ⟨⟩
    exact ⟨hdep, nofun⟩
  · intro r' hr' ha
    by_cases hne : r'.objectId = c.manifest.objectId
    · obtain ⟨r, hr, hid, hbk, hk⟩ :=
        (StoreOp.row_step h.coherent h.oneId hs hr').before (by rintro ⟨⟩)
      refine .inr ⟨?_, hne ▸ h.quarantine_not_lost hsafe hs⟩
      rw [← hbk, ← hk]
      exact h.quarantine_alone hsafe hs hr (hid.trans hne)
    · refine .inl (h.atRisk_before hb hs hr' ha.jobless
        (ha.restorable.imp_left fun hx => ⟨hx, fun now' he => ?_⟩))
      exact hne (StoreOp.updateManifestState.inj he).1.symm

end Quarantine

theorem Sound.step (h : Sound w) (hs : RestoreStep fromStr a w w') (hc : RestoresSafely a w) :
    Sound w' := by
  cases a with
  | call op =>
    simp only [RestoreStep, RestoreAction.apply, Option.ite_none_left_eq_some, Bool.or_eq_true,
      not_or, Bool.not_eq_true, Option.map_eq_some_iff] at hs
    obtain ⟨⟨hset, hf⟩, s', ho, rfl⟩ := hs
    obtain ⟨ho, hw⟩ := StoreOp.serve_eq_some ho
    refine h.call hset ?_ hc ho hw
    intro object he
    simpa [he] using hf
  | list =>
    obtain ⟨l, hl, rfl⟩ := Option.map_eq_some_iff.1 hs
    exact h.list (after_eq_some.1 hl)
  | check c =>
    simp only [RestoreStep, RestoreAction.apply, Option.ite_none_right_eq_some,
      Option.some.injEq] at hs
    obtain ⟨⟨hm, -, hj⟩, rfl⟩ := hs
    exact h.advance hm hj fun hp => by cases hp
  | quarantine c now =>
    simp only [RestoreStep, RestoreAction.apply, Option.ite_none_right_eq_some,
      Option.map_eq_some_iff] at hs
    obtain ⟨⟨hm, hq⟩, s', ho, rfl⟩ := hs
    have hn := h.quarantine hm hq hc ho
    split
    · rename_i hp
      refine hn.advance hm (hn.jobless c hm (by simp [hp.1]) (by rw [hp.2]; rfl)) fun _ => ?_
      exact ⟨hp.2, (updateManifestState_hides ho).1⟩
    · exact hn.leave c
  | restore c now =>
    simp only [RestoreStep, RestoreAction.apply, Option.ite_none_right_eq_some,
      Option.map_eq_some_iff] at hs
    obtain ⟨⟨hm, hq⟩, s', ho, rfl⟩ := hs
    exact (h.restore hm hq hc ho).leave c
  | leave c =>
    cases hs
    exact h.leave c

theorem Initial.sound (h : Initial w) : Sound w := by
  have hr : ∀ r, r ∉ w.store.objectManifests := by simp [h.store.objects.manifests]
  constructor
  · exact h.store.objects.coherent
  · simp [h.store.jobs]
  · exact fun r hm => absurd hm (hr r)
  · intro object hx
    cases hx with
    | quarantined hx =>
      rw [h.quarantined] at hx
      cases hx
    | row r hm => exact absurd hm (hr r)
    | check c hc =>
      rw [h.checks] at hc
      cases hc
  · simp [h.checks]
  · simp [h.checks]
  · exact fun r hm => absurd hm (hr r)
  · simp [h.lost]

end RestoreWorld

/-- In every run whose steps all meet the condition nothing newer is replaced by a restoration. -/
theorem safe_restorations (fromStr : String → Option ETagCondition) :
    RestoresNothingNewer (Guarded (RestoreStep fromStr) RestoresSafely) := by
  intro past w hr
  have h : w.Sound := hr.invariant (fun _ hi => hi.sound) fun _ _ _ h hs => h.step hs.1 hs.2
  constructor
  · rintro c now w' ⟨hs, -⟩ r hrow hid
    simp only [RestoreStep, RestoreAction.apply, Option.ite_none_right_eq_some] at hs
    obtain ⟨hh, hj⟩ := h.restorable hs.1.1 hs.1.2
    exact h.alone r hrow ⟨hid ▸ hj, .inr (hid ▸ hh)⟩
  · exact fun object ho r hrow hid => ((h.lost object ho).2 r hrow hid).1

/-- A version is quarantined as unreadable, its key written again, and then it is readable. -/
def restoredOver : List RestoreAction :=
  let m := emptyObject ⟨1⟩ "photos" "a"
  let committed : ObjectManifest := { m with commitState := .committed }
  [.call (.stageManifest .put m (instant 1)), .call (.commitManifest ⟨1⟩ (instant 1)), .list,
    .quarantine { manifest := committed } (instant 2)] ++
    (uploadOps (emptyObject ⟨2⟩ "photos" "a") ⟨9⟩ 3).map RestoreAction.call ++
    [.list, .check { manifest := { m with commitState := .recoveryRequired } }]

def restoredOverRun : List RestoreWorld × RestoreWorld :=
  (exec (RestoreAction.apply fun _ => none) [] { store := photosStore } restoredOver).get
    (by decide +kernel)

/-- The restoration takes the key away from the newer version. -/
theorem restoration_replaces_newer : ¬ RestoresNothingNewer (RestoreStep fun _ => none) := by
  intro h
  have hi : RestoreWorld.Initial { store := photosStore } :=
    ⟨⟨⟨rfl, rfl, rfl⟩, rfl, rfl⟩, rfl, rfl, rfl⟩
  have hr : Run RestoreWorld.Initial (RestoreStep fun _ => none) restoredOverRun.1
      restoredOverRun.2 := Run.of_exec_isSome hi _
  let c : Check := { manifest := { emptyObject ⟨1⟩ "photos" "a" with
    commitState := .recoveryRequired }, phase := .checked }
  have hs : ((RestoreAction.restore c (instant 4)).apply (fun _ => none)
      restoredOverRun.2).isSome = true := by decide +kernel
  have hp : restoredOverRun.2.store.objectManifests.any (fun r => r.objectId = ⟨1⟩ &&
      restoredOverRun.2.store.activeObjectId r.bucket r.objectKey = some ⟨2⟩) = true := by
    decide +kernel
  obtain ⟨r, hrow, hp⟩ := any_eq_true.1 hp
  simp only [Bool.and_eq_true, decide_eq_true_eq] at hp
  rcases (h _ _ hr).1 c (instant 4) _ (Option.some_get hs).symm r hrow hp.1 with hn | hn
  · rw [hp.2] at hn
    cases hn
  · rw [hp.2, hp.1] at hn
    cases hn

end TelegramS3
