import TelegramS3.Operations

namespace TelegramS3
open Relational Fallible MetadataStore
set_option autoImplicit true

/-- The parts of the store that calls write. -/
inductive StoreTable where
  | settings | buckets | journal | manifests | active | uploads | parts | jobs | sequence | chunks
  | attempts | multipartJobs | outbox | accounts | replicas | rechunks | removals
  deriving DecidableEq

def StoreTable.Same (t : StoreTable) (s s' : MetadataStore) : Prop :=
  match t with
  | .settings => s'.activeConnectionSetting = s.activeConnectionSetting ∧
      s'.cleanupRetentionSetting = s.cleanupRetentionSetting ∧
      s'.storageChatSetting = s.storageChatSetting
  | .buckets => s'.buckets = s.buckets
  | .journal => s'.operationJournal = s.operationJournal
  | .manifests => s'.objectManifests = s.objectManifests
  | .active => s'.activeObjects = s.activeObjects
  | .uploads => s'.multipartUploads = s.multipartUploads
  | .parts => s'.multipartParts = s.multipartParts
  | .jobs => s'.transferJobs = s.transferJobs
  | .sequence => s'.transferSequence = s.transferSequence
  | .chunks => s'.transferChunks = s.transferChunks
  | .attempts => s'.sendAttempts = s.sendAttempts
  | .multipartJobs => s'.multipartJobs = s.multipartJobs
  | .outbox => s'.outbox = s.outbox
  | .accounts => s'.telegramAccounts = s.telegramAccounts
  | .replicas => s'.replicaLocations = s.replicaLocations
  | .rechunks => s'.rechunkJobs = s.rechunkJobs ∧ s'.rechunkLocks = s.rechunkLocks
  | .removals => s'.connectionRemovalJobs = s.connectionRemovalJobs ∧
      s'.connectionRemovalObjects = s.connectionRemovalObjects

theorem StoreTable.Same.refl (t : StoreTable) (s : MetadataStore) : t.Same s s := by
  cases t <;> simp [Same]

theorem StoreTable.Same.trans {t : StoreTable} (h : t.Same s s₁) (h' : t.Same s₁ s₂) :
    t.Same s s₂ := by
  cases t <;> simp_all [Same]

variable {s s' : MetadataStore}

def StoreOp.writes : StoreOp → List StoreTable
  | .beginTransfer .. => [.jobs, .sequence]
  | .reserveStaging .. | .renewReceiving .. | .setTransferConditionals .. | .queueTransfer ..
  | .renewTransfer .. | .enterCommitting .. | .transferFailed .. | .cleanupCompletedStaging ..
  | .queueAfterReconciliation .. => [.jobs]
  | .failReception .. | .rejectTransferForQuota .. => [.jobs, .manifests, .journal, .active]
  | .claimTransfer .. | .reclassifyFloodWaitAttempts .. => [.jobs, .attempts]
  | .transferAction .. => [.jobs, .outbox]
  | .beginSendAttempt .. | .markSendAttemptUnknown .. | .markSendAttemptRetryable .. => [.attempts]
  | .finishSendAttempt .. | .resolveSendAttempt .. => [.attempts, .chunks, .jobs]
  | .stageManifest .. => [.manifests, .journal]
  | .commitManifest .. | .commitTransferManifest .. | .finishPartJob .. =>
    [.manifests, .active, .journal, .jobs, .outbox, .uploads, .parts]
  | .updateManifest .. => [.manifests]
  | .updateManifestState .. => [.manifests, .active]
  | .tombstoneManifest .. | .tombstoneExpiredActiveManifests .. =>
    [.manifests, .active, .journal, .outbox]
  | .deleteActiveKey .. => [.jobs, .manifests, .active, .journal, .outbox]
  | .createMultipartSession .. => [.uploads]
  | .insertMultipartJob .. => [.multipartJobs]
  | .abortParts .. => [.outbox, .jobs, .parts, .uploads]
  | .queueMultipartCompletion .. => [.jobs, .multipartJobs, .uploads]
  | .beginConnectionRemoval .. =>
    [.removals, .outbox, .manifests, .active, .buckets, .jobs, .uploads, .journal]
  | .reopen .. => [.outbox, .active]
  | .claimCleanup .. | .completeCleanup .. | .failCleanup .. | .quarantineCleanup ..
  | .beginCleanupEvidenceAttempt .. | .resolveCleanupEvidence .. | .retryCleanupEvidence ..
  | .makeCleanupDue .. => [.outbox]
  | .queueRechunk .. | .claimRechunkJob .. | .finishRechunk .. => [.rechunks]
  | .insertReplicaLocation .. => [.replicas]

namespace MetadataStore

def overwrite (l : List StoreTable) (s s' : MetadataStore) : MetadataStore where
  activeConnectionSetting :=
    if .settings ∈ l then s'.activeConnectionSetting else s.activeConnectionSetting
  cleanupRetentionSetting :=
    if .settings ∈ l then s'.cleanupRetentionSetting else s.cleanupRetentionSetting
  storageChatSetting := if .settings ∈ l then s'.storageChatSetting else s.storageChatSetting
  buckets := if .buckets ∈ l then s'.buckets else s.buckets
  operationJournal := if .journal ∈ l then s'.operationJournal else s.operationJournal
  objectManifests := if .manifests ∈ l then s'.objectManifests else s.objectManifests
  activeObjects := if .active ∈ l then s'.activeObjects else s.activeObjects
  multipartUploads := if .uploads ∈ l then s'.multipartUploads else s.multipartUploads
  multipartParts := if .parts ∈ l then s'.multipartParts else s.multipartParts
  transferJobs := if .jobs ∈ l then s'.transferJobs else s.transferJobs
  transferSequence := if .sequence ∈ l then s'.transferSequence else s.transferSequence
  transferChunks := if .chunks ∈ l then s'.transferChunks else s.transferChunks
  sendAttempts := if .attempts ∈ l then s'.sendAttempts else s.sendAttempts
  multipartJobs := if .multipartJobs ∈ l then s'.multipartJobs else s.multipartJobs
  outbox := if .outbox ∈ l then s'.outbox else s.outbox
  telegramAccounts := if .accounts ∈ l then s'.telegramAccounts else s.telegramAccounts
  replicaLocations := if .replicas ∈ l then s'.replicaLocations else s.replicaLocations
  rechunkJobs := if .rechunks ∈ l then s'.rechunkJobs else s.rechunkJobs
  rechunkLocks := if .rechunks ∈ l then s'.rechunkLocks else s.rechunkLocks
  connectionRemovalJobs :=
    if .removals ∈ l then s'.connectionRemovalJobs else s.connectionRemovalJobs
  connectionRemovalObjects :=
    if .removals ∈ l then s'.connectionRemovalObjects else s.connectionRemovalObjects

def SameExcept (l : List StoreTable) (s s' : MetadataStore) : Prop :=
  ∀ t, l.contains t = false → t.Same s s'

theorem SameExcept.of_overwrite (h : s' = s.overwrite l s') : SameExcept l s s' := by
  intro t ht
  rw [List.contains_eq_mem, decide_eq_false_iff_not] at ht
  rw [h]
  cases t <;> simp [StoreTable.Same, overwrite, ht]

theorem SameExcept.trans (h : SameExcept l s s₁) (h' : SameExcept l s₁ s₂) : SameExcept l s s₂ :=
  fun t ht => (h t ht).trans (h' t ht)

theorem commitManifestInner_frame
    (h : s.commitManifestInner fromStr operation transfer published now = .ok (m', s')) :
    SameExcept [.manifests, .active, .journal, .jobs, .outbox, .uploads, .parts] s s' := by
  obtain ⟨row, -, ⟨-, rfl⟩ | ⟨m, -, -, -, ⟨-, rfl⟩ | ⟨upload, -, rfl⟩⟩⟩ := commitManifestInner_ok h
  all_goals exact .of_overwrite rfl

theorem finishPartJob_frame (h : s.finishPartJob fromStr job lease upload number now = .ok s') :
    SameExcept [.manifests, .active, .journal, .jobs, .outbox, .uploads, .parts] s s' := by
  by_cases hn : number = 0
  · subst hn
    obtain ⟨operation, m', -, hc⟩ := finishPartJob_zero h
    exact commitManifestInner_frame hc
  · obtain ⟨row, -, -, rfl⟩ := finishPartJob_ok hn h
    exact .of_overwrite rfl

theorem endReception_frame {id : Uuid} :
    SameExcept [.jobs, .manifests, .journal, .active] s (s.endReception id p f hf).2 := by
  unfold endReception
  dsimp only
  split
  · exact .of_overwrite rfl
  · exact fun t _ => .refl t s

theorem claimTransfer_sameExcept (s : MetadataStore) (now : Int) (lease : Uuid) :
    SameExcept [.jobs, .attempts] s (s.claimTransfer now lease).2 := by
  obtain ⟨jobs, attempts, he⟩ := s.claimTransfer_frame now lease
  rw [he]
  exact .of_overwrite rfl

theorem transferAction_frame (s : MetadataStore) (id : Uuid) (action : String) (now : Int) :
    SameExcept [.jobs, .outbox] s (s.transferAction id action now) := by
  unfold transferAction
  split
  · exact .of_overwrite rfl
  · split
    · rcases s.cancelTransfer_cases id now with he | ⟨job, l, -, -, -, he⟩
      · rw [he]
        exact .of_overwrite rfl
      · rw [he]
        exact .of_overwrite rfl
    · exact .of_overwrite rfl

theorem cleanupCompletedStaging_frame (s : MetadataStore) (removed : Nat) :
    SameExcept [.jobs] s (s.cleanupCompletedStaging removed) := by
  apply cleanupCompletedStaging_induction (P := fun t => SameExcept [.jobs] s t)
  · exact .of_overwrite rfl
  · intro t j ht _
    exact ht.trans (.of_overwrite rfl)

theorem tombstoneExpiredActiveManifests_frame (s : MetadataStore) (now : OffsetDateTime) :
    SameExcept [.manifests, .active, .journal, .outbox] s
      (s.tombstoneExpiredActiveManifests now) := by
  apply tombstoneExpiredActiveManifests_induction
  · exact .of_overwrite rfl
  · intro t r ht _
    exact ht.trans (.of_overwrite rfl)

theorem deleteActiveKey_frame (h : s.deleteActiveKey bucket key reason c now = .ok (r, s')) :
    SameExcept [.jobs, .manifests, .active, .journal, .outbox] s s' := by
  obtain ⟨-, ⟨-, rfl⟩ | ⟨objectId, m, -, -, rfl⟩⟩ := deleteActiveKey_ok h
  · exact .of_overwrite rfl
  · exact .of_overwrite rfl

theorem resolveSendAttempt_frame
    (h : s.resolveSendAttempt job order attempt location error now = .ok s') :
    SameExcept [.attempts, .chunks, .jobs] s s' := by
  obtain ⟨s₁, hs, rfl⟩ := resolveSendAttempt_ok h
  obtain ⟨rfl, -⟩ := updateAttempt_ok hs
  cases location with
  | none => exact .of_overwrite rfl
  | some location => exact .of_overwrite rfl

theorem claimRechunkJob_frame (s : MetadataStore) (now : Int) :
    SameExcept [.rechunks] s (s.claimRechunkJob now).2 := by
  unfold claimRechunkJob
  split
  · exact .of_overwrite rfl
  · exact .of_overwrite rfl

theorem claimCleanup_frame (s : MetadataStore) (now : Int) (lease : Uuid) :
    SameExcept [.outbox] s (s.claimCleanup now lease).2 := by
  unfold claimCleanup
  dsimp only
  split
  · exact .of_overwrite rfl
  · exact .of_overwrite rfl

end MetadataStore

theorem StoreOp.frame (h : StoreStep fromStr op s s') : SameExcept op.writes s s' := by
  cases op
  case commitManifest | commitTransferManifest =>
    obtain ⟨⟨m', s₁⟩, hc, rfl⟩ := map_ok.1 (after_eq_some.1 h)
    exact commitManifestInner_frame hc
  case finishPartJob =>
    obtain ⟨⟨upload, number⟩, -, hf⟩ := Option.bind_eq_some_iff.1 h
    exact finishPartJob_frame (after_eq_some.1 hf)
  case failReception | rejectTransferForQuota =>
    cases h
    exact endReception_frame
  case claimTransfer now lease =>
    cases h
    exact s.claimTransfer_sameExcept now lease
  case transferAction id action now =>
    cases h
    exact s.transferAction_frame id action now
  case cleanupCompletedStaging removed =>
    cases h
    exact s.cleanupCompletedStaging_frame removed
  case tombstoneExpiredActiveManifests now =>
    cases h
    exact s.tombstoneExpiredActiveManifests_frame now
  case deleteActiveKey =>
    obtain ⟨⟨m', s₁⟩, hc, rfl⟩ := map_ok.1 (after_eq_some.1 h)
    exact deleteActiveKey_frame hc
  case resolveSendAttempt =>
    exact resolveSendAttempt_frame (after_eq_some.1 h)
  case claimCleanup now lease =>
    cases h
    exact s.claimCleanup_frame now lease
  case claimRechunkJob now =>
    cases h
    exact s.claimRechunkJob_frame now
  case' queueRechunk => obtain ⟨m, -, -, rfl⟩ := queueRechunk_ok (after_eq_some.1 h)
  case' beginTransfer => obtain ⟨-, rfl⟩ := beginTransfer_ok (after_eq_some.1 h)
  case' reserveStaging => obtain ⟨-, rfl⟩ := reserveStaging_ok (after_eq_some.1 h)
  case' setTransferConditionals | queueTransfer | enterCommitting =>
    obtain ⟨-, rfl⟩ := updateJob_ok (after_eq_some.1 h)
  case' beginSendAttempt => obtain ⟨-, -, rfl⟩ := beginSendAttempt_ok (after_eq_some.1 h)
  case' finishSendAttempt =>
    obtain ⟨-, s₁, hs, rfl⟩ := finishSendAttempt_ok (after_eq_some.1 h)
    obtain ⟨rfl, -⟩ := updateAttempt_ok hs
  case' markSendAttemptUnknown | markSendAttemptRetryable =>
    obtain ⟨_, rfl⟩ := markSendAttempt_ok (after_eq_some.1 h)
  case' stageManifest => obtain ⟨-, rfl⟩ := stageManifest_ok (after_eq_some.1 h)
  case' updateManifestState =>
    obtain ⟨⟨m', s₁⟩, hc, rfl⟩ := map_ok.1 (after_eq_some.1 h)
    obtain ⟨m, -, rfl⟩ := updateManifestState_ok hc
  case' tombstoneManifest =>
    obtain ⟨⟨m', s₁⟩, hc, rfl⟩ := map_ok.1 (after_eq_some.1 h)
    obtain ⟨m, -, rfl⟩ := tombstoneManifestWithConditionals_ok hc
  case' insertMultipartJob => obtain ⟨-, rfl⟩ := insertMultipartJob_ok (after_eq_some.1 h)
  case' abortParts => obtain ⟨-, rfl⟩ := abortParts_ok (after_eq_some.1 h)
  case' queueMultipartCompletion =>
    obtain ⟨-, uploads, rfl⟩ := queueMultipartCompletion_ok (after_eq_some.1 h)
  case' beginConnectionRemoval =>
    obtain ⟨objects, rfl⟩ := beginConnectionRemoval_ok (after_eq_some.1 h)
  case' beginCleanupEvidenceAttempt =>
    obtain ⟨⟨r, s₁⟩, hc, rfl⟩ := map_ok.1 (after_eq_some.1 h)
    obtain rfl := beginCleanupEvidenceAttempt_ok hc
  case' renewReceiving | renewTransfer | transferFailed | reclassifyFloodWaitAttempts
    | queueAfterReconciliation | updateManifest | createMultipartSession | reopen
    | completeCleanup | failCleanup | quarantineCleanup | resolveCleanupEvidence
    | retryCleanupEvidence | makeCleanupDue | finishRechunk | insertReplicaLocation => cases h
  all_goals exact .of_overwrite rfl

end TelegramS3
