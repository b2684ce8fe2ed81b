import TelegramS3.ActiveJobs
import TelegramS3.Targets

namespace TelegramS3
open Relational Fallible MetadataStore
set_option autoImplicit true

namespace MetadataStore
variable (s : MetadataStore)

/-- Saving the settings keeps or draws the connection id and hands it the legacy namespace. -/
def setTelegramBootstrapSettings (fresh : Uuid) (chat : Option String) :
    MetadataStore :=
  let connectionId := s.activeConnectionSetting.getD fresh.text
  { s with
    activeConnectionSetting := some connectionId
    storageChatSetting := chat
    buckets := s.buckets.modify (fun r => r.connectionId = "legacy")
      fun r => { r with connectionId }
    objectManifests := s.objectManifests.modify (fun r => r.connectionId = "legacy")
      fun r => { r with connectionId }
    multipartUploads := s.multipartUploads.modify (fun r => r.connectionId = "legacy")
      fun r => { r with connectionId }
    transferJobs := s.transferJobs.modify (fun r => r.connectionId = "legacy")
      fun r => { r with connectionId }
    telegramAccounts := s.telegramAccounts.insertOrIgnore
      { id := connectionId, label := "Primary account" } }

def clearTelegramBootstrapSettings : MetadataStore :=
  { s with storageChatSetting := none }

def clearActiveConnectionId : MetadataStore :=
  { s with activeConnectionSetting := none }

/-- The replica locations of a deleted account go with it (`ON DELETE CASCADE`). -/
def deleteTelegramAccount (id : String) : Except MetadataError MetadataStore :=
  if s.activeConnectionSetting = some id then
    .error (.invalidManifest
      "the active account cannot be removed; connect another account first")
  else
    .ok { s with
      telegramAccounts := s.telegramAccounts.delete fun r => r.id = id
      replicaLocations := s.replicaLocations.delete fun r => r.accountId = id }

theorem deleteTelegramAccount_ok {s s' : MetadataStore}
    (h : s.deleteTelegramAccount account = .ok s') : s' = { s with
      telegramAccounts := s.telegramAccounts.delete fun r => r.id = account
      replicaLocations := s.replicaLocations.delete fun r => r.accountId = account } := by
  unfold deleteTelegramAccount at h
  split at h
  · cases h
  · cases h
    rfl

/-- The transfer and multipart rows of a removed connection are dropped. -/
def purgeConnectionOperations (connectionId : String) : MetadataStore :=
  let owned (job : Uuid) : Bool :=
    s.transferJobs.any fun j => j.id = job && j.connectionId = connectionId
  { s with
    sendAttempts := s.sendAttempts.delete fun r => owned r.jobId
    transferChunks := s.transferChunks.delete fun r => owned r.jobId
    multipartJobs := s.multipartJobs.delete fun r => owned r.jobId
    transferJobs := s.transferJobs.delete fun j => j.connectionId = connectionId
    multipartParts := s.multipartParts.delete fun p => s.multipartUploads.any fun u =>
      u.uploadId = p.uploadId && u.connectionId = connectionId
    multipartUploads := s.multipartUploads.delete fun u => u.connectionId = connectionId }

def ownsJob (connectionId : String) (job : Uuid) : Bool :=
  s.transferJobs.any fun j => j.id = job && j.connectionId = connectionId

def finishConnectionRemoval (job : Uuid) (state : RemovalState) (now : Int) :
    MetadataStore :=
  { s with
    connectionRemovalJobs := s.connectionRemovalJobs.modify
      (fun j => j.id = job && j.state != .completed)
      fun j => { j with state, updatedAt := now } }

end MetadataStore

/-- A call of the store, or one that connects or detaches an account. -/
inductive ConnectionAction where
  | call (op : StoreOp)
  | setTelegramBootstrapSettings (fresh : Uuid) (chat : Option String)
  | clearTelegramBootstrapSettings
  | clearActiveConnectionId
  | deleteTelegramAccount (id : String)
  | purgeConnectionOperations (connectionId : String)
  | finishConnectionRemoval (job : Uuid) (state : RemovalState) (now : Int)

def ConnectionAction.apply (fromStr : String → Option ETagCondition) (a : ConnectionAction)
    (s : MetadataStore) : Option MetadataStore :=
  match a with
  | .call op => op.serve fromStr s
  | .setTelegramBootstrapSettings fresh chat => some (s.setTelegramBootstrapSettings fresh chat)
  | .clearTelegramBootstrapSettings => some s.clearTelegramBootstrapSettings
  | .clearActiveConnectionId => some s.clearActiveConnectionId
  | .deleteTelegramAccount id => after (s.deleteTelegramAccount id)
  | .purgeConnectionOperations connectionId => some (s.purgeConnectionOperations connectionId)
  | .finishConnectionRemoval job state now => some (s.finishConnectionRemoval job state now)

def ConnectionStep (fromStr : String → Option ETagCondition) (a : ConnectionAction)
    (s s' : MetadataStore) : Prop :=
  a.apply fromStr s = some s'

/-- What connecting and detaching leave of the tables. -/
structure Relabels (s s' : MetadataStore) : Prop where
  rows : Table.Descends (fun r r' => r' = r ∨ r' = { r with connectionId := r'.connectionId })
    s.objectManifests s'.objectManifests
  jobs : Table.Descends (fun j j' => j' = j ∨ j' = { j with connectionId := j'.connectionId })
    s.transferJobs s'.transferJobs
  parts : ∀ p ∈ s'.multipartParts, p ∈ s.multipartParts
  journal : s'.operationJournal = s.operationJournal
  active : s'.activeObjects = s.activeObjects
  outbox : s'.outbox = s.outbox
  removals : Table.Rel (fun j j' => j'.id = j.id ∧ j'.deleteUploadedFiles = j.deleteUploadedFiles)
    s.connectionRemovalJobs s'.connectionRemovalJobs
  objects : s'.connectionRemovalObjects = s.connectionRemovalObjects

/-- An action is a call of the store or relabels rows. -/
theorem ConnectionStep.cases (h : ConnectionStep fromStr a s s') :
    (∃ op, a = .call op ∧ StoreStep fromStr op s s' ∧ WritesOwnManifest op s) ∨ Relabels s s' := by
  cases a with
  | call op =>
    obtain ⟨hs, hw⟩ := StoreOp.serve_eq_some h
    exact .inl ⟨op, rfl, hs, hw⟩
  | setTelegramBootstrapSettings fresh chat =>
    cases h
    right
    refine ⟨.of_update rfl (fun _ => .inl rfl) fun _ _ _ => .inr rfl,
      .of_update rfl (fun _ => .inl rfl) fun _ _ _ => .inr rfl, fun _ h => h, rfl, rfl, rfl,
      .refl (fun _ => ⟨rfl, rfl⟩) _, rfl⟩
  | clearTelegramBootstrapSettings | clearActiveConnectionId =>
    cases h
    right
    exact ⟨.refl (fun _ => .inl rfl) _, .refl (fun _ => .inl rfl) _, fun _ h => h, rfl, rfl, rfl,
      .refl (fun _ => ⟨rfl, rfl⟩) _, rfl⟩
  | deleteTelegramAccount id =>
    right
    obtain rfl := deleteTelegramAccount_ok (after_eq_some.1 h)
    exact ⟨.refl (fun _ => .inl rfl) _, .refl (fun _ => .inl rfl) _, fun _ h => h, rfl, rfl, rfl,
      .refl (fun _ => ⟨rfl, rfl⟩) _, rfl⟩
  | purgeConnectionOperations connectionId =>
    cases h
    right
    exact ⟨.refl (fun _ => .inl rfl) _, .delete fun _ => .inl rfl,
      fun _ h => (Table.mem_delete.1 h).1, rfl, rfl, rfl, .refl (fun _ => ⟨rfl, rfl⟩) _, rfl⟩
  | finishConnectionRemoval job state now =>
    cases h
    right
    exact ⟨.refl (fun _ => .inl rfl) _, .refl (fun _ => .inl rfl) _, fun _ h => h, rfl, rfl, rfl,
      .of_update rfl (fun _ _ h => h.1) (fun _ => ⟨rfl, rfl⟩) fun _ _ _ => ⟨rfl, rfl⟩, rfl⟩

theorem Relabels.coherent (h : Relabels s s') (hc : Coherent s) : Coherent s' where
  rows r' hr' := by
    obtain ⟨r, hr, he⟩ := h.rows r' hr'
    rcases he with rfl | he
    · exact hc.rows _ hr
    · rw [he]
      obtain ⟨ho, hb, hk, hst⟩ := hc.rows r hr
      exact ⟨ho, hb, hk, hst⟩
  operation e he := by
    rw [h.journal] at he
    exact hc.operation e he
  keys e he r' hr' := by
    rw [h.journal] at he
    obtain ⟨r, hr, hr''⟩ := h.rows r' hr'
    rcases hr'' with rfl | hr''
    · exact hc.keys e he _ hr
    · rw [hr'']
      exact hc.keys e he r hr

theorem Relabels.oneId (h : Relabels s s') (ho : ∀ j ∈ s.transferJobs, j.OneId) :
    ∀ j ∈ s'.transferJobs, j.OneId := by
  intro j' hj'
  obtain ⟨j, hj, he⟩ := h.jobs j' hj'
  rcases he with rfl | he
  · exact ho _ hj
  · rw [he]
    exact ⟨(ho j hj).object, (ho j hj).operation⟩

def ConnectionAction.handovers (s : MetadataStore) : ConnectionAction → List Handover
  | .call op => op.handovers s
  | _ => []

theorem ConnectionStep.targets_evolve (hn : s.outbox.Numbered) (h : ConnectionStep fromStr a s s') :
    s'.outbox.Numbered ∧ Table.Evolves SameTarget (s.HandedOver (a.handovers s)) s.outbox.targets
      s'.outbox.targets := by
  rcases h.cases with ⟨op, rfl, hs, -⟩ | hr
  · exact ⟨StoreOp.numbered_step hn hs, StoreOp.targets_evolve hn hs⟩
  · rw [hr.outbox]
    exact ⟨hn, .refl .refl _⟩

end TelegramS3
