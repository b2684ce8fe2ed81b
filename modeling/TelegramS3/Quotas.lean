import TelegramS3.Connections
import TelegramS3.Reopening
import TelegramS3.Rows

namespace TelegramS3
open Relational Table Fallible Transition Versioned MetadataStore
set_option autoImplicit true

def ManifestRow.chunkSize (r : ManifestRow) (order : Nat) : Nat :=
  (r.manifest.chunks[order]?.map ChunkRef.size).getD 0

namespace MetadataStore
variable (s : MetadataStore)

def replicaBytes (t : Table ReplicaLocationRow) (account : String) (r : ManifestRow) : Nat :=
  t.total fun l =>
    if l.accountId = account && l.mode = .replica && l.objectId = r.objectId then
      r.chunkSize l.chunkOrder else 0

def storedBytes (account : String) (r : ManifestRow) : Nat :=
  (if r.connectionId = account then r.manifest.contentLength else 0) +
    replicaBytes s.replicaLocations account r

def activeBytes (account : String) (a : ActiveRow) : Nat :=
  match s.objectManifests.get? a.objectId with
  | none => 0
  | some r => if r.commitState = .committed then s.storedBytes account r else 0

def ownedLength (account bucket key : String) : Nat :=
  ((((s.activeObjectId bucket key).bind s.objectManifests.get?).filter fun m =>
    m.connectionId = account && m.commitState = .committed).map fun m =>
      m.manifest.contentLength).getD 0

theorem sum_filter_map {l : List α} {p : α → Bool} {g : α → Nat} :
    ((l.filter p).map g).sum = (l.map fun a => if p a then g a else 0).sum := by
  induction l with
  | nil => rfl
  | cons a l ih =>
    cases hp : p a with
    | true => simp [hp, ih]
    | false => simp [hp, ih]

theorem usage_of_rows (t : Table ReplicaLocationRow) (account : String) (l : List ManifestRow) :
    ((l.filter fun m => m.connectionId = account && m.commitState = .committed).map
        fun m => m.manifest.contentLength).sum +
      ((t.select fun r => r.accountId = account && r.mode = .replica).map fun r =>
        ((l.filter fun m => m.objectId = r.objectId && m.commitState = .committed).map
          fun m => m.chunkSize r.chunkOrder).sum).sum =
      (l.map fun m => if m.commitState = .committed then
        (if m.connectionId = account then m.manifest.contentLength else 0) +
          replicaBytes t account m else 0).sum := by
  simp only [Table.select, sum_filter_map]
  induction l with
  | nil => simp
  | cons m l ih =>
    simp only [List.map_cons, List.sum_cons]
    rw [← ih]
    by_cases hc : m.commitState = .committed
    · have hr := t.total_add (fun r => if r.accountId = account && r.mode = .replica &&
          r.objectId = m.objectId then m.chunkSize r.chunkOrder else 0)
        fun r => if r.accountId = account && r.mode = .replica then
          (l.map fun m => if m.objectId = r.objectId && m.commitState = .committed then
            m.chunkSize r.chunkOrder else 0).sum else 0
      have he : ∀ (r : ReplicaLocationRow) (n : Nat),
          (if (r.accountId = account && r.mode = .replica) = true then
            (if (m.objectId = r.objectId && m.commitState = .committed) = true then
              m.chunkSize r.chunkOrder else 0) + n else 0) =
          (if (r.accountId = account && r.mode = .replica && r.objectId = m.objectId) = true then
            m.chunkSize r.chunkOrder else 0) +
          if (r.accountId = account && r.mode = .replica) = true then n else 0 := by
        intro r n
        by_cases hp : (r.accountId = account && r.mode = .replica) = true
        · by_cases ho : r.objectId = m.objectId
          · simp [hp, ho, hc]
          · have ho' : m.objectId ≠ r.objectId := fun h => ho h.symm
            simp [hp, ho, ho']
        · simp [hp]
      unfold Table.total at hr
      simp only [he]
      rw [hr]
      simp only [hc, decide_true, Bool.and_true, decide_eq_true_eq, if_true, replicaBytes,
        Table.total]
      omega
    · simp [hc]

theorem accountUsage_eq (account : String) :
    s.accountUsage account = s.activeObjects.total (s.activeBytes account) := by
  have h := usage_of_rows s.replicaLocations account
    (s.activeObjects.rows.filterMap fun a => s.objectManifests.get? a.objectId)
  refine h.trans ?_
  unfold Table.total
  generalize s.activeObjects.rows = l
  induction l with
  | nil => rfl
  | cons a l ih =>
    rw [List.map_cons, List.sum_cons, ← ih, activeBytes]
    cases hr : s.objectManifests.get? a.objectId with
    | none => simp [hr]
    | some r =>
      simp only [List.filterMap_cons, hr, List.map_cons, List.sum_cons]
      rfl

theorem activeBytes_of_row {s : MetadataStore} (hr : r ∈ s.objectManifests)
    (hid : r.objectId = a.objectId) (hc : r.commitState = .committed) :
    s.activeBytes account a = s.storedBytes account r := by
  have hg : s.objectManifests.get? a.objectId = some r := get?_eq_some.2 ⟨hr, hid⟩
  simp [activeBytes, hg, hc]

theorem activeBytes_le {s : MetadataStore}
    (h : ∀ r ∈ s.objectManifests, r.objectId = a.objectId → r.commitState = .committed →
      s.storedBytes account r ≤ n) : s.activeBytes account a ≤ n := by
  unfold activeBytes
  split
  · exact Nat.zero_le n
  · rename_i r hr
    split
    · rename_i hc
      exact h r (mem_of_get? hr) (key_of_get? hr) hc
    · exact Nat.zero_le n

theorem accountUsage_le_add {s s' : MetadataStore} (bucket key : String)
    (h : ∀ a ∈ s'.activeObjects, s'.activeBytes account a ≤
      s.activeObjects.share (s.activeBytes account) (a.bucket, a.objectKey) +
        if (a.bucket, a.objectKey) = (bucket, key) then d else 0) :
    s'.accountUsage account ≤ s.accountUsage account + d := by
  rw [accountUsage_eq, accountUsage_eq]
  exact total_le_add (bucket, key) h

theorem storedBytes_eq {s s' : MetadataStore} (h : s'.replicaLocations = s.replicaLocations) :
    s'.storedBytes account r = s.storedBytes account r := by
  rw [storedBytes, storedBytes, h]

theorem storedBytes_of_no_replicas {s : MetadataStore}
    (h : ∀ l ∈ s.replicaLocations, l.objectId ≠ r.objectId) :
    s.storedBytes account r = if r.connectionId = account then r.manifest.contentLength else 0 := by
  have hb : replicaBytes s.replicaLocations account r = 0 := by
    unfold replicaBytes Table.total
    have hz : ∀ l ∈ s.replicaLocations.rows, (if l.accountId = account && l.mode = .replica &&
        l.objectId = r.objectId then r.chunkSize l.chunkOrder else 0) = 0 := by
      intro l hl
      simp [h l hl]
    rw [List.map_congr_left hz]
    simp
  rw [storedBytes, hb, Nat.add_zero]

theorem replicaBytes_upsert (t : Table ReplicaLocationRow) (account : String) (r : ManifestRow)
    (row : ReplicaLocationRow) :
    replicaBytes (t.upsert row) account r ≤ replicaBytes t account r +
      if row.accountId = account && row.mode = .replica && row.objectId = r.objectId then
        r.chunkSize row.chunkOrder else 0 := by
  apply total_le_add (Keyed.key row)
  intro l hl
  rcases mem_upsert.1 hl with rfl | ⟨hl, hk⟩
  · rw [if_pos rfl]
    exact Nat.le_add_left _ _
  · rw [if_neg hk, share_of_mem hl]
    exact Nat.le_add_right _ _

theorem replicaBytes_replace (account : String) (r : ManifestRow) (hl : l ∈ t)
    (hk : Keyed.key l = Keyed.key row)
    (hm : l.mode = .replica) :
    replicaBytes (t.upsert row) account r ≤ replicaBytes t account r := by
  apply Table.total_le
  intro o ho
  rcases mem_upsert.1 ho with rfl | ⟨ho, -⟩
  · rw [← hk, share_of_mem hl]
    obtain ⟨h₁, h₂⟩ := Prod.mk.inj hk
    obtain ⟨h₂, h₃⟩ := Prod.mk.inj h₂
    rw [h₁, h₂, h₃, hm]
    by_cases ha : o.accountId = account ∧ o.objectId = r.objectId
    · simp only [ha, decide_true, Bool.true_and, Bool.and_true, if_true]
      split
      · exact Nat.le_refl _
      · exact Nat.zero_le _
    · by_cases hx : o.accountId = account
      · have hy : o.objectId ≠ r.objectId := fun he => ha ⟨hx, he⟩
        simp [hy]
      · simp [hx]
  · rw [share_of_mem ho]

theorem storedBytes_mono {s s' : MetadataStore}
    (h : ∀ l ∈ s'.replicaLocations, l ∈ s.replicaLocations) :
    s'.storedBytes account r ≤ s.storedBytes account r := by
  apply Nat.add_le_add_left
  apply Table.total_le
  intro l hl
  rw [share_of_mem (h l hl)]

theorem storedBytes_of_sizes {s : MetadataStore}
    (hid : r'.objectId = r.objectId) (hw : r'.connectionId = r.connectionId)
    (hl : r'.manifest.contentLength = r.manifest.contentLength)
    (hc : r'.manifest.chunks.map ChunkRef.size = r.manifest.chunks.map ChunkRef.size ∨
      ∀ l ∈ s.replicaLocations, l.objectId ≠ r.objectId) :
    s.storedBytes account r' = s.storedBytes account r := by
  have hb : replicaBytes s.replicaLocations account r' =
      replicaBytes s.replicaLocations account r := by
    unfold replicaBytes Table.total
    congr 1
    apply List.map_congr_left
    intro l hm
    rcases hc with hc | hc
    · have hz : r'.chunkSize l.chunkOrder = r.chunkSize l.chunkOrder := by
        simp only [ManifestRow.chunkSize, ← List.getElem?_map, hc]
      rw [hz, hid]
    · have hne := hc l hm
      simp [hid, hne]
  rw [storedBytes, storedBytes, hw, hl, hb]

theorem accountUsage_le {s s' : MetadataStore} (hact : ∀ a ∈ s'.activeObjects, a ∈ s.activeObjects)
    (h : ∀ r' ∈ s'.objectManifests, r'.commitState = .committed → ∃ r ∈ s.objectManifests,
      r.objectId = r'.objectId ∧ r.commitState = .committed ∧
        s'.storedBytes account r' ≤ s.storedBytes account r) :
    s'.accountUsage account ≤ s.accountUsage account := by
  rw [accountUsage_eq, accountUsage_eq]
  apply Table.total_le
  intro a ha
  rw [share_of_mem (hact a ha)]
  refine activeBytes_le fun r' hr' hid hc => ?_
  obtain ⟨r, hr, ho, hrc, hb⟩ := h r' hr' hc
  rw [activeBytes_of_row hr (ho.trans hid) hrc]
  exact hb

theorem ownedLength_le_share (account bucket key : String) : s.ownedLength account bucket key ≤
      s.activeObjects.share (s.activeBytes account) (bucket, key) := by
  unfold ownedLength Table.share activeObjectId
  cases ha : s.activeObjects.get? (bucket, key) with
  | none => exact Nat.zero_le _
  | some a =>
    simp only [Option.map_some, Option.bind_some, Option.getD_some, activeBytes]
    cases hr : s.objectManifests.get? a.objectId with
    | none => exact Nat.zero_le _
    | some r =>
      by_cases hc : r.connectionId = account ∧ r.commitState = .committed
      · simp [Option.filter, hc, storedBytes]
      · simp [Option.filter, hc]

theorem enforceQuota_ok (hq : q < 2 ^ 63) :
    enforceQuota label (some q) used additional = .ok () ↔ used + additional ≤ q := by
  simp only [enforceQuota, ensure_ok, decide_eq_true_eq]
  omega

section
variable {s : MetadataStore} {q : Nat} (hrow : row ∈ s.telegramAccounts)
  (hq : row.quotaBytes = some q) (hb : q < 2 ^ 63)
include hrow hq hb

theorem enforceAccountQuota_ok : s.enforceAccountQuota row.id bucket key n = .ok () ↔
      s.accountUsage row.id + (n - s.ownedLength row.id bucket key) ≤ q := by
  have hg : s.telegramAccounts.get? row.id = some row := mem_iff_get?.1 hrow
  simp only [enforceAccountQuota, hg, hq]
  exact enforceQuota_ok hb

theorem ensureAdditional_ok : s.ensureAccountQuotaForAdditionalBytes row.id n = .ok () ↔
      s.accountUsage row.id + n ≤ q := by
  have hg : s.telegramAccounts.get? row.id = some row := mem_iff_get?.1 hrow
  simp only [ensureAccountQuotaForAdditionalBytes, hg, hq]
  exact enforceQuota_ok hb

end

end MetadataStore

def ObjectManifest.missingReplicas (m : ObjectManifest) (account : String) : List ChunkRef :=
  m.chunks.filter fun c => !c.replicas.any fun r => r.accountId = account && r.mode = .replica

/-- The store with the replica locations that a replication or the verifier may still record. -/
structure QuotaWorld where
  store : MetadataStore
  copies : List (Uuid × Nat × String) := []

inductive QuotaAction where
  | act (a : ConnectionAction)
  | upsertTelegramAccount (id label : String) (downloadEnabled : Option Bool)
      (quotaBytes : Option (Option Nat))
  | startReplication (account : String) (manifests : List ObjectManifest)
  | inspect (m : ObjectManifest)
  | recordReplica (row : ReplicaLocationRow)
  | removeReplicaLocation (objectId : Uuid) (chunkOrder : Nat) (accountId : String)

/-- The quota an account gets is not below the one it had, nor below what a new account holds. -/
def keepsQuota (s : MetadataStore) (id : String) (quotaBytes : Option (Option Nat)) : Bool :=
  match s.telegramAccounts.get? id, quotaBytes with
  | _, none | _, some none => true
  | none, some (some q) => s.accountUsage id ≤ q
  | some row, some (some q) => row.quotaBytes.any fun q₀ => q₀ ≤ q

/-- Replicas are recorded after a check of the capacity or by the verifier; quotas never fall. -/
def QuotaAction.apply (fromStr : String → Option ETagCondition) (a : QuotaAction)
    (w : QuotaWorld) : Option QuotaWorld :=
  match a with
  | .act (.call (.insertReplicaLocation row)) =>
    if row.mode = .replica then none
    else some { w with store := w.store.insertReplicaLocation row }
  | .act a => (a.apply fromStr w.store).map fun s => { w with store := s }
  | .upsertTelegramAccount id label downloadEnabled quotaBytes =>
    if keepsQuota w.store id quotaBytes then
      (after (w.store.upsertTelegramAccount id label downloadEnabled quotaBytes)).map fun s =>
        { w with store := s }
    else none
  | .startReplication account manifests =>
    if manifests.all fun m => w.store.activeCommitted.any fun r => r.manifest = m then
      (after (w.store.ensureAccountQuotaForAdditionalBytes account
        ((manifests.flatMap fun m => m.missingReplicas account).map ChunkRef.size).sum)).map
        fun _ =>
          { w with
            copies := (manifests.flatMap fun m => (m.missingReplicas account).map fun c =>
              (m.objectId, c.order, account)) ++ w.copies }
    else none
  | .inspect m =>
    if w.store.objectManifests.any fun r => r.manifest = m then
      some { w with
        copies := (m.chunks.flatMap fun c => (c.replicas.filter fun r => r.mode = .replica).map
          fun r => (m.objectId, c.order, r.accountId)) ++ w.copies }
    else none
  | .recordReplica row =>
    if row.mode = .replica ∧ (row.objectId, row.chunkOrder, row.accountId) ∈ w.copies then
      some { w with store := w.store.insertReplicaLocation row }
    else none
  | .removeReplicaLocation objectId chunkOrder accountId =>
    some { w with store := w.store.removeReplicaLocation objectId chunkOrder accountId }

def QuotaStep (fromStr : String → Option ETagCondition) (a : QuotaAction) (w w' : QuotaWorld) :
    Prop :=
  a.apply fromStr w = some w'

def WithinQuotas (s : MetadataStore) : Prop :=
  ∀ row ∈ s.telegramAccounts, ∀ q, row.quotaBytes = some q → s.accountUsage row.id ≤ q

/-- A store whose active rows are about the keys of their manifests, with every account within
its quota. -/
structure QuotaWorld.Sound (s : MetadataStore) : Prop where
  coherent : Coherent s
  oneId : ∀ j ∈ s.transferJobs, j.OneId
  placed : ∀ a ∈ s.activeObjects, ∀ r ∈ s.objectManifests, r.objectId = a.objectId → r.ShownBy a
  quotas : ∀ row ∈ s.telegramAccounts, ∀ q, row.quotaBytes = some q → q < 2 ^ 63
  within : WithinQuotas s

structure QuotaWorld.Initial (w : QuotaWorld) : Prop where
  store : Sound w.store
  copies : w.copies = []

/-- A commit accepts exactly what fits on top of the usage, which stays within the quota. -/
def QuotaLaw (Step : QuotaAction → QuotaWorld → QuotaWorld → Prop) : Prop :=
  (∀ (s : MetadataStore) account row q bucket key n,
    s.telegramAccounts.get? account = some row → row.quotaBytes = some q → q < 2 ^ 63 →
      (s.enforceAccountQuota account bucket key n = .ok () ↔
        s.accountUsage account + (n - s.ownedLength account bucket key) ≤ q)) ∧
  ∀ past w, Run QuotaWorld.Initial Step past w → WithinQuotas w.store

/-- Staged ids are not active, commits have no replicas and are no parts, write-backs keep state and
sizes, restored objects fit, and the index is rebuilt as it was. -/
def CallFits (op : StoreOp) (s : MetadataStore) : Prop :=
  match op with
  | .stageManifest _ m _ => ∀ a ∈ s.activeObjects, a.objectId ≠ m.objectId
  | .commitManifest object _ | .commitTransferManifest object .. =>
    (∀ l ∈ s.replicaLocations, l.objectId ≠ object) ∧
      ∀ p ∈ s.multipartJobs, p.jobId = object → p.partNumber = 0
  | .finishPartJob object .. => ∀ l ∈ s.replicaLocations, l.objectId ≠ object
  | .updateManifest m => ∀ r ∈ s.objectManifests, r.objectId = m.objectId →
    m.commitState = r.commitState ∧ m.contentLength = r.manifest.contentLength ∧
      (m.chunks.map ChunkRef.size = r.manifest.chunks.map ChunkRef.size ∨
        ∀ l ∈ s.replicaLocations, l.objectId ≠ m.objectId)
  | .updateManifestState object .committed _ => ∀ r ∈ s.objectManifests, r.objectId = object →
    ∀ account, s.ensureAccountQuotaForAdditionalBytes account (s.storedBytes account r) = .ok ()
  | .reopen _ => s.versions.Consistent
  | _ => True

theorem CallFits.commit (h : CallFits op s) (hcall : CommitCall s now op operation transfer subject)
    (hp : op.publishes = some operation) : (∀ l ∈ s.replicaLocations, l.objectId ≠ operation) ∧
      ∀ p ∈ s.multipartJobs, p.jobId = operation → p.partNumber = 0 := by
  cases hcall with
  | plain | leased => exact h
  | completion hj _ =>
    cases hp
    refine ⟨h, fun p hpm hpj => ?_⟩
    have hg : s.multipartJobs.get? operation = some p := get?_eq_some.2 ⟨hpm, hpj⟩
    rw [multipartJob, hg] at hj
    exact (Prod.mk.inj (Option.some.inj hj)).2

/-- A replica replaces one or is checked right before; adopted rows fit their account. -/
def FitsQuotas (a : QuotaAction) (w : QuotaWorld) : Prop :=
  match a with
  | .act (.call op) => CallFits op w.store
  | .act (.setTelegramBootstrapSettings fresh _) =>
    w.store.ensureAccountQuotaForAdditionalBytes
      (w.store.activeConnectionSetting.getD fresh.text) (w.store.accountUsage "legacy") = .ok ()
  | .recordReplica row =>
    (∃ l ∈ w.store.replicaLocations, Keyed.key l = Keyed.key row ∧ l.mode = .replica) ∨
      ∀ r ∈ w.store.objectManifests, r.objectId = row.objectId →
        w.store.ensureAccountQuotaForAdditionalBytes row.accountId (r.chunkSize row.chunkOrder) =
          .ok ()
  | _ => True

theorem StoreOp.accounts_frame (h : StoreStep fromStr op s s') :
    s'.telegramAccounts = s.telegramAccounts := by
  cases op <;> exact StoreOp.frame h .accounts rfl

theorem StoreOp.replicas_frame (h : StoreStep fromStr op s s')
    (hn : ∀ row, op ≠ .insertReplicaLocation row) : s'.replicaLocations = s.replicaLocations := by
  cases op with
  | insertReplicaLocation row => exact absurd rfl (hn row)
  | _ => exact StoreOp.frame h .replicas rfl

namespace QuotaWorld.Sound

theorem placed_step (h : Sound s) (hs : StoreStep fromStr op s s') (hc : CallFits op s) :
    ∀ a ∈ s'.activeObjects, ∀ r ∈ s'.objectManifests, r.objectId = a.objectId → r.ShownBy a := by
  intro a ha r' hr' hid
  by_cases hre : ∃ now, op = .reopen now
  · obtain ⟨now, rfl⟩ := hre
    cases hs
    obtain ⟨r, hr, -, ho, hb, hk⟩ := mem_rebuildIndex_active ha
    have he : r' = r := eq_of_key_eq hr' hr (hid.trans ho.symm)
    subst he
    exact ⟨ho.symm, hb.symm, hk.symm⟩
  · have hst : op.stagedObject = some r'.objectId → a ∉ s.activeObjects := by
      intro hst hm
      obtain ⟨kind, m, now, rfl, ho⟩ := StoreOp.stagedObject_eq_some hst
      exact hc a hm (hid.symm.trans ho.symm)
    rcases StoreOp.exposed_row h.coherent h.oneId hs (fun now he => hre ⟨now, he⟩) ha with
      hm | ⟨r, hr, hsh, hp⟩
    · have hrow := StoreOp.row_step h.coherent h.oneId hs hr'
      obtain ⟨r, hr, ho, hb, hk⟩ := hrow.before fun he => hst he hm
      obtain ⟨-, hsb, hsk⟩ := h.placed a hm r hr (ho.trans hid)
      exact ⟨hid.symm, hsb.trans hb, hsk.trans hk⟩
    · have hn : op.stagedObject ≠ some r'.objectId := by
        intro hst
        obtain ⟨kind, m, now, rfl, -⟩ := StoreOp.stagedObject_eq_some hst
        rcases hp with ⟨hp, -⟩ | ⟨_, hp⟩
        · cases hp
        · cases hp
      have hrow := StoreOp.row_step h.coherent h.oneId hs hr'
      obtain ⟨o, ho, hoid, hb, hk⟩ := hrow.before hn
      have he : o = r := eq_of_key_eq ho hr (hoid.trans (hid.trans hsh.object))
      subst he
      exact ⟨hid.symm, hsh.bucket.trans hb, hsh.key.trans hk⟩

/-- A call that neither commits nor restores adds no bytes. -/
theorem usage_quiet (h : Sound s) (hs : StoreStep fromStr op s s') (hc : CallFits op s)
    (hn : op.shows = none) (hre : ∀ now, op ≠ .reopen now)
    (hin : ∀ row, op ≠ .insertReplicaLocation row) (account : String) :
    s'.accountUsage account ≤ s.accountUsage account := by
  have hrep := StoreOp.replicas_frame hs hin
  have hp : op.publishes = none := by
    cases op with
    | updateManifestState => rfl
    | _ => exact hn
  have hst : ∀ object now, op ≠ .updateManifestState object .committed now := by
    rintro object now rfl
    cases hn
  refine accountUsage_le (fun a ha => ?_) fun r' hr' hcom => ?_
  · rcases StoreOp.exposed_row h.coherent h.oneId hs hre ha with hm | ⟨r, -, -, ⟨hx, -⟩ | ⟨now, hx⟩⟩
    · exact hm
    · rw [hp] at hx
      cases hx
    · exact absurd hx (hst _ _)
  rw [storedBytes_eq hrep]
  cases StoreOp.row_step h.coherent h.oneId hs hr' with
  | kept hr => exact ⟨r', hr, rfl, hcom, Nat.le_refl _⟩
  | staged kind m now _ he =>
    subst he
    cases hcom
  | published r m now hr hx =>
    rw [hp] at hx
    cases hx
  | tombstoned r now hr he =>
    subst he
    cases hcom
  | moved r state now hr ho he =>
    subst he
    obtain rfl : state = .committed := hcom
    exact absurd ho (hst _ _)
  | written r m hr ho hrm he =>
    subst ho he
    obtain ⟨hstate, hlen, hsizes⟩ := hc r hr hrm
    refine ⟨r, hr, rfl, hstate.symm.trans hcom, le_of_eq ?_⟩
    apply storedBytes_of_sizes
    · rfl
    · rfl
    · exact hlen
    · rw [hrm]
      exact hsizes

theorem usage_reopen {s : MetadataStore} (hc : s.versions.Consistent) (now : OffsetDateTime)
    (account : String) : (s.reopen now).accountUsage account ≤ s.accountUsage account := by
  rw [accountUsage_eq, accountUsage_eq]
  apply Table.total_le
  intro a ha
  have hp : (s.reopen now).activeObjectId a.bucket a.objectKey = some a.objectId :=
    activeObjectId_eq_some.2 ⟨a, ha, rfl, rfl, rfl⟩
  rw [(s.reopen_keeps_iff now).2 hc] at hp
  obtain ⟨b, hb, hbb, hbk, hbo⟩ := activeObjectId_eq_some.1 hp
  have hk : (Keyed.key a : String × String) = Keyed.key b := Prod.ext hbb.symm hbk.symm
  have he : (s.reopen now).activeBytes account a = s.activeBytes account b := by
    unfold activeBytes
    rw [hbo]
    rfl
  rw [hk, share_of_mem hb, he]

section
variable (h : Sound s)
include h

/-- When an object becomes what its key shows, usage grows by what it takes beyond the old one. -/
theorem usage_shown {s' : MetadataStore} (hr : r ∈ s.objectManifests)
    (hrep : s'.replicaLocations = s.replicaLocations)
    (hact : ∀ a ∈ s'.activeObjects, r.ShownBy a ∨
      a ∈ s.activeObjects ∧ (a.bucket, a.objectKey) ≠ (r.bucket, r.objectKey))
    (hrows : ∀ r' ∈ s'.objectManifests, r'.objectId ≠ r.objectId → r' ∈ s.objectManifests)
    (hb : ∀ r' ∈ s'.objectManifests, r'.objectId = r.objectId → s.storedBytes account r' ≤
      s.activeObjects.share (s.activeBytes account) (r.bucket, r.objectKey) + d) :
    s'.accountUsage account ≤ s.accountUsage account + d := by
  apply accountUsage_le_add r.bucket r.objectKey
  intro a ha
  rcases hact a ha with hsh | ⟨hm, hk⟩
  · rw [hsh.bucket, hsh.key, if_pos rfl]
    refine activeBytes_le fun r' hr' hid _ => ?_
    rw [storedBytes_eq hrep]
    exact hb r' hr' (hid.trans hsh.object)
  · have hs : s.activeObjects.share (s.activeBytes account) (a.bucket, a.objectKey) =
        s.activeBytes account a := share_of_mem hm
    rw [hs, if_neg hk]
    refine activeBytes_le fun r' hr' hid hcom => ?_
    rw [storedBytes_eq hrep]
    have hne : r'.objectId ≠ r.objectId := by
      intro he
      obtain ⟨-, hbu, hke⟩ := h.placed a hm r hr (he.symm.trans hid)
      exact hk (by rw [hbu, hke])
    rw [activeBytes_of_row (hrows r' hr' hne) hid hcom]
    exact Nat.le_refl _

/-- A commit that has passed the check keeps every account within its quota. -/
theorem within_commit (hc : CommitsRow s s' operation transfer subject now r m)
    (hacc : s'.telegramAccounts = s.telegramAccounts)
    (hrep : s'.replicaLocations = s.replicaLocations)
    (hnone : ∀ l ∈ s.replicaLocations, l.objectId ≠ operation)
    (hpart : ∀ p ∈ s.multipartJobs, p.jobId = operation → p.partNumber = 0) : WithinQuotas s' := by
  intro row hrow q hq
  rw [hacc] at hrow
  have hpub : r.publish m now ∈ s'.objectManifests := by
    rw [hc.rows]
    exact mem_of_update_true rfl hc.row (decide_eq_true (hc.own.trans hc.object.symm))
  have hown : ∀ r' ∈ s'.objectManifests, r'.objectId = r.objectId →
      s.storedBytes row.id r' = if r.connectionId = row.id then m.contentLength else 0 := by
    intro r' hr' hid
    have he : r' = r.publish m now := eq_of_key_eq hr' hpub hid
    rw [he]
    exact storedBytes_of_no_replicas fun l hl he => hnone l hl (he.trans hc.own)
  have hact : ∀ a ∈ s'.activeObjects, r.ShownBy a ∨
      a ∈ s.activeObjects ∧ (a.bucket, a.objectKey) ≠ (r.bucket, r.objectKey) := by
    intro a ha
    rw [hc.active] at ha
    rcases mem_upsert.1 ha with rfl | ⟨ha, hne⟩
    · exact .inl ⟨hc.object.trans hc.own.symm, hc.bucket, hc.key⟩
    · rw [← hc.bucket, ← hc.key]
      exact .inr ⟨ha, hne⟩
  have hrows : ∀ r' ∈ s'.objectManifests, r'.objectId ≠ r.objectId → r' ∈ s.objectManifests := by
    intro r' hr' hne
    rcases hc.of_mem hr' with hm | rfl
    · exact hm
    · exact absurd rfl hne
  have hle := s.ownedLength_le_share row.id r.bucket r.objectKey
  by_cases hconn : r.connectionId = row.id
  · have hfits := hc.fits hpart
    rw [hconn, hc.bucket, hc.key, enforceAccountQuota_ok hrow hq (h.quotas row hrow q hq)] at hfits
    refine le_trans (h.usage_shown hc.row hrep hact hrows fun r' hr' hid => ?_) hfits
    rw [hown r' hr' hid, if_pos hconn]
    omega
  · have hu : s'.accountUsage row.id ≤ s.accountUsage row.id + 0 := by
      refine h.usage_shown hc.row hrep hact hrows fun r' hr' hid => ?_
      rw [hown r' hr' hid, if_neg hconn]
      exact Nat.zero_le _
    exact le_trans hu (h.within row hrow q hq)

theorem within_restore (hs : StoreStep fromStr (.updateManifestState object .committed now) s s')
    (hc : CallFits (.updateManifestState object .committed now) s) : WithinQuotas s' := by
  obtain ⟨⟨m', s₁⟩, hst, rfl⟩ := map_ok.1 (after_eq_some.1 hs)
  obtain ⟨m, hm, rfl⟩ := updateManifestState_ok hst
  obtain ⟨r, hr, rfl⟩ := loadManifestByObjectId_ok hm
  obtain ⟨hmem, hid⟩ := get?_eq_some.1 hr
  have hid' : r.objectId = object := hid
  have hrow := h.coherent.rows r hmem
  intro row hrows q hq
  have hacc : row ∈ s.telegramAccounts := hrows
  have hfit := hc r hmem hid row.id
  rw [ensureAdditional_ok hacc hq (h.quotas row hacc q hq)] at hfit
  refine le_trans (h.usage_shown (r := r) hmem rfl ?_ ?_ ?_) hfit
  · intro a ha
    simp only [setManifestState, if_true] at ha
    rcases mem_upsert.1 ha with rfl | ⟨ha, hne⟩
    · exact .inl ⟨hid'.symm, hrow.bucket, hrow.key⟩
    · rw [← hrow.bucket, ← hrow.key]
      exact .inr ⟨ha, hne⟩
  · intro r' hr' hne
    simp only [setManifestState, mem_modify] at hr'
    obtain ⟨o, ho, rfl⟩ := hr'
    split at hne
    · rename_i hp
      exact absurd ((of_decide_eq_true hp).trans hid'.symm) hne
    · rename_i hp
      rw [if_neg hp]
      exact ho
  · intro r' hr' he
    simp only [setManifestState, mem_modify] at hr'
    obtain ⟨o, ho, rfl⟩ := hr'
    have hor : o = r := by
      apply eq_of_key_eq ho hmem
      split at he
      · exact he
      · exact he
    subst hor
    rw [if_pos (decide_eq_true hid')]
    apply le_trans (le_of_eq (storedBytes_of_sizes rfl rfl rfl (.inl rfl)))
    exact Nat.le_add_left _ _

theorem of_index (hi : SameIndex s s') (hj : s'.transferJobs = s.transferJobs)
    (hq : ∀ row ∈ s'.telegramAccounts, ∀ q, row.quotaBytes = some q → q < 2 ^ 63)
    (hw : WithinQuotas s') : Sound s' where
  coherent := h.coherent.keep hi.identity
  oneId := by
    rw [hj]
    exact h.oneId
  placed := by
    rw [hi.active, hi.manifests]
    exact h.placed
  quotas := hq
  within := hw

theorem usage_record (hd : ∀ r ∈ s.objectManifests, r.objectId = row.objectId →
      replicaBytes (s.replicaLocations.upsert row) account r ≤
      replicaBytes s.replicaLocations account r + d) :
    (s.insertReplicaLocation row).accountUsage account ≤ s.accountUsage account + d := by
  have hother : ∀ r : ManifestRow, r.objectId ≠ row.objectId →
      (s.insertReplicaLocation row).storedBytes account r ≤ s.storedBytes account r := by
    intro r hne
    have hb := replicaBytes_upsert s.replicaLocations account r row
    have hne' : row.objectId ≠ r.objectId := fun he => hne he.symm
    simp only [hne', decide_false, Bool.and_false, Bool.false_eq_true, if_false] at hb
    exact Nat.add_le_add_left hb _
  cases hg : s.objectManifests.get? row.objectId with
  | none =>
    have hu : (s.insertReplicaLocation row).accountUsage account ≤ s.accountUsage account := by
      refine accountUsage_le (fun _ ha => ha) fun r hr hc => ⟨r, hr, rfl, hc, ?_⟩
      exact hother r (get?_eq_none.1 hg r hr)
    exact le_trans hu (Nat.le_add_right _ d)
  | some r₀ =>
    obtain ⟨hr₀, hid₀⟩ := get?_eq_some.1 hg
    apply accountUsage_le_add r₀.bucket r₀.objectKey
    intro a ha
    have hs : s.activeObjects.share (s.activeBytes account) (a.bucket, a.objectKey) =
        s.activeBytes account a := share_of_mem ha
    rw [hs]
    refine activeBytes_le fun r hm hid hc => ?_
    have hr : r ∈ s.objectManifests := hm
    rw [activeBytes_of_row hr hid hc]
    by_cases he : r.objectId = row.objectId
    · have heq : r = r₀ := eq_of_key_eq hr hr₀ (he.trans hid₀.symm)
      subst heq
      obtain ⟨-, hb, hk⟩ := h.placed a ha r hr hid
      rw [hb, hk, if_pos rfl]
      have hgain := hd r hr he
      unfold storedBytes
      have hu : (s.insertReplicaLocation row).replicaLocations =
        s.replicaLocations.upsert row := rfl
      rw [hu]
      omega
    · exact le_trans (hother r he) (Nat.le_add_right _ _)

theorem record (hw : WithinQuotas (s.insertReplicaLocation row)) :
    Sound (s.insertReplicaLocation row) :=
  h.of_index ⟨rfl, rfl, rfl⟩ rfl h.quotas hw

theorem record_access (hm : row.mode ≠ .replica) : Sound (s.insertReplicaLocation row) := by
  apply h.record
  intro acc hacc q hq
  refine le_trans (h.usage_record (d := 0) fun r _ _ => ?_) (h.within acc hacc q hq)
  have hb := replicaBytes_upsert s.replicaLocations acc.id r row
  simp only [hm, decide_false, Bool.and_false, Bool.false_and, Bool.false_eq_true, if_false] at hb
  exact hb

end

theorem record_replica (h : Sound w.store)
    (hf : FitsQuotas (.recordReplica row) w) : Sound (w.store.insertReplicaLocation row) := by
  apply h.record
  intro acc hacc q hq
  rcases hf with ⟨l, hl, hk, hm⟩ | hf
  · refine le_trans (h.usage_record (d := 0) fun r _ _ => ?_) (h.within acc hacc q hq)
    exact replicaBytes_replace acc.id r hl hk hm
  · by_cases hid : row.accountId = acc.id
    · cases hg : w.store.objectManifests.get? row.objectId with
      | none =>
        refine le_trans (h.usage_record (d := 0) fun r hr he => ?_) (h.within acc hacc q hq)
        exact absurd he (get?_eq_none.1 hg r hr)
      | some r₀ =>
        obtain ⟨hr₀, hid₀⟩ := get?_eq_some.1 hg
        have hfit := hf r₀ hr₀ hid₀
        have ha : acc ∈ w.store.telegramAccounts := hacc
        rw [hid, ensureAdditional_ok ha hq (h.quotas acc ha q hq)] at hfit
        refine le_trans (h.usage_record fun r hr he => ?_) hfit
        have heq : r = r₀ := eq_of_key_eq hr hr₀ (he.trans hid₀.symm)
        subst heq
        apply le_trans (replicaBytes_upsert w.store.replicaLocations acc.id r row)
        apply Nat.add_le_add_left
        split
        · exact Nat.le_refl _
        · exact Nat.zero_le _
    · refine le_trans (h.usage_record (d := 0) fun r _ _ => ?_) (h.within acc hacc q hq)
      have hb := replicaBytes_upsert w.store.replicaLocations acc.id r row
      simp only [hid, decide_false, Bool.false_and, Bool.false_eq_true, if_false] at hb
      exact hb

theorem within_of_usage (h : Sound s) (ha : ∀ row ∈ s'.telegramAccounts, row ∈ s.telegramAccounts)
    (hu : ∀ account, s'.accountUsage account ≤ s.accountUsage account) : WithinQuotas s' :=
  fun row hrow q hq => le_trans (hu row.id) (h.within row (ha row hrow) q hq)

theorem within_of_subset (h : Sound s) (ha : ∀ row ∈ s'.telegramAccounts, row ∈ s.telegramAccounts)
    (hrep : ∀ l ∈ s'.replicaLocations, l ∈ s.replicaLocations)
    (hr : ∀ r ∈ s'.objectManifests, r ∈ s.objectManifests)
    (hact : ∀ a ∈ s'.activeObjects, a ∈ s.activeObjects) : WithinQuotas s' := by
  apply h.within_of_usage ha
  intro account
  exact accountUsage_le hact fun r hrm hc => ⟨r, hr r hrm, rfl, hc, storedBytes_mono hrep⟩

theorem drop (h : Sound s) (hi : SameIndex s s') (hj : s'.transferJobs = s.transferJobs)
    (ha : ∀ row ∈ s'.telegramAccounts, row ∈ s.telegramAccounts)
    (hrep : ∀ l ∈ s'.replicaLocations, l ∈ s.replicaLocations) : Sound s' := by
  refine h.of_index hi hj (fun row hrow => h.quotas row (ha row hrow)) ?_
  apply h.within_of_subset ha hrep
  · exact fun _ hr => hi.manifests ▸ hr
  · exact fun _ ha => hi.active ▸ ha

theorem within_call (h : Sound s) (hs : StoreStep fromStr op s s') (hc : CallFits op s)
    (hin : ∀ row, op ≠ .insertReplicaLocation row) : WithinQuotas s' := by
  have hacc := StoreOp.accounts_frame hs
  have hrep := StoreOp.replicas_frame hs hin
  have hrows : ∀ row ∈ s'.telegramAccounts, row ∈ s.telegramAccounts := fun _ hr => hacc ▸ hr
  have hsub : ∀ l ∈ s'.replicaLocations, l ∈ s.replicaLocations := fun _ hl => hrep ▸ hl
  cases op with
  | insertReplicaLocation row => exact absurd rfl (hin row)
  | reopen now =>
    cases hs
    exact h.within_of_usage hrows (usage_reopen hc now)
  | commitManifest | commitTransferManifest | finishPartJob =>
    cases StoreOp.index_step hs with
    | kept hf =>
      refine h.within_of_subset hrows hsub ?_ ?_
      · exact fun _ hr => hf.manifests ▸ hr
      · exact fun _ ha => hf.active ▸ ha
    | discarded _ _ _ hr ha _ =>
      refine h.within_of_subset hrows hsub ?_ ?_
      · exact fun _ hm => (mem_delete.1 (hr ▸ hm)).1
      · exact fun _ hm => (mem_delete.1 (ha ▸ hm)).1
    | committed _ hcall hm =>
      rcases hcall.commits h.coherent h.oneId hm with rfl | ⟨r, m, hr, hp, -⟩
      · exact h.within
      · obtain ⟨hnone, hpart⟩ := hc.commit hcall (hr.own ▸ hp)
        exact h.within_commit hr hacc hrep hnone hpart
    | tombstoned _ _ _ _ hcall => cases hcall
  | updateManifestState object state now =>
    cases state with
    | committed => exact h.within_restore hs hc
    | _ => exact h.within_of_usage hrows (h.usage_quiet hs hc rfl (by simp) hin)
  | _ => exact h.within_of_usage hrows (h.usage_quiet hs hc rfl (by simp) hin)

theorem call (h : Sound s) (hs : StoreStep fromStr op s s') (hw : WritesOwnManifest op s)
    (hc : CallFits op s) (hin : ∀ row, op ≠ .insertReplicaLocation row) : Sound s' where
  coherent := h.coherent.step hs hw
  oneId := StoreOp.oneId_step h.oneId hs
  placed := h.placed_step hs hc
  quotas := by
    rw [StoreOp.accounts_frame hs]
    exact h.quotas
  within := h.within_call hs hc hin

theorem usage_bootstrap (s : MetadataStore) (fresh : Uuid) (chat : Option String)
    (account : String) :
    (s.setTelegramBootstrapSettings fresh chat).accountUsage account ≤ s.accountUsage account +
      if account = s.activeConnectionSetting.getD fresh.text then s.accountUsage "legacy"
      else 0 := by
  let gain (a : ActiveRow) : Nat :=
    if account = s.activeConnectionSetting.getD fresh.text then s.activeBytes "legacy" a else 0
  have hsum : s.activeObjects.total gain =
      if account = s.activeConnectionSetting.getD fresh.text then s.accountUsage "legacy"
      else 0 := by
    by_cases he : account = s.activeConnectionSetting.getD fresh.text
    · simp only [gain, if_pos he, accountUsage_eq]
    · simp [gain, if_neg he, Table.total]
  rw [← hsum, accountUsage_eq, accountUsage_eq, ← total_add]
  apply Table.total_le
  intro a ha
  have hm : a ∈ s.activeObjects := ha
  rw [share_of_mem hm]
  refine activeBytes_le fun r' hr' hid hc => ?_
  simp only [setTelegramBootstrapSettings, mem_modify] at hr'
  obtain ⟨r, hr, rfl⟩ := hr'
  by_cases hl : r.connectionId = "legacy"
  · rw [if_pos (decide_eq_true hl)] at hid hc ⊢
    have hbytes : s.activeBytes account a = s.storedBytes account r :=
      activeBytes_of_row hr hid hc
    have hlegacy : s.activeBytes "legacy" a = s.storedBytes "legacy" r :=
      activeBytes_of_row hr hid hc
    have he : (s.setTelegramBootstrapSettings fresh chat).storedBytes account
        { r with connectionId := s.activeConnectionSetting.getD fresh.text } =
        (if s.activeConnectionSetting.getD fresh.text = account then r.manifest.contentLength
          else 0) + replicaBytes s.replicaLocations account r := rfl
    apply le_trans (le_of_eq he)
    simp only [gain, hbytes, hlegacy, storedBytes, hl, if_true]
    by_cases hconn : account = s.activeConnectionSetting.getD fresh.text
    · rw [if_pos hconn, if_pos hconn.symm]
      omega
    · rw [if_neg hconn, if_neg fun h => hconn h.symm]
      omega
  · rw [if_neg (by simpa using hl)] at hid hc ⊢
    rw [activeBytes_of_row hr hid hc]
    exact Nat.le_add_right _ _

theorem relabel (h : Sound s) (hp : Relabels s s')
    (hq : ∀ row ∈ s'.telegramAccounts, ∀ q, row.quotaBytes = some q → q < 2 ^ 63)
    (hw : WithinQuotas s') : Sound s' where
  coherent := hp.coherent h.coherent
  oneId := hp.oneId h.oneId
  placed := by
    intro a ha r' hr' hid
    rw [hp.active] at ha
    obtain ⟨r, hr, rfl | he⟩ := hp.rows r' hr'
    · exact h.placed a ha _ hr hid
    · rw [he] at hid ⊢
      obtain ⟨ho, hb, hk⟩ := h.placed a ha r hr hid
      exact ⟨ho, hb, hk⟩
  quotas := hq
  within := hw

theorem bootstrap (h : Sound w.store)
    (hf : FitsQuotas (.act (.setTelegramBootstrapSettings fresh chat)) w)
    (hp : Relabels w.store (w.store.setTelegramBootstrapSettings fresh chat)) :
    Sound (w.store.setTelegramBootstrapSettings fresh chat) := by
  have hacc : ∀ row ∈ (w.store.setTelegramBootstrapSettings fresh chat).telegramAccounts, ∀ q,
      row.quotaBytes = some q → row ∈ w.store.telegramAccounts := by
    intro row hrow q hq
    rcases mem_insertOrIgnore.1 hrow with hm | ⟨rfl, -⟩
    · exact hm
    · cases hq
  refine h.relabel hp (fun row hrow q hq => h.quotas row (hacc row hrow q hq) q hq) ?_
  intro row hrow q hq
  have hm := hacc row hrow q hq
  have hu := usage_bootstrap w.store fresh chat row.id
  by_cases hc : row.id = w.store.activeConnectionSetting.getD fresh.text
  · rw [if_pos hc] at hu
    have hfit : w.store.ensureAccountQuotaForAdditionalBytes row.id
        (w.store.accountUsage "legacy") = .ok () := hc ▸ hf
    rw [ensureAdditional_ok hm hq (h.quotas row hm q hq)] at hfit
    exact le_trans hu hfit
  · rw [if_neg hc] at hu
    exact le_trans hu (h.within row hm q hq)

theorem connection (h : Sound w.store) (hs : ConnectionStep fromStr a w.store s')
    (hf : FitsQuotas (.act a) w) (hin : ∀ row, a ≠ .call (.insertReplicaLocation row)) :
    Sound s' := by
  have hp : (∀ op, a ≠ .call op) → Relabels w.store s' := by
    intro hn
    rcases ConnectionStep.cases hs with ⟨op, he, -⟩ | hp
    · exact absurd he (hn op)
    · exact hp
  cases a with
  | call op =>
    obtain ⟨hst, hw⟩ := StoreOp.serve_eq_some hs
    exact h.call hst hw hf fun row he => hin row (by rw [he])
  | setTelegramBootstrapSettings fresh chat =>
    cases hs
    exact h.bootstrap hf (hp (by simp))
  | deleteTelegramAccount id =>
    obtain rfl := deleteTelegramAccount_ok (after_eq_some.1 hs)
    refine h.drop ⟨rfl, rfl, rfl⟩ rfl ?_ ?_
    · exact fun _ hrow => (mem_delete.1 hrow).1
    · exact fun _ hl => (mem_delete.1 hl).1
  | clearTelegramBootstrapSettings | clearActiveConnectionId | purgeConnectionOperations
  | finishConnectionRemoval =>
    cases hs
    exact h.relabel (hp (by simp)) h.quotas h.within

theorem account (h : Sound s) (hk : keepsQuota s accountId quotaBytes = true)
    (hs : s.upsertTelegramAccount accountId label downloadEnabled quotaBytes = .ok s') :
    Sound s' := by
  unfold upsertTelegramAccount at hs
  obtain ⟨_, hb, hs⟩ := bind_ok.1 hs
  rw [pure_ok] at hs
  subst hs
  rw [ensure_ok] at hb
  suffices hall : ∀ row ∈ s.telegramAccounts.upsertWith
      { id := accountId, label := trim label, quotaBytes := quotaBytes.getD none
        downloadEnabled := downloadEnabled.getD true }
      (fun r => { r with
        label := trim label, downloadEnabled := downloadEnabled.getD r.downloadEnabled
        quotaBytes := quotaBytes.getD r.quotaBytes }),
      ∀ q, row.quotaBytes = some q → q < 2 ^ 63 ∧ s.accountUsage row.id ≤ q from
    h.of_index ⟨rfl, rfl, rfl⟩ rfl (fun row hrow q hq => (hall row hrow q hq).1)
      fun row hrow q hq => (hall row hrow q hq).2
  intro row hrow q hq
  rcases mem_upsertWith.1 hrow with he | ⟨hm, -⟩
  · cases hg : s.telegramAccounts.get? accountId with
    | none =>
      have hrow : _ = row := hg ▸ he
      subst hrow
      cases quotaBytes with
      | none => cases hq
      | some given =>
        obtain rfl : given = some q := hq
        simp only [keepsQuota, hg, decide_eq_true_eq] at hk
        exact ⟨by simpa using hb, hk⟩
    | some old =>
      have hrow : _ = row := hg ▸ he
      subst hrow
      obtain ⟨hm, hid⟩ := get?_eq_some.1 hg
      cases quotaBytes with
      | none => exact ⟨h.quotas old hm q hq, h.within old hm q hq⟩
      | some given =>
        obtain rfl : given = some q := hq
        simp only [keepsQuota, hg, Option.any_eq_true, decide_eq_true_eq] at hk
        obtain ⟨q₀, hq₀, hle⟩ := hk
        exact ⟨by simpa using hb, le_trans (h.within old hm q₀ hq₀) hle⟩
  · exact ⟨h.quotas row hm q hq, h.within row hm q hq⟩

theorem step (h : Sound w.store) (hs : QuotaStep fromStr a w w')
    (hf : FitsQuotas a w) : Sound w'.store := by
  simp only [QuotaStep, QuotaAction.apply] at hs
  split at hs
  · split at hs
    · cases hs
    · rename_i hm
      cases hs
      exact h.record_access hm
  · rename_i b hin
    obtain ⟨s', hb, rfl⟩ := Option.map_eq_some_iff.1 hs
    exact h.connection hb hf fun row he => hin row (by rw [he])
  · obtain ⟨hk, hs⟩ := Option.ite_none_right_eq_some.1 hs
    obtain ⟨s', hu, rfl⟩ := Option.map_eq_some_iff.1 hs
    exact h.account hk (after_eq_some.1 hu)
  · obtain ⟨-, hs⟩ := Option.ite_none_right_eq_some.1 hs
    obtain ⟨_, -, rfl⟩ := Option.map_eq_some_iff.1 hs
    exact h
  · obtain ⟨-, hs⟩ := Option.ite_none_right_eq_some.1 hs
    cases hs
    exact h
  · obtain ⟨-, hs⟩ := Option.ite_none_right_eq_some.1 hs
    cases hs
    exact h.record_replica hf
  · cases hs
    exact h.drop ⟨rfl, rfl, rfl⟩ rfl (fun _ hr => hr) fun _ hl => (mem_delete.1 hl).1

end QuotaWorld.Sound

/-- The check decides as it should, and no account exceeds its quota in a run whose steps all
fit. -/
theorem quotas_hold_when_checked (fromStr : String → Option ETagCondition) :
    QuotaLaw (Guarded (QuotaStep fromStr) FitsQuotas) := by
  constructor
  · intro s account row q bucket key n hrow hq hb
    obtain ⟨hm, rfl⟩ := get?_eq_some.1 hrow
    exact enforceAccountQuota_ok hm hq hb
  · intro past w hr
    have h : QuotaWorld.Sound w.store :=
      Run.invariant (I := fun w => QuotaWorld.Sound w.store) (fun _ hi => hi.store)
        (fun _ _ _ h hs => h.step hs.1 hs.2) hr
    exact h.within

def tenBytes (objectId : Uuid) (bucket key : String) : ObjectManifest :=
  { emptyObject objectId bucket key with
    contentLength := 10
    chunks := [{
      order := 0, offset := 0, size := 10, checksum := "e3b0c442", telegramPeerId := "-1001"
      telegramMessageId := 7, telegramDocumentId := none }] }

def tenByteAccount : MetadataStore :=
  { activeConnectionSetting := some "main"
    buckets := (∅ : Table BucketRow).insertOrIgnore
      { name := "photos", connectionId := "main", createdAt := default }
    telegramAccounts := (∅ : Table AccountRow).insertOrIgnore
      { id := "main", label := "Primary account", quotaBytes := some 10 } }

/-- A key is written, emptied and deleted, another one written, and the store opened again. -/
def reappearing : List QuotaAction :=
  (uploadOps (tenBytes ⟨1⟩ "photos" "a") ⟨11⟩ 1 ++
    uploadOps (emptyObject ⟨2⟩ "photos" "a") ⟨12⟩ 2 ++
    [StoreOp.deleteActiveKey "photos" "a" "DeleteObject" {} (instant 3)] ++
    uploadOps (tenBytes ⟨3⟩ "photos" "b") ⟨13⟩ 4 ++ [StoreOp.reopen (instant 5)]).map
    fun op => .act (.call op)

def reappearingRun : List QuotaWorld × QuotaWorld :=
  (exec (QuotaAction.apply fun _ => none) [] { store := tenByteAccount } reappearing).get
    (by decide +kernel)

/-- The rebuilt index shows both objects, twenty bytes in all. -/
theorem rebuilt_index_exceeds_quota : ¬ QuotaLaw (QuotaStep fun _ => none) := by
  intro h
  have ha : ∀ row ∈ tenByteAccount.telegramAccounts, row.quotaBytes = some 10 ∧
      tenByteAccount.accountUsage row.id = 0 := by
    intro row hrow
    rcases mem_insertOrIgnore.1 hrow with hm | ⟨rfl, -⟩
    · cases hm
    · exact ⟨rfl, rfl⟩
  have hi : QuotaWorld.Initial { store := tenByteAccount } := by
    refine ⟨⟨NoObjects.coherent ⟨rfl, rfl, rfl⟩, ?_, ?_, ?_, ?_⟩, rfl⟩
    · intro j hj
      cases hj
    · intro a ha
      cases ha
    · intro row hrow q hq
      rw [(ha row hrow).1] at hq
      cases hq
      decide
    · intro row hrow q hq
      rw [(ha row hrow).2]
      exact Nat.zero_le q
  have hr : Run QuotaWorld.Initial (QuotaStep fun _ => none) reappearingRun.1
      reappearingRun.2 := Run.of_exec_isSome hi _
  have hw := h.2 _ _ hr
  have hrow : reappearingRun.2.store.telegramAccounts.any (fun row =>
      row.quotaBytes = some 10 && reappearingRun.2.store.accountUsage row.id = 20) = true := by
    decide +kernel
  obtain ⟨row, hm, hp⟩ := any_eq_true.1 hrow
  simp only [Bool.and_eq_true, decide_eq_true_eq] at hp
  have hle := hw row hm 10 hp.1
  rw [hp.2] at hle
  omega

end TelegramS3
