import TelegramS3.Publication
import TelegramS3.Rows
import TelegramS3.Serving

namespace TelegramS3
open Relational Table Fallible Transition MetadataStore
set_option autoImplicit true

deriving instance DecidableEq for ShareLinkRecord

/-- A row of `share_links`, under the token whose hash it holds. -/
structure ShareLinkRow where
  token : String
  record : ShareLinkRecord
  description : String

instance : Keyed ShareLinkRow String := ⟨ShareLinkRow.token⟩

namespace Shares

def createShareLinkWithToken (t : Table ShareLinkRow) (m : ObjectManifest)
    (expiresAt : Option Int) (description token : String) :
    Except MetadataError (Table ShareLinkRow) := do
  ensure ((trim description).length ≤ 240)
    (.invalidManifest "share description must be 240 characters or fewer")
  ensure (!t.contains token) (.sqlite "UNIQUE constraint failed: share_links.token_hash")
  return t.insertOrIgnore
    { token, description := trim description
      record := { objectId := m.objectId, bucket := m.bucket, key := m.key, expiresAt
                  revokedAt := none } }

def revokeShareLink (t : Table ShareLinkRow) (token : String) (now : Int) : Table ShareLinkRow :=
  t.modify (fun r => r.token = token && r.record.revokedAt.isNone)
    fun r => { r with record := { r.record with revokedAt := some now } }

def updateShareLinkExpiry (t : Table ShareLinkRow) (token : String) (expiresAt : Option Int) :
    Table ShareLinkRow :=
  t.modify (fun r => r.token = token && r.record.revokedAt.isNone)
    fun r => { r with record := { r.record with expiresAt } }

end Shares

def MetadataStore.committedUnder (s : MetadataStore) (k : String × String) (object : Uuid) : Bool :=
  s.objectManifests.any fun r =>
    r.objectId = object && r.bucket = k.1 && r.objectKey = k.2 && r.commitState = .committed

def StoreOp.writesKey (op : StoreOp) (s s' : MetadataStore) (k : String × String) : Bool :=
  op.publishes.any fun object => s'.committedUnder k object && !s.committedUnder k object

def StoreOp.deletedKey : StoreOp → Option (String × String)
  | .deleteActiveKey bucket key .. => some (bucket, key)
  | _ => none

/-- The store with the share links, and with the keys deleted and not written since. -/
structure ShareWorld where
  store : MetadataStore
  shareLinks : Table ShareLinkRow := ∅
  deleted : List (String × String) := []

inductive ShareAction where
  | call (op : StoreOp)
  | create (m : ObjectManifest) (expiresAt : Option Int) (description token : String)
  | revoke (token : String) (now : Int)
  | setExpiry (token : String) (expiresAt : Option Int)

namespace ShareWorld

def move (w : ShareWorld) (op : StoreOp) (s : MetadataStore) : ShareWorld :=
  { w with
    store := s
    deleted := op.deletedKey.toList ++ w.deleted.filter fun k => !op.writesKey w.store s k }

def getShareLink (w : ShareWorld) (token : String) : Option ShareLinkRecord :=
  (w.shareLinks.get? token).map ShareLinkRow.record

def server (w : ShareWorld) (parseUuid : String → Except String Uuid) : ReadServer where
  parseUuid
  getShareLink := w.getShareLink

structure Initial (w : ShareWorld) : Prop where
  store : EmptyStore w.store
  deleted : w.deleted = []

end ShareWorld

def ShareAction.apply (fromStr : String → Option ETagCondition) (a : ShareAction)
    (w : ShareWorld) : Option ShareWorld :=
  match a with
  | .call op => (op.serve fromStr w.store).map (w.move op)
  | .create m expiresAt description token =>
    (after (Shares.createShareLinkWithToken w.shareLinks m expiresAt description token)).map
      fun t => { w with shareLinks := t }
  | .revoke token now => some { w with shareLinks := Shares.revokeShareLink w.shareLinks token now }
  | .setExpiry token expiresAt =>
    some { w with shareLinks := Shares.updateShareLinkExpiry w.shareLinks token expiresAt }

def ShareStep (fromStr : String → Option ETagCondition) (a : ShareAction) (w w' : ShareWorld) :
    Prop :=
  a.apply fromStr w = some w'

/-- After a key was deleted, and until it is written again, no link to it is served. -/
def DeletionReachesLinks (Step : ShareAction → ShareWorld → ShareWorld → Prop) : Prop :=
  ∀ past w, Run ShareWorld.Initial Step past w → ∀ k ∈ w.deleted, ∀ token link,
    w.getShareLink token = some link → link.bucket = k.1 → link.key = k.2 →
      ∀ parseUuid header now v,
        (w.server parseUuid).handleShareRequest w.store token header now ≠ .ok v

/-- A key is deleted while no other committed version is left, and none is restored afterwards. -/
def DeletesThrough (a : ShareAction) (w : ShareWorld) : Prop :=
  match a with
  | .call (.deleteActiveKey bucket key ..) => ∀ r ∈ w.store.objectManifests, r.bucket = bucket →
    r.objectKey = key → r.commitState = .committed →
      w.store.activeObjectId bucket key = some r.objectId
  | .call (.updateManifest m) => m.commitState = .committed → ∀ r ∈ w.store.objectManifests,
    r.objectId = m.objectId → (r.bucket, r.objectKey) ∉ w.deleted
  | .call (.updateManifestState object .committed _) => ∀ r ∈ w.store.objectManifests,
    r.objectId = object → (r.bucket, r.objectKey) ∉ w.deleted
  | _ => True

def NoneCommitted (s : MetadataStore) (k : String × String) : Prop :=
  ∀ r ∈ s.objectManifests, r.bucket = k.1 → r.objectKey = k.2 → r.commitState ≠ .committed

theorem MetadataStore.committedUnder_eq_true {s : MetadataStore} :
    s.committedUnder k object = true ↔ ∃ r ∈ s.objectManifests, r.objectId = object ∧
      r.bucket = k.1 ∧ r.objectKey = k.2 ∧ r.commitState = .committed := by
  simp [committedUnder, any_eq_true, and_assoc]

theorem NoneCommitted.not_under (h : NoneCommitted s k) : s.committedUnder k object = false := by
  apply Bool.eq_false_iff.2
  intro hc
  obtain ⟨r, hr, -, hb, hk, hs⟩ := committedUnder_eq_true.1 hc
  exact h r hr hb hk hs

theorem deleteActiveKey_clears {s s' : MetadataStore} {m : Option ObjectManifest}
    (hd : s.deleteActiveKey bucket key reason c now = .ok (m, s'))
    (hc : ∀ r ∈ s.objectManifests, r.bucket = bucket → r.objectKey = key →
      r.commitState = .committed → s.activeObjectId bucket key = some r.objectId) :
    NoneCommitted s' (bucket, key) := by
  intro r hr hb hk hs
  obtain ⟨-, ⟨ha, rfl⟩ | ⟨object, m, ha, -, rfl⟩⟩ := deleteActiveKey_ok hd
  · have hr : s.activeObjectId bucket key = some r.objectId := hc r hr hb hk hs
    rw [ha] at hr
    cases hr
  · rcases of_mem_update rfl hr with ⟨o, -, -, rfl⟩ | ⟨hr, hne⟩
    · cases hs
    · have hr := hc r hr hb hk hs
      rw [ha] at hr
      exact of_decide_eq_false hne (Option.some.inj hr).symm

theorem StoreOp.none_committed {op : StoreOp} (h : Coherent s)
    (ho : ∀ j ∈ s.transferJobs, j.OneId) (hs : StoreStep fromStr op s s')
    (hn : NoneCommitted s k) (hk : op.writesKey s s' k = false)
    (hm : ∀ m, op = .updateManifest m → m.commitState = .committed →
      ∀ r ∈ s.objectManifests, r.objectId = m.objectId → (r.bucket, r.objectKey) ≠ k)
    (hr : ∀ object now, op = .updateManifestState object .committed now →
      ∀ r ∈ s.objectManifests, r.objectId = object → (r.bucket, r.objectKey) ≠ k) :
    NoneCommitted s' k := by
  intro r' hr' hb hkey hc
  cases StoreOp.row_step h ho hs hr' with
  | kept hr => exact hn r' hr hb hkey hc
  | staged kind m now hop he =>
    subst he
    cases hc
  | published r m now hrow hp _ _ he =>
    have hu : s'.committedUnder k r.objectId = true :=
      committedUnder_eq_true.2 ⟨r', hr', by rw [he]; rfl, hb, hkey, hc⟩
    simp [StoreOp.writesKey, hp, hu, hn.not_under] at hk
  | tombstoned r now hrow he =>
    subst he
    cases hc
  | moved r state now hrow hop he =>
    subst he
    obtain rfl : state = .committed := hc
    exact hr r.objectId now hop r hrow rfl (Prod.ext hb hkey)
  | written r m hrow hop hid he =>
    subst he
    exact hm m hop hc r hrow hid (Prod.ext hb hkey)

structure ShareWorld.Unlinked (w : ShareWorld) : Prop where
  coherent : Coherent w.store
  oneId : ∀ j ∈ w.store.transferJobs, j.OneId
  cleared : ∀ k ∈ w.deleted, NoneCommitted w.store k

namespace ShareWorld.Unlinked

theorem init (h : w.Initial) : Unlinked w := by
  refine ⟨h.store.objects.coherent, ?_, ?_⟩
  · intro j hj
    rw [h.store.jobs] at hj
    cases hj
  · intro k hk
    rw [h.deleted] at hk
    cases hk

theorem call (h : Unlinked w) (hs : StoreStep fromStr op w.store s')
    (hw : WritesOwnManifest op w.store) (hc : DeletesThrough (.call op) w) :
    Unlinked (w.move op s') := by
  refine ⟨h.coherent.step hs hw, StoreOp.oneId_step h.oneId hs, ?_⟩
  intro k hk
  rcases List.mem_append.1 hk with hk | hk
  · cases op with
    | deleteActiveKey bucket key reason c now =>
      have hkey : k = (bucket, key) := List.mem_singleton.1 hk
      subst hkey
      obtain ⟨⟨m, s₁⟩, hd, rfl⟩ := map_ok.1 (after_eq_some.1 hs)
      exact deleteActiveKey_clears hd hc
    | _ => cases hk
  · obtain ⟨hd, hn⟩ := List.mem_filter.1 hk
    apply StoreOp.none_committed h.coherent h.oneId hs (h.cleared k hd) (by simpa using hn)
    · intro m ho hm r hr hid he
      subst ho he
      exact hc hm r hr hid hd
    · intro object now ho r hr hid he
      subst ho he
      exact hc r hr hid hd

theorem step (h : Unlinked w) (hs : ShareStep fromStr a w w') (hc : DeletesThrough a w) :
    Unlinked w' := by
  cases a with
  | call op =>
    obtain ⟨s', hserve, rfl⟩ := Option.map_eq_some_iff.1 hs
    obtain ⟨hstep, hw⟩ := StoreOp.serve_eq_some hserve
    exact h.call hstep hw hc
  | create m expiresAt description token =>
    have hs : (after (Shares.createShareLinkWithToken w.shareLinks m expiresAt description
        token)).map (fun t => { w with shareLinks := t }) = some w' := hs
    obtain ⟨t, -, rfl⟩ := Option.map_eq_some_iff.1 hs
    exact ⟨h.coherent, h.oneId, h.cleared⟩
  | revoke | setExpiry =>
    cases hs
    exact ⟨h.coherent, h.oneId, h.cleared⟩

end ShareWorld.Unlinked

theorem sharedManifest_committed (h : Coherent s)
    (hm : ReadServer.sharedManifest s link now = .ok m) :
    ∃ r ∈ s.objectManifests, r.bucket = link.bucket ∧ r.objectKey = link.key ∧
      r.commitState = .committed := by
  obtain ⟨_, -, hm⟩ := bind_ok.1 hm
  split at hm
  · cases hm
  · cases hm
  · rename_i m' hget
    obtain ⟨_, hp, -⟩ := bind_ok.1 hm
    obtain ⟨r, hr, rfl⟩ := loadManifestByObjectId_ok hget
    have hr := mem_of_get? hr
    have hrow := h.rows r hr
    have hp := ensure_ok.1 hp
    simp only [Bool.and_eq_true, decide_eq_true_eq] at hp
    refine ⟨r, hr, ?_, ?_, ?_⟩
    · exact hrow.bucket.symm.trans hp.1.1.2
    · exact hrow.key.symm.trans hp.1.2
    · exact hrow.state.symm.trans hp.1.1.1

/-- In a run that deletes keys through, no link to a deleted key is served. -/
theorem deletion_reaches_links (fromStr : String → Option ETagCondition) :
    DeletionReachesLinks (Guarded (ShareStep fromStr) DeletesThrough) := by
  intro past w hrun k hk token link hl hb hkey parseUuid header now v hv
  have hw : w.Unlinked := hrun.invariant (fun _ => .init) fun _ _ _ h hs => h.step hs.1 hs.2
  unfold ReadServer.handleShareRequest at hv
  have hl' : (w.server parseUuid).getShareLink token = some link := hl
  rw [hl'] at hv
  obtain ⟨m, hm, -⟩ := bind_ok.1 hv
  obtain ⟨r, hr, hrb, hrk, hc⟩ := sharedManifest_committed hw.coherent hm
  exact hw.cleared k hk r hr (hrb.trans hb) (hrk.trans hkey) hc

/-- A version is shared, the key overwritten and then deleted. -/
def overwrittenShare : List ShareAction :=
  (storeObject ⟨1⟩ ⟨11⟩ ⟨21⟩ "abc" 100 1).map .call ++
    [.create (storedObject ⟨1⟩ "abc" 100) none "" "token"] ++
    (storeObject ⟨2⟩ ⟨12⟩ ⟨22⟩ "def" 101 2).map .call ++
    [.call (.deleteActiveKey "photos" "a" "deleted via S3" {} (instant 3))]

def overwrittenShareRun : List ShareWorld × ShareWorld :=
  (exec (ShareAction.apply fun _ => none) [] { store := photosStore } overwrittenShare).get
    (by decide +kernel)

/-- The link to the overwritten version of the deleted key is served. -/
theorem overwritten_share_served : ¬ DeletionReachesLinks (ShareStep fun _ => none) := by
  intro h
  have hi : ShareWorld.Initial { store := photosStore } := ⟨⟨⟨rfl, rfl, rfl⟩, rfl, rfl⟩, rfl⟩
  have hr : Run ShareWorld.Initial (ShareStep fun _ => none) overwrittenShareRun.1
      overwrittenShareRun.2 := Run.of_exec_isSome hi (by decide +kernel)
  have hs := h _ _ hr ("photos", "a") (by decide +kernel) "token"
    { objectId := ⟨1⟩, bucket := "photos", key := "a", expiresAt := none, revokedAt := none }
    (by decide +kernel) rfl rfl (fun _ => .error "") none (instant 4)
  cases hv : (overwrittenShareRun.2.server fun _ => .error "").handleShareRequest
      overwrittenShareRun.2.store "token" none (instant 4) with
  | ok v => exact hs v hv
  | error e =>
    have hok : (after ((overwrittenShareRun.2.server fun _ => .error "").handleShareRequest
        overwrittenShareRun.2.store "token" none (instant 4))).isSome = true := by decide +kernel
    rw [hv] at hok
    cases hok

end TelegramS3
