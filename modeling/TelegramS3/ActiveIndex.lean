import Mathlib.Data.Prod.Lex
import Mathlib.Data.String.Basic
import Mathlib.Order.WithBot
import TelegramS3.Versions
import TelegramS3.Visibility

namespace TelegramS3
open Relational Table Versioned
set_option autoImplicit true

/-- Commit time as text, the missing one first, and then the object id. -/
abbrev CommitRank := WithBot String ×ₗ Nat

def commitText : Option OffsetDateTime → WithBot String
  | none => ⊥
  | some t => (t.text : WithBot String)

def ManifestRow.rank (r : ManifestRow) : CommitRank :=
  toLex (commitText r.committedAt, r.objectId.value.toNat)

theorem ManifestRow.commitsBefore_iff {a b : ManifestRow} :
    a.commitsBefore b = true ↔ a.rank ≤ b.rank := by
  simp only [commitsBefore, rank, Prod.Lex.toLex_le_toLex, ← BitVec.le_def]
  cases a.committedAt with
  | none =>
    cases b.committedAt with
    | none => simp [commitText]
    | some t => simp [commitText]
  | some t =>
    cases b.committedAt with
    | none => simp [commitText]
    | some u =>
      simp only [commitText, Option.map_some, WithBot.coe_lt_coe, WithBot.coe_inj,
        Bool.or_eq_true, Bool.and_eq_true, decide_eq_true_eq]

theorem ManifestRow.rank_lt {a b : ManifestRow} (h : a.commitsBefore b = true)
    (hne : a.objectId ≠ b.objectId) : a.rank < b.rank := by
  apply lt_of_le_of_ne (commitsBefore_iff.1 h)
  intro he
  have hid : a.objectId.value.toNat = b.objectId.value.toNat :=
    congrArg Prod.snd (toLex.injective he)
  exact hne (congrArg Uuid.mk (BitVec.eq_of_toNat_eq hid))

instance : Std.Total fun a b : ManifestRow => a.commitsBefore b = true :=
  ⟨fun a b => by simpa only [ManifestRow.commitsBefore_iff] using le_total a.rank b.rank⟩

instance : IsTrans ManifestRow fun a b => a.commitsBefore b = true :=
  ⟨fun a b c => by simpa only [ManifestRow.commitsBefore_iff] using le_trans⟩

namespace MetadataStore
variable (s : MetadataStore)

def versions : Index (String × String) Uuid CommitRank where
  committed id := ((s.objectManifests.get? id).filter fun r => r.commitState = .committed).map
    fun r => ((r.bucket, r.objectKey), r.rank)
  active k := s.activeObjectId k.1 k.2

theorem versions_committed {s : MetadataStore} {id : Uuid} :
    s.versions.committed id = some v ↔ ∃ r, s.objectManifests.get? id = some r ∧
      r.commitState = .committed ∧ ((r.bucket, r.objectKey), r.rank) = v := by
  simp only [versions, Option.map_eq_some_iff, Option.filter_eq_some_iff, decide_eq_true_eq,
    and_assoc]

theorem rebuildIndex_active (now : OffsetDateTime) (bucket key : String) :
    (s.rebuildIndex now).activeObjectId bucket key = (s.committedRows.reverse.find? fun r =>
      decide ((r.bucket, r.objectKey) = (bucket, key))).map ManifestRow.objectId := by
  simp only [rebuildIndex, activeObjectId, get?_foldl_upsert]
  rw [get?_empty, Option.or_none, Option.map_map]
  rfl

/-- Rebuilding makes every key show its latest committed version, whatever it showed before. -/
theorem rebuildIndex_consistent (now : OffsetDateTime) :
    (s.rebuildIndex now).versions.Consistent := by
  have hsorted : s.committedRows.Pairwise fun a b => a.commitsBefore b = true :=
    List.pairwise_insertionSort _ _
  constructor
  · intro k i hi
    have ha := s.rebuildIndex_active now k.1 k.2
    rw [show (s.rebuildIndex now).activeObjectId k.1 k.2 = some i from hi] at ha
    obtain ⟨r, hf, hid⟩ := Option.map_eq_some_iff.1 ha.symm
    have hr := mem_committedRows.1 (List.mem_reverse.1 (List.mem_of_find?_eq_some hf))
    have hk : (r.bucket, r.objectKey) = k := by simpa using List.find?_some hf
    refine ⟨r.rank, versions_committed.2 ⟨r, ?_, hr.2, by rw [hk]⟩, ?_⟩
    · rw [← hid]
      exact mem_iff_get?.1 hr.1
    · intro j rank hj hne
      obtain ⟨r', hr', hc', hv⟩ := versions_committed.1 hj
      obtain ⟨hk', rfl⟩ := Prod.mk.inj hv
      have hid' : r'.objectId = j := key_of_get? hr'
      have hmem := mem_committedRows.2 ⟨mem_of_get? hr', hc'⟩
      have hne' : r'.objectId ≠ r.objectId := by
        rw [hid', hid]
        exact hne
      rcases rel_of_find?_reverse hsorted hf hmem (by simpa using hk') with rfl | hb
      · exact absurd rfl hne'
      · exact ManifestRow.rank_lt hb hne'
  · intro i k rank hi
    obtain ⟨r, hr, hc, hv⟩ := versions_committed.1 hi
    have hmem := mem_committedRows.2 ⟨mem_of_get? hr, hc⟩
    have hk : (r.bucket, r.objectKey) = k := (Prod.mk.inj hv).1
    cases hf : s.committedRows.reverse.find? fun r =>
        decide ((r.bucket, r.objectKey) = (k.1, k.2)) with
    | none =>
      have hn := List.find?_eq_none.1 hf r (List.mem_reverse.2 hmem)
      simp [hk] at hn
    | some o =>
      refine ⟨o.objectId, ?_⟩
      show (s.rebuildIndex now).activeObjectId k.1 k.2 = some o.objectId
      rw [rebuildIndex_active, hf]
      rfl

theorem reopen_keeps_iff (now : OffsetDateTime) :
    (∀ bucket key, (s.reopen now).activeObjectId bucket key = s.activeObjectId bucket key) ↔
      s.versions.Consistent := by
  have hr : (s.reopen now).versions.Consistent := rebuildIndex_consistent _ now
  constructor
  · intro h
    have he : s.versions = (s.reopen now).versions := by
      simp only [versions, h]
      rfl
    rw [he]
    exact hr
  · intro h bucket key
    exact congrFun (hr.active_eq h rfl) (bucket, key)

theorem versions_eq {s s' : MetadataStore} (hm : s'.objectManifests = s.objectManifests)
    (ha : s'.activeObjects = s.activeObjects) : s'.versions = s.versions := by
  simp only [versions, activeObjectId, hm, ha]

theorem key_of_active {s : MetadataStore} (h : s.versions.Consistent)
    (ha : s.activeObjectId bucket key = some object) (hr : s.objectManifests.get? object = some r) :
    (r.bucket, r.objectKey) = (bucket, key) := by
  obtain ⟨rank, hc, -⟩ := h.latest (k := (bucket, key)) ha
  obtain ⟨r', hr', -, hv⟩ := versions_committed.1 hc
  rw [hr] at hr'
  cases hr'
  exact (Prod.mk.inj hv).1

theorem versions_retract {s s' : MetadataStore}
    (hm : ∀ id, s'.objectManifests.get? id = s.objectManifests.get? id ∧ p id = false ∨
      p id = true ∧ ∀ r, s'.objectManifests.get? id = some r → r.commitState ≠ .committed)
    (ha : ∀ bucket key, s'.activeObjectId bucket key =
      (s.activeObjectId bucket key).filter fun id => !p id) :
    s'.versions = s.versions.retract p := by
  have hc : s'.versions.committed = (s.versions.retract p).committed := by
    funext id
    rcases hm id with ⟨he, hp⟩ | ⟨hp, hn⟩
    · simp [versions, Index.retract, he, hp]
    · cases hr : s'.objectManifests.get? id with
      | none => simp [versions, Index.retract, hp, hr]
      | some r => simp [versions, Index.retract, hp, hr, hn r hr]
  have hac : s'.versions.active = (s.versions.retract p).active := by
    funext k
    exact ha k.1 k.2
  calc s'.versions = ⟨s'.versions.committed, s'.versions.active⟩ := rfl
    _ = s.versions.retract p := by rw [hc, hac]

theorem stageRows_versions {s : MetadataStore}
    (hi : ∀ a ∈ s.activeObjects, a.objectId ≠ m.objectId) :
    (s.stageRows kind m now).versions = s.versions.retract (· = m.objectId) := by
  apply versions_retract
  · intro id
    by_cases hid : m.objectId = id
    · right
      refine ⟨by simpa using hid.symm, ?_⟩
      intro r hr
      simp only [stageRows, get?_upsert] at hr
      rw [if_pos (by simpa [Keyed.key, stagedRow] using hid)] at hr
      cases hr
      simp [stagedRow]
    · left
      refine ⟨?_, by simpa using Ne.symm hid⟩
      simp only [stageRows, get?_upsert]
      rw [if_neg (by simpa [Keyed.key, stagedRow] using hid)]
  · intro bucket key
    have hs : (s.stageRows kind m now).activeObjectId bucket key =
      s.activeObjectId bucket key := rfl
    rw [hs]
    cases ha : s.activeObjectId bucket key with
    | none => rfl
    | some object =>
      obtain ⟨a, ham, -, -, rfl⟩ := activeObjectId_eq_some.1 ha
      simp [Option.filter_some, hi a ham]

theorem tombstone_versions {s s' : MetadataStore}
    (hm : s'.objectManifests.rows = (s.tombstoneRows p m now).objectManifests.rows)
    (hp : ∀ r, r.objectId ≠ object → p r = false)
    (hc : ∀ r, r.objectId = object → r.commitState = .committed → p r = true)
    (ha : ∀ bucket key, s'.activeObjectId bucket key =
      (s.activeObjectId bucket key).filter fun id => !decide (id = object)) :
    s'.versions = s.versions.retract (· = object) := by
  have hg : ∀ id, s'.objectManifests.get? id =
      (s.tombstoneRows p m now).objectManifests.get? id := by
    intro id
    simp only [Table.get?, hm]
  apply versions_retract _ ha
  intro id
  rw [hg id]
  by_cases hid : id = object
  · right
    refine ⟨by simpa using hid, ?_⟩
    intro r hr
    simp only [tombstoneRows, get?_modify] at hr
    obtain ⟨o, ho, rfl⟩ := Option.map_eq_some_iff.1 hr
    have hoid : o.objectId = object := (key_of_get? ho).trans hid
    split
    · simp
    · rename_i hpo
      intro hco
      exact hpo (hc o hoid hco)
  · left
    refine ⟨?_, by simpa using hid⟩
    simp only [tombstoneRows, get?_modify]
    apply map_update_of_not
    intro o ho
    apply hp
    rw [show o.objectId = id from key_of_get? ho]
    exact hid

theorem dropActive_active (p : ActiveRow → Bool) (bucket key : String) :
    (s.dropActive p).activeObjectId bucket key =
      ((s.activeObjects.get? (bucket, key)).filter fun a => !p a).map ActiveRow.objectId := by
  simp [dropActive, activeObjectId]

theorem dropActive_filter {s : MetadataStore} (bucket key : String)
    (hk : ∀ bucket' key', s.activeObjectId bucket' key' = some object →
      bucket' = bucket ∧ key' = key) (bucket' key' : String) :
    (s.dropActive fun a => a.bucket = bucket && a.objectKey = key &&
      a.objectId = object).activeObjectId bucket' key' =
      (s.activeObjectId bucket' key').filter fun id => !decide (id = object) := by
  rw [dropActive_active]
  unfold activeObjectId
  cases ha : s.activeObjects.get? (bucket', key') with
  | none => rfl
  | some a =>
    have hab : a.bucket = bucket' ∧ a.objectKey = key' := by
      simpa [Keyed.key] using key_of_get? ha
    by_cases ho : a.objectId = object
    · obtain ⟨hb, hk'⟩ := hk bucket' key' (by simp [activeObjectId, ha, ho])
      simp [Option.filter_some, ho, hab.1, hab.2, hb, hk']
    · simp [Option.filter_some, ho]

theorem versions_publish {s s' : MetadataStore} (row : ManifestRow)
    (hr : s'.objectManifests.get? object = some row) (hc : row.commitState = .committed)
    (hm : ∀ id, id ≠ object → s'.objectManifests.get? id = s.objectManifests.get? id)
    (ha : ∀ bucket key, s'.activeObjectId bucket key =
      if (row.bucket, row.objectKey) = (bucket, key) then some object
      else s.activeObjectId bucket key) :
    s'.versions = s.versions.publish object (row.bucket, row.objectKey) row.rank := by
  have hco : s'.versions.committed =
      (s.versions.publish object (row.bucket, row.objectKey) row.rank).committed := by
    funext id
    by_cases hid : id = object
    · subst hid
      simp [versions, Index.publish, hr, hc]
    · simp [versions, Index.publish, hid, hm id hid]
  have hac : s'.versions.active =
      (s.versions.publish object (row.bucket, row.objectKey) row.rank).active := by
    funext k
    have hk := ha k.1 k.2
    by_cases he : (row.bucket, row.objectKey) = k
    · rw [if_pos he] at hk
      simpa [versions, Index.publish, he] using hk
    · rw [if_neg he] at hk
      simpa [versions, Index.publish, Ne.symm he] using hk
  calc s'.versions = ⟨s'.versions.committed, s'.versions.active⟩ := rfl
    _ = s.versions.publish object (row.bucket, row.objectKey) row.rank := by rw [hco, hac]

end MetadataStore

end TelegramS3
