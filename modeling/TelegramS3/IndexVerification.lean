import TelegramS3.ActiveIndex
import TelegramS3.StableSort

namespace TelegramS3
open Relational Table StableSort
set_option autoImplicit true

structure RebuildReport where
  committedRows : Nat
  activeRows : Nat
  stagedRows : Nat
  recoveryMarkers : Nat
  deriving DecidableEq

structure VerifyReport where
  expectedActiveRows : Nat
  actualActiveRows : Nat
  mismatchedRows : Nat
  stagedRows : Nat
  deriving DecidableEq

/-- An entry of the maps that `verify_index_internal` compares. -/
structure IndexEntry where
  bucket : String
  objectKey : String
  objectId : Uuid
  deriving DecidableEq

instance : Keyed IndexEntry (String × String) := ⟨fun e => (e.bucket, e.objectKey)⟩

def ManifestRow.indexEntry (m : ManifestRow) : IndexEntry :=
  { bucket := m.bucket, objectKey := m.objectKey, objectId := m.objectId }

def ActiveRow.indexEntry (a : ActiveRow) : IndexEntry :=
  { bucket := a.bucket, objectKey := a.objectKey, objectId := a.objectId }

namespace MetadataStore
variable (s : MetadataStore)

def rebuildIndexInternal (now : OffsetDateTime) :
    RebuildReport × MetadataStore :=
  let staged := (s.operationJournal.select fun e => e.state = .staging).length
  let s' := s.rebuildIndex now
  ({ committedRows := s.committedRows.length, activeRows := s'.activeObjects.rows.length
     stagedRows := staged, recoveryMarkers := staged }, s')

def expectRow (acc : Table IndexEntry × Nat) (m : ManifestRow) : Table IndexEntry × Nat :=
  match m.commitState with
  | .staging => (acc.1, acc.2 + 1)
  | .committed => (acc.1.upsert m.indexEntry, acc.2)
  | _ => acc

def expectedIndex : Table IndexEntry × Nat :=
  (s.objectManifests.rows.insertionSort fun a b => a.commitsBefore b = true).foldl expectRow (∅, 0)

def actualIndex : Table IndexEntry :=
  s.activeObjects.rows.foldl (fun t a => t.upsert a.indexEntry) ∅

def verifyIndexInternal : VerifyReport :=
  let expected := s.expectedIndex.1
  let actual := s.actualIndex
  { expectedActiveRows := expected.rows.length
    actualActiveRows := actual.rows.length
    mismatchedRows :=
      (expected.select fun e =>
        (actual.get? (e.bucket, e.objectKey)).map IndexEntry.objectId ≠ some e.objectId).length +
      (actual.select fun a => !expected.contains (a.bucket, a.objectKey)).length
    stagedRows := s.expectedIndex.2 }

theorem foldl_expectRow (l : List ManifestRow) (acc : Table IndexEntry × Nat) :
    (l.foldl expectRow acc).1 = (l.filter fun m => m.commitState = .committed).foldl
      (fun t m => t.upsert m.indexEntry) acc.1 := by
  induction l generalizing acc with
  | nil => rfl
  | cons m l ih =>
    rw [List.foldl_cons, ih]
    cases hm : m.commitState with
    | committed => simp [expectRow, hm]
    | staging => simp [expectRow, hm]
    | tombstoned => simp [expectRow, hm]
    | orphaned => simp [expectRow, hm]
    | recoveryRequired => simp [expectRow, hm]

theorem expectedIndex_get? (now : OffsetDateTime) (bucket key : String) :
    (s.expectedIndex.1.get? (bucket, key)).map IndexEntry.objectId =
      (s.rebuildIndex now).activeObjectId bucket key := by
  rw [rebuildIndex_active, expectedIndex, foldl_expectRow, get?_foldl_upsert,
    get?_empty, Option.or_none, Option.map_map]
  have hrows : ((s.objectManifests.rows.insertionSort fun a b => a.commitsBefore b = true).filter
      fun m => m.commitState = .committed) = s.committedRows :=
    filter_insertionSort _ _
  rw [hrows]
  rfl

theorem actualIndex_get? (bucket key : String) :
    (s.actualIndex.get? (bucket, key)).map IndexEntry.objectId = s.activeObjectId bucket key := by
  rw [actualIndex, get?_foldl_upsert, get?_empty, Option.or_none, Option.map_map]
  exact congrArg _ (find?_reverse s.activeObjects (bucket, key))

theorem mismatchedRows_eq_zero_iff : s.verifyIndexInternal.mismatchedRows = 0 ↔ ∀ bucket key,
      (s.expectedIndex.1.get? (bucket, key)).map IndexEntry.objectId =
        (s.actualIndex.get? (bucket, key)).map IndexEntry.objectId := by
  simp only [verifyIndexInternal, Nat.add_eq_zero_iff, List.length_eq_zero_iff,
    List.eq_nil_iff_forall_not_mem, mem_select, not_and, decide_eq_true_eq, ne_eq, not_not,
    Bool.not_eq_true', Bool.not_eq_false]
  constructor
  · rintro ⟨hexpected, hactual⟩ bucket key
    cases he : s.expectedIndex.1.get? (bucket, key) with
    | some e =>
      have hk : (e.bucket, e.objectKey) = (bucket, key) := key_of_get? he
      rw [← hk, hexpected e (mem_of_get? he)]
      rfl
    | none =>
      cases ha : s.actualIndex.get? (bucket, key) with
      | none => rfl
      | some a =>
        have hk : (a.bucket, a.objectKey) = (bucket, key) := key_of_get? ha
        have hc := hactual a (mem_of_get? ha)
        rw [Table.contains, hk, he] at hc
        cases hc
  · intro h
    constructor
    · intro e he
      rw [← h, show s.expectedIndex.1.get? (e.bucket, e.objectKey) = some e from
        mem_iff_get?.1 he]
      rfl
    · intro a ha
      have hkey := h a.bucket a.objectKey
      rw [show s.actualIndex.get? (a.bucket, a.objectKey) = some a from
        mem_iff_get?.1 ha] at hkey
      rw [Table.contains, ← Option.isSome_map, hkey]
      rfl

theorem rebuildIndex_twice (now later : OffsetDateTime) (bucket key : String) :
    ((s.rebuildIndex now).rebuildIndex later).activeObjectId bucket key =
      (s.rebuildIndex now).activeObjectId bucket key := by
  rw [rebuildIndex_active, rebuildIndex_active]
  rfl

end MetadataStore

/-- Verification finds no mismatch exactly where a rebuild changes nothing, as after a rebuild. -/
theorem index_verification_exact (s : MetadataStore) (now later : OffsetDateTime) :
    (s.rebuildIndexInternal now).2.verifyIndexInternal.mismatchedRows = 0 ∧
      (s.verifyIndexInternal.mismatchedRows = 0 ↔ ∀ bucket key,
        (s.rebuildIndexInternal now).2.activeObjectId bucket key = s.activeObjectId bucket key) ∧
      ∀ bucket key,
        ((s.rebuildIndexInternal now).2.rebuildIndexInternal later).2.activeObjectId bucket key =
          (s.rebuildIndexInternal now).2.activeObjectId bucket key := by
  have hverify (s : MetadataStore) (now : OffsetDateTime) :
      s.verifyIndexInternal.mismatchedRows = 0 ↔ ∀ bucket key,
        (s.rebuildIndex now).activeObjectId bucket key = s.activeObjectId bucket key := by
    simp only [MetadataStore.mismatchedRows_eq_zero_iff, s.expectedIndex_get? now,
      s.actualIndex_get?]
  refine ⟨?_, hverify s now, s.rebuildIndex_twice now later⟩
  exact (hverify _ later).2 (s.rebuildIndex_twice now later)

end TelegramS3
