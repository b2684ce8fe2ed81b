import TelegramS3.ReadPlanning
import TelegramS3.Retrying
import TelegramS3.Serving

namespace TelegramS3
open Relational Fallible Transition MetadataStore
set_option autoImplicit true

namespace OffsetDateTime

theorem whole_second_valid (t : OffsetDateTime) :
    t.year < 10000 ∧ 1 ≤ t.month ∧ t.month ≤ 12 ∧ 1 ≤ t.day ∧ t.day ≤ 31 ∧
      t.hour < 24 ∧ t.minute < 60 ∧ t.second < 60 ∧ 0 < 10 ^ 9 := by
  obtain ⟨hy, hm, hm', hd, hd', hh, hmin, hs, -⟩ := t.valid
  exact ⟨hy, hm, hm', hd, hd', hh, hmin, hs, by decide⟩

def truncated (t : OffsetDateTime) : OffsetDateTime :=
  { t with nanosecond := 0, valid := t.whole_second_valid }

theorem ble_truncated_iff (t : OffsetDateTime) : t.ble t.truncated = true ↔ t.nanosecond = 0 := by
  have hlt : t.truncated.fields < t.fields ↔ 0 < t.nanosecond := by
    simp [fields, truncated, List.cons_lt_cons_iff]
  rw [ble, decide_eq_true_iff, ← not_lt, hlt, Nat.pos_iff_ne_zero, not_not]

theorem eq_truncated_iff (t : OffsetDateTime) : t = t.truncated ↔ t.nanosecond = 0 := by
  constructor
  · intro h
    rw [h]
    rfl
  · intro h
    cases t
    cases h
    rfl

end OffsetDateTime

def ObjectManifest.lastModified (m : ObjectManifest) : OffsetDateTime :=
  m.createdAt.truncated

def enforceDeleteConditionals (c : DeleteConditionals) (m : ObjectManifest) :
    Except S3Error Unit := do
  ensure (c.ifMatch.all (etagConditionMatches · m.checksum.wholeObject))
    (.s3 .preconditionFailed "if-match precondition failed")
  ensure (c.ifMatchLastModifiedTime.all fun t => m.createdAt = t)
    (.s3 .preconditionFailed "if-match-last-modified-time precondition failed")
  ensure (c.ifMatchSize.all fun n => toI64 m.contentLength = n)
    (.s3 .preconditionFailed "if-match-size precondition failed")

namespace ObjectManifest
variable (m : ObjectManifest)

theorem unmodifiedSince_iff :
    enforceReadConditionals { ifUnmodifiedSince := some m.lastModified } m = .ok () ↔
      m.createdAt.nanosecond = 0 := by
  rw [← m.createdAt.ble_truncated_iff]
  simp [enforceReadConditionals, enforceConditionals, lastModified, bind_ok]

theorem modifiedSince_iff : enforceReadConditionals { ifModifiedSince := some m.lastModified } m =
        .error (.s3 .notModified "object not modified") ↔ m.createdAt.nanosecond = 0 := by
  rw [← m.createdAt.ble_truncated_iff]
  unfold enforceReadConditionals enforceConditionals lastModified
  cases hb : m.createdAt.ble m.createdAt.truncated with
  | true => simp [hb, ensure, bind, Except.bind]
  | false => simp [hb, ensure, bind, Except.bind]

theorem deleteConditionals_iff :
    enforceDeleteConditionals { ifMatchLastModifiedTime := some m.lastModified } m = .ok () ↔
      m.createdAt.nanosecond = 0 := by
  rw [← m.createdAt.eq_truncated_iff]
  simp [enforceDeleteConditionals, lastModified, bind_ok]

theorem deleteConditionalsSnapshot_iff :
    enforceDeleteConditionalsSnapshot { ifMatchLastModifiedTime := some m.lastModified } m =
        .ok () ↔ m.createdAt.nanosecond = 0 := by
  rw [← m.createdAt.eq_truncated_iff]
  simp [enforceDeleteConditionalsSnapshot, lastModified, bind_ok]

end ObjectManifest

namespace ReadServer
variable {server : ReadServer}

theorem resolveManifest_validated (h : server.resolveManifest s source now = .ok (some m)) :
    m.validate = .ok () := by
  unfold resolveManifest at h
  split at h
  · unfold getManifestByVersion at h
    split at h
    · cases h
    · split at h
      · cases h
      · rename_i hl
        obtain ⟨hf, -⟩ := Option.filter_eq_some_iff.1 (Except.ok.inj h)
        exact (loadManifestByObjectId_iff.1 hl).2 m hf
  · unfold ObjectFormat.getActiveManifest at h
    split at h
    · cases h
    · rename_i found hl
      split at h
      · cases h
      · rename_i hf
        split at h
        · cases h
        · cases h
          rw [(Option.filter_eq_some_iff.1 hf).1] at hl
          obtain ⟨row, -, -, -, hv, rfl⟩ := getActiveManifest_eq_some.1 hl
          exact hv

theorem getObject_of_error (hm : server.resolveManifest s source now = .ok (some m))
    (hc : m.commitState = .committed) (he : enforceReadConditionals conditions m = .error e) :
    server.getObject s source conditions header now = .error e := by
  unfold getObject
  rw [requireManifest_ok.2 hm]
  simp [hc, he, ensure, bind, Except.bind]

theorem getObject_of_ok (hm : server.resolveManifest s source now = .ok (some m))
    (hc : m.commitState = .committed) (he : enforceReadConditionals conditions m = .ok ()) :
    ∃ plan, server.getObject s source conditions none now =
      .ok { manifest := m, resolvedAt := now, plan } := by
  obtain ⟨plan, hp⟩ := (planRead_ok_iff (resolveManifest_validated hm)).2
    ⟨Nat.zero_le m.contentLength, Nat.le_refl _⟩
  refine ⟨plan, ?_⟩
  unfold getObject
  simp only [bind_ok, requireManifest_ok, ensure_ok, decide_eq_true_eq, mapError_ok, pure_ok]
  exact ⟨m, hm, (), hc, (), he, _, rfl, plan, hp, rfl⟩

end ReadServer

/-- `Last-Modified` works in conditions exactly when the object was created on a whole second. -/
theorem last_modified_round_trip_iff {server : ReadServer}
    (hm : server.resolveManifest s source now = .ok (some m)) (hc : m.commitState = .committed) :
    ((∃ plan, server.getObject s source { ifUnmodifiedSince := some m.lastModified } none now =
        .ok { manifest := m, resolvedAt := now, plan }) ∧
      (∀ header, server.getObject s source { ifModifiedSince := some m.lastModified } header now =
        .error (.s3 .notModified "object not modified")) ∧
      enforceDeleteConditionals { ifMatchLastModifiedTime := some m.lastModified } m = .ok () ∧
      enforceDeleteConditionalsSnapshot { ifMatchLastModifiedTime := some m.lastModified } m =
        .ok ()) ↔ m.createdAt.nanosecond = 0 := by
  constructor
  · rintro ⟨-, -, hd, -⟩
    exact m.deleteConditionals_iff.1 hd
  · intro h
    refine ⟨ReadServer.getObject_of_ok hm hc (m.unmodifiedSince_iff.2 h), ?_,
      m.deleteConditionals_iff.2 h, m.deleteConditionalsSnapshot_iff.2 h⟩
    intro header
    exact ReadServer.getObject_of_error hm hc (m.modifiedSince_iff.2 h)

def halfPastOne : OffsetDateTime :=
  { instant 1 with
    nanosecond := 500000000
    valid := ⟨by decide, by decide, by decide, by decide, by decide, by decide, by decide,
      by decide, by decide⟩ }

def datedRun (createdAt : OffsetDateTime) : Option (List MetadataStore × MetadataStore) :=
  exec (StoreOp.apply fun _ => none) [] photosStore
    (uploadOps { emptyObject ⟨1⟩ "photos" "a" with createdAt } ⟨11⟩ 1)

def datedObject (createdAt : OffsetDateTime) : ObjectManifest :=
  { emptyObject ⟨1⟩ "photos" "a" with createdAt, commitState := .committed }

theorem whole_second_round_trip : ∃ past s, Run NoObjects (StoreStep fun _ => none) past s ∧
      ∃ plan, versionServer.getObject s ⟨"photos", "a", none⟩
        { ifUnmodifiedSince := some (datedObject (instant 1)).lastModified } none (instant 2) =
          .ok { manifest := datedObject (instant 1), resolvedAt := instant 2, plan } := by
  have hi : NoObjects photosStore := ⟨rfl, rfl, rfl⟩
  have hr := Run.of_exec_isSome hi (show (datedRun (instant 1)).isSome = true by decide +kernel)
  refine ⟨_, _, hr, ?_⟩
  have hm : versionServer.resolveManifest ((datedRun (instant 1)).get (by decide +kernel)).2
      ⟨"photos", "a", none⟩ (instant 2) = .ok (some (datedObject (instant 1))) := by
    decide +kernel
  exact ((last_modified_round_trip_iff hm rfl).2 rfl).1

/-- An object created within a second fails all three conditions on its own date. -/
theorem last_modified_lost_within_second :
    ∃ past s, Run NoObjects (StoreStep fun _ => none) past s ∧
      versionServer.resolveManifest s ⟨"photos", "a", none⟩ (instant 2) =
        .ok (some (datedObject halfPastOne)) ∧
      versionServer.getObject s ⟨"photos", "a", none⟩
        { ifUnmodifiedSince := some (datedObject halfPastOne).lastModified } none (instant 2) =
          .error (.s3 .preconditionFailed "if-unmodified-since precondition failed") ∧
      (∃ plan, versionServer.getObject s ⟨"photos", "a", none⟩
        { ifModifiedSince := some (datedObject halfPastOne).lastModified } none (instant 2) =
          .ok { manifest := datedObject halfPastOne, resolvedAt := instant 2, plan }) ∧
      enforceDeleteConditionals
        { ifMatchLastModifiedTime := some (datedObject halfPastOne).lastModified }
        (datedObject halfPastOne) =
          .error (.s3 .preconditionFailed "if-match-last-modified-time precondition failed") := by
  have hi : NoObjects photosStore := ⟨rfl, rfl, rfl⟩
  have hr := Run.of_exec_isSome hi (show (datedRun halfPastOne).isSome = true by decide +kernel)
  have hm : versionServer.resolveManifest ((datedRun halfPastOne).get (by decide +kernel)).2
      ⟨"photos", "a", none⟩ (instant 2) = .ok (some (datedObject halfPastOne)) := by
    decide +kernel
  have hlate : enforceReadConditionals
      { ifUnmodifiedSince := some (datedObject halfPastOne).lastModified }
      (datedObject halfPastOne) =
        .error (.s3 .preconditionFailed "if-unmodified-since precondition failed") := by
    decide +kernel
  have hnew : enforceReadConditionals
      { ifModifiedSince := some (datedObject halfPastOne).lastModified } (datedObject halfPastOne) =
        .ok () := by decide +kernel
  exact ⟨_, _, hr, hm, ReadServer.getObject_of_error hm rfl hlate,
    ReadServer.getObject_of_ok hm rfl hnew, by decide +kernel⟩

end TelegramS3
