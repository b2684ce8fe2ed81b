import TelegramS3.Endings
import TelegramS3.Handovers
import TelegramS3.Holding

namespace TelegramS3
open Relational Table Fallible MetadataStore
set_option autoImplicit true

def ObjectManifest.documents (m : ObjectManifest) : List (String × Int) :=
  m.telegram.location :: m.chunkLocations

def MultipartPart.documents (p : MultipartPart) : List (String × Int) :=
  p.telegram.location :: p.chunkLocations

def ReplicaLocationRow.location (q : ReplicaLocationRow) : String × Int := (q.peerId, q.messageId)

def ManifestRow.Standing (r : ManifestRow) : Prop := r.manifest.commitState ≠ .tombstoned

namespace MetadataStore
variable (s : MetadataStore)

def NamedByManifest (l : String × Int) : Prop :=
  ∃ r ∈ s.objectManifests, r.Standing ∧ l ∈ r.manifest.documents

def NamedByReplica (l : String × Int) : Prop :=
  ∃ q ∈ s.replicaLocations, q.location = l ∧
    ∃ r ∈ s.objectManifests, r.objectId = q.objectId ∧ r.Standing

def NamedByPart (l : String × Int) : Prop :=
  ∃ p ∈ s.multipartParts, l ∈ p.part.documents

def NamedByTransfer (l : String × Int) : Prop :=
  ∃ c ∈ s.transferChunks, c.location.location = l ∧
    ∃ j ∈ s.transferJobs, j.id = c.jobId ∧ j.state.terminal = false

/-- Something in the store still needs the message. -/
inductive Named (s : MetadataStore) (l : String × Int) : Prop where
  | manifest : s.NamedByManifest l → Named s l
  | replica : s.NamedByReplica l → Named s l
  | part : s.NamedByPart l → Named s l
  | transfer : s.NamedByTransfer l → Named s l

def Targeted (l : String × Int) : Prop :=
  s.outbox.targets.contains l = true

def NamedBeside (object : Uuid) (l : String × Int) : Prop :=
  (∃ r ∈ s.objectManifests, r.objectId ≠ object ∧ r.Standing ∧ l ∈ r.manifest.documents) ∨
    s.NamedByPart l

end MetadataStore

def StoreOp.buries (s : MetadataStore) (op : StoreOp) (object : Uuid) : Bool :=
  match op with
  | .failReception id .. | .rejectTransferForQuota id .. | .tombstoneManifest id .. => object = id
  | .tombstoneExpiredActiveManifests now =>
    (s.activeCommitted.filter fun r => r.manifest.isExpired now).any fun r => r.objectId = object
  | .deleteActiveKey bucket key .. => s.activeObjectId bucket key = some object
  | .finishPartJob id _ _ =>
    match s.multipartJob id with
    | none => false
    | some (upload, number) => number != 0 && (object = id || s.transferJobs.any fun j =>
        j.objectId = object && j.id != id && s.partOf upload number j.id &&
          (j.state = .superseded || s.supersededBy id upload number j))
  | .beginConnectionRemoval .. =>
    s.objectManifests.any fun r => r.objectId = object && r.connectionId = s.activeConnectionId
  | _ => false

/-- Documents are kept; sends and replicas are new ones of live transfers and objects. -/
def StoreOp.WritesTracked (s : MetadataStore) : StoreOp → Prop
  | .finishSendAttempt id _ order _ location _ =>
    0 < location.messageId ∧ s.transferChunks.get? (id, order) = none
  | .resolveSendAttempt id order _ (some location) _ _ =>
    0 < location.messageId ∧ s.transferChunks.get? (id, order) = none ∧
      ∃ j ∈ s.transferJobs, j.id = id ∧ j.state.terminal = false
  | .insertReplicaLocation q =>
    0 < q.messageId ∧ s.replicaLocations.get? (Keyed.key q) = none ∧
      ∃ r ∈ s.objectManifests, r.objectId = q.objectId ∧ r.Standing
  | .stageManifest _ m _ => s.objectManifests.get? m.objectId = none
  | .updateManifest m => ∀ r ∈ s.objectManifests, r.objectId = m.objectId → r.Standing →
      m.commitState ≠ .tombstoned ∧ ∀ l ∈ r.manifest.documents, 0 < l.2 → l ∈ m.documents
  | .updateManifestState _ state _ => state ≠ .tombstoned
  | .commitTransferManifest id _ m _ =>
    (∀ c ∈ s.transferChunks, c.jobId = id → c.location.location ∈ m.documents) ∧
      ∀ r ∈ s.objectManifests, r.objectId = id → r.Standing →
        ∀ l ∈ r.manifest.documents, 0 < l.2 → l ∈ m.documents
  | .commitManifest id _ => ∀ r ∈ s.objectManifests, r.objectId = id →
      ∀ c ∈ s.transferChunks, c.jobId = id → c.location.location ∈ r.manifest.documents
  | .finishPartJob id lease now =>
    (∀ r ∈ s.objectManifests, r.objectId = id →
      ∀ c ∈ s.transferChunks, c.jobId = id → c.location.location ∈ r.manifest.documents) ∧
      ∀ r ∈ s.objectManifests, r.objectId ≠ id →
        (StoreOp.finishPartJob id lease now).buries s r.objectId = true →
          ∀ l ∈ r.manifest.documents, l.2 ≤ 0
  | .failReception id .. | .rejectTransferForQuota id .. =>
    ∀ r ∈ s.objectManifests, r.objectId = id → r.commitState = .staging →
      ∀ l ∈ r.manifest.documents, 0 < l.2 → s.NamedBeside id l
  | .beginConnectionRemoval _ deleteUploadedFiles _ => deleteUploadedFiles = true
  | _ => True

/-- Ended transfers have targets for their sends, buried objects no replicas, and documents are
kept. -/
structure KeepsTrack (op : StoreOp) (s : MetadataStore) : Prop where
  transfers : ∀ j ∈ s.transferJobs, j.state.terminal = false → op.endsTransfer s j = true →
    ∀ c ∈ s.transferChunks, c.jobId = j.id → s.Targeted c.location.location
  replicas : ∀ q ∈ s.replicaLocations, ∀ r ∈ s.objectManifests, r.objectId = q.objectId →
    r.Standing → op.buries s r.objectId = false
  writes : op.WritesTracked s

theorem ObjectManifest.mem_cleanupLocations {m : ObjectManifest} (hl : l ∈ m.documents)
    (hp : 0 < l.2) : l ∈ m.cleanupLocations := by
  apply List.mem_filter.2
  refine ⟨?_, decide_eq_true hp⟩
  rcases List.mem_cons.1 hl with rfl | hl
  · exact List.mem_append_right _ List.mem_cons_self
  · exact List.mem_append_left _ hl

namespace CleanupOutbox

theorem Inserts.contains (h : Inserts P o o') (hc : o.targets.contains l = true) :
    o'.targets.contains l = true := by
  obtain ⟨t, ht, hk⟩ := contains_eq_true.1 hc
  obtain ⟨_, ht', rfl⟩ := h.evolves.kept t ht
  exact contains_eq_true.2 ⟨t, ht', hk⟩

theorem insertTarget_contains (o : CleanupOutbox) (objectId : Uuid) (connectionId : String)
    (kind : TargetKind) (dueAt : Int) (l : String × Int) :
    (o.insertTarget objectId connectionId kind dueAt l).targets.contains l = true := by
  unfold insertTarget
  split
  · rename_i h
    exact h
  · rename_i h
    apply contains_eq_true.2
    refine ⟨_, mem_insertOrIgnore.2 (.inr ⟨rfl, ?_⟩), rfl⟩
    rw [Bool.not_eq_true] at h
    exact Option.isSome_eq_false_iff.1 h |> Option.isNone_iff_eq_none.1

theorem insertMessages_contains (objectId : Uuid) (connectionId : String) (dueAt : Int)
    (hl : l ∈ locations) (o : CleanupOutbox) :
    (o.insertMessages objectId connectionId dueAt locations).targets.contains l = true := by
  induction locations generalizing o with
  | nil => cases hl
  | cons k locations ih =>
    rcases List.mem_cons.1 hl with rfl | hl
    · have hi : Inserts (fun _ => True) (o.insertTarget objectId connectionId .message dueAt l)
          (o.insertMessages objectId connectionId dueAt (l :: locations)) := by
        apply foldl_inserts
        intro o k _
        exact .insert .refl trivial
      exact hi.contains (o.insertTarget_contains objectId connectionId .message dueAt l)
    · exact ih hl _

end CleanupOutbox

theorem MetadataStore.targeted_of_handOver {s s' : MetadataStore}
    (he : s'.outbox = s.handOver hs) (hh : h ∈ hs) (hl : l ∈ h.locations) : s'.Targeted l := by
  unfold Targeted
  rw [he]
  clear he
  unfold handOver
  generalize s.outbox = o
  induction hs generalizing o with
  | nil => cases hh
  | cons x hs ih =>
    rcases List.mem_cons.1 hh with rfl | hh
    · have hi : CleanupOutbox.Inserts (fun _ => True)
          (o.enqueue h.object s.activeConnectionId h.dueAt h.locations)
          ((h :: hs).foldl
            (fun o h => o.enqueue h.object s.activeConnectionId h.dueAt h.locations) o) := by
        apply CleanupOutbox.foldl_inserts
        intro o k _
        exact (o.enqueue_inserts ..).mono fun _ _ => trivial
      exact hi.contains (CleanupOutbox.insertMessages_contains _ _ _ hl _)
    · exact ih hh _

theorem MetadataStore.Targeted.step (ht : s.Targeted l) (hn : s.outbox.Numbered)
    (hs : StoreStep fromStr op s s') : s'.Targeted l := by
  obtain ⟨t, ht, hk⟩ := contains_eq_true.1 ht
  obtain ⟨t', ht', hsame⟩ := (StoreOp.targets_evolve hn hs).kept t ht
  apply contains_eq_true.2
  refine ⟨t', ht', ?_⟩
  rw [← hk]
  exact congrArg₂ Prod.mk hsame.peerId hsame.messageId

def RowSurvives (s' : MetadataStore) (r : ManifestRow) : Prop :=
  ∃ r' ∈ s'.objectManifests, r'.objectId = r.objectId ∧ r'.Standing ∧
    ∀ l ∈ r.manifest.documents, 0 < l.2 → l ∈ r'.manifest.documents

theorem RowSurvives.of_mem (hr : r ∈ s'.objectManifests) (hs : r.Standing) : RowSurvives s' r :=
  ⟨r, hr, rfl, hs, fun _ hl _ => hl⟩

/-- What a commit makes of rows, parts and the outbox. -/
structure CommitEffect (s s' : MetadataStore) (operation : Uuid)
    (subject : Option ObjectManifest) (now : OffsetDateTime) (m : ObjectManifest) : Prop where
  row : ∃ r ∈ s.objectManifests, r.objectId = operation ∧ (subject = none → m = r.manifest)
  chosen : ∀ p, subject = some p → m = p
  object : m.objectId = operation
  rows : s'.objectManifests = (s.publishManifest operation m now).objectManifests
  parts : s'.multipartParts = s.multipartParts ∨ ∃ upload,
    s'.multipartParts = s.multipartParts.delete (fun p => p.uploadId = upload) ∧
      s'.outbox = s.handOver (s.uploadHandovers upload now.unixTimestamp m.chunkLocations)

theorem MetadataStore.commitManifestInner_effect {s s' : MetadataStore} (h : Coherent s)
    (hc : s.commitManifestInner fromStr operation transfer subject now = .ok (m', s')) :
    ∃ m, CommitEffect s s' operation subject now m := by
  obtain ⟨e, he, ⟨hst, -⟩ | ⟨m, hm, -, -, hs⟩⟩ := commitManifestInner_ok hc
  · rw [(h.operation e (mem_of_get? he)).2.2] at hst
    cases hst
  · obtain ⟨r, hr, hid, -, -⟩ := commitSubject_row h he hm
    refine ⟨m, ⟨r, mem_of_get? hr, key_of_get? hr, ?_⟩, ?_, hid, ?_, ?_⟩
    · rintro rfl
      obtain ⟨r', hr', hsub⟩ := commitSubject_ok hm
      have hop := (h.operation e (mem_of_get? he)).2.1.trans (key_of_get? he)
      rw [hop, hr] at hr'
      cases hr'
      rcases hsub with hsub | ⟨hsub, -⟩
      · exact hsub
      · cases hsub
    · rintro p rfl
      exact commitSubject_published hm
    · rcases hs with ⟨-, rfl⟩ | ⟨upload, -, rfl⟩
      · rfl
      · rfl
    · rcases hs with ⟨-, rfl⟩ | ⟨upload, -, rfl⟩
      · exact .inl rfl
      · exact .inr ⟨upload, rfl, s.closeUpload_outbox operation upload transfer m m now⟩

theorem ManifestRow.publish_standing (m : ObjectManifest) (now : OffsetDateTime)
    (r : ManifestRow) : (r.publish m now).Standing := by
  intro h
  cases h

namespace CommitEffect

theorem named (h : CommitEffect s s' operation subject now m) (hl : l ∈ m.documents) :
    s'.NamedByManifest l := by
  obtain ⟨r, hr, hid, -⟩ := h.row
  refine ⟨r.publish m now, ?_, ManifestRow.publish_standing m now r, hl⟩
  rw [h.rows]
  exact mem_of_update_true rfl hr (decide_eq_true (hid.trans h.object.symm))

theorem row_survives (h : CommitEffect s s' operation subject now m)
    (hr : r ∈ s.objectManifests) (hst : r.Standing)
    (hd : r.objectId = operation → ∀ l ∈ r.manifest.documents, 0 < l.2 → l ∈ m.documents) :
    RowSurvives s' r := by
  by_cases hid : r.objectId = operation
  · refine ⟨r.publish m now, ?_, rfl, ManifestRow.publish_standing m now r, hd hid⟩
    rw [h.rows]
    exact mem_of_update_true rfl hr (decide_eq_true (hid.trans h.object.symm))
  · apply RowSurvives.of_mem _ hst
    rw [h.rows]
    apply mem_of_update_false rfl hr
    rw [h.object]
    exact decide_eq_false hid

theorem own (h : CommitEffect s s' operation none now m) (hr : r ∈ s.objectManifests)
    (hid : r.objectId = operation) : m = r.manifest := by
  obtain ⟨o, ho, hoid, hm⟩ := h.row
  rw [hm rfl, eq_of_key_eq ho hr (hoid.trans hid.symm)]

theorem part_survives (h : CommitEffect s s' operation subject now m)
    (hp : p ∈ s.multipartParts) (hl : l ∈ p.part.documents) : s'.Named l ∨ s'.Targeted l := by
  rcases h.parts with he | ⟨upload, he, ho⟩
  · exact .inl (.part ⟨p, he ▸ hp, hl⟩)
  · by_cases hu : p.uploadId = upload
    · by_cases hm : l ∈ m.chunkLocations
      · exact .inl (.manifest (h.named (List.mem_cons_of_mem _ hm)))
      · right
        apply targeted_of_handOver ho
        · exact List.mem_map_of_mem (mem_select.2 ⟨hp, decide_eq_true hu⟩)
        · rcases List.mem_cons.1 hl with rfl | hl
          · exact List.mem_cons_self
          · refine List.mem_cons_of_mem _ (List.mem_filter.2 ⟨hl, ?_⟩)
            rw [decide_eq_false hm]
            rfl
    · refine .inl (.part ⟨p, ?_, hl⟩)
      rw [he]
      exact mem_delete.2 ⟨hp, decide_eq_false hu⟩

end CommitEffect

namespace MetadataStore

theorem NamedBeside.discard {s s' : MetadataStore}
    (h : s.NamedBeside object l) (hg : ∀ r, gone r = true → r.objectId = object)
    (hr : s'.objectManifests = s.objectManifests.delete gone)
    (hp : s'.multipartParts = s.multipartParts) : s'.Named l := by
  rcases h with ⟨r, hrm, hne, hst, hl⟩ | ⟨q, hq, hl⟩
  · refine .manifest ⟨r, ?_, hst, hl⟩
    rw [hr]
    exact mem_delete.2 ⟨hrm, Bool.eq_false_iff.2 fun h => hne (hg r h)⟩
  · exact .part ⟨q, hp ▸ hq, hl⟩

theorem tombstoneExpired_rows (l : List ManifestRow) (t : MetadataStore)
    (hr : r ∈ t.objectManifests) :
    r ∈ (l.foldl (fun t row => t.tombstoneExpired row now) t).objectManifests ∨
      ∃ row ∈ l, row.objectId = r.objectId := by
  induction l generalizing t with
  | nil => exact .inl hr
  | cons row l ih =>
    by_cases hid : row.objectId = r.objectId
    · exact .inr ⟨row, List.mem_cons_self, hid⟩
    · have hr' : r ∈ (t.tombstoneExpired row now).objectManifests := by
        apply mem_of_update_false rfl hr
        rw [decide_eq_false fun he : r.objectId = row.objectId => hid he.symm]
        rfl
      rcases ih (t.tombstoneExpired row now) hr' with h | ⟨x, hx, he⟩
      · exact .inl h
      · exact .inr ⟨x, List.mem_cons_of_mem _ hx, he⟩

theorem finishPartJob_row {s s' : MetadataStore} (hn : number ≠ 0)
    (h : s.finishPartJob fromStr job lease upload number now = .ok s')
    (hr : r ∈ s.objectManifests) :
    r ∈ s'.objectManifests ∨ r.objectId = job ∨ ∃ j ∈ s.transferJobs, j.objectId = r.objectId ∧
      j.id ≠ job ∧ s.partOf upload number j.id = true ∧
        (j.state = .superseded ∨ s.supersededBy job upload number j = true) := by
  obtain ⟨row, -, -, rfl⟩ := finishPartJob_ok hn h
  rw [Classical.or_iff_not_imp_left]
  intro hg
  have hgone : (r.objectId = job || ((s.publishedPart job lease upload number row.manifest
      now).supersedeDuplicates job upload number now.unixTimestamp).transferJobs.any fun j =>
        j.id != job && s.partOf upload number j.id && j.state = .superseded &&
          j.objectId = r.objectId) = true := by
    by_contra hc
    exact hg (mem_delete.2 ⟨hr, Bool.eq_false_of_not_eq_true hc⟩)
  rw [Bool.or_eq_true, decide_eq_true_eq] at hgone
  apply hgone.imp_right
  intro hany
  obtain ⟨j₂, hj₂, hp⟩ := any_eq_true.1 hany
  simp only [Bool.and_eq_true, bne_iff_ne, ne_eq, decide_eq_true_eq] at hp
  obtain ⟨⟨⟨hne, hpart⟩, hst⟩, hobj⟩ := hp
  have hback : ∀ j ∈ (s.publishedPart job lease upload number row.manifest now).transferJobs,
      j.id ≠ job → j ∈ s.transferJobs := by
    intro j hj hid
    rcases of_mem_update rfl hj with ⟨o, -, hp, rfl⟩ | ⟨hj, -⟩
    · rw [Bool.and_eq_true, Bool.and_eq_true, decide_eq_true_eq] at hp
      exact absurd hp.1.1 hid
    · exact hj
  rcases of_mem_update rfl hj₂ with ⟨o, ho, hp, rfl⟩ | ⟨hj, -⟩
  · exact ⟨o, hback o ho hne, hobj, hne, hpart, .inr hp⟩
  · exact ⟨j₂, hback j₂ hj hne, hobj, hne, hpart, .inl hst⟩

theorem finishPartJob_named {s s' : MetadataStore} (hn : number ≠ 0)
    (h : s.finishPartJob fromStr job lease upload number now = .ok s')
    (hr : r ∈ s.objectManifests) (hid : r.objectId = job) (hl : l ∈ r.manifest.documents) :
    s'.Named l := by
  obtain ⟨row, hrow, -, rfl⟩ := finishPartJob_ok hn h
  obtain rfl : row = r := eq_of_key_eq (mem_of_get? hrow) hr ((key_of_get? hrow).trans hid.symm)
  exact .part ⟨_, mem_upsert.2 (.inl rfl), hl⟩

end MetadataStore

theorem ManifestRow.handed_over {s s' : MetadataStore} {r : ManifestRow}
    (he : s'.outbox = s.handOver hs) (hh : r.handover dueAt ∈ hs) (hl : l ∈ r.manifest.documents)
    (hp : 0 < l.2) : s'.Named l ∨ s'.Targeted l :=
  .inr (targeted_of_handOver he hh (ObjectManifest.mem_cleanupLocations hl hp))

/-- An object that stands goes on, or its documents are named by others or have targets. -/
theorem StoreOp.row_survives {op : StoreOp} (h : Coherent s) (hs : StoreStep fromStr op s s')
    (hk : op.WritesTracked s) (hr : r ∈ s.objectManifests) (hst : r.Standing) :
    RowSurvives s' r ∨ op.buries s r.objectId = true ∧
      ∀ l ∈ r.manifest.documents, 0 < l.2 → s'.Named l ∨ s'.Targeted l := by
  have hparts : op.writes.contains .parts = false → s'.multipartParts = s.multipartParts :=
    StoreOp.frame hs .parts
  cases StoreOp.index_step hs with
  | kept hf => exact .inl (.of_mem (hf.manifests ▸ hr) hst)
  | staged =>
    refine .inl (.of_mem (mem_upsert.2 (.inr ⟨hr, ?_⟩)) hst)
    exact get?_eq_none.1 hk r hr
  | discarded gone _ hcall hd _ _ =>
    cases hg : gone r with
    | false =>
      refine .inl (.of_mem ?_ hst)
      rw [hd]
      exact mem_delete.2 ⟨hr, hg⟩
    | true =>
      right
      cases hcall with
      | failed | rejected =>
        simp only [Bool.and_eq_true, decide_eq_true_eq] at hg
        refine ⟨decide_eq_true hg.1, fun l hl hp => .inl ?_⟩
        refine (hk r hr hg.1 hg.2 l hl hp).discard ?_ hd (hparts rfl)
        exact fun _ hg => of_decide_eq_true (Bool.and_eq_true_iff.1 hg).1
      | @part id upload number lease now _ hm hn hf =>
        have hb : (StoreOp.finishPartJob id lease now).buries s r.objectId = true := by
          simp only [StoreOp.buries, hm, Bool.and_eq_true, bne_iff_ne, Bool.or_eq_true,
            decide_eq_true_eq]
          refine ⟨hn, ?_⟩
          rcases finishPartJob_row hn hf hr with hr' | hid | ⟨j, hj, ho, hne, hp, hst'⟩
          · rw [hd] at hr'
            exact absurd ((mem_delete.1 hr').2.symm.trans hg) Bool.false_ne_true
          · exact .inl hid
          · refine .inr (any_eq_true.2 ⟨j, hj, ?_⟩)
            simp only [Bool.and_eq_true, Bool.or_eq_true, decide_eq_true_eq, bne_iff_ne]
            exact ⟨⟨⟨ho, hne⟩, hp⟩, hst'⟩
        refine ⟨hb, fun l hl hp => .inl ?_⟩
        by_cases hid : r.objectId = id
        · exact finishPartJob_named hn hf hr hid hl
        · exact absurd hp (Int.not_lt.2 (hk.2 r hr hid hb l hl))
  | committed _ hcall hc =>
    obtain ⟨m, he⟩ := commitManifestInner_effect h hc
    refine .inl (he.row_survives hr hst fun hid l hl hp => ?_)
    cases hcall with
    | plain | completion => exact he.own hr hid ▸ hl
    | leased =>
      rw [he.chosen _ rfl]
      exact hk.2 r hr hid hst l hl hp
  | written m =>
    left
    by_cases hid : r.objectId = m.objectId
    · obtain ⟨hm, hd⟩ := hk r hr hid hst
      exact ⟨_, mem_of_update_true rfl hr (decide_eq_true hid), rfl, hm, hd⟩
    · exact .of_mem (mem_of_update_false rfl hr (decide_eq_false hid)) hst
  | moved object m state now hm =>
    left
    by_cases hid : r.objectId = object
    · refine ⟨_, mem_of_update_true rfl hr (decide_eq_true hid), rfl, hk, ?_⟩
      intro l hl _
      rw [loaded_manifest hm hr hid] at hl
      exact hl
    · exact .of_mem (mem_of_update_false rfl hr (decide_eq_false hid)) hst
  | tombstoned object m now hm hcall hrows _ _ hout =>
    have hrows := congrArg Table.rows hrows
    by_cases hid : r.objectId = object
    · obtain rfl := loaded_manifest hm hr hid
      have hout : s'.outbox = s.handOver [r.handover now.unixTimestamp] := hout
      refine .inr ⟨?_, fun l hl hp => r.handed_over hout List.mem_cons_self hl hp⟩
      cases hcall with
      | object => exact decide_eq_true hid
      | key hact => exact decide_eq_true (hact.trans (congrArg some hid.symm))
    · exact .inl (.of_mem (mem_of_update_false hrows hr (decide_eq_false hid)) hst)
  | expired now =>
    rcases tombstoneExpired_rows _ s hr with hr' | ⟨row, hrow, hid⟩
    · exact .inl (.of_mem hr' hst)
    · refine .inr ⟨List.any_eq_true.2 ⟨row, hrow, decide_eq_true hid⟩, fun l hl hp => ?_⟩
      have hmem := (mem_activeCommitted (List.mem_filter.1 hrow).1).1
      obtain rfl : row = r := eq_of_key_eq hmem hr hid
      exact row.handed_over (tombstoneExpired_outbox _ s s now rfl) (List.mem_map_of_mem hrow) hl hp
  | hidden now =>
    obtain rfl := hk
    by_cases hc : r.connectionId = s.activeConnectionId
    · refine .inr ⟨?_, fun l hl hp => ?_⟩
      · apply any_eq_true.2
        refine ⟨r, hr, ?_⟩
        rw [decide_eq_true rfl, decide_eq_true hc]
        rfl
      · have hm : r ∈ s.removalManifests s.activeConnectionId := by
          unfold removalManifests
          rw [(List.perm_insertionSort _ _).mem_iff]
          refine mem_select.2 ⟨hr, ?_⟩
          rw [decide_eq_true hc, Bool.true_and, bne_iff_ne, ← (h.rows r hr).state]
          exact hst
        have hh : r.handover now.unixTimestamp ∈ s.removalHandovers now.unixTimestamp :=
          List.mem_append_left _ (List.mem_append_left _ (List.mem_map_of_mem hm))
        exact r.handed_over (s.removalOutbox_eq now.unixTimestamp) hh hl hp
    · refine .inl (.of_mem (mem_of_update_false rfl hr ?_) hst)
      rw [decide_eq_false hc]
      rfl
  | reopened => exact .inl (.of_mem hr hst)

theorem StoreOp.part_survives (h : Coherent s) (hs : StoreStep fromStr op s s')
    (hp : p ∈ s.multipartParts) (hl : l ∈ p.part.documents) : s'.Named l ∨ s'.Targeted l := by
  have hkept : p ∈ s'.multipartParts → s'.Named l ∨ s'.Targeted l :=
    fun hp => .inl (.part ⟨p, hp, hl⟩)
  have hall : l ∈ p.part.cleanupLocations [] := by
    rcases List.mem_cons.1 hl with rfl | hl
    · exact List.mem_cons_self
    · exact List.mem_cons_of_mem _ (List.mem_filter.2 ⟨hl, rfl⟩)
  cases op with
  | commitManifest | commitTransferManifest =>
    obtain ⟨⟨m', s₁⟩, hc, rfl⟩ := map_ok.1 (after_eq_some.1 hs)
    obtain ⟨m, he⟩ := commitManifestInner_effect h hc
    exact he.part_survives hp hl
  | finishPartJob id lease now =>
    obtain ⟨⟨upload, number⟩, -, hf⟩ := Option.bind_eq_some_iff.1 hs
    by_cases hn : number = 0
    · subst hn
      obtain ⟨operation, m', -, hc⟩ := finishPartJob_zero (after_eq_some.1 hf)
      obtain ⟨m, he⟩ := commitManifestInner_effect h hc
      exact he.part_survives hp hl
    · by_cases hkey : Keyed.key p = (upload, number)
      · have hm : s.partHandover now.unixTimestamp [] p ∈
            s.replacementHandovers upload number now.unixTimestamp := by
          unfold replacementHandovers
          rw [get?_eq_some.2 ⟨hp, hkey⟩]
          exact List.mem_cons_self
        exact .inr (targeted_of_handOver (finishPartJob_outbox hn (after_eq_some.1 hf)) hm hall)
      · apply hkept
        obtain ⟨row, -, -, rfl⟩ := finishPartJob_ok hn (after_eq_some.1 hf)
        exact mem_upsert.2 (.inr ⟨hp, hkey⟩)
  | abortParts upload now =>
    obtain ⟨-, rfl⟩ := abortParts_ok (after_eq_some.1 hs)
    by_cases hu : p.uploadId = upload
    · have hm : s.partHandover now [] p ∈ s.uploadHandovers upload now [] :=
        List.mem_map_of_mem (mem_select.2 ⟨hp, decide_eq_true hu⟩)
      exact .inr (targeted_of_handOver (s.dropUpload_outbox upload now) hm hall)
    · exact hkept (mem_delete.2 ⟨hp, decide_eq_false hu⟩)
  | _ =>
    have hf : s'.multipartParts = s.multipartParts := StoreOp.frame hs .parts rfl
    exact hkept (hf ▸ hp)

theorem StoreOp.checkpoint_survives (hs : StoreStep fromStr op s s')
    (hk : op.WritesTracked s) (hc : c ∈ s.transferChunks) : c ∈ s'.transferChunks := by
  cases op with
  | finishSendAttempt id lease order attempt location now =>
    obtain ⟨-, s₁, hu, rfl⟩ := finishSendAttempt_ok (after_eq_some.1 hs)
    obtain ⟨rfl, -⟩ := updateAttempt_ok hu
    exact mem_upsert.2 (.inr ⟨hc, get?_eq_none.1 hk.2 c hc⟩)
  | resolveSendAttempt id order attempt location error now =>
    obtain ⟨s₁, hu, rfl⟩ := resolveSendAttempt_ok (after_eq_some.1 hs)
    obtain ⟨rfl, -⟩ := updateAttempt_ok hu
    cases location with
    | none => exact hc
    | some location => exact mem_upsert.2 (.inr ⟨hc, get?_eq_none.1 hk.2.1 c hc⟩)
  | _ =>
    have hf : s'.transferChunks = s.transferChunks := StoreOp.frame hs .chunks rfl
    exact hf ▸ hc

theorem StoreOp.replica_survives (hs : StoreStep fromStr op s s')
    (hk : op.WritesTracked s) (hq : q ∈ s.replicaLocations) : q ∈ s'.replicaLocations := by
  cases op with
  | insertReplicaLocation row =>
    cases hs
    exact mem_upsert.2 (.inr ⟨hq, get?_eq_none.1 hk.2.1 q hq⟩)
  | _ =>
    have hf : s'.replicaLocations = s.replicaLocations := StoreOp.frame hs .replicas rfl
    exact hf ▸ hq

theorem MetadataStore.cancel_targets {s : MetadataStore} (hj : j ∈ s.transferJobs)
    (hw : j.state.waiting = true) (hc : c ∈ s.transferChunks) (hid : j.id = c.jobId) (now : Int) :
    (s.transferAction j.id "cancel" now).Targeted c.location.location := by
  have hl : c.location ∈ s.checkpointLocations j.id :=
    List.mem_map_of_mem (mem_select.2 ⟨hc, decide_eq_true hid.symm⟩)
  have hne : (s.checkpointLocations j.id).isEmpty = false := by
    cases hcl : s.checkpointLocations j.id with
    | nil =>
      rw [hcl] at hl
      cases hl
    | cons => rfl
  have he : (s.transferAction j.id "cancel" now).outbox = s.outbox.enqueue j.objectId
      s.activeConnectionId now ((s.checkpointLocations j.id).map TelegramLocation.location) := by
    have hg : s.transferJobs.get? j.id = some j := get?_eq_some.2 ⟨hj, rfl⟩
    unfold transferAction cancelTransfer
    rw [if_neg (by decide), if_pos rfl, hg]
    simp only [hw, hne, Bool.not_true, Bool.false_eq_true, if_false]
  unfold Targeted
  rw [he]
  exact CleanupOutbox.insertMessages_contains _ _ _ (List.mem_map_of_mem hl) _

theorem MetadataStore.removal_targets {s : MetadataStore} (hj : j ∈ s.transferJobs)
    (hconn : j.connectionId = s.activeConnectionId) (hc : c ∈ s.transferChunks)
    (hid : j.id = c.jobId) (hp : 0 < c.location.location.2) (job : Uuid)
    (objects : Table RemovalObjectRow) (now : OffsetDateTime) :
    (s.hideConnection job true objects now).Targeted c.location.location := by
  have hm : j ∈ (s.transferJobs.select fun j =>
      j.connectionId = s.activeConnectionId).insertionSort fun a b => a.sequence ≤ b.sequence := by
    rw [(List.perm_insertionSort _ _).mem_iff]
    exact mem_select.2 ⟨hj, decide_eq_true hconn⟩
  have hl : c.location ∈ s.checkpointLocations j.id :=
    List.mem_map_of_mem (mem_select.2 ⟨hc, decide_eq_true hid.symm⟩)
  apply targeted_of_handOver (s.removalOutbox_eq now.unixTimestamp)
  · exact List.mem_append_left _ (List.mem_append_right _ (List.mem_map_of_mem hm))
  · apply List.mem_filter.2
    exact ⟨List.mem_append_left _ (List.mem_map_of_mem hl), decide_eq_true hp⟩

theorem StoreOp.publication_names (h : Coherent s)
    (ho : ∀ j ∈ s.transferJobs, j.OneId) (hs : StoreStep fromStr op s s')
    (hk : op.WritesTracked s) (hop : op.publishes = some c.jobId) (hc : c ∈ s.transferChunks) :
    s'.Named c.location.location := by
  cases op with
  | commitManifest operation now =>
    cases hop
    obtain ⟨⟨m', s₁⟩, hcommit, rfl⟩ := map_ok.1 (after_eq_some.1 hs)
    obtain ⟨m, he⟩ := commitManifestInner_effect h hcommit
    obtain ⟨r, hr, hid, hm⟩ := he.row
    apply Named.manifest
    apply he.named
    rw [hm rfl]
    exact hk r hr hid c hc rfl
  | commitTransferManifest id lease published now =>
    cases hop
    obtain ⟨⟨m', s₁⟩, hcommit, rfl⟩ := map_ok.1 (after_eq_some.1 hs)
    obtain ⟨m, he⟩ := commitManifestInner_effect h hcommit
    obtain rfl := he.chosen published rfl
    exact .manifest (he.named (hk.1 c hc rfl))
  | finishPartJob id lease now =>
    cases hop
    obtain ⟨⟨upload, number⟩, -, hf⟩ := Option.bind_eq_some_iff.1 hs
    by_cases hn : number = 0
    · subst hn
      obtain ⟨operation, m', hop, hcommit⟩ := finishPartJob_zero (after_eq_some.1 hf)
      obtain ⟨i, hi, hio⟩ := Option.bind_eq_some_iff.1 hop
      obtain ⟨m, he⟩ := commitManifestInner_effect h hcommit
      obtain ⟨r, hr, hid, hm⟩ := he.row
      apply Named.manifest
      apply he.named
      rw [hm rfl]
      refine hk.1 r hr (hid.trans ?_) c hc rfl
      exact ((ho i (mem_of_get? hi)).operation operation hio).trans (key_of_get? hi)
    · obtain ⟨row, hrow, -, -⟩ := finishPartJob_ok hn (after_eq_some.1 hf)
      have hr := mem_of_get? hrow
      have hid : row.objectId = c.jobId := key_of_get? hrow
      exact finishPartJob_named hn (after_eq_some.1 hf) hr hid (hk.1 row hr hid c hc rfl)
  | _ => cases hop

/-- A message that is named goes on being named, or has a target. -/
theorem StoreOp.keeps_named (h : Coherent s) (ho : ∀ j ∈ s.transferJobs, j.OneId)
    (hn : s.outbox.Numbered) (hs : StoreStep fromStr op s s') (hk : KeepsTrack op s)
    (hp : 0 < l.2) (hl : s.Named l) : s'.Named l ∨ s'.Targeted l := by
  cases hl with
  | manifest hl =>
    obtain ⟨r, hr, hst, hl⟩ := hl
    rcases StoreOp.row_survives h hs hk.writes hr hst with ⟨r', hr', -, hst', hd⟩ | ⟨-, hd⟩
    · exact .inl (.manifest ⟨r', hr', hst', hd l hl hp⟩)
    · exact hd l hl hp
  | replica hl =>
    obtain ⟨q, hq, rfl, r, hr, hid, hst⟩ := hl
    rcases StoreOp.row_survives h hs hk.writes hr hst with ⟨r', hr', hid', hst', -⟩ | ⟨hb, -⟩
    · exact .inl (.replica ⟨q, StoreOp.replica_survives hs hk.writes hq, rfl, r', hr',
        hid'.trans hid, hst'⟩)
    · rw [hk.replicas q hq r hr hid hst] at hb
      cases hb
  | part hl =>
    obtain ⟨p, hpm, hl⟩ := hl
    exact StoreOp.part_survives h hs hpm hl
  | transfer hl =>
    obtain ⟨c, hc, rfl, j, hj, hid, hlive⟩ := hl
    rcases StoreOp.job_survives ho hs hj hlive with ⟨j', hj', he, hlive'⟩ | hend
    · exact .inl (.transfer ⟨c, StoreOp.checkpoint_survives hs hk.writes hc, rfl, j', hj',
        (Prod.mk.inj he).1.trans hid, hlive'⟩)
    · cases hend with
      | dropped hd => exact .inr ((hk.transfers j hj hlive hd c hc hid.symm).step hn hs)
      | cancelled now hop hw =>
        subst hop
        cases hs
        exact .inr (cancel_targets hj hw hc hid now)
      | removed job deleteUploadedFiles now hop hconn =>
        subst hop
        obtain ⟨objects, rfl⟩ := beginConnectionRemoval_ok (after_eq_some.1 hs)
        obtain rfl : deleteUploadedFiles = true := hk.writes
        exact .inr (removal_targets hj hconn hc hid hp job objects now)
      | published hop =>
        rw [hid] at hop
        exact .inl (StoreOp.publication_names h ho hs hk.writes hop hc)

def StoreOp.accepts : StoreOp → List (String × Int)
  | .insertReplicaLocation q => if q.mode = .replica then [q.location] else []
  | op => op.acknowledges

theorem MetadataStore.checkpoint_named {s : MetadataStore} {id : Uuid} (hj : j ∈ s.transferJobs)
    (hid : j.id = id) (hl : j.state.terminal = false) :
    ((s.checkpoint id order location).countChunks id now).Named location.location := by
  have hrel : Table.Rel (fun i i' => i'.id = i.id ∧ i'.state = i.state) s.transferJobs
      ((s.checkpoint id order location).countChunks id now).transferJobs :=
    .of_update rfl (fun _ _ h => h.1) (fun _ => ⟨rfl, rfl⟩) fun _ _ _ => ⟨rfl, rfl⟩
  obtain ⟨j', hj', hid', hst⟩ := hrel.some_left (mem_iff_get?.1 hj)
  exact .transfer ⟨_, mem_upsert.2 (.inl rfl), rfl, j', mem_of_get? hj', hid'.trans hid, hst ▸ hl⟩

theorem StoreOp.accepts_named (hs : StoreStep fromStr op s s')
    (hk : op.WritesTracked s) (hl : l ∈ op.accepts) : 0 < l.2 ∧ s'.Named l := by
  cases op with
  | insertReplicaLocation q =>
    cases hs
    simp only [StoreOp.accepts] at hl
    split at hl
    · obtain rfl := List.mem_singleton.1 hl
      obtain ⟨hp, -, r, hr, hid, hst⟩ := hk
      exact ⟨hp, .replica ⟨q, mem_upsert.2 (.inl rfl), rfl, r, hr, hid, hst⟩⟩
    · cases hl
  | finishSendAttempt id lease order attempt location now =>
    obtain rfl := List.mem_singleton.1 hl
    have hsent := hs
    obtain ⟨hlease, s₁, hu, rfl⟩ := finishSendAttempt_ok (after_eq_some.1 hsent)
    obtain ⟨rfl, -⟩ := updateAttempt_ok hu
    obtain ⟨j, hj, hlj⟩ := any_eq_true.1 hlease
    simp only [leasedJob, Bool.and_eq_true, decide_eq_true_eq] at hlj
    exact ⟨hk.1, checkpoint_named hj hlj.1.1.1 (TransferState.terminal_of_leased hlj.1.2)⟩
  | resolveSendAttempt id order attempt location error now =>
    cases location with
    | none => cases hl
    | some location =>
      obtain rfl := List.mem_singleton.1 hl
      obtain ⟨s₁, hu, rfl⟩ := resolveSendAttempt_ok (after_eq_some.1 hs)
      obtain ⟨rfl, -⟩ := updateAttempt_ok hu
      obtain ⟨hp, -, j, hj, hid, hlive⟩ := hk
      exact ⟨hp, checkpoint_named hj hid hlive⟩
  | _ => cases hl

end TelegramS3
