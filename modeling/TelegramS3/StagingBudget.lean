import Mathlib.Algebra.Order.BigOperators.Group.List
import Mathlib.Algebra.Order.Ring.Nat
import TelegramS3.Charges
import TelegramS3.ReceptionCalls

namespace TelegramS3
open Relational Table Fallible Transition MetadataStore
set_option autoImplicit true

/-- The cipher and its tag, the serialized manifests and the budget of at most `i64::MAX`. -/
structure StagingService where
  crypto : Crypto
  tag : ∀ id order plain file, crypto.encryptChunk id order plain = .ok file →
    file.length = plain.length + 16
  jsonLength : ObjectManifest → Nat
  budget : Nat
  bounded : budget < 2 ^ 63

structure StagingFolder where
  id : Uuid
  dir : StagingDir := {}

instance : Keyed StagingFolder Uuid := ⟨StagingFolder.id⟩

/-- A file for which space is reserved before it is written. -/
inductive StagedWrite where
  | chunk (order : Nat) (bytes : Bytes)
  | manifest (m : ObjectManifest)
  deriving DecidableEq

/-- The store call that follows the removal of a directory. -/
inductive Release where
  | failReception (removed : Bool) (message : String)
  | markCleaned
  deriving DecidableEq

def Release.frees : Release → Bool
  | .failReception removed _ => removed
  | .markCleaned => true

/-- The store, the staging directories, and the calls under way with the files they still write, the
jobs they listed and the directories they removed. -/
structure StagingWorld where
  store : MetadataStore
  folders : Table StagingFolder := ∅
  writes : List (Uuid × StagedWrite) := []
  listed : List Uuid := []
  releases : List (Uuid × Release) := []

inductive StagingAction where
  | store (a : ConnectionAction)
  | begin (id : Uuid) (bucket key : String) (now : Int)
  | reserve (id : Uuid) (file : StagedWrite) (now : Int)
  | write (id : Uuid) (file : StagedWrite) (io : DiskOutcome)
  | writeManifest (id : Uuid) (m : ObjectManifest)
  | discard (id : Uuid) (message : String) (io : DiskOutcome)
  | list
  | sweep (id : Uuid) (io : DiskOutcome)
  | remove (id : Uuid) (io : DiskOutcome)
  | release (id : Uuid) (r : Release) (now : Int)
  | restart

namespace StagingWorld
variable (w : StagingWorld)

/-- `Uuid::new_v4` draws an id that nothing refers to. -/
def fresh (id : Uuid) : Bool :=
  !w.folders.contains id && w.writes.all (·.1 != id) && w.releases.all (·.1 != id)

def dirOf (id : Uuid) : StagingDir :=
  ((w.folders.get? id).map StagingFolder.dir).getD {}

def removeFolder (id : Uuid) : DiskOutcome → StagingWorld × Bool
  | .done => ({ w with folders := w.folders.delete fun d => d.id = id }, true)
  | .failed manifestGone chunksGone =>
    ({ w with folders := w.folders.modify (fun d => d.id = id) fun d =>
        { d with dir := d.dir.without manifestGone chunksGone } }, !w.folders.contains id)

/-- `write_json_file`, which makes the directory again when it is gone. -/
def putManifest (id : Uuid) (m : ObjectManifest) : StagingWorld :=
  { w with folders := w.folders.upsert { id, dir := { w.dirOf id with manifest := some m } } }

def release (id : Uuid) (now : Int) : Release → MetadataStore
  | .failReception removed message => (w.store.failReception id removed message now).2
  | .markCleaned => w.store.markCleaned id

end StagingWorld

namespace StagingService
variable (svc : StagingService)

def reservation : StagedWrite → Nat
  | .chunk _ bytes => bytes.length + 16
  | .manifest m => svc.jsonLength m

def size (d : StagingDir) : Nat :=
  (d.chunks.map fun f => f.2.length).sum + (d.manifest.map svc.jsonLength).getD 0

/-- A chunk is not written where its directory is gone. -/
def writeFile (w : StagingWorld) (id : Uuid) (io : DiskOutcome) : StagedWrite → StagingWorld
  | .chunk order bytes =>
    match svc.crypto.encryptChunk id order bytes, w.folders.get? id, io with
    | .ok file, some d, .done =>
      { w with folders := w.folders.upsert { d with dir := d.dir.put order file } }
    | _, _, _ => w
  | .manifest m =>
    match io with
    | .done => w.putManifest id m
    | .failed .. => w

end StagingService

/-- `writeManifest` is what `finalize_reception`, `stage_object` and `publish_transfer` write,
`discard` the end of a failed upload, `sweep` a job of `cleanup_completed_staging`, `remove` a
directory moved or removed with no call after it. -/
def StagingAction.apply (svc : StagingService) (fromStr : String → Option ETagCondition)
    (a : StagingAction) (w : StagingWorld) : Option StagingWorld :=
  match a with
  | .store a =>
    if a.staging then none else (a.apply fromStr w.store).map fun s => { w with store := s }
  | .begin id bucket key now =>
    if w.fresh id then
      (after (w.store.beginTransfer id bucket key now)).map fun s =>
        { w with store := s, folders := w.folders.upsert { id } }
    else none
  | .reserve id file now =>
    (after (w.store.reserveStaging id (svc.reservation file) svc.budget now)).map fun s =>
      { w with store := s, writes := (id, file) :: w.writes }
  | .write id file io =>
    if (id, file) ∈ w.writes then
      some (svc.writeFile { w with writes := w.writes.erase (id, file) } id io file)
    else none
  | .writeManifest id m => some (w.putManifest id m)
  | .discard id message io =>
    let (w, removed) := w.removeFolder id io
    some { w with releases := (id, .failReception removed message) :: w.releases }
  | .list =>
    some { w with listed := (w.store.transfersForLocalCleanup 100).map TransferJob.id ++ w.listed }
  | .sweep id io =>
    if id ∈ w.listed then
      let (w, removed) := { w with listed := w.listed.erase id }.removeFolder id io
      some (if removed then { w with releases := (id, .markCleaned) :: w.releases } else w)
    else none
  | .remove id io => some (w.removeFolder id io).1
  | .release id r now =>
    if (id, r) ∈ w.releases then
      some { w with store := w.release id now r, releases := w.releases.erase (id, r) }
    else none
  | .restart => some { w with writes := [], listed := [], releases := [] }

def StagingStep (svc : StagingService) (fromStr : String → Option ETagCondition)
    (a : StagingAction) (w w' : StagingWorld) : Prop :=
  a.apply svc fromStr w = some w'

structure StagingWorld.Started (w : StagingWorld) : Prop where
  folders : w.folders = ∅
  writes : w.writes = []
  releases : w.releases = []

/-- The staged files fit into the budget, and each job has reserved what its directory holds. -/
structure WithinBudget (svc : StagingService) (w : StagingWorld) : Prop where
  total : w.folders.total (fun d => svc.size d.dir) ≤ svc.budget
  reserved : ∀ d ∈ w.folders, svc.size d.dir ≤ w.store.charge d.id

/-- In every reachable state the staged files fit into the budget and are reserved. -/
def StagingBudget (svc : StagingService)
    (Step : StagingAction → StagingWorld → StagingWorld → Prop) : Prop :=
  ∀ past w, Run StagingWorld.Started Step past w → WithinBudget svc w

namespace StagingService
variable (svc : StagingService)

def pending (writes : List (Uuid × StagedWrite)) (id : Uuid) : Nat :=
  ((writes.filter fun x => x.1 = id).map fun x => svc.reservation x.2).sum

def staged (w : StagingWorld) (d : StagingFolder) : Nat :=
  svc.size d.dir + svc.pending w.writes d.id

/-- Every byte is under a lasting reservation: a manifest without one replaces a larger one, one
with it finds its directory, and no charge of a job with files ends. -/
def Paid : StagingAction → StagingWorld → Prop
  | .store a, w => ∀ d ∈ w.folders, ∀ j, w.store.transferJobs.get? d.id = some j →
    a.Releases w.store j → svc.staged w d = 0
  | .write id (.manifest _) _, w => w.folders.contains id = true
  | .writeManifest id m, w => ∃ d, w.folders.get? id = some d ∧
    svc.jsonLength m ≤ (d.dir.manifest.map svc.jsonLength).getD 0
  | _, _ => True

theorem size_put (d : StagingDir) (order : Nat) (file : Bytes) :
    svc.size (d.put order file) ≤ svc.size d + file.length := by
  have hsub : (d.chunks.filter (·.1 != order)).Sublist d.chunks := List.filter_sublist
  have hle := (hsub.map fun f => f.2.length).sum_le_sum fun _ _ => Nat.zero_le _
  unfold size StagingDir.put
  rw [List.map_cons, List.sum_cons]
  dsimp only
  omega

theorem size_without (d : StagingDir) (manifestGone : Bool) (chunksGone : List Nat) :
    svc.size (d.without manifestGone chunksGone) ≤ svc.size d := by
  have hsub : (d.chunks.filter fun f => !chunksGone.contains f.1).Sublist d.chunks :=
    List.filter_sublist
  have hle := (hsub.map fun f => f.2.length).sum_le_sum fun _ _ => Nat.zero_le _
  unfold size StagingDir.without
  cases manifestGone with
  | true => exact Nat.add_le_add hle (Nat.zero_le _)
  | false => exact Nat.add_le_add_right hle _

theorem size_manifest (d : StagingDir) (m : ObjectManifest) :
    svc.size { d with manifest := some m } + (d.manifest.map svc.jsonLength).getD 0 =
      svc.size d + svc.jsonLength m := by
  unfold size
  dsimp only
  rw [Option.map_some, Option.getD_some]
  omega

theorem pending_cons (writes : List (Uuid × StagedWrite)) (id k : Uuid) (file : StagedWrite) :
    svc.pending ((id, file) :: writes) k =
      svc.pending writes k + if k = id then svc.reservation file else 0 := by
  unfold pending
  rw [List.filter_cons]
  by_cases hk : k = id
  · subst hk
    simp [Nat.add_comm]
  · simp [hk, Ne.symm hk]

theorem pending_erase {id : Uuid} {writes : List (Uuid × StagedWrite)}
    (h : (id, file) ∈ writes) (k : Uuid) :
    svc.pending writes k =
      svc.pending (writes.erase (id, file)) k + if k = id then svc.reservation file else 0 := by
  have hperm := ((List.perm_cons_erase h).filter fun x => decide (x.1 = k)).map fun x =>
    svc.reservation x.2
  rw [← svc.pending_cons]
  exact hperm.sum_nat

theorem pending_eq_zero (h : writes.all (·.1 != k) = true) : svc.pending writes k = 0 := by
  have hnil : (writes.filter fun x => decide (x.1 = k)) = [] := by
    rw [List.filter_eq_nil_iff]
    intro x hx
    have hne := List.all_eq_true.1 h x hx
    simpa using hne
  rw [pending, hnil]
  rfl

variable {svc} {w w' : StagingWorld}

/-- Reservations cover directories and files to come until a directory is gone. -/
structure Covers (svc : StagingService) (w : StagingWorld) : Prop where
  charged : ∀ d ∈ w.folders, svc.staged w d ≤ w.store.charge d.id
  total : w.folders.total (svc.staged w) ≤ svc.budget
  gone : ∀ id r, (id, r) ∈ w.releases → r.frees = true → w.folders.get? id = none

theorem Covers.within (h : Covers svc w) : WithinBudget svc w := by
  have hle : ∀ d : StagingFolder, svc.size d.dir ≤ svc.staged w d := fun d => Nat.le_add_right _ _
  constructor
  · refine Nat.le_trans (Table.total_le fun d hd => ?_) h.total
    rw [share_of_mem hd]
    exact hle d
  · exact fun d hd => Nat.le_trans (hle d) (h.charged d hd)

theorem covers_of_started (h : w.Started) : Covers svc w := by
  refine ⟨?_, ?_, ?_⟩
  · intro d hd
    rw [h.folders] at hd
    exact absurd hd (not_mem_empty d)
  · rw [h.folders]
    exact Nat.zero_le _
  · intro id r hr
    rw [h.releases] at hr
    cases hr

section
variable (h : Covers svc w)
include h

theorem Covers.of_shrink
    (hf : ∀ d' ∈ w'.folders, svc.staged w' d' = 0 ∨ ∃ d ∈ w.folders, d.id = d'.id ∧
      svc.staged w' d' ≤ svc.staged w d ∧ w.store.charge d.id ≤ w'.store.charge d.id)
    (hg : ∀ id r, (id, r) ∈ w'.releases → r.frees = true → w'.folders.get? id = none) :
    Covers svc w' := by
  refine ⟨?_, Nat.le_trans (Table.total_le ?_) h.total, hg⟩
  · intro d' hd'
    rcases hf d' hd' with hzero | ⟨d, hd, hid, hle, hc⟩
    · omega
    · have hcharged := h.charged d hd
      rw [← hid]
      omega
  · intro d' hd'
    rcases hf d' hd' with hzero | ⟨d, hd, hid, hle, -⟩
    · rw [hzero]
      exact Nat.zero_le _
    · have hshare := share_of_mem (g := svc.staged w) hd
      rw [show Keyed.key d' = Keyed.key d from hid.symm, hshare]
      exact hle

theorem Covers.store (hs : ConnectionStep fromStr a w.store s) (ha : a.staging = false)
    (hp : svc.Paid (.store a) w) : Covers svc { w with store := s } := by
  refine h.of_shrink ?_ h.gone
  intro d hd
  by_cases hzero : svc.staged w d = 0
  · exact .inl hzero
  · refine .inr ⟨d, hd, rfl, Nat.le_refl _, hs.charge_le ha ?_⟩
    exact fun j hj hr => hzero (hp d hd j hj hr)

theorem Covers.begin {id : Uuid} (hf : w.fresh id = true)
    (hs : w.store.beginTransfer id bucket key now = .ok s) :
    Covers svc { w with store := s, folders := w.folders.upsert { id } } := by
  simp only [StagingWorld.fresh, Bool.and_eq_true] at hf
  obtain ⟨⟨-, hwrites⟩, hreleases⟩ := hf
  refine h.of_shrink ?_ ?_
  · intro d' hd'
    rcases mem_upsert.1 hd' with rfl | ⟨hd, -⟩
    · left
      show svc.size {} + svc.pending w.writes id = 0
      rw [svc.pending_eq_zero hwrites]
      rfl
    · exact .inr ⟨d', hd, rfl, Nat.le_refl _, beginTransfer_charge hs _⟩
  · intro k r hr hfrees
    have hne : k ≠ id := by simpa using List.all_eq_true.1 hreleases _ hr
    rw [get?_upsert, if_neg fun he => hne he.symm]
    exact h.gone k r hr hfrees

theorem Covers.reserve {id : Uuid}
    (hs : w.store.reserveStaging id (svc.reservation file) svc.budget now = .ok s) :
    Covers svc { w with store := s, writes := (id, file) :: w.writes } := by
  have hstaged (d : StagingFolder) :
      svc.staged { w with store := s, writes := (id, file) :: w.writes } d =
        svc.staged w d + if d.id = id then svc.reservation file else 0 := by
    unfold staged
    rw [svc.pending_cons, Nat.add_assoc]
  refine ⟨?_, ?_, h.gone⟩
  · intro d hd
    rw [hstaged, reserveStaging_charge hs]
    exact Nat.add_le_add_right (h.charged d hd) _
  · have hused : w.folders.total (svc.staged w) ≤ w.store.stagedBytes := by
      rw [stagedBytes_eq]
      exact Table.total_le h.charged
    have hroom : w.store.stagedBytes + svc.reservation file ≤ svc.budget := by
      unfold reserveStaging at hs
      split at hs
      · cases hs
      · have hbound := svc.bounded
        omega
    refine Nat.le_trans (total_le_add id fun d hd => ?_)
      (Nat.le_trans (Nat.add_le_add_right hused _) hroom)
    rw [hstaged, share_of_mem hd]
    exact Nat.le_refl _

theorem Covers.replace (hd : w.folders.get? d.id = some d)
    (hw : ∀ k, svc.pending writes k ≤ svc.pending w.writes k)
    (hle : svc.size dir + svc.pending writes d.id ≤ svc.staged w d) :
    Covers svc { w with folders := w.folders.upsert { d with dir }, writes } := by
  refine h.of_shrink ?_ ?_
  · intro d' hd'
    rcases mem_upsert.1 hd' with rfl | ⟨hd', -⟩
    · exact .inr ⟨d, mem_of_get? hd, rfl, hle, Nat.le_refl _⟩
    · exact .inr ⟨d', hd', rfl, Nat.add_le_add_left (hw _) _, Nat.le_refl _⟩
  · intro k r hr hfrees
    have hnone := h.gone k r hr hfrees
    have hne : d.id ≠ k := by
      rintro rfl
      rw [hd] at hnone
      cases hnone
    rw [get?_upsert]
    exact (if_neg hne).trans hnone

theorem Covers.putManifest {id : Uuid} {d : StagingFolder} (hd : w.folders.get? id = some d)
    (hw : ∀ k, svc.pending writes k ≤ svc.pending w.writes k)
    (hle : svc.jsonLength m + svc.pending writes id ≤
      (d.dir.manifest.map svc.jsonLength).getD 0 + svc.pending w.writes id) :
    Covers svc ({ w with writes }.putManifest id m) := by
  have hkey : d.id = id := key_of_get? hd
  subst hkey
  have hdir : StagingWorld.dirOf { w with writes } d.id = d.dir := by
    rw [StagingWorld.dirOf, hd]
    rfl
  rw [StagingWorld.putManifest, hdir]
  refine h.replace hd hw ?_
  have hsize := svc.size_manifest d.dir m
  unfold staged
  dsimp only at hsize ⊢
  omega

theorem Covers.giveUp (hw : ∀ k, svc.pending writes k ≤ svc.pending w.writes k) :
    Covers svc { w with writes } := by
  refine h.of_shrink ?_ h.gone
  intro d hd
  exact .inr ⟨d, hd, rfl, Nat.add_le_add_left (hw _) _, Nat.le_refl _⟩

theorem Covers.write {id : Uuid} (hm : (id, file) ∈ w.writes) (hp : svc.Paid (.write id file io) w)
    : Covers svc (svc.writeFile { w with writes := w.writes.erase (id, file) } id io file) := by
  have hpending := svc.pending_erase hm
  have hw (k : Uuid) : svc.pending (w.writes.erase (id, file)) k ≤ svc.pending w.writes k := by
    rw [hpending k]
    exact Nat.le_add_right _ _
  have hid := hpending id
  rw [if_pos rfl] at hid
  cases file with
  | chunk order bytes =>
    unfold writeFile
    dsimp only
    split
    · rename_i encrypted d he hd
      have hkey : d.id = id := key_of_get? hd
      subst hkey
      refine h.replace hd hw ?_
      have hsize := svc.size_put d.dir order encrypted
      have htag := svc.tag _ _ _ _ he
      unfold staged
      simp only [reservation] at hid
      omega
    · exact h.giveUp hw
  | manifest m =>
    cases io with
    | failed manifestGone chunksGone => exact h.giveUp hw
    | done =>
      obtain ⟨d, hd⟩ := Option.isSome_iff_exists.1 hp
      refine h.putManifest hd hw ?_
      simp only [reservation] at hid
      omega

theorem Covers.writeManifest {id : Uuid} (hp : svc.Paid (.writeManifest id m) w) :
    Covers svc (w.putManifest id m) := by
  obtain ⟨d, hd, hle⟩ := hp
  exact h.putManifest hd (fun _ => Nat.le_refl _) (Nat.add_le_add_right hle _)

end

theorem removeFolder_mem (svc : StagingService) {id : Uuid}
    (h : d' ∈ (w.removeFolder id io).1.folders) :
    ∃ d ∈ w.folders, d.id = d'.id ∧ svc.size d'.dir ≤ svc.size d.dir := by
  cases io with
  | done => exact ⟨d', (mem_delete.1 h).1, rfl, Nat.le_refl _⟩
  | failed manifestGone chunksGone =>
    rcases of_mem_update rfl h with ⟨d, hd, -, rfl⟩ | ⟨hd, -⟩
    · exact ⟨d, hd, rfl, svc.size_without _ _ _⟩
    · exact ⟨d', hd, rfl, Nat.le_refl _⟩

theorem removeFolder_none {id : Uuid} (h : w.folders.get? k = none) :
    (w.removeFolder id io).1.folders.get? k = none := by
  cases io with
  | done => simp [StagingWorld.removeFolder, h]
  | failed manifestGone chunksGone => simp [StagingWorld.removeFolder, h]

theorem removeFolder_removed {id : Uuid} (h : (w.removeFolder id io).2 = true) :
    (w.removeFolder id io).1.folders.get? id = none := by
  cases io with
  | done =>
    rw [get?_eq_none]
    exact fun d hd => of_decide_eq_false (mem_delete.1 hd).2
  | failed manifestGone chunksGone =>
    apply removeFolder_none
    simpa [StagingWorld.removeFolder, Table.contains] using h

theorem Covers.remove {id : Uuid} (h : Covers svc w) (next : List Release)
    (hn : ∀ r ∈ next, r.frees = true → (w.removeFolder id io).2 = true) :
    Covers svc { (w.removeFolder id io).1 with
      releases := next.map (id, ·) ++ (w.removeFolder id io).1.releases } := by
  have hsame : (w.removeFolder id io).1.store = w.store ∧
      (w.removeFolder id io).1.writes = w.writes ∧
      (w.removeFolder id io).1.releases = w.releases := by
    cases io <;> exact ⟨rfl, rfl, rfl⟩
  obtain ⟨hstore, hwrites, hreleases⟩ := hsame
  refine h.of_shrink ?_ ?_
  · intro d' hd'
    obtain ⟨d, hd, hid, hle⟩ := svc.removeFolder_mem hd'
    refine .inr ⟨d, hd, hid, ?_, ?_⟩
    · unfold staged
      rw [hwrites, hid]
      exact Nat.add_le_add_right hle _
    · rw [hstore]
  · intro k r hr hfrees
    rcases List.mem_append.1 hr with hr | hr
    · obtain ⟨r', hr', he⟩ := List.mem_map.1 hr
      cases he
      exact removeFolder_removed (hn r hr' hfrees)
    · rw [hreleases] at hr
      exact removeFolder_none (h.gone k r hr hfrees)

theorem release_charged (w : StagingWorld) (id : Uuid) (now : Int) (r : Release) :
    JobsCharged (fun j => r.frees = true ∧ j.id = id) w.store (w.release id now r) := by
  cases r with
  | failReception removed message => exact failReception_charged _ _ _ _ _
  | markCleaned =>
    refine Table.Rel.mono (fun j j' hj => ?_) (markCleaned_charged w.store id)
    exact ⟨hj.id, fun hn => hj.kept fun hid => hn ⟨rfl, hid⟩⟩

theorem Covers.release {id : Uuid} {r : Release} (h : Covers svc w) (hr : (id, r) ∈ w.releases)
    (now : Int) :
    Covers svc { w with store := w.release id now r, releases := w.releases.erase (id, r) } := by
  refine h.of_shrink ?_ fun k r' hk => h.gone k r' (List.mem_of_mem_erase hk)
  intro d hd
  refine .inr ⟨d, hd, rfl, Nat.le_refl _, (release_charged w id now r).charge_le ?_⟩
  rintro j hj ⟨hfrees, hid⟩
  have hkey : d.id = id := (key_of_get? hj).symm.trans hid
  have hnone := h.gone id r hr hfrees
  rw [← hkey, show w.folders.get? d.id = some d from mem_iff_get?.1 hd] at hnone
  cases hnone

/-- A step that is paid for keeps the reservations above the files. -/
theorem Covers.step (h : Covers svc w) (hs : StagingStep svc fromStr a w w')
    (hp : svc.Paid a w) : Covers svc w' := by
  unfold StagingStep StagingAction.apply at hs
  cases a with
  | store a =>
    dsimp only at hs
    split at hs
    · cases hs
    · rename_i ha
      obtain ⟨s, hstep, rfl⟩ := Option.map_eq_some_iff.1 hs
      exact h.store hstep (Bool.eq_false_iff.2 ha) hp
  | begin id bucket key now =>
    dsimp only at hs
    split at hs
    · rename_i hfresh
      obtain ⟨s, hbegin, rfl⟩ := Option.map_eq_some_iff.1 hs
      exact h.begin hfresh (after_eq_some.1 hbegin)
    · cases hs
  | reserve id file now =>
    obtain ⟨s, hreserve, rfl⟩ := Option.map_eq_some_iff.1 hs
    exact h.reserve (after_eq_some.1 hreserve)
  | write id file io =>
    dsimp only at hs
    split at hs
    · rename_i hm
      cases hs
      exact h.write hm hp
    · cases hs
  | writeManifest id m =>
    cases hs
    exact h.writeManifest hp
  | discard id message io =>
    cases hs
    refine h.remove [.failReception (w.removeFolder id io).2 message] ?_
    intro r hr hfrees
    rw [List.mem_singleton.1 hr] at hfrees
    exact hfrees
  | list =>
    cases hs
    exact ⟨h.charged, h.total, h.gone⟩
  | sweep id io =>
    dsimp only at hs
    split at hs
    · cases hs
      have hlisted : Covers svc { w with listed := w.listed.erase id } :=
        ⟨h.charged, h.total, h.gone⟩
      split
      · rename_i hremoved
        exact hlisted.remove [.markCleaned] fun _ _ _ => hremoved
      · exact hlisted.remove [] fun _ hr => absurd hr List.not_mem_nil
    · cases hs
  | remove id io =>
    cases hs
    exact h.remove [] fun _ hr => absurd hr List.not_mem_nil
  | release id r now =>
    dsimp only at hs
    split at hs
    · rename_i hr
      cases hs
      exact h.release hr now
    · cases hs
  | restart =>
    cases hs
    have hnone : Covers svc { w with writes := [] } := h.giveUp fun _ => Nat.zero_le _
    exact ⟨hnone.charged, hnone.total, fun _ _ hr => absurd hr List.not_mem_nil⟩

theorem covers_of_run
    (h : Run StagingWorld.Started (Guarded (StagingStep svc fromStr) svc.Paid) past w) :
    Covers svc w :=
  Run.invariant (fun _ => covers_of_started) (fun _ _ _ hi hs => hi.step hs.1 hs.2) h

end StagingService

/-- Where every byte is paid for, the staged files stay within the budget. -/
theorem staging_budget_of_paid (svc : StagingService) (fromStr : String → Option ETagCondition) :
    StagingBudget svc (Guarded (StagingStep svc fromStr) svc.Paid) := by
  intro past w hw
  exact (StagingService.covers_of_run hw).within

def zeroTagCrypto : Crypto where
  sealInPlace _ _ plain := some (plain ++ List.replicate 16 0)
  openInPlace _ _ cipher := some (cipher.take (cipher.length - 16))
  sha256Hex _ := "aa"
  open_seal h := by
    cases h
    simp

def stagingService (budget : Nat) (h : budget < 2 ^ 63) : StagingService where
  crypto := zeroTagCrypto
  tag id order plain file h := by
    cases h
    simp
  jsonLength _ := 700
  budget
  bounded := h

def tinyManifest : ObjectManifest :=
  (receivingService "-1001" 100).cfg.newManifest
    ((receivingService "-1001" 100).finishArgs openReception.state) (instant 1)

def StagingAction.pays : StagingAction → StagingWorld → Bool
  | .store _, _ | .writeManifest .., _ => false
  | .write id (.manifest _) _, w => w.folders.contains id
  | _, _ => true

theorem StagingAction.paid_of_pays (svc : StagingService) (h : a.pays w = true) : svc.Paid a w := by
  cases a with
  | store | writeManifest => cases h
  | write id file io =>
    cases file with
    | chunk order bytes => trivial
    | manifest m => exact h
  | _ => trivial

def failedUploadAndMove : List StagingAction :=
  let message := "Upload reception failed before durable acceptance; resend the source file"
  [.begin ⟨1⟩ "photos" "a" 1, .reserve ⟨1⟩ (.chunk 0 [1, 2, 3]) 1,
    .write ⟨1⟩ (.chunk 0 [1, 2, 3]) .done, .discard ⟨1⟩ message .done,
    .release ⟨1⟩ (.failReception true message) 1, .begin ⟨2⟩ "photos" "b" 1,
    .reserve ⟨2⟩ (.manifest tinyManifest) 1, .write ⟨2⟩ (.manifest tinyManifest) .done]

/-- The files of a failed upload and of a move stay within the budget. -/
theorem failed_upload_and_move_within : ∃ w : StagingWorld, w.folders.rows.length = 1 ∧
      WithinBudget (stagingService 1000 (by decide)) w := by
  let svc := stagingService 1000 (by decide)
  let step (a : StagingAction) (w : StagingWorld) : Option StagingWorld :=
    if a.pays w then a.apply svc (fun _ => none) w else none
  have hany : (exec step [] { store := photosStore } failedUploadAndMove).any
      (fun x => x.2.folders.rows.length == 1) = true := by decide +kernel
  obtain ⟨hsome, hone⟩ := (Option.any_eq_true_iff_get _ _).1 hany
  have hi : StagingWorld.Started { store := photosStore } := ⟨rfl, rfl, rfl⟩
  have hr := Run.of_exec_isSome hi hsome
  refine ⟨_, beq_iff_eq.1 hone, staging_budget_of_paid svc (fun _ => none) _ _ (hr.mono ?_)⟩
  intro a w w' hs
  by_cases hp : a.pays w = true
  · exact ⟨(if_pos hp).symm.trans hs, a.paid_of_pays svc hp⟩
  · cases (if_neg hp).symm.trans hs

def finalizedUpload : List StagingAction :=
  [.begin ⟨1⟩ "photos" "a" 1, .reserve ⟨1⟩ (.chunk 0 [1, 2, 3]) 1,
    .write ⟨1⟩ (.chunk 0 [1, 2, 3]) .done, .writeManifest ⟨1⟩ tinyManifest]

/-- The manifest of an upload goes beyond the budget that its chunk was reserved under. -/
theorem manifest_exceeds_budget : ¬ StagingBudget (stagingService 100 (by decide))
      (StagingStep (stagingService 100 (by decide)) fun _ => none) := by
  intro h
  let svc := stagingService 100 (by decide)
  have hany : (exec (StagingAction.apply svc fun _ => none) [] { store := photosStore }
      finalizedUpload).any (fun x => decide (100 < x.2.folders.total fun d => svc.size d.dir)) =
        true := by
    decide +kernel
  obtain ⟨hsome, hmore⟩ := (Option.any_eq_true_iff_get _ _).1 hany
  have hi : StagingWorld.Started { store := photosStore } := ⟨rfl, rfl, rfl⟩
  have hwithin := (h _ _ (Run.of_exec_isSome hi hsome)).total
  exact absurd (of_decide_eq_true hmore) (Nat.not_lt.2 hwithin)

end TelegramS3
