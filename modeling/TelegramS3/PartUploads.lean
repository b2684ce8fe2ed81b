import TelegramS3.Completion
import TelegramS3.Failover
import TelegramS3.Reception
import TelegramS3.Rows
import TelegramS3.Waiting

namespace TelegramS3
open Relational Table Fallible Transition MetadataStore
set_option autoImplicit true

namespace MetadataStore

def activeMultipartPartTransfer (s : MetadataStore) (upload : Uuid) (number : Nat) :
    Option TransferJob :=
  firstBy TransferJob.sequence
    (s.transferJobs.select fun j => s.partOf upload number j.id && !j.state.terminal)

def ensureQuotaAvailable (s : MetadataStore) : Except ObjectFormatError Unit :=
  match s.activeConnectionSetting with
  | none => .ok ()
  | some account => (s.ensureAccountQuotaForAdditionalBytes account 1).mapError .metadata

end MetadataStore

def MultipartState.closed : MultipartState → Bool
  | .completing | .aborted | .completed | .quarantined | .recoveryRequired => true
  | _ => false

structure PartService where
  cfg : ServiceConfig
  crypto : Crypto
  chunkSize : Nat
  stagingBudget : Nat

/-- What a call has received of its body: frames, pending bytes, chunks and what was hashed. -/
structure PartReception where
  remaining : Bytes := []
  rest : List (Option Bytes)
  pending : Bytes := []
  chunks : List ChunkRef := []
  hashed : Bytes := []
  offset : Nat := 0

/-- Where a call is; `reused` tells whether it waits for a job that was there before. -/
inductive PartPhase where
  | arrived
  | checked
  | found (session : MultipartSession)
  | funded (session : MultipartSession)
  | free (session : MultipartSession)
  | opening (session : MultipartSession)
  | opened (session : MultipartSession) (job : Uuid)
  | receiving (session : MultipartSession) (job : Uuid) (r : PartReception)
  | writing (session : MultipartSession) (job : Uuid) (r : PartReception)
  | finalizing (job : Uuid) (args : ManifestBuildArgs)
  | written (job : Uuid) (m : ObjectManifest)
  | staged (job : Uuid) (chunks : Nat)
  | conditioned (job : Uuid) (chunks : Nat)
  | queued (job : Uuid)
  | failed (job : Uuid) (e : ObjectFormatError)
  | waiting (job : Uuid) (state : WaitState) (reused : Bool)
  | reading (reused : Bool)
  | answered (result : Except ObjectFormatError MultipartPart)
  | abandoned

/-- A call with its part and the frames of its body; an interrupted frame arrives as none. -/
structure PartCall where
  upload : Uuid
  number : Nat
  body : List (Option Bytes)
  checksum : Option String := none
  phase : PartPhase := .arrived

def frameBytes (frames : List (Option Bytes)) : Bytes := frames.flatMap fun f => f.getD []

def PartCall.bytes (c : PartCall) : Bytes := frameBytes c.body

namespace PartService
variable (svc : PartService)

def reserve (s : MetadataStore) (session : MultipartSession) (job : Uuid) (r : PartReception)
    (now : OffsetDateTime) : MetadataStore × PartPhase :=
  if r.chunks.length < 2 ^ 32 then
    match s.reserveStaging job (r.pending.length + 16) svc.stagingBudget now.unixTimestamp with
    | .ok s => (s, .writing session job r)
    | .error e => (s, .failed job (.metadata e))
  else (s, .failed job (.invalidPlan "too many chunks"))

def finish (c : PartCall) (session : MultipartSession) (job : Uuid) (r : PartReception) :
    PartPhase :=
  let args : ManifestBuildArgs :=
    { objectId := job, bucket := session.bucket, key := session.key
      contentType := session.contentType, expiresAt := session.expiresAt, chunks := r.chunks
      wholeChecksum := svc.crypto.sha256Hex r.hashed }
  match ensurePartChecksum (some (c.upload, c.number, c.checksum)) args.wholeChecksum with
  | .ok () => .finalizing job args
  | .error e => .failed job e

def receive (s : MetadataStore) (c : PartCall) (session : MultipartSession) (job : Uuid)
    (r : PartReception) (now : OffsetDateTime) : MetadataStore × PartPhase :=
  if r.remaining = [] then
    match r.rest with
    | some frame :: rest => (s, .receiving session job { r with remaining := frame, rest })
    | none :: _ =>
      (s, .failed job (.invalidPlan "request body interrupted; resend source file"))
    | [] =>
      if r.pending = [] then (s, svc.finish c session job r) else svc.reserve s session job r now
  else
    let take := min r.remaining.length (svc.chunkSize - r.pending.length)
    let r := { r with
      pending := r.pending ++ r.remaining.take take, remaining := r.remaining.drop take }
    if r.pending.length = svc.chunkSize then svc.reserve s session job r now
    else (s, .receiving session job r)

def write (session : MultipartSession) (job : Uuid) (r : PartReception)
    (io : Except IoError Unit) : PartPhase :=
  match svc.crypto.encryptChunk job r.chunks.length r.pending, io, svc.cfg.storageChat with
  | .error e, _, _ => .failed job e
  | .ok _, .error e, _ => .failed job (.io e)
  | .ok _, .ok (), .error e => .failed job e
  | .ok _, .ok (), .ok chat =>
    .receiving session job { r with
      chunks := r.chunks ++
        [svc.crypto.localChunk job chat r.chunks.length r.offset r.pending]
      hashed := r.hashed ++ r.pending, offset := r.offset + r.pending.length, pending := [] }

end PartService

def receptionCall (s : MetadataStore) (job : Uuid) (r : Except MetadataError MetadataStore)
    (next : PartPhase) : MetadataStore × PartPhase :=
  match r with
  | .ok s => (s, next)
  | .error e => (s, .failed job (.metadata e))

def partError (message : String) : PartPhase := .answered (.error (.invalidPlan message))

def PartPhase.after (check : Except ObjectFormatError Unit) (next : PartPhase) : PartPhase :=
  match check with
  | .ok () => next
  | .error e => .answered (.error e)

def PartCall.advance (svc : PartService) (s : MetadataStore) (c : PartCall) (fresh : Uuid)
    (now : OffsetDateTime) (io : Except IoError Unit) : Option (MetadataStore × PartPhase) :=
  match c.phase with
  | .arrived => some (s, .after (ensureConnectionNotRemoving s)
      (if c.number = 0 then partError "part number must be at least 1" else .checked))
  | .checked =>
    match s.getMultipartSession c.upload with
    | none => some (s, partError ("upload not found: " ++ c.upload.text))
    | some session =>
      if session.state.closed then
        some (s, partError ("multipart upload is not active: " ++ c.upload.text))
      else some (s, .found session)
  | .found session => some (s, .after s.ensureQuotaAvailable (.funded session))
  | .funded session =>
    match s.activeMultipartPartTransfer c.upload c.number with
    | none => some (s, .free session)
    | some job =>
      if job.state = .recoveryRequired then
        some (s, partError (job.error.getD
          "a prior multipart part needs Telegram reconciliation before it can be retried"))
      else some (s, .waiting job.id .polling true)
  | .free session => some (s, .after (ensureConnectionNotRemoving s) (.opening session))
  | .opening session =>
    match s.beginTransfer fresh session.bucket session.key now.unixTimestamp with
    | .ok s => some (s, .opened session fresh)
    | .error e => some (s, .answered (.error (.metadata e)))
  | .opened session job => some (receptionCall s job
      (s.insertMultipartJob
        { jobId := job, uploadId := c.upload, partNumber := c.number
          expectedChecksum := c.checksum })
      (match io with
        | .ok () => .receiving session job { rest := c.body }
        | .error e => .failed job (.io e)))
  | .receiving session job r => some (svc.receive s c session job r now)
  | .writing session job r => some (s, svc.write session job r io)
  | .finalizing job args =>
    match ensureConnectionNotRemoving s, io with
    | .ok (), .ok () => some (s, .written job (svc.cfg.newManifest args now))
    | .ok (), .error e => some (s, .failed job (.io e))
    | .error e, _ => some (s, .failed job e)
  | .written job m => some (receptionCall s job (s.stageManifest .put m now)
      (.staged job m.chunks.length))
  | .staged job chunks => some (receptionCall s job
      (s.setTransferConditionals job none now.unixTimestamp) (.conditioned job chunks))
  | .conditioned job chunks => some (receptionCall s job
      (s.queueTransfer job job chunks now.unixTimestamp) (.queued job))
  | .queued job =>
    if s.transferJobs.contains job then some (s, .waiting job .polling false)
    else some (s, .failed job (.invalidPlan "queued transfer missing"))
  | .failed job e =>
    some ((s.failReception job io.isOk
      "Upload reception failed before durable acceptance; resend the source file"
      now.unixTimestamp).2, .answered (.error e))
  | .waiting _ (.returned _ (.ok _)) reused => some (s, .reading reused)
  | .waiting _ (.returned _ (.error e)) _ => some (s, .answered (.error e))
  | .waiting job state reused => some (s, .waiting job (state.read s job) reused)
  | .reading reused =>
    match s.getMultipartPart c.upload c.number with
    | some p => some (s, .answered (.ok p))
    | none => some (s, partError (if reused then
        "reused multipart transfer completed without a part manifest" else
        "completed part missing"))
  | .answered _ | .abandoned => none

def MultipartPart.publisher (p : MultipartPart) : Option Uuid :=
  p.manifest.map ObjectManifest.objectId

structure PartIssue where
  job : Uuid
  upload : Uuid
  number : Nat
  body : List (Option Bytes)

def PartIssue.bytes (i : PartIssue) : Bytes := frameBytes i.body

structure PartWorld where
  store : MetadataStore
  calls : List PartCall := []
  issued : List PartIssue := []

inductive PartAction where
  | call (op : StoreOp)
  | start (upload : Uuid) (number : Nat) (body : List (Option Bytes)) (checksum : Option String)
  | advance (i : Nat) (fresh : Uuid) (now : OffsetDateTime) (io : Except IoError Unit)
  | abandon (i : Nat)

namespace PartWorld

def issues (w : PartWorld) (job : Uuid) : Bool := w.issued.any fun i => i.job = job

def unused (w : PartWorld) (id : Uuid) : Bool :=
  !w.issues id && !w.store.transferJobs.contains id && !w.store.objectManifests.contains id &&
    !w.store.multipartJobs.contains id &&
    !w.store.multipartParts.any fun p => p.part.publisher = some id

/-- What other requests and workers do: part rows are written by the calls, ids are new, part jobs
finish as parts, and write-backs keep checksum and length. -/
def admits (w : PartWorld) : StoreOp → Bool
  | .insertMultipartJob _ => false
  | .beginTransfer id .. | .commitManifest id _ | .commitTransferManifest id ..
  | .queueMultipartCompletion id .. => !w.issues id
  | .stageManifest _ m _ => !w.issues m.objectId
  | .updateManifest m => w.store.objectManifests.rows.all fun r => r.objectId != m.objectId ||
      (m.checksum = r.manifest.checksum && m.contentLength = r.manifest.contentLength)
  | _ => true

def move (w : PartWorld) (i : Nat) (c : PartCall) (s : MetadataStore) (phase : PartPhase) :
    PartWorld :=
  { store := s
    calls := w.calls.set i { c with phase }
    issued := match phase with
      | .opened _ job =>
        { job, upload := c.upload, number := c.number, body := c.body } :: w.issued
      | _ => w.issued }

end PartWorld

def PartAction.apply (svc : PartService) (fromStr : String → Option ETagCondition)
    (a : PartAction) (w : PartWorld) : Option PartWorld :=
  match a with
  | .call op =>
    if w.admits op then (op.serve fromStr w.store).map fun s => { w with store := s } else none
  | .start upload number body checksum =>
    some { w with calls := w.calls ++ [{ upload, number, body, checksum }] }
  | .advance i fresh now io =>
    if w.unused fresh then
      w.calls[i]?.bind fun c => (c.advance svc w.store fresh now io).map fun next =>
        w.move i c next.1 next.2
    else none
  | .abandon i => w.calls[i]?.map fun c => w.move i c w.store .abandoned

def PartStep (svc : PartService) (fromStr : String → Option ETagCondition) (a : PartAction)
    (w w' : PartWorld) : Prop :=
  a.apply svc fromStr w = some w'

structure PartWorld.Initial (w : PartWorld) : Prop where
  store : EmptyStore w.store
  partJobs : w.store.multipartJobs = ∅
  calls : w.calls = []
  issued : w.issued = []

structure MultipartPart.Holds (svc : PartService) (p : MultipartPart) (bytes : Bytes) : Prop where
  checksum : p.checksum = svc.crypto.sha256Hex bytes
  size : p.size = bytes.length

/-- A call that succeeds answers with a part made of the bytes it was sent. -/
def AcknowledgesOwnBytes (svc : PartService)
    (Step : PartAction → PartWorld → PartWorld → Prop) : Prop :=
  ∀ past w, Run PartWorld.Initial Step past w → ∀ c ∈ w.calls, ∀ p,
    c.phase = .answered (.ok p) → p.Holds svc c.bytes

def PartPhase.job : PartPhase → Option Uuid
  | .opened _ job | .receiving _ job _ | .writing _ job _ | .finalizing job _ | .written job _
  | .staged job _ | .conditioned job _ | .queued job | .failed job _ | .waiting job _ _ => some job
  | _ => none

def PartPhase.running : PartPhase → Bool
  | .arrived | .checked | .found _ | .funded _ | .answered _ | .abandoned => false
  | _ => true

def JobLive (s : MetadataStore) (job : Uuid) : Prop :=
  ∃ j, s.transferJobs.get? job = some j ∧ j.state.terminal = false

def PartCall.SamePart (c : PartCall) (upload : Uuid) (number : Nat) : Prop :=
  c.upload = upload ∧ c.number = number

namespace PartWorld

def Covered (w : PartWorld) (c : PartCall) : Prop :=
  ∀ p, w.store.getMultipartPart c.upload c.number = some p → ∃ i ∈ w.issued, i.bytes = c.bytes ∧
    p.publisher = some i.job

/-- The jobs of the part that have not ended, and the other calls about it, are for the same
bytes. -/
structure Alike (w : PartWorld) (c : PartCall) : Prop where
  jobs : ∀ i ∈ w.issued, c.SamePart i.upload i.number → JobLive w.store i.job → i.bytes = c.bytes
  calls : ∀ c' ∈ w.calls, c'.phase.running = true → c.SamePart c'.upload c'.number →
    c'.bytes = c.bytes

end PartWorld

/-- A call looks for a job only while all there is about the part is for its bytes; the same holds
when a superseded job is polled or an unfinished one cleaned up under it. -/
def SendsAlike (a : PartAction) (w : PartWorld) : Prop :=
  match a with
  | .advance i .. => ∀ c, w.calls[i]? = some c →
    (∀ session, c.phase = .funded session → w.Alike c) ∧
    ∀ job reused, c.phase = .waiting job .polling reused →
      (∃ j, w.store.transferJobs.get? job = some j ∧ j.state = .superseded) → w.Covered c
  | .call (.cleanupCompletedStaging removed) => ∀ c ∈ w.calls, ∀ job, c.phase.job = some job →
    ∀ j ∈ (w.store.transfersForLocalCleanup 100).take removed, j.id = job →
      j.state = .completed ∨ w.Covered c
  | _ => True

theorem JobLive.before (h : JobLive s' job) (hs : StoreStep fromStr op s s') :
    JobLive s job ∨ ∃ bucket key now, op = .beginTransfer job bucket key now := by
  obtain ⟨j', hj', ht⟩ := h
  rcases StoreOp.jobs_step hs with hr | ⟨objectId, bucket, key, now, rfl, -, rfl⟩
  · obtain ⟨j, hj, hstep⟩ := hr.rows.some_right hj'
    refine .inl ⟨j, hj, ?_⟩
    cases hst : j.state.terminal with
    | false => rfl
    | true =>
      rw [hstep.terminal hst] at ht
      cases ht
  · rcases mem_insertOrIgnore.1 (mem_of_get? hj') with hm | ⟨rfl, -⟩
    · exact .inl ⟨j', get?_eq_some.2 ⟨hm, key_of_get? hj'⟩, ht⟩
    · obtain rfl : objectId = job := key_of_get? hj'
      exact .inr ⟨bucket, key, now, rfl⟩

structure ObjectManifest.DescribesBytes (svc : PartService) (m : ObjectManifest)
    (bytes : Bytes) : Prop where
  checksum : m.checksum.wholeObject = svc.crypto.sha256Hex bytes
  length : m.contentLength = bytes.length

theorem ObjectManifest.DescribesBytes.part (h : ObjectManifest.DescribesBytes svc m bytes)
    (upload : Uuid) (number : Nat) (now : OffsetDateTime) :
    (MultipartPart.ofManifest upload number m now).Holds svc bytes :=
  ⟨h.checksum, h.length⟩

theorem ObjectManifest.DescribesBytes.of_eq (h : ObjectManifest.DescribesBytes svc m bytes)
    (hc : m'.checksum = m.checksum) (hl : m'.contentLength = m.contentLength) :
    ObjectManifest.DescribesBytes svc m' bytes :=
  ⟨hc ▸ h.checksum, hl ▸ h.length⟩

structure PartReception.Carries (r : PartReception) (bytes : Bytes) : Prop where
  body : r.hashed ++ r.pending ++ r.remaining ++ frameBytes r.rest = bytes
  chunks : (r.chunks.map ChunkRef.size).sum = r.hashed.length

namespace PartPhase

def admitted : PartPhase → Bool
  | .arrived | .answered _ | .abandoned => false
  | _ => true

def settled : PartPhase → Bool
  | .waiting _ .polling _ | .waiting _ (.returned _ (.error _)) _ => false
  | .waiting .. | .reading _ => true
  | _ => false

def Carries (svc : PartService) (bytes : Bytes) : PartPhase → Prop
  | .receiving _ _ r | .writing _ _ r => r.Carries bytes
  | .finalizing job args => args.objectId = job ∧
      args.wholeChecksum = svc.crypto.sha256Hex bytes ∧
      (args.chunks.map ChunkRef.size).sum = bytes.length
  | .written job m => m.objectId = job ∧ ObjectManifest.DescribesBytes svc m bytes
  | .answered (.ok p) => p.Holds svc bytes
  | _ => True

theorem running_of_job {phase : PartPhase} {job : Uuid} (h : phase.job = some job) :
    phase.running = true := by
  cases phase <;> first | rfl | cases h

theorem running_of_settled {phase : PartPhase} (h : phase.settled = true) :
    phase.running = true := by
  cases phase <;> first | rfl | cases h

end PartPhase

structure PartIssue.ServesCall (i : PartIssue) (c : PartCall) : Prop where
  part : c.SamePart i.upload i.number
  bytes : i.bytes = c.bytes

structure PartCall.Sound (svc : PartService) (w : PartWorld) (c : PartCall) : Prop where
  number : c.phase.admitted = true → c.number ≠ 0
  jobs : c.phase.running = true → ∀ i ∈ w.issued, c.SamePart i.upload i.number →
    JobLive w.store i.job → i.bytes = c.bytes
  own : ∀ job, c.phase.job = some job → ∃ i ∈ w.issued, i.job = job ∧ i.ServesCall c
  published : ∀ job, c.phase.job = some job → JobPublished w.store job → w.Covered c
  settled : c.phase.settled = true → w.Covered c
  carries : c.phase.Carries svc c.bytes

/-- What the store has about the jobs the calls opened. -/
structure PartWorld.Recorded (svc : PartService) (w : PartWorld) : Prop where
  coherent : Coherent w.store
  oneId : ∀ j ∈ w.store.transferJobs, j.OneId
  unique : ∀ i ∈ w.issued, ∀ i' ∈ w.issued, i.job = i'.job → i = i'
  numbers : ∀ i ∈ w.issued, i.number ≠ 0
  rows : ∀ i ∈ w.issued, ∀ r ∈ w.store.objectManifests, r.objectId = i.job →
    ObjectManifest.DescribesBytes svc r.manifest i.bytes
  parts : ∀ i ∈ w.issued, ∀ p ∈ w.store.multipartParts,
    p.part.publisher = some i.job → p.part.Holds svc i.bytes
  partJobs : ∀ i ∈ w.issued, ∀ row ∈ w.store.multipartJobs, row.jobId = i.job →
    row.uploadId = i.upload ∧ row.partNumber = i.number
  issues : ∀ row ∈ w.store.multipartJobs, row.partNumber ≠ 0 → ∃ i ∈ w.issued, i.job = row.jobId

structure PartWorld.Sound (svc : PartService) (w : PartWorld) : Prop where
  recorded : w.Recorded svc
  calls : ∀ c ∈ w.calls, c.Sound svc w
  alike : ∀ c ∈ w.calls, ∀ c' ∈ w.calls, c.phase.running = true → c'.phase.running = true →
    c.SamePart c'.upload c'.number → c'.bytes = c.bytes

/-- A call of the store that is right about the jobs the calls opened. -/
structure PartWorld.Allows (svc : PartService) (w : PartWorld) (op : StoreOp) : Prop where
  own : WritesOwnManifest op w.store
  opens : ∀ i ∈ w.issued, ∀ bucket key now, op ≠ .beginTransfer i.job bucket key now
  completes : ∀ i ∈ w.issued, ∀ upload now, op ≠ .queueMultipartCompletion i.job upload now
  commits : ∀ i ∈ w.issued, op.publishes = some i.job →
    ∃ lease now, op = .finishPartJob i.job lease now
  stages : ∀ kind m now, op = .stageManifest kind m now → ∀ i ∈ w.issued, m.objectId = i.job →
    ObjectManifest.DescribesBytes svc m i.bytes
  writes : ∀ m, op = .updateManifest m → ∀ r ∈ w.store.objectManifests, r.objectId = m.objectId →
    m.checksum = r.manifest.checksum ∧ m.contentLength = r.manifest.contentLength
  attaches : ∀ row, op = .insertMultipartJob row → ∃ i ∈ w.issued, i.job = row.jobId ∧
    row.uploadId = i.upload ∧ row.partNumber = i.number
  cleans : SendsAlike (.call op) w

namespace PartWorld
variable {svc : PartService} {w : PartWorld} {s' : MetadataStore} {op : StoreOp}

section
variable (h : w.Recorded svc) (hs : StoreStep fromStr op w.store s')
include h hs

theorem Recorded.part_before (hp : p ∈ s'.multipartParts) :
    (p ∈ w.store.multipartParts ∧ ∀ i ∈ w.issued, ∀ lease now,
      op = .finishPartJob i.job lease now → (p.uploadId, p.partNumber) ≠ (i.upload, i.number)) ∨
      ∃ i ∈ w.issued, (p.uploadId, p.partNumber) = (i.upload, i.number) ∧
        (∃ lease now, op = .finishPartJob i.job lease now) ∧ JobLive w.store i.job ∧
        p.part.publisher = some i.job ∧ p.part.Holds svc i.bytes := by
  rcases StoreOp.part_step hs hp with
    ⟨hp, hn⟩ | ⟨job, lease, now, upload, number, row, rfl, hj, hn, hl, hr, rfl⟩
  · refine .inl ⟨hp, ?_⟩
    rintro i hi lease now rfl
    obtain ⟨⟨upload, number⟩, hj, -⟩ := Option.bind_eq_some_iff.1 hs
    obtain ⟨row, hrow, he⟩ := Option.map_eq_some_iff.1 hj
    obtain ⟨hu, hm⟩ := h.partJobs i hi row (mem_of_get? hrow) (key_of_get? hrow)
    cases he
    rw [← hu, ← hm]
    exact hn i.job lease now _ _ rfl hj (hm ▸ h.numbers i hi)
  · obtain ⟨row', hrow, he⟩ := Option.map_eq_some_iff.1 hj
    cases he
    obtain ⟨i, hi, hij⟩ := h.issues row' (mem_of_get? hrow) hn
    have hk : row'.jobId = job := key_of_get? hrow
    obtain ⟨hu, hm⟩ := h.partJobs i hi row' (mem_of_get? hrow) hij.symm
    have hrm := mem_of_get? hr
    have hro : row.objectId = job := key_of_get? hr
    have hid : i.job = job := hij.trans hk
    obtain ⟨j, hj, hst⟩ := hl
    refine .inr ⟨i, hi, by rw [hu, hm], ⟨lease, now, by rw [hid]⟩,
      ⟨j, hid ▸ hj, TransferState.terminal_of_leased hst⟩, ?_, ?_⟩
    · exact congrArg some ((h.coherent.rows row hrm).objectId.trans (hro.trans hid.symm))
    · exact (h.rows i hi row hrm (hro.trans hid.symm)).part _ _ _

theorem Recorded.covered_step (hc : w.Covered c)
    (hj : ∀ i ∈ w.issued, c.SamePart i.upload i.number →
      JobLive w.store i.job → i.bytes = c.bytes) : { w with store := s' }.Covered c := by
  intro p hp
  obtain ⟨r, hr, rfl⟩ := Option.map_eq_some_iff.1 hp
  have hk : (r.uploadId, r.partNumber) = (c.upload, c.number) := key_of_get? hr
  rcases h.part_before hs (mem_of_get? hr) with ⟨hm, -⟩ | ⟨i, hi, he, -, hl, hpub, -⟩
  · apply hc
    rw [getMultipartPart, get?_eq_some.2 ⟨hm, hk⟩]
    rfl
  · have hu := hk.symm.trans he
    exact ⟨i, hi, hj i hi ⟨congrArg Prod.fst hu, congrArg Prod.snd hu⟩ hl, hpub⟩

theorem Recorded.covered_publish (hi : i ∈ w.issued) (hc : i.ServesCall c)
    (hop : op = .finishPartJob i.job lease now) : { w with store := s' }.Covered c := by
  intro p hp
  obtain ⟨r, hr, rfl⟩ := Option.map_eq_some_iff.1 hp
  have hk : (r.uploadId, r.partNumber) = (c.upload, c.number) := key_of_get? hr
  rcases h.part_before hs (mem_of_get? hr) with ⟨-, hn⟩ | ⟨i', -, -, ⟨_, _, he⟩, -, hpub, -⟩
  · exact absurd (hk.trans (by rw [hc.part.1, hc.part.2])) (hn i hi lease now hop)
  · rw [hop] at he
    injection he with he
    exact ⟨i, hi, hc.bytes, he ▸ hpub⟩

/-- The records stay right. -/
theorem Recorded.step (ha : w.Allows svc op) : { w with store := s' }.Recorded svc where
  coherent := h.coherent.step hs ha.own
  oneId := StoreOp.oneId_step h.oneId hs
  unique := h.unique
  numbers := h.numbers
  rows i hi r' hr' hid := by
    cases StoreOp.row_step h.coherent h.oneId hs hr' with
    | kept hr => exact h.rows i hi r' hr hid
    | staged kind m now ho he =>
      subst he
      exact (ha.stages kind m now ho i hi hid).of_eq rfl rfl
    | published r m now hr ho _ hm he =>
      subst he
      rcases hm with rfl | ⟨lease, hop⟩
      · exact (h.rows i hi r hr hid).of_eq rfl rfl
      · have hrid : r.objectId = i.job := hid
        rw [hrid] at ho
        obtain ⟨_, _, hf⟩ := ha.commits i hi ho
        rw [hf] at hop
        cases hop
    | tombstoned r now hr he =>
      subst he
      exact (h.rows i hi r hr hid).of_eq rfl rfl
    | moved r state now hr _ he =>
      subst he
      exact (h.rows i hi r hr hid).of_eq rfl rfl
    | written r m hr ho hm he =>
      subst he
      obtain ⟨hc, hl⟩ := ha.writes m ho r hr hm
      exact (h.rows i hi r hr hid).of_eq hc hl
  parts i hi p hp hpub := by
    rcases h.part_before hs hp with ⟨hp, -⟩ | ⟨i', hi', -, -, -, hpub', hh⟩
    · exact h.parts i hi p hp hpub
    · rw [hpub] at hpub'
      rw [h.unique i hi i' hi' (Option.some.inj hpub')]
      exact hh
  partJobs i hi row hrow hid := by
    rcases StoreOp.multipartRow_before hs hrow with hrow | hop | ⟨-, upload, now, hop⟩
    · exact h.partJobs i hi row hrow hid
    · obtain ⟨i', hi', hj, hp⟩ := ha.attaches row hop
      rw [h.unique i hi i' hi' (hid.symm.trans hj.symm)]
      exact hp
    · rw [hid] at hop
      exact absurd hop (ha.completes i hi upload now)
  issues row hrow hn := by
    rcases StoreOp.multipartRow_before hs hrow with hrow | hop | ⟨hz, -⟩
    · exact h.issues row hrow hn
    · obtain ⟨i, hi, hj, -⟩ := ha.attaches row hop
      exact ⟨i, hi, hj⟩
    · exact absurd hz hn

theorem Recorded.call_step (ha : w.Allows svc op) (hm : c ∈ w.calls) (hc : c.Sound svc w) :
    c.Sound svc { w with store := s' } := by
  have hjobs : c.phase.running = true → ∀ i ∈ w.issued, c.SamePart i.upload i.number →
      JobLive s' i.job → i.bytes = c.bytes := by
    intro hr i hi hp hl
    rcases hl.before hs with hl | ⟨bucket, key, now, hop⟩
    · exact hc.jobs hr i hi hp hl
    · exact absurd hop (ha.opens i hi bucket key now)
  have hcov : w.Covered c → c.phase.running = true → { w with store := s' }.Covered c :=
    fun hv hr => h.covered_step hs hv (hc.jobs hr)
  refine ⟨hc.number, hjobs, hc.own, ?_, ?_, hc.carries⟩
  · intro job hj hp
    have hr := PartPhase.running_of_job hj
    rcases StoreOp.published_by h.oneId hs hp with hp | hop | ⟨removed, rfl, j, hjm, hid⟩
    · exact hcov (hc.published job hj hp) hr
    · obtain ⟨i, hi, rfl, hserve⟩ := hc.own job hj
      obtain ⟨lease, now, hop⟩ := ha.commits i hi hop
      exact h.covered_publish hs hi hserve hop
    · apply hcov _ hr
      rcases ha.cleans c hm job hj j hjm hid with hst | hv
      · apply hc.published job hj
        have hjs := (mem_transfersForLocalCleanup (List.mem_of_mem_take hjm)).1
        exact ⟨j, get?_eq_some.2 ⟨hjs, hid⟩, by rw [hst]; rfl⟩
      · exact hv
  · intro hst
    exact hcov (hc.settled hst) (PartPhase.running_of_settled hst)

end

theorem Sound.store (h : w.Sound svc) (hs : StoreStep fromStr op w.store s')
    (ha : w.Allows svc op) : { w with store := s' }.Sound svc where
  recorded := h.recorded.step hs ha
  calls c hc := h.recorded.call_step hs ha hc (h.calls c hc)
  alike := h.alike

theorem Sound.replace {c : PartCall} {phase : PartPhase} (h : w.Sound svc)
    (hi : w.calls[i]? = some c) (hc : { c with phase }.Sound svc w)
    (ha : phase.running = true → c.phase.running = true ∨ ∀ c' ∈ w.calls,
      c'.phase.running = true → c.SamePart c'.upload c'.number → c'.bytes = c.bytes) :
    { w with calls := w.calls.set i { c with phase } }.Sound svc := by
  have hm : c ∈ w.calls := List.mem_of_getElem? hi
  have hall : phase.running = true → ∀ c' ∈ w.calls, c'.phase.running = true →
      c.SamePart c'.upload c'.number → c'.bytes = c.bytes := by
    intro hr
    rcases ha hr with hr | ha
    · exact fun c' hc' hr' hp => h.alike c hm c' hc' hr hr' hp
    · exact ha
  constructor
  · have hr := h.recorded
    exact ⟨hr.coherent, hr.oneId, hr.unique, hr.numbers, hr.rows, hr.parts, hr.partJobs, hr.issues⟩
  · intro c' hc'
    rcases List.mem_or_eq_of_mem_set hc' with hc' | rfl
    · have hs := h.calls c' hc'
      exact ⟨hs.number, hs.jobs, hs.own, hs.published, hs.settled, hs.carries⟩
    · exact ⟨hc.number, hc.jobs, hc.own, hc.published, hc.settled, hc.carries⟩
  · intro c₁ h₁ c₂ h₂ hr₁ hr₂ hp
    rcases List.mem_or_eq_of_mem_set h₁ with h₁ | rfl
    · rcases List.mem_or_eq_of_mem_set h₂ with h₂ | rfl
      · exact h.alike c₁ h₁ c₂ h₂ hr₁ hr₂ hp
      · exact (hall hr₂ c₁ h₁ hr₁ ⟨hp.1.symm, hp.2.symm⟩).symm
    · rcases List.mem_or_eq_of_mem_set h₂ with h₂ | rfl
      · exact hall hr₁ c₂ h₂ hr₂ hp
      · rfl

theorem Sound.issue (h : w.Sound svc) (iss : PartIssue) (hj : ∀ i ∈ w.issued, i.job ≠ iss.job)
    (hn : iss.number ≠ 0) (hr : ∀ r ∈ w.store.objectManifests, r.objectId ≠ iss.job)
    (hp : ∀ p ∈ w.store.multipartParts, p.part.publisher ≠ some iss.job)
    (hm : ∀ row ∈ w.store.multipartJobs, row.jobId ≠ iss.job)
    (hc : ∀ c ∈ w.calls, c.phase.running = true → c.SamePart iss.upload iss.number →
      iss.bytes = c.bytes) :
    { w with issued := iss :: w.issued }.Sound svc := by
  have ho := h.recorded
  have hcov : ∀ c, w.Covered c → { w with issued := iss :: w.issued }.Covered c := by
    intro c hv p hg
    obtain ⟨i, hi, hb⟩ := hv p hg
    exact ⟨i, List.mem_cons_of_mem _ hi, hb⟩
  constructor
  · refine ⟨ho.coherent, ho.oneId, ?_, List.forall_mem_cons.2 ⟨hn, ho.numbers⟩,
      List.forall_mem_cons.2 ⟨fun r hm' he => absurd he (hr r hm'), ho.rows⟩,
      List.forall_mem_cons.2 ⟨fun p hm' he => absurd he (hp p hm'), ho.parts⟩,
      List.forall_mem_cons.2 ⟨fun row hm' he => absurd he (hm row hm'), ho.partJobs⟩, ?_⟩
    · refine List.forall_mem_cons.2 ⟨?_, ?_⟩
      · exact List.forall_mem_cons.2 ⟨fun _ => rfl, fun i hi he => absurd he.symm (hj i hi)⟩
      · exact fun i hi => List.forall_mem_cons.2 ⟨fun he => absurd he (hj i hi), ho.unique i hi⟩
    · intro row hrow hz
      obtain ⟨i, hi, he⟩ := ho.issues row hrow hz
      exact ⟨i, List.mem_cons_of_mem _ hi, he⟩
  · intro c hcm
    have hs := h.calls c hcm
    refine ⟨hs.number, ?_, ?_, fun job hj hp => hcov c (hs.published job hj hp),
      fun hst => hcov c (hs.settled hst), hs.carries⟩
    · exact fun hr => List.forall_mem_cons.2 ⟨fun hp _ => hc c hcm hr hp, hs.jobs hr⟩
    · intro job hj
      obtain ⟨i, hi, ho⟩ := hs.own job hj
      exact ⟨i, List.mem_cons_of_mem _ hi, ho⟩
  · exact h.alike

end PartWorld

def PartPhase.opens : PartPhase → Bool
  | .opened .. => true
  | _ => false

theorem PartPhase.admitted_of_job {phase : PartPhase} {job : Uuid} (h : phase.job = some job) :
    phase.admitted = true := by
  cases phase <;> first | rfl | cases h

structure PartCall.Goes (svc : PartService) (w : PartWorld) (c : PartCall) (phase : PartPhase) :
    Prop where
  opens : phase.opens = false
  number : phase.admitted = true → c.number ≠ 0
  running : phase.running = true → c.phase.running = true
  job : ∀ job, phase.job = some job → c.phase.job = some job
  settled : phase.settled = true → w.Covered c
  carries : phase.Carries svc c.bytes

namespace PartCall
variable {svc : PartService} {w : PartWorld} {c : PartCall} {phase : PartPhase}

theorem Goes.sound (hg : c.Goes svc w phase) (hc : c.Sound svc w) :
    { c with phase }.Sound svc w where
  number := hg.number
  jobs hr := hc.jobs (hg.running hr)
  own job hj := by
    obtain ⟨i, hi, he, hs⟩ := hc.own job (hg.job job hj)
    exact ⟨i, hi, he, hs.part, hs.bytes⟩
  published job hj := hc.published job (hg.job job hj)
  settled := hg.settled
  carries := hg.carries

theorem Goes.error (e : ObjectFormatError) : c.Goes svc w (.answered (.error e)) where
  opens := rfl
  number h := by cases h
  running h := by cases h
  job _ h := by cases h
  settled h := by cases h
  carries := trivial

theorem Goes.keep {job : Uuid} (hc : c.Sound svc w) (hj : c.phase.job = some job)
    (hj' : phase.job = some job) (ho : phase.opens = false)
    (hs : phase.settled = true → w.Covered c) (hd : phase.Carries svc c.bytes) :
    c.Goes svc w phase where
  opens := ho
  number _ := hc.number (PartPhase.admitted_of_job hj)
  running _ := PartPhase.running_of_job hj
  job job' h := by rw [hj, ← hj', h]
  settled := hs
  carries := hd

theorem Goes.plain (hn : c.number ≠ 0) (hj : phase.job = none) (ho : phase.opens = false)
    (hr : phase.running = true → c.phase.running = true)
    (hs : phase.settled = true → w.Covered c) (hd : phase.Carries svc c.bytes) :
    c.Goes svc w phase where
  opens := ho
  number _ := hn
  running := hr
  job job h := by rw [hj] at h; cases h
  settled := hs
  carries := hd

theorem Goes.early (hn : c.number ≠ 0) (hj : phase.job = none) (ho : phase.opens = false)
    (hr : phase.running = false) (hd : phase.Carries svc c.bytes) : c.Goes svc w phase := by
  refine .plain hn hj ho (fun h => absurd (hr.symm.trans h) Bool.false_ne_true) (fun h => ?_) hd
  exact absurd (hr.symm.trans (PartPhase.running_of_settled h)) Bool.false_ne_true

theorem Goes.failed {job : Uuid} (hc : c.Sound svc w) (hj : c.phase.job = some job)
    (e : ObjectFormatError) : c.Goes svc w (.failed job e) :=
  .keep hc hj rfl rfl nofun trivial

end PartCall

namespace PartWorld
variable {svc : PartService} {w : PartWorld} {s' : MetadataStore} {op : StoreOp} {c : PartCall}
  {phase : PartPhase}

theorem move_of_opens (hp : phase.opens = false) (w : PartWorld) (i : Nat) (c : PartCall)
    (s' : MetadataStore) : w.move i c s' phase =
      { w with store := s', calls := w.calls.set i { c with phase } } := by
  cases phase <;> first | rfl | cases hp

section
variable {i : Nat} (h : w.Sound svc) (hi : w.calls[i]? = some c)
include h hi

theorem Sound.goes (hg : c.Goes svc w phase) : (w.move i c w.store phase).Sound svc := by
  rw [move_of_opens hg.opens]
  exact h.replace hi (hg.sound (h.calls c (List.mem_of_getElem? hi))) fun hr => .inl (hg.running hr)

theorem Sound.serves (hs : StoreStep fromStr op w.store s') (ha : w.Allows svc op)
    (hg : c.Sound svc { w with store := s' } → c.Goes svc { w with store := s' } phase) :
    (w.move i c s' phase).Sound svc := by
  have h' := h.store hs ha
  have hgo := hg (h'.calls c (List.mem_of_getElem? hi))
  have hr := h'.goes hi hgo
  rw [move_of_opens hgo.opens] at hr ⊢
  exact hr

theorem Sound.reception {r : Except MetadataError MetadataStore}
    (hj : c.phase.job = some job) (op : StoreOp) (phase : PartPhase)
    (hop : op.apply (fun _ => none) w.store = after r) (ha : w.Allows svc op)
    (hj' : phase.job = some job) (ho : phase.opens = false) (hst : phase.settled = false)
    (hd : phase.Carries svc c.bytes) : (w.move i c (receptionCall w.store job r phase).1
      (receptionCall w.store job r phase).2).Sound svc := by
  cases r with
  | error e => exact h.goes hi (.failed (h.calls c (List.mem_of_getElem? hi)) hj _)
  | ok s' =>
    apply h.serves hi (hop : StoreStep _ op w.store s') ha
    intro hc
    exact .keep hc hj hj' ho (fun hs => absurd (hst.symm.trans hs) Bool.false_ne_true) hd

end

theorem not_issues (h : (!w.issues job) = true) : ∀ i ∈ w.issued, i.job ≠ job := by
  simpa [issues] using h

theorem Allows.of_admits (hw : WritesOwnManifest op w.store) (ha : w.admits op = true)
    (hc : SendsAlike (.call op) w) : w.Allows svc op where
  own := hw
  opens i hi bucket key now he := by
    subst he
    exact not_issues ha i hi rfl
  completes i hi upload now he := by
    subst he
    exact not_issues ha i hi rfl
  commits i hi hp := by
    cases op with
    | finishPartJob job lease now =>
      cases hp
      exact ⟨lease, now, rfl⟩
    | commitManifest | commitTransferManifest =>
      cases hp
      exact absurd rfl (not_issues ha i hi)
    | _ => cases hp
  stages kind m now he i hi hid := by
    subst he
    exact absurd hid.symm (not_issues ha i hi)
  writes m he r hr hid := by
    subst he
    simp only [admits, List.all_eq_true] at ha
    simpa [hid] using ha r hr
  attaches row he := by
    subst he
    cases ha
  cleans := hc

section
variable {i : Nat} {r : PartReception} {job : Uuid} (h : w.Sound svc) (hi : w.calls[i]? = some c)
  (hj : c.phase.job = some job) (hr : r.Carries c.bytes)
include h hi hj hr

theorem Sound.reserve {session : MultipartSession} (now : OffsetDateTime) :
    (w.move i c (svc.reserve w.store session job r now).1
      (svc.reserve w.store session job r now).2).Sound svc := by
  have hc := h.calls c (List.mem_of_getElem? hi)
  unfold PartService.reserve
  split
  · split
    · rename_i s' hs
      have hop : StoreStep (fun _ => none) (.reserveStaging job (r.pending.length + 16)
          svc.stagingBudget now.unixTimestamp) w.store s' := by
        exact congrArg after hs
      apply h.serves hi hop (.of_admits nofun rfl trivial)
      intro hc
      exact .keep hc hj rfl rfl nofun hr
    · exact h.goes hi (.failed hc hj _)
  · exact h.goes hi (.failed hc hj _)

theorem Sound.finish {session : MultipartSession} (hb : r.hashed = c.bytes) :
    (w.move i c w.store (svc.finish c session job r)).Sound svc := by
  have hc := h.calls c (List.mem_of_getElem? hi)
  unfold PartService.finish
  dsimp only
  split
  · apply h.goes hi (.keep hc hj rfl rfl (fun h => by cases h) ?_)
    exact ⟨rfl, by rw [hb], by rw [hr.chunks, hb]⟩
  · exact h.goes hi (.failed hc hj _)

theorem Sound.receive (session : MultipartSession) (now : OffsetDateTime) :
    (w.move i c (svc.receive w.store c session job r now).1
      (svc.receive w.store c session job r now).2).Sound svc := by
  have hc := h.calls c (List.mem_of_getElem? hi)
  have hbody := hr.body
  unfold PartService.receive
  split
  · rename_i hrem
    split
    · rename_i frame rest hrest
      apply h.goes hi (.keep hc hj rfl rfl (fun h => by cases h) ?_)
      refine ⟨?_, hr.chunks⟩
      rw [← hbody, hrem, hrest]
      simp [frameBytes]
    · exact h.goes hi (.failed hc hj _)
    · rename_i hrest
      split
      · rename_i hpend
        apply h.finish hi hj hr
        rw [← hbody, hrem, hrest, hpend]
        simp [frameBytes]
      · exact h.reserve hi hj hr now
  · have hr' : ∀ n, PartReception.Carries { r with
        pending := r.pending ++ r.remaining.take n, remaining := r.remaining.drop n } c.bytes := by
      intro n
      refine ⟨?_, hr.chunks⟩
      rw [← hbody]
      simp
    dsimp only
    split
    · exact h.reserve hi hj (hr' _) now
    · exact h.goes hi (.keep hc hj rfl rfl nofun (hr' _))

theorem Sound.write {session : MultipartSession} (io : Except IoError Unit) :
    (w.move i c w.store (svc.write session job r io)).Sound svc := by
  have hc := h.calls c (List.mem_of_getElem? hi)
  unfold PartService.write
  split
  · exact h.goes hi (.failed hc hj _)
  · exact h.goes hi (.failed hc hj _)
  · exact h.goes hi (.failed hc hj _)
  · apply h.goes hi (.keep hc hj rfl rfl (fun h => by cases h) ?_)
    constructor
    · rw [← hr.body]
      simp
    · simp [hr.chunks, Crypto.localChunk]

end

theorem Sound.look (h : w.Sound svc) (hi : w.calls[i]? = some c)
    (hp : c.phase = .funded session) (ha : w.Alike c) (hs : (phase = .free session) ∨ ∃ job,
      w.store.activeMultipartPartTransfer c.upload c.number = some job ∧
        phase = .waiting job.id .polling true) :
    (w.move i c w.store phase).Sound svc := by
  have hc := h.calls c (List.mem_of_getElem? hi)
  have hn : c.number ≠ 0 := hc.number (by rw [hp]; rfl)
  rcases hs with rfl | ⟨j, hact, rfl⟩
  · refine h.replace hi ⟨fun _ => hn, fun _ => ha.jobs, ?_, ?_, ?_, trivial⟩ fun _ => .inr ha.calls
    · exact fun _ hj => by cases hj
    · exact fun _ hj => by cases hj
    · exact fun hst => by cases hst
  · have hm := firstBy_mem hact
    simp only [mem_select, Bool.and_eq_true, Bool.not_eq_true'] at hm
    obtain ⟨hjm, hpart, hterm⟩ := hm
    obtain ⟨row, hrow, he⟩ := any_eq_true.1 hpart
    simp only [Bool.and_eq_true, decide_eq_true_eq] at he
    obtain ⟨⟨hu, hnum⟩, hid⟩ := he
    obtain ⟨iss, hiss, hjob⟩ := h.recorded.issues row hrow (hnum ▸ hn)
    obtain ⟨hu', hn'⟩ := h.recorded.partJobs iss hiss row hrow hjob.symm
    have hget := mem_iff_get?.1 hjm
    have hsame : c.SamePart iss.upload iss.number := ⟨hu.symm.trans hu', hnum.symm.trans hn'⟩
    have hlive : JobLive w.store iss.job := ⟨j, by rw [hjob, hid]; exact hget, hterm⟩
    refine h.replace hi ⟨fun _ => hn, fun _ => ha.jobs, ?_, ?_, ?_, trivial⟩ fun _ => .inr ha.calls
    · intro job hj
      cases hj
      exact ⟨iss, hiss, hjob.trans hid, hsame, ha.jobs iss hiss hsame hlive⟩
    · rintro job hj ⟨j', hj', hpub⟩
      cases hj
      have he : j = j' := Option.some.inj (hget.symm.trans hj')
      rw [← he, TransferState.published_of_terminal hterm] at hpub
      cases hpub
    · exact fun hst => by cases hst

theorem of_unused (h : w.unused fresh = true) :
    (!w.issues fresh) = true ∧ (∀ r ∈ w.store.objectManifests, r.objectId ≠ fresh) ∧
      (∀ row ∈ w.store.multipartJobs, row.jobId ≠ fresh) ∧
      ∀ p ∈ w.store.multipartParts, p.part.publisher ≠ some fresh := by
  simp only [unused, Bool.and_eq_true, Bool.not_eq_true'] at h
  obtain ⟨⟨⟨⟨hi, -⟩, hr⟩, hm⟩, hp⟩ := h
  have hr' := get?_eq_none.1 (Option.isNone_iff_eq_none.1 (Option.isSome_eq_false_iff.1 hr))
  have hm' := get?_eq_none.1 (Option.isNone_iff_eq_none.1 (Option.isSome_eq_false_iff.1 hm))
  refine ⟨by rw [hi]; rfl, hr', hm', ?_⟩
  intro p hpm
  exact of_decide_eq_false (any_eq_false.1 hp p hpm)

section
variable {i : Nat} (h : w.Sound svc) (hi : w.calls[i]? = some c)
include h hi

theorem Sound.opening {now : OffsetDateTime}
    (hp : c.phase = .opening session) (hu : w.unused fresh = true)
    (hs : w.store.beginTransfer fresh session.bucket session.key now.unixTimestamp = .ok s') :
    (w.move i c s' (.opened session fresh)).Sound svc := by
  obtain ⟨hn, hrows, hjobs, hparts⟩ := of_unused hu
  have hm := List.mem_of_getElem? hi
  have hrun : c.phase.running = true := by rw [hp]; rfl
  have hstep : StoreStep (fun _ => none)
      (.beginTransfer fresh session.bucket session.key now.unixTimestamp) w.store s' :=
    congrArg after hs
  have h₁ := h.store hstep (.of_admits nofun hn trivial)
  have hnew : ¬ JobPublished s' fresh := by
    obtain ⟨hnone, rfl⟩ := beginTransfer_ok hs
    rintro ⟨j, hg, hpub⟩
    rcases mem_insertOrIgnore.1 (mem_of_get? hg) with hm | ⟨rfl, -⟩
    · exact absurd (key_of_get? hg) (get?_eq_none.1 hnone j hm)
    · cases hpub
  have hf := StoreOp.frame hstep
  have h₂ := h₁.issue ⟨fresh, c.upload, c.number, c.body⟩ (not_issues hn)
    ((h.calls c hm).number (by rw [hp]; rfl))
    (fun r hr => hrows r ((hf .manifests rfl) ▸ hr))
    (fun p hp => hparts p ((hf .parts rfl) ▸ hp))
    (fun row hr => hjobs row ((hf .multipartJobs rfl) ▸ hr))
    fun c' hc' hr' hp' => h.alike c' hc' c hm hr' hrun hp'
  have hc := h₂.calls c hm
  have hopened : PartCall.Sound svc _ { c with phase := .opened session fresh } :=
    ⟨fun _ => hc.number (by rw [hp]; rfl), fun _ => hc.jobs hrun,
      fun job hj => ⟨_, List.mem_cons_self, Option.some.inj hj, ⟨rfl, rfl⟩, rfl⟩,
      fun job hj hpub => absurd (Option.some.inj hj ▸ hpub) hnew, nofun,
      trivial⟩
  exact h₂.replace hi hopened fun _ => .inl hrun

theorem Sound.wait {st : WaitState} (hp : c.phase = .waiting job st reused)
    (hv : st = .polling → (∃ j, w.store.transferJobs.get? job = some j ∧ j.state = .superseded) →
      w.Covered c) :
    (w.move i c w.store (.waiting job (st.read w.store job) reused)).Sound svc := by
  have hc := h.calls c (List.mem_of_getElem? hi)
  have hj : c.phase.job = some job := by rw [hp]; rfl
  suffices hst : (PartPhase.waiting job (st.read w.store job) reused).settled = true →
      w.Covered c from h.goes hi (.keep hc hj rfl rfl hst trivial)
  intro hst
  cases st with
  | polling =>
    cases hg : w.store.transferJobs.get? job with
    | none =>
      simp only [WaitState.read, hg] at hst
      cases hst
    | some j =>
      simp only [WaitState.read, hg, WaitState.polled] at hst
      split at hst
      · rename_i hs
        exact hc.published job hj ⟨j, hg, by rw [hs]; rfl⟩
      · rename_i hs
        exact hc.published job hj ⟨j, hg, by rw [hs]; rfl⟩
      · rename_i hs
        exact hv rfl ⟨j, hg, hs⟩
      all_goals cases hst
  | returned part result =>
    apply hc.settled
    rw [hp]
    exact hst
  | _ =>
    apply hc.settled
    rw [hp]
    rfl

theorem Sound.read (hp : c.phase = .reading reused)
    (hr : w.store.getMultipartPart c.upload c.number = some p) :
    (w.move i c w.store (.answered (.ok p))).Sound svc := by
  have hc := h.calls c (List.mem_of_getElem? hi)
  obtain ⟨iss, hiss, hb, hpub⟩ := hc.settled (by rw [hp]; rfl) p hr
  obtain ⟨row, hrow, rfl⟩ := Option.map_eq_some_iff.1 hr
  apply h.goes hi
  refine ⟨rfl, nofun, nofun, nofun, nofun, ?_⟩
  rw [← hb]
  exact h.recorded.parts iss hiss row (mem_of_get? hrow) hpub

theorem Sound.check {check : Except ObjectFormatError Unit} (hg : c.Goes svc w phase) :
    (w.move i c w.store (.after check phase)).Sound svc := by
  cases check with
  | ok => exact h.goes hi hg
  | error e => exact h.goes hi (.error e)

end

theorem Sound.stages (h : w.Sound svc) (hc : c.Sound svc w)
    (hj : c.phase.job = some job) (hid : m.objectId = job)
    (hm : ObjectManifest.DescribesBytes svc m c.bytes) (now : OffsetDateTime) :
    w.Allows svc (.stageManifest .put m now) where
  own _ hm := by cases hm
  opens _ _ _ _ _ he := by cases he
  completes _ _ _ _ he := by cases he
  commits _ _ he := by cases he
  stages kind m' now' he i hi hid' := by
    cases he
    obtain ⟨i', hi', hjob, hs⟩ := hc.own job hj
    rw [h.recorded.unique i hi i' hi' (hid'.symm.trans (hid.trans hjob.symm)), hs.bytes]
    exact hm
  writes _ he := by cases he
  attaches _ he := by cases he
  cleans := trivial

theorem Sound.attaches (hc : c.Sound svc w) (hj : c.phase.job = some job) :
    w.Allows svc (.insertMultipartJob
      { jobId := job, uploadId := c.upload, partNumber := c.number
        expectedChecksum := c.checksum }) where
  own _ hm := by cases hm
  opens _ _ _ _ _ he := by cases he
  completes _ _ _ _ he := by cases he
  commits _ _ he := by cases he
  stages _ _ _ he := by cases he
  writes _ he := by cases he
  attaches row he := by
    injection he with he
    subst he
    obtain ⟨i, hi, hjob, hs⟩ := hc.own job hj
    exact ⟨i, hi, hjob, hs.part⟩
  cleans := trivial

theorem Sound.advance {fresh : Uuid} {now : OffsetDateTime} {io : Except IoError Unit}
    (h : w.Sound svc) (hi : w.calls[i]? = some c) (hu : w.unused fresh = true)
    (hal : SendsAlike (.advance i fresh now io) w)
    (ha : c.advance svc w.store fresh now io = some next) :
    (w.move i c next.1 next.2).Sound svc := by
  have hc := h.calls c (List.mem_of_getElem? hi)
  obtain ⟨hlook, hpoll⟩ := hal c hi
  have hroutine : ∀ {op}, op.writtenBack = none → w.admits op = true →
      SendsAlike (.call op) w → w.Allows svc op :=
    fun hw ha hs => .of_admits (fun m hm => by rw [hw] at hm; cases hm) ha hs
  obtain ⟨upload, number, body, checksum, phase⟩ := c
  cases phase with
  | arrived =>
    cases ha
    apply h.check hi
    split
    · exact .error _
    · rename_i hn
      exact .early hn rfl rfl rfl trivial
  | checked =>
    simp only [PartCall.advance] at ha
    split at ha
    · cases ha
      exact h.goes hi (.error _)
    · split at ha
      · cases ha
        exact h.goes hi (.error _)
      · cases ha
        exact h.goes hi (.early (hc.number rfl) rfl rfl rfl trivial)
  | found session =>
    cases ha
    exact h.check hi (.early (hc.number rfl) rfl rfl rfl trivial)
  | funded session =>
    have hal := hlook session rfl
    simp only [PartCall.advance] at ha
    split at ha
    · cases ha
      exact h.look hi rfl hal (.inl rfl)
    · rename_i j hj
      split at ha
      · cases ha
        exact h.goes hi (.error _)
      · cases ha
        exact h.look hi rfl hal (.inr ⟨j, hj, rfl⟩)
  | free session =>
    cases ha
    exact h.check hi (.plain (hc.number rfl) rfl rfl (fun _ => rfl) (fun h => by cases h) trivial)
  | opening session =>
    simp only [PartCall.advance] at ha
    split at ha
    · rename_i s₁ hs
      cases ha
      exact h.opening hi rfl hu hs
    · cases ha
      exact h.goes hi (.error _)
  | opened session job =>
    cases ha
    have hop := Sound.attaches hc rfl
    cases io with
    | ok => exact h.reception hi rfl _ _ rfl hop rfl rfl rfl ⟨rfl, rfl⟩
    | error => exact h.reception hi rfl _ _ rfl hop rfl rfl rfl trivial
  | receiving session job r =>
    cases ha
    exact h.receive hi rfl hc.carries session now
  | writing session job r =>
    cases ha
    exact h.write hi rfl hc.carries io
  | finalizing job args =>
    obtain ⟨hid, hsum, hlen⟩ := hc.carries
    simp only [PartCall.advance] at ha
    split at ha
    · cases ha
      exact h.goes hi (.keep hc rfl rfl rfl (fun h => by cases h) ⟨hid, hsum, hlen⟩)
    · cases ha
      exact h.goes hi (.failed hc rfl _)
    · cases ha
      exact h.goes hi (.failed hc rfl _)
  | written job m =>
    cases ha
    have hop := h.stages hc rfl hc.carries.1 hc.carries.2 now
    exact h.reception hi rfl _ _ rfl hop rfl rfl rfl trivial
  | staged job chunks =>
    cases ha
    exact h.reception hi rfl (.setTransferConditionals job none now.unixTimestamp) _ rfl
      (hroutine rfl rfl trivial) rfl rfl rfl trivial
  | conditioned job chunks =>
    cases ha
    exact h.reception hi rfl (.queueTransfer job chunks now.unixTimestamp) _ rfl
      (hroutine rfl rfl trivial) rfl rfl rfl trivial
  | queued job =>
    simp only [PartCall.advance] at ha
    split at ha
    · cases ha
      exact h.goes hi (.keep hc rfl rfl rfl (fun h => by cases h) trivial)
    · cases ha
      exact h.goes hi (.failed hc rfl _)
  | failed job e =>
    cases ha
    have hs : StoreStep (fun _ => none) (.failReception job io.isOk
        "Upload reception failed before durable acceptance; resend the source file"
        now.unixTimestamp) w.store _ := rfl
    exact h.serves hi hs (hroutine rfl rfl trivial) fun _ => .error _
  | waiting job st reused =>
    have hw := h.wait hi rfl fun he => hpoll job reused (by rw [he])
    cases st with
    | returned part r =>
      cases r with
      | ok =>
        cases ha
        exact h.goes hi (.plain (hc.number rfl) rfl rfl (fun _ => rfl) (fun _ => hc.settled rfl)
          trivial)
      | error =>
        cases ha
        exact h.goes hi (.error _)
    | _ =>
      cases ha
      exact hw
  | reading reused =>
    simp only [PartCall.advance] at ha
    split at ha
    · rename_i p hr
      cases ha
      exact h.read hi rfl hr
    · cases ha
      exact h.goes hi (.error _)
  | answered | abandoned => cases ha

theorem Sound.init (h : w.Initial) : w.Sound svc := by
  have hi : ∀ i, i ∉ w.issued := by simp [h.issued]
  have hm : ∀ row, row ∉ w.store.multipartJobs := by simp [h.partJobs]
  have hj : ∀ j, j ∉ w.store.transferJobs := by simp [h.store.jobs]
  have hc : ∀ c, c ∉ w.calls := by simp [h.calls]
  constructor
  · exact ⟨h.store.objects.coherent, fun j hm => absurd hm (hj j), fun i hm => absurd hm (hi i),
      fun i hm => absurd hm (hi i), fun i hm => absurd hm (hi i), fun i hm => absurd hm (hi i),
      fun i hm => absurd hm (hi i), fun row hr => absurd hr (hm row)⟩
  · exact fun c hm => absurd hm (hc c)
  · exact fun c hm => absurd hm (hc c)

theorem Sound.start (h : w.Sound svc) (new : PartCall) (hn : new.phase = .arrived) :
    { w with calls := w.calls ++ [new] }.Sound svc := by
  have hr := h.recorded
  constructor
  · exact ⟨hr.coherent, hr.oneId, hr.unique, hr.numbers, hr.rows, hr.parts, hr.partJobs, hr.issues⟩
  · intro c hc
    rcases List.mem_append.1 hc with hc | hc
    · have hs := h.calls c hc
      exact ⟨hs.number, hs.jobs, hs.own, hs.published, hs.settled, hs.carries⟩
    · obtain ⟨upload, number, body, checksum, phase⟩ := new
      cases hn
      rw [List.mem_singleton.1 hc]
      exact ⟨nofun, nofun, nofun, nofun, nofun, trivial⟩
  · intro c hc c' hc' hrun hrun' hp
    rcases List.mem_append.1 hc with hc | hc
    · rcases List.mem_append.1 hc' with hc' | hc'
      · exact h.alike c hc c' hc' hrun hrun' hp
      · rw [List.mem_singleton.1 hc', hn] at hrun'
        cases hrun'
    · rw [List.mem_singleton.1 hc, hn] at hrun
      cases hrun

theorem Sound.step (h : w.Sound svc) (hs : PartStep svc fromStr a w w') (ha : SendsAlike a w) :
    w'.Sound svc := by
  cases a with
  | call op =>
    simp only [PartStep, PartAction.apply, Option.ite_none_right_eq_some] at hs
    obtain ⟨hadm, hs⟩ := hs
    obtain ⟨s', hserve, rfl⟩ := Option.map_eq_some_iff.1 hs
    obtain ⟨hstep, hw⟩ := StoreOp.serve_eq_some hserve
    exact h.store hstep (.of_admits hw hadm ha)
  | start upload number body checksum =>
    cases hs
    exact h.start _ rfl
  | advance i fresh now io =>
    simp only [PartStep, PartAction.apply, Option.ite_none_right_eq_some] at hs
    obtain ⟨hu, hs⟩ := hs
    obtain ⟨c, hi, hs⟩ := Option.bind_eq_some_iff.1 hs
    obtain ⟨next, hadv, rfl⟩ := Option.map_eq_some_iff.1 hs
    exact h.advance hi hu ha hadv
  | abandon i =>
    obtain ⟨c, hi, rfl⟩ := Option.map_eq_some_iff.1 hs
    exact h.goes hi ⟨rfl, nofun, nofun, nofun, nofun, trivial⟩

end PartWorld

/-- The calls of `upload_multipart_part` answer with their own bytes when they are sent alike. -/
theorem part_calls_acknowledge_own_bytes (svc : PartService)
    (fromStr : String → Option ETagCondition) :
    AcknowledgesOwnBytes svc (Guarded (PartStep svc fromStr) SendsAlike) := by
  intro past w hr c hc p hp
  have hs : w.Sound svc := hr.invariant (I := fun w => w.Sound svc) (fun _ => PartWorld.Sound.init)
    fun _ _ _ h hs => h.step hs.1 hs.2
  have hd := (hs.calls c hc).carries
  rw [hp] at hd
  exact hd

def partService : PartService :=
  { cfg := { storageChatId := "-1001", keyId := "k1" }, crypto := taggingCrypto, chunkSize := 4
    stagingBudget := 1024 }

def openUpload : MultipartSession :=
  { uploadId := ⟨7⟩, bucket := "photos", key := "a.jpg", versionId := none
    contentType := "image/jpeg", checksumAlgorithm := "sha256", expiresAt := none
    state := .initiated, createdAt := instant 1, updatedAt := instant 1 }

/-- A part is sent empty, then with one byte; the worker publishes the first while the second waits.
-/
def resentPart : List PartAction :=
  [.call (.createMultipartSession openUpload (instant 1)), .start ⟨7⟩ 1 [] none] ++
    List.replicate 6 (.advance 0 ⟨1⟩ (instant 1) (.ok ())) ++
    List.replicate 7 (.advance 0 ⟨2⟩ (instant 1) (.ok ())) ++
    [.start ⟨7⟩ 1 [some [1]] none] ++
    List.replicate 4 (.advance 1 ⟨2⟩ (instant 1) (.ok ())) ++
    [.call (.claimTransfer (instant 1).unixTimestamp ⟨3⟩),
      .call (.enterCommitting ⟨1⟩ ⟨3⟩ (instant 1).unixTimestamp),
      .call (.finishPartJob ⟨1⟩ ⟨3⟩ (instant 1))] ++
    List.replicate 5 (.advance 1 ⟨2⟩ (instant 1) (.ok ()))

def resentPartRun : List PartWorld × PartWorld :=
  (exec (PartAction.apply partService fun _ => none) [] { store := photosStore } resentPart).get
    (by decide +kernel)

/-- The second call answers with the part of the first. -/
theorem resent_part_acknowledges_other_bytes :
    ¬ AcknowledgesOwnBytes partService (PartStep partService fun _ => none) := by
  intro h
  have hi : PartWorld.Initial { store := photosStore } :=
    ⟨⟨⟨rfl, rfl, rfl⟩, rfl, rfl⟩, rfl, rfl, rfl⟩
  have hr : Run PartWorld.Initial (PartStep partService fun _ => none) resentPartRun.1
      resentPartRun.2 := Run.of_exec_isSome hi (by decide +kernel)
  obtain ⟨c, p, hc, hp, hsize⟩ : ∃ c p, resentPartRun.2.calls[1]? = some c ∧
      c.phase = .answered (.ok p) ∧ p.size ≠ c.bytes.length :=
    ⟨_, _, rfl, rfl, by decide +kernel⟩
  exact hsize (h _ _ hr c (List.mem_of_getElem? hc) p hp).size

end TelegramS3
