import TelegramS3.Chunkers
import TelegramS3.ActiveJobs
import TelegramS3.Provenance
import TelegramS3.Retrying

namespace TelegramS3
open Relational Table Fallible Transition MetadataStore Segments
set_option autoImplicit true

/-- What `process_rechunk_job` does up to the point where the replacement is queued. -/
def rechunkObject (env : ReceptionEnv) (job : RechunkJobRow) (newId : Uuid)
    (download : String → Int → Except ObjectFormatError Bytes) (s : MetadataStore) (begun : Int)
    (now : OffsetDateTime) : Except ObjectFormatError Received := do
  match ← (s.getManifest job.objectId).mapError ObjectFormatError.metadata with
  | none => throw (.invalidRead ("re-chunk source object not found: " ++ job.objectId.text))
  | some old =>
    if hpos : 0 < job.newChunkSize then
      let _ ← planChunks old.contentLength job.newChunkSize
      let s ← (s.beginTransfer newId old.bucket old.key begun).mapError .metadata
      let (staged, hashed) ← rechunkBody env newId job.newChunkSize hpos
        (old.readManifestChunk env.crypto download) s old.chunks
      let (manifest, store) ← finalizeReception env.cfg
        { objectId := newId, bucket := old.bucket, key := old.key, contentType := old.contentType
          expiresAt := old.expiresAt, chunks := staged.chunks
          wholeChecksum := env.crypto.sha256Hex hashed } none staged.store now
      return { manifest, files := staged.files, store }
    else throw (.invalidPlan "new chunk size must be non-zero")

/-- A completed re-chunk job: published by a worker, shown by the key, its source then removed. -/
structure CompletedRechunk (env : ReceptionEnv) (fromStr : String → Option ETagCondition) where
  job : RechunkJobRow
  old : ObjectManifest
  newId : Uuid
  fresh : newId ≠ job.objectId
  download : String → Int → Except ObjectFormatError Bytes
  source : MetadataStore
  begun : Int
  accepted : OffsetDateTime
  received : Received
  found : source.getManifest job.objectId = .ok (some old)
  staging : rechunkObject env job newId download source begun accepted = .ok received
  past : List SendWorld
  claimed : SendWorld
  run : Run SendWorld.Initial (SendStep fromStr) past claimed
  index : Nat
  loader : Worker
  loading : claimed.workers[index]? = some loader ∧ loader.phase = .loading
  queued : claimed.store.getManifest loader.objectId = .ok (some received.manifest)
  loaded : SendWorld
  load : SendStep fromStr (.read index) claimed loaded
  sends : List SendWorld
  sent : SendWorld
  sending : Run (fun u => u = loaded) (SendStep fromStr) sends sent
  sender : Worker
  manifest : ObjectManifest
  ready : sent.workers[index]? = some sender ∧ sender.phase = .ready manifest
  published : SendWorld
  now : OffsetDateTime
  publish : SendStep fromStr (.run index (.publish now)) sent published
  before : sent.store.activeObjectId old.bucket old.key ≠ some newId
  shown : published.store.activeObjectId old.bucket old.key = some newId
  removedAt : OffsetDateTime
  removed : MetadataStore
  remove : StoreStep fromStr
    (.tombstoneManifest job.objectId "replaced by re-chunking" {} removedAt) published.store removed
  finished : Int
  new : ObjectManifest
  active : (removed.finishRechunk job.id .completed none finished).getActiveManifest old.bucket
    old.key = .ok (some new)

/-- What clients see of an object is what they saw of another. -/
structure SeenAlike (crypto : Crypto) (d₀ : Downloads) (s₀ : MetadataStore) (old : ObjectManifest)
    (d : Downloads) (s : MetadataStore) (new : ObjectManifest) : Prop where
  content : ∀ start stop, start ≤ stop → stop ≤ old.contentLength →
    ∃ bytes, readRange crypto d₀ s₀ old start stop = .ok bytes ∧
      readRange crypto d s new start stop = .ok bytes
  length : new.contentLength = old.contentLength
  contentType : new.contentType = old.contentType
  expiresAt : new.expiresAt = old.expiresAt
  userMetadata : new.userMetadata = old.userMetadata
  tags : new.tags = old.tags
  etag : new.checksum.wholeObject = old.checksum.wholeObject

/-- The object carries what an upload in one body does: its checksum as tag, no metadata or tags. -/
structure ObjectManifest.OneBody (crypto : Crypto) (m : ObjectManifest) (content : Bytes) :
    Prop where
  etag : m.checksum.wholeObject = crypto.sha256Hex content
  userMetadata : m.userMetadata = []
  tags : m.tags = []

def Delivers (download : String → Int → Except ObjectFormatError Bytes)
    (remote : TelegramLocation → Option Bytes) : Prop :=
  ∀ l f bytes, remote l = some f → download l.peerId l.messageId = .ok bytes → bytes = f

section Staging
variable {env : ReceptionEnv} {objectId : Uuid} {st st' : Staged}

theorem Staged.Sound.stagePieces (h : st.Sound env objectId)
    (hs : TelegramS3.stagePieces env objectId pieces st = .ok st') :
    st'.Sound env objectId ∧ st'.hashed = st.hashed ++ pieces.flatten := by
  induction pieces generalizing st with
  | nil =>
    cases hs
    exact ⟨h, (List.append_nil _).symm⟩
  | cons piece pieces ih =>
    rw [stagePieces_cons] at hs
    obtain ⟨st₁, h₁, hs⟩ := bind_ok.1 hs
    obtain ⟨hsound, hh⟩ := h.stage h₁
    obtain ⟨hsound', hh'⟩ := ih hsound hs
    rw [List.flatten_cons, ← List.append_assoc, ← hh]
    exact ⟨hsound', hh'⟩

end Staging

section Reading
variable {crypto : Crypto} {remote : TelegramLocation → Option Bytes} {m : ObjectManifest}
  {download : String → Int → Except ObjectFormatError Bytes}

theorem SealedAs.readManifestChunk
    (h : SealedAs crypto remote m.encryption.enabled (c.payloadIdentity m.objectId) c p)
    (hd : Delivers download remote) (hr : m.readManifestChunk crypto download c = .ok plain) :
    plain = p := by
  obtain ⟨-, -, hr⟩ := bind_ok.1 hr
  obtain ⟨cipher, hc, hr⟩ := bind_ok.1 hr
  obtain ⟨f, hf, hsealed⟩ := h.copies _ List.mem_cons_self
  have hcipher : cipher = f := hd _ f cipher hf hc
  subst hcipher
  dsimp only at hr
  split at hr
  · rename_i he
    rw [if_pos he] at hsealed
    rw [crypto.decryptChunk_of_encryptChunk hsealed] at hr
    obtain ⟨_, hp, hr⟩ := bind_ok.1 hr
    cases hp
    obtain ⟨-, -, hr⟩ := bind_ok.1 hr
    exact (pure_ok.1 hr).symm
  · rename_i he
    rw [if_neg he] at hsealed
    obtain ⟨_, hp, hr⟩ := bind_ok.1 hr
    cases hp
    obtain ⟨-, -, hr⟩ := bind_ok.1 hr
    exact (pure_ok.1 hr).symm.trans hsealed

theorem Laid.mapM_eq {read : ChunkRef → Except ObjectFormatError Bytes} {plaintexts : List Bytes}
    (h : Laid (fun c p => ∀ plain, read c = .ok plain → plain = p) order offset chunks pieces)
    (hr : chunks.mapM read = .ok plaintexts) : plaintexts = pieces := by
  induction h generalizing plaintexts with
  | nil =>
    cases hr
    rfl
  | cons hp _ _ _ _ ih =>
    rw [List.mapM_cons] at hr
    obtain ⟨plain, hplain, hr⟩ := bind_ok.1 hr
    obtain ⟨rest, hrest, hr⟩ := bind_ok.1 hr
    cases hr
    rw [hp plain hplain, ih hrest]

theorem ObjectManifest.Holds.reads_back {plaintexts : List Bytes}
    (h : m.Holds crypto remote pieces) (hd : Delivers download remote)
    (hr : m.chunks.mapM (m.readManifestChunk crypto download) = .ok plaintexts) :
    plaintexts = pieces := by
  refine Laid.mapM_eq (Laid.mono h ?_) hr
  intro c _ p hp plain hplain
  exact hp.readManifestChunk hd hplain

end Reading

theorem finalizeReception_manifest
    (h : finalizeReception cfg args conditionals s now = .ok (m, s')) :
    m = cfg.newManifest args now := by
  obtain ⟨-, -, h⟩ := bind_ok.1 h
  obtain ⟨s₁, -, h⟩ := bind_ok.1 h
  obtain ⟨s₂, -, h⟩ := bind_ok.1 h
  obtain ⟨s₃, -, h⟩ := bind_ok.1 h
  cases h
  rfl

theorem ObjectManifest.Holds.length_eq {m : ObjectManifest} {pieces : List Bytes}
    (h : m.Holds crypto remote pieces) (hv : m.validate = .ok ()) :
    pieces.flatten.length = m.contentLength ∧ pieces.flatten.length < 2 ^ 64 := by
  obtain ⟨-, hchunks⟩ := ObjectManifest.validate_ok.1 hv
  obtain ⟨hsum, hlt⟩ := validateChunks_total hchunks
  rw [Nat.zero_add, Laid.sum_size h] at hsum
  exact ⟨hsum, hsum ▸ hlt (by decide)⟩

section Completed
variable {env : ReceptionEnv} {fromStr : String → Option ETagCondition} {old : ObjectManifest}
  {pieces : List Bytes}

theorem rechunkChunks_reads {read : ChunkRef → Except ObjectFormatError Bytes}
    (h : rechunkChunks env objectId newSize hpos read r chunks = .ok r') :
    ∃ plaintexts, chunks.mapM read = .ok plaintexts := by
  induction chunks generalizing r with
  | nil => exact ⟨[], rfl⟩
  | cons c chunks ih =>
    obtain ⟨plaintext, hread, h⟩ := bind_ok.1 h
    obtain ⟨⟨staged, pending⟩, -, h⟩ := bind_ok.1 h
    obtain ⟨plaintexts, hrest⟩ := ih h
    rw [List.mapM_cons]
    exact ⟨plaintext :: plaintexts, bind_ok.2 ⟨plaintext, hread, bind_ok.2 ⟨_, hrest, rfl⟩⟩⟩

theorem rechunkBody_sound {hpos : 0 < newSize} (hold : old.Holds env.crypto remote pieces)
    (hd : Delivers download remote)
    (h : rechunkBody env objectId newSize hpos (old.readManifestChunk env.crypto download) store
      old.chunks = .ok (staged, hashed)) :
    staged.Sound env objectId ∧ staged.hashed = pieces.flatten ∧ hashed = pieces.flatten := by
  obtain ⟨r, hr, -⟩ := bind_ok.1 h
  obtain ⟨plaintexts, hreads⟩ := rechunkChunks_reads hr
  have hpieces := hold.reads_back hd hreads
  subst hpieces
  rw [rechunkBody_eq hpos store hreads] at h
  obtain ⟨st, hst, hpair⟩ := map_ok.1 h
  cases hpair
  have hinit : Staged.Sound env objectId { store } := ⟨⟨[], .nil, rfl⟩, rfl, rfl⟩
  obtain ⟨hsound, hhashed⟩ := hinit.stagePieces hst
  rw [flatten_blocks hpos] at hhashed
  exact ⟨hsound, hhashed, rfl⟩

theorem rechunkObject_ok (hold : old.Holds env.crypto remote pieces)
    (hd : Delivers download remote) (hf : s.getManifest job.objectId = .ok (some old))
    (h : rechunkObject env job newId download s begun now = .ok received) :
    ∃ staged : Staged, staged.Sound env newId ∧ staged.hashed = pieces.flatten ∧
      received.files = staged.files ∧
      received.manifest = env.cfg.newManifest
        { objectId := newId, bucket := old.bucket, key := old.key, contentType := old.contentType
          expiresAt := old.expiresAt, chunks := staged.chunks
          wholeChecksum := env.crypto.sha256Hex staged.hashed } now := by
  unfold rechunkObject at h
  obtain ⟨found, hfound, h⟩ := bind_ok.1 h
  rw [hf] at hfound
  cases hfound
  dsimp only at h
  split at h
  · obtain ⟨-, -, h⟩ := bind_ok.1 h
    obtain ⟨s₁, -, h⟩ := bind_ok.1 h
    obtain ⟨⟨staged, hashed⟩, hbody, h⟩ := bind_ok.1 h
    obtain ⟨⟨manifest, store⟩, hfinal, h⟩ := bind_ok.1 h
    cases h
    obtain ⟨hsound, hhashed, hwhole⟩ := rechunkBody_sound hold hd hbody
    refine ⟨staged, hsound, hhashed, rfl, ?_⟩
    rw [hhashed, ← hwhole]
    exact finalizeReception_manifest hfinal
  · cases h

theorem WorkerCall.switch (hc : WorkerCall p op phase) (hp : p.phase = .ready m)
    (hs : StoreStep fromStr op s s') (hb : s.activeObjectId bucket key ≠ some object)
    (ha : s'.activeObjectId bucket key = some object) :
    m.objectId = object ∧ ∀ r ∈ s'.objectManifests, r.objectId = object →
      r.manifest = m.withState .committed := by
  cases hc with
  | update he =>
    rw [hp] at he
    cases he
    cases hs
    exact absurd ha hb
  | @commit _ now he =>
    rw [hp] at he
    cases he
    obtain ⟨⟨m', s₁⟩, hcommit, rfl⟩ := map_ok.1 (after_eq_some.1 hs)
    obtain ⟨e, -, ⟨-, rfl⟩ | ⟨m₀, hsub, -, -, hs₁⟩⟩ := commitManifestInner_ok hcommit
    · exact absurd ha hb
    · have hm := commitSubject_published hsub
      subst hm
      have hpublished : s₁.activeObjectId bucket key =
            (s.publishManifest p.job m₀ now).activeObjectId bucket key ∧
          s₁.objectManifests = (s.publishManifest p.job m₀ now).objectManifests := by
        rcases hs₁ with ⟨-, rfl⟩ | ⟨upload, -, rfl⟩
        · exact ⟨rfl, rfl⟩
        · exact ⟨rfl, rfl⟩
      rw [hpublished.1, publishManifest_activeObjectId] at ha
      split at ha
      · have hid : m₀.objectId = object := Option.some.inj ha
        refine ⟨hid, fun r hr hro => ?_⟩
        rw [hpublished.2] at hr
        rcases of_mem_update rfl hr with ⟨o, -, -, rfl⟩ | ⟨-, hn⟩
        · rfl
        · exact absurd (hro.trans hid.symm) (of_decide_eq_false hn)
      · exact absurd ha hb
  | fence he | begin he | finish he | flood he | lost he | part he =>
    rw [hp] at he
    cases he

theorem CompletedRechunk.new_eq (c : CompletedRechunk env fromStr) :
    c.new = c.manifest.withState .committed ∧ c.received.manifest.Publishes c.manifest ∧
      c.sent.telegram.Places c.sender.job c.manifest.chunks ∧
      c.published.telegram.documents = c.sent.telegram.documents := by
  obtain ⟨hcarries, hplaced, hdocs, op, phase, hcall, hs⟩ := publication_of_run c.run c.loading.1
    c.loading.2 c.queued c.load c.sending c.ready.1 c.ready.2 c.publish
  obtain ⟨-, hrows⟩ := hcall.switch c.ready.2 hs c.before c.shown
  refine ⟨?_, hcarries, hplaced, hdocs⟩
  obtain ⟨row, hr, ha, -, -, hnew⟩ := getActiveManifest_eq_some.1 c.active
  obtain ⟨⟨m', s₁⟩, htomb, he⟩ := map_ok.1 (after_eq_some.1 c.remove)
  obtain ⟨m, -, hs₁⟩ := tombstoneManifestWithConditionals_ok htomb
  have hremoved : c.removed = s₁ := he.symm
  rw [hs₁] at hremoved
  have hid : row.objectId = c.newId := by
    obtain ⟨a, hkey, haid⟩ := Option.map_eq_some_iff.1 ha
    have hshown := c.shown
    simp only [finishRechunk, hremoved, tombstoneJournal, dropActive, tombstoneRows,
      get?_delete, Option.filter_eq_some_iff] at hkey
    rw [activeObjectId, hkey.1] at hshown
    exact haid.symm.trans (Option.some.inj hshown)
  have hrow : row ∈ c.published.store.objectManifests := by
    simp only [finishRechunk, hremoved, tombstoneJournal, dropActive, tombstoneRows] at hr
    rcases of_mem_update rfl hr with ⟨o, -, ho, rfl⟩ | ⟨hr, -⟩
    · exact absurd (hid.symm.trans (of_decide_eq_true ho)) c.fresh
    · exact hr
  exact hnew.symm.trans (hrows row hrow hid)

theorem ObjectManifest.OneBody.of_upload {frames : List Bytes}
    (hreceive : enqueueWithPart env req s₀ begun accepted = .ok received)
    (hbody : req.body = frames.map some) (hm : received.manifest.Publishes m) :
    m.OneBody env.crypto frames.flatten := by
  obtain ⟨store, staged, hstaged, -, hmanifest⟩ := enqueueWithPart_ok hreceive
  rw [hbody] at hstaged
  obtain ⟨-, hhashed⟩ := receiveBody_sound hstaged
  obtain ⟨placed, -, hm⟩ := hm
  rw [hmanifest, hhashed] at hm
  exact ⟨congrArg (fun m => m.checksum.wholeObject) hm, congrArg ObjectManifest.userMetadata hm,
    congrArg ObjectManifest.tags hm⟩

theorem ObjectManifest.OneBody.moved (h : m.OneBody crypto content)
    (cfg : ServiceConfig) : (cfg.movedManifest m i b k).OneBody crypto content :=
  ⟨h.etag, h.userMetadata, h.tags⟩

/-- A re-chunk job changes nothing for clients exactly when the object was uploaded in one body. -/
theorem rechunk_seen_alike_iff (c : CompletedRechunk env fromStr)
    (hold : c.old.Holds env.crypto remote pieces) (hdown : Delivers c.download remote)
    (hd₀ : d₀.Serve remote) (hne : ∀ chunk ∈ c.old.chunks, s₀.readCandidates chunk ≠ [])
    (hd : Serves d s c.published.telegram c.sender.job c.received.files) :
    SeenAlike env.crypto d₀ s₀ c.old d s c.new ↔ c.old.OneBody env.crypto pieces.flatten := by
  obtain ⟨hnew, hpub, hplaced, hdocs⟩ := c.new_eq
  obtain ⟨staged, hsound, hhashed, hfiles, hmanifest⟩ :=
    rechunkObject_ok hold hdown c.found c.staging
  obtain ⟨row, -, hvalid, hrow⟩ := loadManifestByObjectId_eq_some.1 c.found
  rw [hrow] at hvalid
  obtain ⟨hlen, hfits⟩ := hold.length_eq hvalid
  rw [hmanifest] at hpub
  rw [hfiles] at hd
  have hd' : Serves d s c.sent.telegram c.sender.job staged.files :=
    ⟨hd.enabled, hd.permitted, hdocs ▸ hd.returns⟩
  rw [← hhashed] at hfits
  have hround := hpub.roundTrips hsound rfl rfl hfits hplaced hd' .committed
  rw [hhashed] at hround
  obtain ⟨placed, -, hm⟩ := hpub
  have huser : c.manifest.userMetadata = [] := congrArg ObjectManifest.userMetadata hm
  have htags : c.manifest.tags = [] := congrArg ObjectManifest.tags hm
  have htype := congrArg ObjectManifest.contentType hm
  have hexpires := congrArg ObjectManifest.expiresAt hm
  rw [hnew]
  constructor
  · intro h
    exact ⟨h.etag.symm.trans hround.checksum, h.userMetadata.symm.trans huser,
      h.tags.symm.trans htags⟩
  · intro h
    refine ⟨?_, hround.length.trans hlen, htype, hexpires, huser.trans h.userMetadata.symm,
      htags.trans h.tags.symm, hround.checksum.trans h.etag.symm⟩
    intro start stop hle hstop
    rw [← hlen] at hstop
    exact ⟨_, hold.readRange hvalid hd₀ hne hle hstop, hround.reads start stop hle hstop⟩

end Completed

/-- What is left of a job that ran by itself: the worlds it passed and the manifests it handled. -/
structure RecutTrace where
  source : List SendWorld × SendWorld
  job : RechunkJobRow
  old : ObjectManifest
  received : Received
  claimed : List SendWorld × SendWorld
  loader : Worker
  loaded : SendWorld
  sent : List SendWorld × SendWorld
  sender : Worker
  manifest : ObjectManifest
  published : SendWorld
  removed : MetadataStore
  new : ObjectManifest

def WorkerPhase.isLoading : WorkerPhase → Bool
  | .loading => true
  | _ => false

def WorkerPhase.readied : WorkerPhase → Option ObjectManifest
  | .ready m => some m
  | _ => none

def sendDocument (i : Nat) (job : Uuid) (order : Nat) (attempt : Uuid) (now : Int) :
    List SendAction :=
  [.read i, .run i (.begin attempt now), .accept (job, order, attempt) (parcelPlace attempt),
    .reply i (.ok (parcelPlace attempt)), .run i (.record now)]

/-- An object without payloads of its own is published and then queued for re-chunking. -/
def sourceActions (m : ObjectManifest) (now : Int) : List SendAction :=
  [.call (.call (.beginTransfer m.objectId m.bucket m.key now)),
    .call (.call (.stageManifest .put m (instant 1))),
    .call (.call (.queueTransfer m.objectId m.chunks.length now)), .claim now ⟨11⟩, .read 0,
    .read 0, .run 0 (.fence now)] ++
  sendDocument 0 m.objectId manifestOrder ⟨20⟩ now ++
  [.run 0 (.publish (instant 1)), .call (.call (.queueRechunk ⟨30⟩ m.bucket m.key 2 now)),
    .call (.call (.claimRechunkJob now))]

def recutActions (m : ObjectManifest) (now : Int) : List SendAction :=
  [.call (.call (.beginTransfer m.objectId m.bucket m.key now)),
    .call (.call (.reserveStaging m.objectId 18 1000 now)),
    .call (.call (.reserveStaging m.objectId 17 1000 now)),
    .call (.call (.stageManifest .put m (instant 1))),
    .call (.call (.setTransferConditionals m.objectId none now)),
    .call (.call (.queueTransfer m.objectId m.chunks.length now)), .claim now ⟨12⟩]

def recutSends (now : Int) : List SendAction :=
  sendDocument 1 ⟨1⟩ 0 ⟨21⟩ now ++ sendDocument 1 ⟨1⟩ 1 ⟨22⟩ now ++ [.run 1 (.fence now)] ++
    sendDocument 1 ⟨1⟩ manifestOrder ⟨23⟩ now

def recutRemote (l : TelegramLocation) : Option Bytes :=
  if l.messageId = 1 then some [1, 2, 3, 0] else none

def recutDownload (_ : String) (id : Int) : Except ObjectFormatError Bytes :=
  if id = 1 then .ok [1, 2, 3, 0] else .error (.invalidRead "message not found")

/-- The job on an object of three bytes, with chunks of two bytes. -/
def recutTrace (m : ObjectManifest) : Option RecutTrace := do
  let now := (instant 1).unixTimestamp
  let source ← exec (SendAction.apply fun _ => none) [] { store := photosStore }
    (sourceActions m now)
  let job ← source.2.store.rechunkJobs.get? ⟨30⟩
  let old ← (source.2.store.getManifest job.objectId).toOption.bind fun found => found
  let received ← (rechunkObject parcelEnv job ⟨1⟩ recutDownload source.2.store now
    (instant 1)).toOption
  let claimed ← exec (SendAction.apply fun _ => none) source.1 source.2
    (recutActions received.manifest now)
  let loader ← claimed.2.workers[1]?.filter fun p => p.phase.isLoading
  let loaded ← (SendAction.read 1).apply (fun _ => none) claimed.2
  let sent ← exec (SendAction.apply fun _ => none) [] loaded (recutSends now)
  let sender ← sent.2.workers[1]?
  let manifest ← sender.phase.readied
  let published ← (SendAction.run 1 (.publish (instant 1))).apply (fun _ => none) sent.2
  let removed ← (StoreOp.tombstoneManifest job.objectId "replaced by re-chunking" {}
    (instant 1)).apply (fun _ => none) published.store
  let new ← ((removed.finishRechunk job.id .completed none now).getActiveManifest old.bucket
    old.key).toOption.bind fun found => found
  return ⟨source, job, old, received, claimed, loader, loaded, sent, sender, manifest, published,
    removed, new⟩

def referenceChunk : ChunkRef :=
  { order := 0, offset := 0, size := 3, checksum := "aa", telegramPeerId := "-1001"
    telegramMessageId := 1, telegramDocumentId := none, sourceObjectId := some ⟨1⟩
    sourceChunkOrder := some 0 }

/-- The key shows another object until the new one is published, in chunks of three bytes. -/
abbrev RecutTrace.Fits (t : RecutTrace) : Prop :=
  (⟨1⟩ ≠ t.job.objectId ∧
    t.claimed.2.store.getManifest t.loader.objectId = .ok (some t.received.manifest) ∧
    t.sent.2.store.activeObjectId t.old.bucket t.old.key ≠ some ⟨1⟩ ∧
    t.published.store.activeObjectId t.old.bucket t.old.key = some ⟨1⟩) ∧
  (t.old.encryption.enabled = true ∧ t.old.chunks = [referenceChunk]) ∧
  t.published.telegram.documents =
    [((⟨1⟩, manifestOrder, ⟨23⟩), parcelPlace ⟨23⟩), ((⟨1⟩, 1, ⟨22⟩), parcelPlace ⟨22⟩),
      ((⟨1⟩, 0, ⟨21⟩), parcelPlace ⟨21⟩), ((⟨9⟩, manifestOrder, ⟨20⟩), parcelPlace ⟨20⟩)] ∧
  t.sender.job = ⟨1⟩ ∧ t.received.files = [[1, 2, 0], [3, 0]]

theorem ok_of_toOption_bind {x : Except ε (Option α)}
    (h : (x.toOption.bind fun found => found) = some a) : x = .ok (some a) := by
  obtain ⟨found, hx, rfl⟩ := Option.bind_eq_some_iff.1 h
  exact ok_of_toOption hx

theorem WorkerPhase.readied_eq_some {phase : WorkerPhase} (h : phase.readied = some m) :
    phase = .ready m := by
  cases phase with
  | ready m' =>
    cases h
    rfl
  | _ => cases h

theorem WorkerPhase.isLoading_eq {phase : WorkerPhase} (h : phase.isLoading = true) :
    phase = .loading := by
  cases phase with
  | loading => rfl
  | _ => cases h

/-- A trace is a completed job. -/
theorem RecutTrace.completed (h : recutTrace m = some t) (hs : t.Fits) :
    ∃ c : CompletedRechunk parcelEnv fun _ => none, c.old = t.old ∧ c.new = t.new ∧
      c.download = recutDownload ∧ c.received = t.received ∧ c.sender = t.sender ∧
      c.published = t.published := by
  obtain ⟨⟨hfresh, hqueued, hbefore, hshown⟩, -⟩ := hs
  unfold recutTrace at h
  obtain ⟨source, hsource, h⟩ := Option.bind_eq_some_iff.1 h
  obtain ⟨job, hjob, h⟩ := Option.bind_eq_some_iff.1 h
  obtain ⟨old, hold, h⟩ := Option.bind_eq_some_iff.1 h
  obtain ⟨received, hreceived, h⟩ := Option.bind_eq_some_iff.1 h
  obtain ⟨claimed, hclaimed, h⟩ := Option.bind_eq_some_iff.1 h
  obtain ⟨loader, hloader, h⟩ := Option.bind_eq_some_iff.1 h
  obtain ⟨loaded, hloaded, h⟩ := Option.bind_eq_some_iff.1 h
  obtain ⟨sent, hsent, h⟩ := Option.bind_eq_some_iff.1 h
  obtain ⟨sender, hsender, h⟩ := Option.bind_eq_some_iff.1 h
  obtain ⟨manifest, hmanifest, h⟩ := Option.bind_eq_some_iff.1 h
  obtain ⟨published, hpublished, h⟩ := Option.bind_eq_some_iff.1 h
  obtain ⟨removed, hremoved, h⟩ := Option.bind_eq_some_iff.1 h
  obtain ⟨new, hnew, h⟩ := Option.bind_eq_some_iff.1 h
  cases h
  have hrun : Run SendWorld.Initial (SendStep fun _ => none) source.1 source.2 :=
    Run.of_exec (.init ⟨rfl, rfl, rfl, rfl, rfl⟩) hsource
  rw [Option.filter_eq_some_iff] at hloader
  let c : CompletedRechunk parcelEnv fun _ => none :=
    { job, old, newId := ⟨1⟩, fresh := hfresh, download := recutDownload, source := source.2.store
      begun := (instant 1).unixTimestamp, accepted := instant 1, received
      found := ok_of_toOption_bind hold, staging := ok_of_toOption hreceived
      past := claimed.1, claimed := claimed.2, run := Run.of_exec hrun hclaimed
      index := 1, loader, loading := ⟨hloader.1, WorkerPhase.isLoading_eq hloader.2⟩
      queued := hqueued, loaded, load := hloaded, sends := sent.1, sent := sent.2
      sending := Run.of_exec (.init rfl) hsent, sender, manifest
      ready := ⟨hsender, WorkerPhase.readied_eq_some hmanifest⟩
      published, now := instant 1, publish := hpublished, before := hbefore, shown := hshown
      removedAt := instant 1, removed, remove := hremoved
      finished := (instant 1).unixTimestamp, new, active := ok_of_toOption_bind hnew }
  exact ⟨c, rfl, rfl, rfl, rfl, rfl, rfl⟩

def recutDownloads : Downloads where
  failoverRetries := 0
  permit _ _ := .ok ()
  message candidate _ :=
    match candidate.location.messageId with
    | 1 => .ok [1, 2, 3, 0]
    | 21 => .ok [1, 2, 0]
    | 22 => .ok [3, 0]
    | _ => .error { kind := .other, message := "MESSAGE_EMPTY" }

theorem RecutTrace.Fits.holds {t : RecutTrace} (h : t.Fits) :
    t.old.Holds taggingCrypto recutRemote [[1, 2, 3]] := by
  obtain ⟨-, ⟨hencrypted, hchunks⟩, -⟩ := h
  rw [ObjectManifest.Holds, hchunks, hencrypted]
  refine .cons ⟨rfl, ?_⟩ rfl rfl rfl .nil
  intro l hl
  rw [List.mem_singleton.1 hl]
  exact ⟨[1, 2, 3, 0], rfl, rfl⟩

theorem RecutTrace.Fits.serves {t : RecutTrace} (h : t.Fits) :
    Serves recutDownloads photosStore t.published.telegram t.sender.job t.received.files := by
  obtain ⟨-, -, hdocuments, hjob, hfiles⟩ := h
  refine ⟨rfl, fun _ _ => rfl, fun k l f hm hk hf => ?_⟩
  rw [hdocuments] at hm
  rw [hjob] at hk
  rw [hfiles] at hf
  simp only [List.mem_cons, Prod.mk.injEq, List.not_mem_nil, or_false] at hm
  rcases hm with ⟨rfl, rfl⟩ | ⟨rfl, rfl⟩ | ⟨rfl, rfl⟩ | ⟨rfl, rfl⟩
  · cases hf
  · cases hf
    exact ⟨by decide, fun _ _ => rfl⟩
  · cases hf
    exact ⟨by decide, fun _ _ => rfl⟩
  · cases hk

theorem recutDownload_delivers : Delivers recutDownload recutRemote := by
  intro l f bytes hl hd
  unfold recutRemote at hl
  unfold recutDownload at hd
  split at hl
  · rename_i hid
    rw [if_pos hid] at hd
    cases hl
    cases hd
    rfl
  · cases hl

theorem recutDownloads_serve : recutDownloads.Serve recutRemote := by
  refine ⟨fun _ _ => rfl, fun candidate n f h => ?_⟩
  unfold recutRemote at h
  split at h
  · rename_i hid
    cases h
    simp only [recutDownloads, hid]
    exact ⟨rfl, trivial⟩
  · cases h

def composedSource : ObjectManifest :=
  (completionManifest sampleStorage taggingCrypto.sha256Hex sampleSession [samplePart 1 3]
    { twoPartPlan with
      contentLength := 3
      parts := [{ partNumber := 1, size := 3, checksum := "aa", eTag := "aa" }] }
    (instant 1)).toOption.get (by decide +kernel)

def movedSource : ObjectManifest :=
  sampleStorage.movedManifest ((samplePart 1 3).manifest.get rfl) ⟨9⟩ "photos" "a.jpg"

/-- Clients see no difference after the re-chunking of a moved object. -/
theorem moved_recut_seen_alike :
    ∃ t, recutTrace movedSource = some t ∧ SeenAlike taggingCrypto recutDownloads photosStore t.old
      recutDownloads photosStore t.new := by
  have hany : (recutTrace movedSource).any (fun t => t.Fits ∧ t.old.checksum.wholeObject = "aa" ∧
      t.old.userMetadata = [] ∧ t.old.tags = []) = true := by decide +kernel
  obtain ⟨hsome, hfacts⟩ := (Option.any_eq_true_iff_get _ _).1 hany
  obtain ⟨hfits, hbody⟩ := of_decide_eq_true hfacts
  have ht := (Option.some_get hsome).symm
  obtain ⟨c, hold, hnew, hdown, hreceived, hsender, hpublished⟩ := RecutTrace.completed ht hfits
  have hholds := hfits.holds
  have hserves := hfits.serves
  refine ⟨_, ht, ?_⟩
  rw [← hold] at hholds hbody ⊢
  rw [← hreceived, ← hsender, ← hpublished] at hserves
  rw [← hnew]
  refine (rechunk_seen_alike_iff c hholds (hdown ▸ recutDownload_delivers) recutDownloads_serve ?_
    hserves).2 ⟨hbody.1, hbody.2.1, hbody.2.2⟩
  intro chunk _
  exact List.cons_ne_nil _ _

/-- Clients see no difference after a re-chunk job. -/
def RechunkInvisible : Prop :=
  ∀ env fromStr (c : CompletedRechunk env fromStr) remote pieces d₀ s₀ d s,
    c.old.Holds env.crypto remote pieces → Delivers c.download remote → d₀.Serve remote →
    (∀ chunk ∈ c.old.chunks, s₀.readCandidates chunk ≠ []) →
    Serves d s c.published.telegram c.sender.job c.received.files →
    SeenAlike env.crypto d₀ s₀ c.old d s c.new

/-- The entity tag of an object that was composed of parts is another one after the job. -/
theorem composed_recut_changes_etag : ¬ RechunkInvisible := by
  intro h
  have hany : (recutTrace composedSource).any (fun t => t.Fits ∧
      t.new.checksum.wholeObject ≠ t.old.checksum.wholeObject) = true := by decide +kernel
  obtain ⟨hsome, hfacts⟩ := (Option.any_eq_true_iff_get _ _).1 hany
  obtain ⟨hfits, htags⟩ := of_decide_eq_true hfacts
  obtain ⟨c, hold, hnew, hdown, hreceived, hsender, hpublished⟩ :=
    RecutTrace.completed (Option.some_get hsome).symm hfits
  have hholds := hfits.holds
  have hserves := hfits.serves
  rw [← hold] at hholds htags
  rw [← hreceived, ← hsender, ← hpublished] at hserves
  rw [← hnew] at htags
  refine htags (h _ _ c recutRemote _ recutDownloads photosStore _ _ hholds
    (hdown ▸ recutDownload_delivers) recutDownloads_serve ?_ hserves).etag
  intro chunk _
  exact List.cons_ne_nil _ _

end TelegramS3
