import TelegramS3.AtMostOnce
import TelegramS3.Chunking

namespace TelegramS3
open Relational Fallible Transition MetadataStore Segments
set_option autoImplicit true

def ChunkRef.Relocates (c c' : ChunkRef) : Prop := ∃ l, c' = c.placed l

def ObjectManifest.Publishes (staged m : ObjectManifest) : Prop :=
  ∃ placed, List.Forall₂ ChunkRef.Relocates staged.chunks placed ∧
    m = { staged with
      chunks := placed.insertionSort fun a b => a.order ≤ b.order
      commitState := m.commitState, telegram := m.telegram }

def ObjectManifest.Relocating (staged : ObjectManifest) (done rest : List ChunkRef) : Prop :=
  ∃ front, staged.chunks = front ++ rest ∧ List.Forall₂ ChunkRef.Relocates front done

def SendTarget.Carries (staged : ObjectManifest) : SendTarget → Prop
  | .chunk m done c rest => m = staged ∧ staged.Relocating done (c :: rest)
  | .document m => staged.Publishes m

def WorkerPhase.Carries (staged : ObjectManifest) : WorkerPhase → Prop
  | .loading => False
  | .chunks m done rest => m = staged ∧ staged.Relocating done rest
  | .absent t | .sending t _ | .answered t _ _ => t.Carries staged
  | .fenced m | .ready m => staged.Publishes m
  | .finishing | .stopped => True

/-- The phases a worker may be in after a step of the service. -/
inductive WorkerChange (s : MetadataStore) (p : Worker) : WorkerPhase → Prop where
  | idle : WorkerChange s p p.phase
  | read : WorkerChange s p (p.read s)
  | call : WorkerCall p op phase → WorkerChange s p phase
  | reply : p.phase = .sending t attempt → WorkerChange s p (.answered t attempt r)
  | stop : WorkerChange s p .stopped

theorem WorkerChange.of_set {l : List Worker} {p q : Worker} {i j : Nat} (hq : l[j]? = some q)
    (hc : WorkerChange s q phase) (hp : l[i]? = some p) :
    ∃ phase', WorkerChange s p phase' ∧
      (l.set j { q with phase })[i]? = some { p with phase := phase' } := by
  by_cases hij : j = i
  · subst hij
    rw [hp] at hq
    cases hq
    obtain ⟨hlt, -⟩ := List.getElem?_eq_some_iff.1 hp
    exact ⟨phase, hc, List.getElem?_set_self hlt⟩
  · exact ⟨p.phase, .idle, by rw [List.getElem?_set_ne hij, hp]⟩

theorem SendStep.change {i : Nat} (h : SendStep fromStr a w w') (hp : w.workers[i]? = some p) :
    ∃ phase, WorkerChange w.store p phase ∧ w'.workers[i]? = some { p with phase } := by
  cases a with
  | call a =>
    simp only [SendStep, SendAction.apply] at h
    split at h
    · cases h
    · obtain ⟨s', -, rfl⟩ := Option.map_eq_some_iff.1 h
      exact ⟨p.phase, .idle, hp⟩
  | claim now lease =>
    simp only [SendStep, SendAction.apply] at h
    split at h
    · cases h
    · cases h
      refine ⟨p.phase, .idle, ?_⟩
      rw [List.getElem?_append_left (List.getElem?_eq_some_iff.1 hp).1, hp]
  | read j =>
    obtain ⟨q, hq, rfl⟩ := Option.map_eq_some_iff.1 h
    exact WorkerChange.of_set hq .read hp
  | run j mv =>
    obtain ⟨q, hq, h⟩ := Option.bind_eq_some_iff.1 h
    obtain ⟨⟨op, phase⟩, hstep, h⟩ := Option.bind_eq_some_iff.1 h
    obtain ⟨s', -, rfl⟩ := Option.map_eq_some_iff.1 h
    exact WorkerChange.of_set hq (.call (.of_step hstep)) hp
  | reply j r =>
    obtain ⟨q, hq, h⟩ := Option.bind_eq_some_iff.1 h
    split at h
    · rename_i hph
      split at h
      · cases h
        exact WorkerChange.of_set hq (.reply hph) hp
      · cases h
    · cases h
  | stop j =>
    obtain ⟨q, hq, rfl⟩ := Option.map_eq_some_iff.1 h
    exact WorkerChange.of_set hq .stop hp
  | accept k l =>
    simp only [SendStep, SendAction.apply] at h
    split at h
    · cases h
      exact ⟨p.phase, .idle, hp⟩
    · cases h
  | lose k =>
    cases h
    exact ⟨p.phase, .idle, hp⟩
  | resolve k found error now =>
    simp only [SendStep, SendAction.apply] at h
    split at h
    · obtain ⟨s', -, rfl⟩ := Option.map_eq_some_iff.1 h
      exact ⟨p.phase, .idle, hp⟩
    · cases h

section Carry
variable {staged : ObjectManifest} {p : Worker}

theorem ObjectManifest.Relocating.next (h : staged.Relocating done (c :: rest))
    (hc : c.Relocates c') : staged.Relocating (done ++ [c']) rest := by
  obtain ⟨front, he, hf⟩ := h
  exact ⟨front ++ [c], by rw [he, List.append_assoc]; rfl, List.rel_append hf (.cons hc .nil)⟩

theorem SendTarget.Carries.located {t : SendTarget} (h : t.Carries staged)
    (l : TelegramLocation) : (t.located l).Carries staged := by
  cases t with
  | chunk m done c rest => exact ⟨h.1, h.2.next ⟨l, rfl⟩⟩
  | document m =>
    obtain ⟨placed, hf, hm⟩ := h
    refine ⟨placed, hf, ?_⟩
    rw [hm]

theorem SendTarget.Carries.lookUp {t : SendTarget} (h : t.Carries staged) (s : MetadataStore)
    (job : Uuid) : (s.lookUp job t).Carries staged := by
  unfold MetadataStore.lookUp
  split
  · exact h.located _
  · exact h

theorem WorkerPhase.Carries.read (h : p.phase.Carries staged) (s : MetadataStore) :
    (p.read s).Carries staged := by
  obtain ⟨job, objectId, lease, phase⟩ := p
  cases phase with
  | loading => exact h.elim
  | chunks m done rest =>
    cases rest with
    | nil => exact h
    | cons c rest =>
      simp only [Worker.read]
      split
      · split
        · trivial
        · exact ⟨h.1, h.2.next ⟨⟨_, _, _⟩, rfl⟩⟩
      · exact SendTarget.Carries.lookUp (t := .chunk m done c rest) h s job
  | fenced m => exact SendTarget.Carries.lookUp (t := .document m) h s job
  | absent | sending | answered | ready | finishing | stopped => exact h

theorem WorkerPhase.Carries.call (h : p.phase.Carries staged) (hc : WorkerCall p op phase) :
    phase.Carries staged := by
  cases hc with
  | @fence m done now he =>
    rw [he] at h
    obtain ⟨rfl, front, hf, hd⟩ := h
    rw [List.append_nil] at hf
    exact ⟨done, hf ▸ hd, rfl⟩
  | begin he =>
    rw [he] at h
    exact h
  | finish he =>
    rw [he] at h
    exact h.located _
  | flood | lost | update | commit | part => trivial

theorem WorkerPhase.Carries.change (h : p.phase.Carries staged)
    (hc : WorkerChange s p phase) : phase.Carries staged := by
  cases hc with
  | idle => exact h
  | read => exact h.read s
  | call hc => exact h.call hc
  | reply he =>
    rw [he] at h
    exact h
  | stop => trivial

end Carry

theorem carries_of_run {v w : SendWorld} {q : Worker} {i : Nat} {staged : ObjectManifest}
    (hr : Run (fun u => u = v) (SendStep fromStr) later w)
    (hq : v.workers[i]? = some q) (hc : q.phase.Carries staged) :
    ∃ phase : WorkerPhase, phase.Carries staged ∧ w.workers[i]? = some { q with phase } := by
  refine hr.invariant (I := fun w => ∃ phase : WorkerPhase, phase.Carries staged ∧
    w.workers[i]? = some { q with phase }) ?_ ?_
  · rintro _ rfl
    exact ⟨q.phase, hc, hq⟩
  · rintro a u u' ⟨phase, hc, hu⟩ hs
    obtain ⟨phase', hch, hu'⟩ := hs.change hu
    exact ⟨phase', WorkerPhase.Carries.change hc hch, hu'⟩

theorem Laid.relocate
    (h : Laid R order offset chunks pieces) (hf : List.Forall₂ ChunkRef.Relocates chunks placed) :
    Laid (fun c' p => ∃ c l, c' = c.placed l ∧ R c p) order offset placed pieces := by
  induction h generalizing placed with
  | nil =>
    cases hf
    exact .nil
  | cons hr ho ho' hs _ ih =>
    cases hf with
    | cons hc hf =>
      obtain ⟨l, rfl⟩ := hc
      exact .cons ⟨_, l, rfl, hr⟩ ho ho' hs (ih hf)

theorem enqueueWithPart_ok (h : enqueueWithPart env req s begun now = .ok received) :
    ∃ store staged, receiveBody env req.objectId store req.body = .ok staged ∧
      received.files = staged.files ∧
      received.manifest = env.cfg.newManifest
        { objectId := req.objectId, bucket := req.bucket, key := req.key
          contentType := req.contentType, expiresAt := req.expiresAt, chunks := staged.chunks
          wholeChecksum := env.crypto.sha256Hex staged.hashed } now := by
  obtain ⟨-, -, h⟩ := bind_ok.1 h
  obtain ⟨s₁, -, h⟩ := bind_ok.1 h
  obtain ⟨s₂, -, h⟩ := bind_ok.1 h
  obtain ⟨staged, hs, h⟩ := bind_ok.1 h
  obtain ⟨-, -, h⟩ := bind_ok.1 h
  obtain ⟨⟨m, s₃⟩, hf, h⟩ := bind_ok.1 h
  cases h
  refine ⟨s₂, staged, hs, rfl, ?_⟩
  obtain ⟨-, -, hf⟩ := bind_ok.1 hf
  obtain ⟨s₄, -, hf⟩ := bind_ok.1 hf
  obtain ⟨s₅, -, hf⟩ := bind_ok.1 hf
  obtain ⟨s₆, -, hf⟩ := bind_ok.1 hf
  cases hf
  rfl

/-- Downloads of a document accepted for the job answer with the file staged for it. -/
structure Serves (d : Downloads) (s : MetadataStore) (t : Telegram) (job : Uuid)
    (files : List Bytes) : Prop where
  enabled : s.primaryDownloadEnabled = true
  permitted : ∀ account n, d.permit account n = .ok ()
  returns : ∀ k l f, (k, l) ∈ t.documents → k.1 = job → files[k.2.1]? = some f →
    fitsI32 l.messageId = true ∧
      ∀ account n, d.message { accountId := account, location := l, isPrimary := true } n = .ok f

/-- An object whose every range reads as that range of the bytes, with their checksum. -/
structure RoundTrips (crypto : Crypto) (d : Downloads) (s : MetadataStore) (m : ObjectManifest)
    (bytes : Bytes) : Prop where
  reads : ∀ start stop, start ≤ stop → stop ≤ bytes.length →
    readRange crypto d s m start stop = .ok (slice start stop bytes)
  length : m.contentLength = bytes.length
  checksum : m.checksum.wholeObject = crypto.sha256Hex bytes

theorem StagedChunk.reads
    (h : StagedChunk crypto m.objectId files c p) (he : m.encryption.enabled = true)
    (hc : m.chunks[c.order]? = some (c.placed l)) (hd : Serves d s t job files)
    (ha : t.Accepted job c.order l) : Reads crypto d s m (c.placed l) p := by
  obtain ⟨f, hf, hseal⟩ := h.file
  obtain ⟨attempt, hdoc⟩ := ha
  obtain ⟨hid, hmsg⟩ := hd.returns _ _ f hdoc rfl hf
  have hpayload : (c.placed l).payloadIdentity m.objectId = (m.objectId, c.order) := by
    simp only [ChunkRef.payloadIdentity, ChunkRef.placed, h.source.1, h.source.2]
    rfl
  have hcand : s.readCandidates (c.placed l) = [s.primaryCandidate (c.placed l)] := by
    simp only [readCandidates, hd.enabled, ChunkRef.placed, h.replicas]
    rfl
  have hfit : fitsI32 (s.primaryCandidate (c.placed l)).location.messageId = true := hid
  have hne : s.readCandidates (c.placed l) ≠ [] := by
    rw [hcand]
    exact List.cons_ne_nil _ _
  apply Reads.of_copies hne hc h.checksum
  intro candidate hmem n
  rw [hcand, List.mem_singleton] at hmem
  subst hmem
  have hm : d.message (s.primaryCandidate (c.placed l)) n = .ok f := hmsg _ n
  refine ⟨f, ?_, ?_⟩
  · rw [Downloads.attempt, hfit, hd.permitted, hm]
    rfl
  · simp only [Crypto.readPlaintext, he, if_true, hpayload]
    rw [crypto.decryptChunk_of_encryptChunk hseal]

theorem RoundTrips.of_laid
    (hl : Laid (fun c' p => ∃ c l, c' = c.placed l ∧ StagedChunk crypto m.objectId files c p) 0 0
      m.chunks pieces) (he : m.encryption.enabled = true)
    (hlen : m.contentLength = pieces.flatten.length) (hfits : pieces.flatten.length < 2 ^ 64)
    (hsum : m.checksum.wholeObject = crypto.sha256Hex pieces.flatten)
    (hplaced : t.Places job m.chunks) (hd : Serves d s t job files) :
    RoundTrips crypto d s m pieces.flatten := by
  refine ⟨fun start stop hle hstop => ?_, hlen, hsum⟩
  refine Laid.readRange (hl.mono ?_) hlen hfits hle hstop
  rintro _ hm p ⟨c, l, rfl, hc⟩
  have hown : (c.placed l).referencesRemotePayload = false := by
    simp only [ChunkRef.referencesRemotePayload, ChunkRef.placed, hc.source.1]
    rfl
  exact hc.reads he (hl.getElem?_order hm) hd (hplaced (c.placed l) hm hown)

theorem ObjectManifest.Publishes.roundTrips {staged : Staged} {args : ManifestBuildArgs}
    {t : Telegram} {cfg : ServiceConfig} {m : ObjectManifest}
    (hm : (cfg.newManifest args accepted).Publishes m)
    (hsound : staged.Sound env args.objectId) (hchunks : args.chunks = staged.chunks)
    (hsum : args.wholeChecksum = env.crypto.sha256Hex staged.hashed)
    (hfits : staged.hashed.length < 2 ^ 64) (hplaced : t.Places job m.chunks)
    (hd : Serves d s t job staged.files) (state : CommitState) :
    RoundTrips env.crypto d s (m.withState state) staged.hashed := by
  obtain ⟨pieces, hlaid, hpieces⟩ := hsound.laid
  obtain ⟨placed, hreloc, hm⟩ := hm
  rw [← hchunks] at hlaid
  have hlaid' := hlaid.relocate hreloc
  have hplaces : m.chunks = placed := by
    rw [hm]
    exact hlaid'.sorted.insertionSort_eq
  have hid : m.objectId = args.objectId := by
    rw [hm]
    rfl
  have he : m.encryption.enabled = true := by
    rw [hm]
    rfl
  have hlen : m.contentLength = pieces.flatten.length := by
    rw [hm]
    exact hlaid.sum_size
  have hwhole : m.checksum.wholeObject = env.crypto.sha256Hex pieces.flatten := by
    rw [hm, hpieces, ← hsum]
    rfl
  rw [← hpieces] at hfits ⊢
  rw [← hplaces, ← hid] at hlaid'
  exact RoundTrips.of_laid hlaid' he hlen hfits hwhole hplaced hd

/-- A worker publishes what it loaded, with its chunks where Telegram accepted them. -/
theorem publication_of_run {v v' w w' : SendWorld}
    (hpast : Run SendWorld.Initial (SendStep fromStr) past v) (hq : v.workers[i]? = some q)
    (hloading : q.phase = .loading) (hstored : v.store.getManifest q.objectId = .ok (some staged))
    (hload : SendStep fromStr (.read i) v v')
    (hrun : Run (fun u => u = v') (SendStep fromStr) later w) (hp : w.workers[i]? = some p)
    (hready : p.phase = .ready m) (hpublish : SendStep fromStr (.run i (.publish now)) w w') :
    staged.Publishes m ∧ w.telegram.Places p.job m.chunks ∧
      w'.telegram.documents = w.telegram.documents ∧
      ∃ op phase, WorkerCall p op phase ∧ StoreStep fromStr op w.store w'.store := by
  have hplaced : Worker.Placed w.telegram p :=
    ((SendWorld.sound_of_run ((hpast.step hload).trans hrun)).workers p
      (List.mem_iff_getElem?.2 ⟨i, hp⟩)).placed
  rw [Worker.Placed, hready] at hplaced
  have hcarries : staged.Publishes m := by
    obtain ⟨q', hq', rfl⟩ := Option.map_eq_some_iff.1 hload
    rw [hq] at hq'
    cases hq'
    have hread : q.read v.store = .chunks staged [] staged.chunks := by
      rw [Worker.read, hloading]
      simp only [hstored]
    have hc : (q.read v.store).Carries staged := by
      rw [hread]
      exact ⟨rfl, [], rfl, .nil⟩
    obtain ⟨phase, hc, hw⟩ := carries_of_run hrun
      (List.getElem?_set_self (List.getElem?_eq_some_iff.1 hq).1) hc
    rw [hp] at hw
    cases hw
    simp only at hready
    rw [hready] at hc
    exact hc
  obtain ⟨q', hq', hs⟩ := Option.bind_eq_some_iff.1 hpublish
  rw [hp] at hq'
  cases hq'
  obtain ⟨⟨op, phase⟩, hstep, hs⟩ := Option.bind_eq_some_iff.1 hs
  obtain ⟨s', ha, rfl⟩ := Option.map_eq_some_iff.1 hs
  exact ⟨hcarries, hplaced.1, rfl, op, phase, .of_step hstep, ha⟩

def parcelEnv : ReceptionEnv where
  cfg := { storageChatId := "-1001", keyId := "k1" }
  crypto := taggingCrypto
  chunkSize := 2
  chunkSize_pos := by decide
  stagingBudget := 1000
  clock _ := (instant 1).unixTimestamp
  disk _ := .ok ()

def parcelRequest : UploadRequest :=
  { objectId := ⟨1⟩, bucket := "photos", key := "a", contentType := "text/plain"
    body := [[1], [], [2, 3]].map some }

def parcelReception : Except ObjectFormatError Received :=
  enqueueWithPart parcelEnv parcelRequest photosStore (instant 1).unixTimestamp (instant 1)

def parcel : Received := parcelReception.toOption.get (by decide +kernel)

theorem parcelReception_eq : parcelReception = .ok parcel :=
  ok_of_toOption (Option.some_get _).symm

def parcelPlace (attempt : Uuid) : TelegramLocation :=
  { peerId := "-1001", messageId := attempt.value.toNat, documentId := none }

def parcelClaim (now : Int) : List SendAction :=
  [.call (.call (.beginTransfer ⟨1⟩ "photos" "a" now)),
    .call (.call (.stageManifest .put parcel.manifest (instant 1))),
    .call (.call (.queueTransfer ⟨1⟩ 2 now)), .claim now ⟨11⟩]

def parcelSend (order : Nat) (attempt : Uuid) (now : Int) : List SendAction :=
  [.read 0, .run 0 (.begin attempt now),
    .accept (⟨1⟩, order, attempt) (parcelPlace attempt), .reply 0 (.ok (parcelPlace attempt)),
    .run 0 (.record now)]

def parcelSends (now : Int) : List SendAction :=
  parcelSend 0 ⟨21⟩ now ++ parcelSend 1 ⟨22⟩ now ++ [.run 0 (.fence now)] ++
    parcelSend manifestOrder ⟨23⟩ now

def parcelClaimed : List SendWorld × SendWorld :=
  (exec (SendAction.apply fun _ => none) [] { store := photosStore }
    (parcelClaim (instant 1).unixTimestamp)).get (by decide +kernel)

def parcelLoaded : SendWorld :=
  ((SendAction.read 0).apply (fun _ => none) parcelClaimed.2).get (by decide +kernel)

def parcelSent : List SendWorld × SendWorld :=
  (exec (SendAction.apply fun _ => none) [] parcelLoaded
    (parcelSends (instant 1).unixTimestamp)).get (by decide +kernel)

def parcelPublished : SendWorld :=
  ((SendAction.run 0 (.publish (instant 1))).apply (fun _ => none) parcelSent.2).get
    (by decide +kernel)

def parcelLoader : Worker := parcelClaimed.2.workers[0]?.get (by decide +kernel)

def parcelSender : Worker := parcelSent.2.workers[0]?.get (by decide +kernel)

def parcelDownloads : Downloads where
  failoverRetries := 1
  permit _ _ := .ok ()
  message c _ :=
    match parcel.files[(c.location.messageId - 21).toNat]? with
    | some f => .ok f
    | none => .error { kind := .notFound, message := "message not found" }

theorem parcel_documents : parcelPublished.telegram.documents =
    [((⟨1⟩, manifestOrder, ⟨23⟩), parcelPlace ⟨23⟩), ((⟨1⟩, 1, ⟨22⟩), parcelPlace ⟨22⟩),
      ((⟨1⟩, 0, ⟨21⟩), parcelPlace ⟨21⟩)] := by
  decide +kernel

theorem parcel_served :
    Serves parcelDownloads parcelPublished.store parcelPublished.telegram ⟨1⟩ parcel.files := by
  refine ⟨by decide +kernel, fun _ _ => rfl, fun k l f hm hk hf => ?_⟩
  rw [parcel_documents] at hm
  simp only [List.mem_cons, Prod.mk.injEq, List.not_mem_nil, or_false] at hm
  rcases hm with ⟨rfl, rfl⟩ | ⟨rfl, rfl⟩ | ⟨rfl, rfl⟩
  · have hn : parcel.files[manifestOrder]? = none := by decide +kernel
    rw [hn] at hf
    cases hf
  · refine ⟨by decide, fun account n => ?_⟩
    show (match parcel.files[1]? with | some f => _ | none => _) = _
    rw [hf]
  · refine ⟨by decide, fun account n => ?_⟩
    show (match parcel.files[0]? with | some f => _ | none => _) = _
    rw [hf]

end TelegramS3
