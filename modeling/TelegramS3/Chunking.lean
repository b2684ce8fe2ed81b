import TelegramS3.Failover
import TelegramS3.Reception
import TelegramS3.Segments

namespace TelegramS3
open Relational Fallible MetadataStore Segments
set_option autoImplicit true

/-- Chunks that describe consecutive pieces, the first of the given order and offset. -/
inductive Laid (R : ChunkRef → Bytes → Prop) : Nat → Nat → List ChunkRef → List Bytes → Prop where
  | nil : Laid R order offset [] []
  | cons : R c p → c.order = order → c.offset = offset → c.size = p.length →
      Laid R (order + 1) (offset + p.length) chunks pieces →
      Laid R order offset (c :: chunks) (p :: pieces)

namespace Laid
variable {R R' : ChunkRef → Bytes → Prop} {chunks : List ChunkRef} {pieces : List Bytes}

section
variable (h : Laid R order offset chunks pieces)
include h

theorem mono (hR : ∀ c ∈ chunks, ∀ p, R c p → R' c p) : Laid R' order offset chunks pieces := by
  induction h with
  | nil => exact .nil
  | cons hr ho hf hs _ ih =>
    refine .cons (hR _ List.mem_cons_self _ hr) ho hf hs (ih fun c hc => ?_)
    exact hR c (List.mem_cons_of_mem _ hc)

theorem snoc (hr : R c p) (ho : c.order = order + chunks.length)
    (hf : c.offset = offset + pieces.flatten.length) (hs : c.size = p.length) :
    Laid R order offset (chunks ++ [c]) (pieces ++ [p]) := by
  induction h with
  | nil => exact .cons hr ho hf hs .nil
  | cons hr' ho' hf' hs' _ ih =>
    refine .cons hr' ho' hf' hs' (ih ?_ ?_)
    · rw [ho, List.length_cons]
      omega
    · rw [hf, List.flatten_cons, List.length_append]
      omega

theorem sum_size : (chunks.map ChunkRef.size).sum = pieces.flatten.length := by
  induction h with
  | nil => rfl
  | cons _ _ _ hs _ ih => rw [List.map_cons, List.sum_cons, ih, hs, List.flatten_cons,
      List.length_append]

theorem le_order : ∀ c ∈ chunks, order ≤ c.order := by
  induction h with
  | nil =>
    intro c hc
    cases hc
  | cons _ ho _ _ _ ih =>
    intro c hc
    rcases List.mem_cons.1 hc with rfl | hc
    · exact ho.ge
    · exact (Nat.le_succ _).trans (ih c hc)

theorem sorted : chunks.Pairwise fun a b => a.order ≤ b.order := by
  induction h with
  | nil => exact .nil
  | cons _ ho _ _ hl ih =>
    refine .cons (fun c hc => ?_) ih
    rw [ho]
    exact (Nat.le_succ _).trans (hl.le_order c hc)

theorem getElem?_order (hc : c ∈ chunks) : chunks[c.order - order]? = some c := by
  induction h with
  | nil => cases hc
  | @cons c' p order offset chunks pieces _ ho _ _ hl ih =>
    rcases List.mem_cons.1 hc with rfl | hc
    · rw [ho, Nat.sub_self]
      rfl
    · have hle := hl.le_order c hc
      rw [show c.order - order = c.order - (order + 1) + 1 by omega]
      exact ih hc

end

end Laid

/-- A chunk as the reception stages it: sealed under its own object and order. -/
structure StagedChunk (crypto : Crypto) (objectId : Uuid) (files : List Bytes) (c : ChunkRef)
    (p : Bytes) : Prop where
  checksum : c.checksum = crypto.sha256Hex p
  source : c.sourceObjectId = none ∧ c.sourceChunkOrder = none
  replicas : c.replicas = []
  file : ∃ f, files[c.order]? = some f ∧ crypto.encryptChunk objectId c.order p = .ok f

/-- Everything hashed so far is laid out in the chunks. -/
structure Staged.Sound (env : ReceptionEnv) (objectId : Uuid) (st : Staged) : Prop where
  laid : ∃ pieces, Laid (StagedChunk env.crypto objectId st.files) 0 0 st.chunks pieces ∧
    pieces.flatten = st.hashed
  offset : st.offset = st.hashed.length
  files : st.files.length = st.chunks.length

section Receive
variable {env : ReceptionEnv} {objectId : Uuid} {st st' : Staged}

theorem Staged.Sound.stage (h : st.Sound env objectId)
    (hs : stageTransferChunk env objectId bytes st = .ok st') :
    st'.Sound env objectId ∧ st'.hashed = st.hashed ++ bytes := by
  obtain ⟨-, -, hs⟩ := bind_ok.1 hs
  obtain ⟨store, -, hs⟩ := bind_ok.1 hs
  obtain ⟨encrypted, he, hs⟩ := bind_ok.1 hs
  obtain ⟨-, -, hs⟩ := bind_ok.1 hs
  obtain ⟨chat, -, hs⟩ := bind_ok.1 hs
  cases hs
  obtain ⟨pieces, hl, hp⟩ := h.laid
  refine ⟨⟨⟨pieces ++ [bytes], Laid.snoc (hl.mono ?_) ?_ ?_ ?_ rfl, ?_⟩, ?_, ?_⟩, rfl⟩
  · rintro c - p ⟨hc, hsrc, hrep, f, hf, hseal⟩
    refine ⟨hc, hsrc, hrep, f, ?_, hseal⟩
    rw [List.getElem?_append_left (List.getElem?_eq_some_iff.1 hf).1, hf]
  · refine ⟨rfl, ⟨rfl, rfl⟩, rfl, encrypted, ?_, he⟩
    show (st.files ++ [encrypted])[st.chunks.length]? = some encrypted
    rw [← h.files, List.getElem?_concat_length]
  · exact (Nat.zero_add _).symm
  · rw [hp, Nat.zero_add]
    exact h.offset
  · rw [List.flatten_append, List.flatten_singleton, hp]
  · rw [h.offset, List.length_append]
  · rw [List.length_append, List.length_append, h.files]
    rfl

theorem receiveFrame_sound
    (h : r.staged.Sound env objectId) (hr : receiveFrame env objectId r frame = .ok r') :
    r'.staged.Sound env objectId ∧
      r'.staged.hashed ++ r'.pending = r.staged.hashed ++ r.pending ++ frame := by
  fun_induction receiveFrame env objectId r frame with
  | case1 r =>
    cases hr
    simp [h]
  | case2 r remaining hne hfull ih =>
    obtain ⟨staged, hs, hr⟩ := bind_ok.1 hr
    obtain ⟨hsound, hh⟩ := h.stage hs
    obtain ⟨hsound', hh'⟩ := ih staged hsound hr
    refine ⟨hsound', ?_⟩
    rw [hh', hh]
    simp [Receiving.filled]
  | case3 r remaining hne hfull ih =>
    obtain ⟨hsound', hh'⟩ := ih h hr
    refine ⟨hsound', ?_⟩
    rw [hh']
    simp [Receiving.filled]

theorem receiveFrames_sound {r r' : Receiving env.chunkSize} {frames : List Bytes}
    (h : r.staged.Sound env objectId)
    (hr : receiveFrames env objectId r (frames.map some) = .ok r') :
    r'.staged.Sound env objectId ∧
      r'.staged.hashed ++ r'.pending = r.staged.hashed ++ r.pending ++ frames.flatten := by
  induction frames generalizing r with
  | nil =>
    cases hr
    simp [h]
  | cons frame rest ih =>
    obtain ⟨r₁, h₁, hr⟩ := bind_ok.1 hr
    obtain ⟨hs₁, hh₁⟩ := receiveFrame_sound h h₁
    obtain ⟨hs', hh'⟩ := ih hs₁ hr
    refine ⟨hs', ?_⟩
    rw [hh', hh₁, List.flatten_cons, List.append_assoc]

theorem receiveBody_sound {frames : List Bytes}
    (h : receiveBody env objectId store (frames.map some) = .ok st) :
    st.Sound env objectId ∧ st.hashed = frames.flatten := by
  obtain ⟨r, hr, h⟩ := bind_ok.1 h
  have hinit : Staged.Sound env objectId { store } := ⟨⟨[], .nil, rfl⟩, rfl, rfl⟩
  obtain ⟨hs, hh⟩ := receiveFrames_sound hinit hr
  rw [List.nil_append, List.nil_append] at hh
  split at h
  · rename_i he
    cases h
    rw [List.isEmpty_iff.1 he, List.append_nil] at hh
    exact ⟨hs, hh⟩
  · obtain ⟨hs', hh'⟩ := hs.stage h
    exact ⟨hs', hh'.trans hh⟩

end Receive

section Read
variable {crypto : Crypto} {d : Downloads} {s : MetadataStore} {m : ObjectManifest}

def Reads (crypto : Crypto) (d : Downloads) (s : MetadataStore) (m : ObjectManifest)
    (c : ChunkRef) (p : Bytes) : Prop :=
  ∀ span : ReadSpan, span.order = c.order → span.checksum = c.checksum →
    span.offsetWithinChunk + span.length ≤ p.length →
    ∃ r, readStreamSpan crypto d s m span = .ok r ∧ r.bytes = span.of p

theorem Laid.planSpans_reads (h : Laid (Reads crypto d s m) order offset chunks pieces)
    (hlen : offset + pieces.flatten.length < 2 ^ 64) (start stop : Nat) :
    ∃ spans results, planSpans start stop chunks = .ok spans ∧
      spans.mapM (readStreamSpan crypto d s m) = .ok results ∧
      results.map ReadSpanResult.bytes = overlaps start stop offset pieces := by
  induction h with
  | nil => exact ⟨[], [], rfl, rfl, rfl⟩
  | @cons c p order offset chunks pieces hr ho hf hs _ ih =>
    rw [List.flatten_cons, List.length_append] at hlen
    obtain ⟨spans, results, hspans, hresults, hbytes⟩ := ih (by omega)
    have hend : ensure (decide (c.offset + c.size < 2 ^ 64))
        (ObjectFormatError.invalidRead "chunk offset overflow") = .ok () := by
      rw [ensure_ok, decide_eq_true_eq, hf, hs]
      omega
    rw [overlaps, planSpans, hend, hspans, ← hf, ← hs]
    by_cases hout : c.offset + c.size ≤ start ∨ stop ≤ c.offset
    · refine ⟨spans, results, ?_, hresults, ?_⟩
      · simp only [hout, if_true]
        rfl
      · rw [if_pos hout, hbytes, hf, hs]
    · obtain ⟨r, hread, hrb⟩ := hr (c.readSpan start stop) rfl rfl (by
        dsimp only [ChunkRef.readSpan]
        omega)
      refine ⟨c.readSpan start stop :: spans, r :: results, ?_, ?_, ?_⟩
      · simp only [hout, if_false]
        rfl
      · rw [List.mapM_cons, hread, hresults]
        rfl
      · rw [if_neg hout, List.map_cons, hbytes, hrb, ReadSpan.of, slice, hf, hs]
        dsimp only [ChunkRef.readSpan]
        rw [hf, hs]
        congr 2
        omega

theorem Laid.readRange (h : Laid (Reads crypto d s m) 0 0 m.chunks pieces)
    (hc : m.contentLength = pieces.flatten.length)
    (hlen : pieces.flatten.length < 2 ^ 64) (hle : start ≤ stop)
    (hstop : stop ≤ pieces.flatten.length) :
    readRange crypto d s m start stop = .ok (slice start stop pieces.flatten) := by
  obtain ⟨spans, results, hspans, hresults, hbytes⟩ := h.planSpans_reads (by omega) start stop
  have hplan : planRead m start stop =
      .ok { objectId := m.objectId, requestedRange := (start, stop), chunks := spans } := by
    simp only [planRead, hspans, hc, hle, hstop]
    rfl
  rw [TelegramS3.readRange, hplan]
  simp only [bind, Except.bind, hresults, hbytes, overlaps_flatten]
  rfl

theorem Reads.of_copies (hne : s.readCandidates c ≠ []) (hc : m.chunks[c.order]? = some c)
    (hsum : c.checksum = crypto.sha256Hex p)
    (hcopies : ∀ candidate ∈ s.readCandidates c, ∀ n, ∃ f,
      d.attempt c.order candidate n = .ok (candidate.accountId, f) ∧
        crypto.readPlaintext m c f = .ok p) :
    Reads crypto d s m c p := by
  intro span ho hs hl
  have hpos : 0 < (s.readCandidates c).length := List.length_pos_iff.2 hne
  obtain ⟨candidate, hmem, hfirst⟩ := exists_failover_candidate d span.order hpos 0
  obtain ⟨f, hf, hplain⟩ := hcopies candidate hmem 0
  refine ⟨_, (readStreamSpan_ok (ho ▸ hc)).2
    ⟨hpos, 0, (candidate.accountId, f), p, Nat.mul_pos (Nat.succ_pos _) hpos, ?_, ?_, hplain, ?_,
      hl, rfl⟩, rfl⟩
  · rw [hfirst, ho, hf]
  · intro j hj
    cases hj
  · rw [hs, hsum]

end Read

end TelegramS3
