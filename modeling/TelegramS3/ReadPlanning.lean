import TelegramS3.Provenance
import TelegramS3.Tiling

namespace TelegramS3
open Relational Fallible MetadataStore Segments
set_option autoImplicit true

def ChunkRef.interval (c : ChunkRef) (span : ReadSpan) : Nat × Nat :=
  (c.offset + span.offsetWithinChunk, c.offset + span.offsetWithinChunk + span.length)

structure ChunkRef.Holds (c : ChunkRef) (span : ReadSpan) : Prop where
  order : span.order = c.order
  checksum : span.checksum = c.checksum
  nonempty : 0 < span.length
  inside : span.offsetWithinChunk + span.length ≤ c.size

/-- The spans of a plan, with the chunks they are in, tile the range. -/
structure PlanTiles (m : ObjectManifest) (start stop : Nat) (chunks : List ChunkRef)
    (spans : List ReadSpan) : Prop where
  sublist : chunks.Sublist m.chunks
  holds : List.Forall₂ ChunkRef.Holds chunks spans
  tiles : Tiles start (List.zipWith ChunkRef.interval chunks spans) stop
  disjoint : (List.zipWith ChunkRef.interval chunks spans).Pairwise fun p q => p.2 ≤ q.1
  covers : ∀ x, (start ≤ x ∧ x < stop) ↔
    ∃ p ∈ List.zipWith ChunkRef.interval chunks spans, p.1 ≤ x ∧ x < p.2

def selected (payload : Nat → Bytes) (spans : List ReadSpan) : Bytes :=
  (spans.map fun span => span.of (payload span.order)).flatten

def checkedAdd (a b : Nat) : Option Nat := if a + b < 2 ^ 64 then some (a + b) else none

def checkedSub (a b : Nat) : Option Nat := if b ≤ a then some (a - b) else none

/-- The loop of `plan_read` on `u64`: nothing where an operation is not defined. -/
def planSpansU64 (start stop : Nat) :
    List ChunkRef → Option (Except ObjectFormatError (List ReadSpan))
  | [] => some (.ok [])
  | c :: rest =>
    match checkedAdd c.offset c.size with
    | none => some (.error (.invalidRead "chunk offset overflow"))
    | some chunkEnd =>
      if chunkEnd ≤ start ∨ stop ≤ c.offset then planSpansU64 start stop rest
      else do
        let overlapStart := max start c.offset
        let offsetWithinChunk ← checkedSub overlapStart c.offset
        let length ← checkedSub (min stop chunkEnd) overlapStart
        let spans ← planSpansU64 start stop rest
        return spans.map fun spans =>
          { order := c.order, offsetWithinChunk, length, checksum := c.checksum } :: spans

def sliceBounds (span : ReadSpan) : Option (Nat × Nat) :=
  (checkedAdd span.offsetWithinChunk span.length).map fun stop => (span.offsetWithinChunk, stop)

/-- Chunks of consecutive orders and offsets. -/
inductive Consecutive : Nat → Nat → List ChunkRef → Nat → Prop where
  | nil : Consecutive index offset [] offset
  | cons {index offset total : Nat} {chunks : List ChunkRef} (c : ChunkRef) :
      c.order = index % 2 ^ 32 → 0 < c.size → c.offset = offset → offset + c.size < 2 ^ 64 →
      Consecutive (index + 1) (offset + c.size) chunks total →
      Consecutive index offset (c :: chunks) total

theorem Consecutive.of_validate (h : validateChunks chunks index offset = .ok total) :
    Consecutive index offset chunks total := by
  induction chunks generalizing index offset with
  | nil =>
    cases h
    exact .nil
  | cons c chunks ih =>
    obtain ⟨next, hc, h⟩ := bind_ok.1 h
    obtain ⟨hv, rfl⟩ := ChunkRef.validate_eq_ok.1 hc
    exact .cons c hv.order (Nat.pos_of_ne_zero hv.size) hv.offset hv.bound (ih h)

def ChunkRef.overlapsRange (start stop : Nat) (c : ChunkRef) : Bool :=
  !(c.offset + c.size ≤ start || stop ≤ c.offset)

theorem ChunkRef.overlapsRange_eq {c : ChunkRef} : c.overlapsRange start stop =
    !decide (c.offset + c.size ≤ start ∨ stop ≤ c.offset) := by
  simp [overlapsRange]

namespace Consecutive
variable {index offset total start stop : Nat} {chunks : List ChunkRef}

section
variable (h : Consecutive index offset chunks total)
include h

theorem planSpans (start stop : Nat) : planSpans start stop chunks =
      .ok ((chunks.filter (·.overlapsRange start stop)).map (·.readSpan start stop)) := by
  induction h with
  | nil => rfl
  | @cons index offset total chunks c _ _ ho hb _ ih =>
    have hend : ensure (decide (c.offset + c.size < 2 ^ 64))
        (ObjectFormatError.invalidRead "chunk offset overflow") = .ok () := by
      rw [ensure_ok, decide_eq_true_eq, ho]
      exact hb
    rw [TelegramS3.planSpans, hend, ih, List.filter_cons, ChunkRef.overlapsRange_eq]
    by_cases hout : c.offset + c.size ≤ start ∨ stop ≤ c.offset
    · simp only [hout, if_true, decide_true, Bool.not_true, Bool.false_eq_true, if_false]
      rfl
    · simp only [hout, if_false, decide_false, Bool.not_false, if_true, List.map_cons]
      rfl

theorem planSpansU64 (hle : start ≤ stop) :
    planSpansU64 start stop chunks = some (TelegramS3.planSpans start stop chunks) := by
  rw [h.planSpans start stop]
  induction h with
  | nil => rfl
  | @cons index offset total chunks c _ hs ho hb _ ih =>
    have hend : checkedAdd c.offset c.size = some (c.offset + c.size) := by
      rw [checkedAdd, if_pos (by rw [ho]; exact hb)]
    rw [TelegramS3.planSpansU64, hend, List.filter_cons, ChunkRef.overlapsRange_eq]
    by_cases hout : c.offset + c.size ≤ start ∨ stop ≤ c.offset
    · simp only [hout, if_true, decide_true, Bool.not_true, Bool.false_eq_true, if_false]
      exact ih
    · have h₁ : checkedSub (max start c.offset) c.offset = some (max start c.offset - c.offset) := by
        rw [checkedSub, if_pos (by omega)]
      have h₂ : checkedSub (min stop (c.offset + c.size)) (max start c.offset) =
          some (min stop (c.offset + c.size) - max start c.offset) := by
        rw [checkedSub, if_pos (by omega)]
      simp only [hout, if_false, h₁, h₂, ih, decide_false, Bool.not_false, if_true, List.map_cons]
      rfl

theorem filter_nil (ho : stop ≤ offset) : chunks.filter (·.overlapsRange start stop) = [] := by
  induction h with
  | nil => rfl
  | @cons index offset total chunks c _ _ hc _ _ ih =>
    have hout : c.overlapsRange start stop = false := by
      rw [ChunkRef.overlapsRange_eq, decide_eq_true (.inr (by omega))]
      rfl
    rw [List.filter_cons, hout, if_neg Bool.false_ne_true]
    exact ih (by omega)

theorem tiles (hlt : start < stop) (ht : stop ≤ total) (ho : offset ≤ stop) :
    Tiles (max start offset) (List.zipWith ChunkRef.interval
      (chunks.filter (·.overlapsRange start stop))
      ((chunks.filter (·.overlapsRange start stop)).map (·.readSpan start stop))) stop := by
  induction h with
  | nil =>
    show max start _ = stop
    omega
  | @cons index offset total chunks c _ hs hc _ hrest ih =>
    rw [List.filter_cons, ChunkRef.overlapsRange_eq]
    by_cases hout : c.offset + c.size ≤ start ∨ stop ≤ c.offset
    · simp only [hout, decide_true, Bool.not_true, Bool.false_eq_true, if_false]
      by_cases hbefore : c.offset + c.size ≤ start
      · have hnext := ih ht (by omega)
        rw [show max start (offset + c.size) = start by omega] at hnext
        rw [show max start offset = start by omega]
        exact hnext
      · rw [hrest.filter_nil (by omega)]
        show max start offset = stop
        omega
    · simp only [hout, decide_false, Bool.not_false, if_true, List.map_cons, List.zipWith_cons_cons]
      have hpos : c.interval (c.readSpan start stop) =
          (max start offset, min stop (offset + c.size)) := by
        simp only [ChunkRef.interval, ChunkRef.readSpan, hc, Prod.mk.injEq]
        omega
      rw [hpos]
      refine ⟨rfl, by dsimp only; omega, ?_⟩
      by_cases hend : offset + c.size ≤ stop
      · have hnext := ih ht hend
        rw [show max start (offset + c.size) = offset + c.size by omega] at hnext
        rw [show min stop (offset + c.size) = offset + c.size by omega]
        exact hnext
      · rw [hrest.filter_nil (by omega)]
        show min stop (offset + c.size) = stop
        omega

theorem le_total : offset ≤ total := by
  induction h with
  | nil => exact Nat.le_refl _
  | cons c _ _ _ _ _ ih => omega

theorem mem (hc : c ∈ chunks) :
    0 < c.size ∧ c.offset + c.size < 2 ^ 64 ∧ c.offset + c.size ≤ total := by
  induction h with
  | nil => cases hc
  | cons c' _ hs ho hb hrest ih =>
    rcases List.mem_cons.1 hc with rfl | hc
    · exact ⟨hs, ho ▸ hb, ho ▸ hrest.le_total⟩
    · exact ih hc

theorem getElem?_order (hc : chunks[k]? = some c) : c.order = (index + k) % 2 ^ 32 := by
  induction h generalizing k with
  | nil => simp at hc
  | @cons index offset total chunks c' ho _ _ _ _ ih =>
    cases k with
    | zero =>
      rw [List.getElem?_cons_zero, Option.some.injEq] at hc
      rw [← hc, ho, Nat.add_zero]
    | succ k =>
      rw [List.getElem?_cons_succ] at hc
      rw [ih hc, show index + 1 + k = index + (k + 1) by omega]

end

theorem increasing (h : Consecutive 0 offset chunks total) (hl : chunks.length ≤ 2 ^ 32) :
    chunks.Pairwise fun a b => a.order < b.order := by
  rw [List.pairwise_iff_getElem]
  intro i j hi hj hij
  rw [h.getElem?_order (List.getElem?_eq_getElem hi),
    h.getElem?_order (List.getElem?_eq_getElem hj), Nat.mod_eq_of_lt (by omega),
    Nat.mod_eq_of_lt (by omega)]
  omega

end Consecutive

def ChunkRef.part (payload : Nat → Bytes) (start stop : Nat) (c : ChunkRef) : Bytes :=
  slice (max start c.offset - c.offset) (min stop (c.offset + c.size) - c.offset)
    (payload c.order)

theorem selected_cons (payload : Nat → Bytes) (start stop : Nat) (c : ChunkRef)
    (chunks : List ChunkRef) :
    selected payload (((c :: chunks).filter (·.overlapsRange start stop)).map
      (·.readSpan start stop)) = c.part payload start stop ++
      selected payload ((chunks.filter (·.overlapsRange start stop)).map
        (·.readSpan start stop)) := by
  rw [List.filter_cons, ChunkRef.overlapsRange_eq]
  by_cases hout : c.offset + c.size ≤ start ∨ stop ≤ c.offset
  · have hnil : c.part payload start stop = [] := slice_of_le (by omega) _
    simp only [hout, decide_true, Bool.not_true, Bool.false_eq_true, if_false, hnil,
      List.nil_append]
  · simp only [hout, decide_false, Bool.not_false, if_true, List.map_cons]
    rw [selected, List.map_cons, List.flatten_cons]
    congr 1
    simp only [ReadSpan.of, ChunkRef.readSpan, ChunkRef.part, slice]
    congr 1
    omega

namespace Consecutive
variable {index offset total : Nat} {chunks : List ChunkRef}

theorem selected_from (h : Consecutive index offset chunks total) (ha : a ≤ offset)
    (hb : b ≤ offset) (payload : Nat → Bytes) (stop : Nat) :
    selected payload ((chunks.filter (·.overlapsRange a stop)).map (·.readSpan a stop)) =
      selected payload ((chunks.filter (·.overlapsRange b stop)).map (·.readSpan b stop)) := by
  induction h with
  | nil => rfl
  | @cons index offset total chunks c _ _ ho _ _ ih =>
    rw [selected_cons, selected_cons, ih (by omega) (by omega), ChunkRef.part, ChunkRef.part,
      show max a c.offset = max b c.offset by omega]

theorem selected_compose (h : Consecutive index offset chunks total) (hab : a ≤ b) (hbc : b ≤ c)
    (payload : Nat → Bytes) :
    selected payload ((chunks.filter (·.overlapsRange a b)).map (·.readSpan a b)) ++
      selected payload ((chunks.filter (·.overlapsRange b c)).map (·.readSpan b c)) =
      selected payload ((chunks.filter (·.overlapsRange a c)).map (·.readSpan a c)) := by
  induction h with
  | nil => rfl
  | @cons index offset total chunks d _ _ ho _ hrest ih =>
    rw [selected_cons, selected_cons, selected_cons]
    by_cases hend : d.offset + d.size ≤ b
    · have hnil : d.part payload b c = [] := slice_of_le (by omega) _
      rw [hnil, List.nil_append, List.append_assoc, ih, ChunkRef.part, ChunkRef.part,
        show min b (d.offset + d.size) = min c (d.offset + d.size) by omega]
    · have hnil : chunks.filter (·.overlapsRange a b) = [] := hrest.filter_nil (by omega)
      have hfrom := hrest.selected_from (a := b) (b := a) (by omega) (by omega) payload c
      rw [hnil, List.map_nil, show selected payload [] = [] from rfl, List.append_nil,
        ← List.append_assoc, hfrom]
      congr 1
      rw [ChunkRef.part, ChunkRef.part, ChunkRef.part,
        show max b d.offset - d.offset = min b (d.offset + d.size) - d.offset by omega]
      exact slice_append_slice (by omega) (by omega) _

end Consecutive

theorem planRead_spans (hv : m.validate = .ok ()) (hle : start ≤ stop)
    (hstop : stop ≤ m.contentLength) : planRead m start stop =
      .ok { objectId := m.objectId, requestedRange := (start, stop)
            chunks := (m.chunks.filter (·.overlapsRange start stop)).map
              (·.readSpan start stop) } := by
  have hc := Consecutive.of_validate (ObjectManifest.validate_ok.1 hv).2
  simp only [planRead, hc.planSpans start stop, hle, hstop]
  rfl

theorem planRead_ok_iff (hv : m.validate = .ok ()) :
    (∃ plan, planRead m start stop = .ok plan) ↔ start ≤ stop ∧ stop ≤ m.contentLength := by
  constructor
  · rintro ⟨plan, h⟩
    obtain ⟨_, hle, h⟩ := bind_ok.1 h
    obtain ⟨_, hstop, -⟩ := bind_ok.1 h
    exact ⟨of_decide_eq_true (ensure_ok.1 hle), of_decide_eq_true (ensure_ok.1 hstop)⟩
  · rintro ⟨hle, hstop⟩
    exact ⟨_, planRead_spans hv hle hstop⟩

theorem ChunkRef.holds_readSpan {c : ChunkRef} (hs : 0 < c.size) (hlt : start < stop)
    (ho : c.overlapsRange start stop = true) : c.Holds (c.readSpan start stop) := by
  rw [ChunkRef.overlapsRange_eq, Bool.not_eq_true', decide_eq_false_iff_not] at ho
  refine ⟨rfl, rfl, ?_, ?_⟩
  · simp only [ChunkRef.readSpan]
    omega
  · simp only [ChunkRef.readSpan]
    omega

theorem planTiles {m : ObjectManifest} (hv : m.validate = .ok ()) (hlt : start < stop)
    (hstop : stop ≤ m.contentLength) :
    PlanTiles m start stop (m.chunks.filter (·.overlapsRange start stop))
      ((m.chunks.filter (·.overlapsRange start stop)).map (·.readSpan start stop)) := by
  have hc := Consecutive.of_validate (ObjectManifest.validate_ok.1 hv).2
  have ht := hc.tiles hlt hstop (Nat.zero_le _)
  rw [Nat.max_zero] at ht
  refine ⟨List.filter_sublist, ?_, ht, ht.disjoint, fun x => ht.covers⟩
  rw [List.forall₂_map_right_iff, List.forall₂_same]
  intro c hm
  obtain ⟨hm, ho⟩ := List.mem_filter.1 hm
  exact ChunkRef.holds_readSpan (hc.mem hm).1 hlt ho

/-- What a reader may rely on about the plans for the ranges of an object. -/
structure PlansReads (m : ObjectManifest) : Prop where
  fails : ∀ start stop, (∃ plan, planRead m start stop = .ok plan) ↔
    start ≤ stop ∧ stop ≤ m.contentLength
  defined : ∀ start stop, start ≤ stop → stop ≤ m.contentLength →
    planSpansU64 start stop m.chunks = some (planSpans start stop m.chunks)
  slices : ∀ start stop plan, planRead m start stop = .ok plan → ∀ span ∈ plan.chunks,
    (sliceBounds span).isSome = true
  tiles : ∀ start stop plan, start < stop → planRead m start stop = .ok plan →
    ∃ chunks, PlanTiles m start stop chunks plan.chunks
  increasing : ∀ start stop plan, start < stop → planRead m start stop = .ok plan →
    plan.chunks.Pairwise fun a b => a.order < b.order
  composes : ∀ a b c, a ≤ b → b ≤ c → c ≤ m.contentLength → ∃ p q r,
    planRead m a b = .ok p ∧ planRead m b c = .ok q ∧ planRead m a c = .ok r ∧
      ∀ payload, selected payload p.chunks ++ selected payload q.chunks =
        selected payload r.chunks

section
variable {m : ObjectManifest} (hv : m.validate = .ok ())
include hv

theorem planRead_eq (h : planRead m start stop = .ok plan) : start ≤ stop ∧ stop ≤ m.contentLength ∧
      plan.chunks = (m.chunks.filter (·.overlapsRange start stop)).map (·.readSpan start stop) := by
  obtain ⟨hle, hstop⟩ := (planRead_ok_iff hv).1 ⟨plan, h⟩
  rw [planRead_spans hv hle hstop] at h
  cases h
  exact ⟨hle, hstop, rfl⟩

theorem sliceBounds_isSome (h : planRead m start stop = .ok plan) (hs : span ∈ plan.chunks) :
    (sliceBounds span).isSome = true := by
  have hc := Consecutive.of_validate (ObjectManifest.validate_ok.1 hv).2
  obtain ⟨hle, -, he⟩ := planRead_eq hv h
  rw [he] at hs
  obtain ⟨c, hm, rfl⟩ := List.mem_map.1 hs
  obtain ⟨hm, ho⟩ := List.mem_filter.1 hm
  obtain ⟨-, hb, -⟩ := hc.mem hm
  rw [ChunkRef.overlapsRange_eq, Bool.not_eq_true', decide_eq_false_iff_not] at ho
  rw [sliceBounds, checkedAdd, if_pos]
  · rfl
  · simp only [ChunkRef.readSpan]
    omega

theorem not_increasing (hl : 2 ^ 32 < m.chunks.length) : ¬ PlansReads m := by
  intro h
  have hc := Consecutive.of_validate (ObjectManifest.validate_ok.1 hv).2
  have hall : m.chunks.filter (·.overlapsRange 0 m.contentLength) = m.chunks := by
    apply List.filter_eq_self.2
    intro c hm
    obtain ⟨hs, -, ht⟩ := hc.mem hm
    rw [ChunkRef.overlapsRange_eq, decide_eq_false (by omega)]
    rfl
  have hfirst : m.chunks[0]? = some m.chunks[0] := List.getElem?_eq_getElem (by omega)
  obtain ⟨hs, -, ht⟩ := hc.mem (List.mem_of_getElem? hfirst)
  have hp := h.increasing 0 m.contentLength _ (by omega)
    (planRead_spans hv (Nat.zero_le _) (Nat.le_refl _))
  rw [hall, List.pairwise_map, List.pairwise_iff_getElem] at hp
  have hlt := hp 0 (2 ^ 32) (by omega) hl (by omega)
  simp only [ChunkRef.readSpan] at hlt
  rw [hc.getElem?_order hfirst, hc.getElem?_order (List.getElem?_eq_getElem hl)] at hlt
  omega

end

/-- Plans tile the ranges; their orders increase exactly when the chunks are not too many. -/
theorem plans_reads_iff {m : ObjectManifest} (hv : m.validate = .ok ()) :
    PlansReads m ↔ m.chunks.length ≤ 2 ^ 32 := by
  have hc := Consecutive.of_validate (ObjectManifest.validate_ok.1 hv).2
  constructor
  · intro h
    by_contra hl
    exact not_increasing hv (by omega) h
  · intro hl
    refine ⟨fun _ _ => planRead_ok_iff hv, ?_, ?_, ?_, ?_, ?_⟩
    · intro start stop hle _
      exact hc.planSpansU64 hle
    · intro start stop plan h span hs
      exact sliceBounds_isSome hv h hs
    · intro start stop plan hlt h
      obtain ⟨-, hstop, he⟩ := planRead_eq hv h
      rw [he]
      exact ⟨_, planTiles hv hlt hstop⟩
    · intro start stop plan _ h
      obtain ⟨-, -, he⟩ := planRead_eq hv h
      rw [he, List.pairwise_map]
      exact (hc.increasing hl).sublist List.filter_sublist
    · intro a b c hab hbc hcl
      refine ⟨_, _, _, planRead_spans hv hab (hbc.trans hcl), planRead_spans hv hbc hcl,
        planRead_spans hv (hab.trans hbc) hcl, fun payload => ?_⟩
      exact hc.selected_compose hab hbc payload

def tenByteObject : ObjectManifest :=
  { emptyObject ⟨1⟩ "photos" "a" with
    contentLength := 10
    chunks :=
      [{ order := 0, offset := 0, size := 10, checksum := "c", telegramPeerId := "-1001"
         telegramMessageId := 5, telegramDocumentId := none }] }

theorem ten_bytes_plans_reads : tenByteObject.validate = .ok () ∧ PlansReads tenByteObject := by
  have hv : tenByteObject.validate = .ok () := by decide +kernel
  exact ⟨hv, (plans_reads_iff hv).2 (by decide)⟩

def byteChunk (i : Nat) : ChunkRef :=
  { order := i % 2 ^ 32, offset := i, size := 1, checksum := "c", telegramPeerId := "-1001"
    telegramMessageId := 5, telegramDocumentId := none }

theorem byteChunk_validate (h : i + 1 < 2 ^ 64) : (byteChunk i).validate i i = .ok (i + 1) := by
  have hsum : isBlank "c" = false := by decide +kernel
  have hpeer : isBlank "-1001" = false := by decide +kernel
  have hvalid : (byteChunk i).ValidAt i i :=
    ⟨rfl, fun hr => (by cases hr), rfl, rfl, Nat.one_ne_zero, rfl, hsum, hpeer, h⟩
  exact ChunkRef.validate_eq_ok.2 ⟨hvalid, rfl⟩

theorem byteChunks_validate (h : i + n < 2 ^ 64) :
    validateChunks ((List.range' i n).map byteChunk) i i = .ok (i + n) := by
  induction n generalizing i with
  | zero => rfl
  | succ n ih =>
    rw [List.range'_succ, List.map_cons, validateChunks, byteChunk_validate (by omega)]
    have hn := ih (i := i + 1) (by omega)
    rw [show i + 1 + n = i + (n + 1) by omega] at hn
    exact hn

def byteObject (n : Nat) : ObjectManifest :=
  { emptyObject ⟨1⟩ "photos" "a" with
    contentLength := n
    chunks := (List.range' 0 n).map byteChunk }

theorem byteObject_validate (h : n < 2 ^ 64) : (byteObject n).validate = .ok () := by
  refine ObjectManifest.validate_ok.2 ⟨?_, ?_⟩
  · have hhead := (ObjectManifest.validate_ok.1
      (show (emptyObject ⟨1⟩ "photos" "a").validate = .ok () by decide +kernel)).1
    exact ⟨hhead.schemaVersion, hhead.bucket, hhead.key, hhead.algorithm, hhead.wholeObject,
      hhead.peer, hhead.encryption⟩
  · have hv := byteChunks_validate (i := 0) (n := n) (by omega)
    rw [Nat.zero_add] at hv
    exact hv

/-- A valid object may have more chunks than there are orders. -/
theorem orders_run_out : ¬ ∀ m : ObjectManifest, m.validate = .ok () → PlansReads m := by
  intro h
  have hv : (byteObject (2 ^ 32 + 1)).validate = .ok () := byteObject_validate (by omega)
  apply not_increasing hv
  · simp only [byteObject, List.length_map, List.length_range']
    omega
  · exact h _ hv

end TelegramS3
