import TelegramS3.Completion

namespace TelegramS3
open Fallible
set_option autoImplicit true

def digitValue (c : Char) : Option Nat :=
  if '0' ≤ c ∧ c ≤ '9' then some (c.toNat - '0'.toNat) else none

def parseDigits (text : List Char) : Option Nat :=
  if text = [] then none
  else (text.foldl (fun acc c => acc.bind fun n => (digitValue c).map (10 * n + ·)) (some 0)).filter
    fun n => n < 2 ^ 64

/-- `str::parse::<u64>`, which takes a plus sign. -/
def parseU64 : List Char → Option Nat
  | '+' :: text => parseDigits text
  | text => parseDigits text

def splitOnce (c : Char) : List Char → Option (List Char × List Char)
  | [] => none
  | d :: text =>
    if d = c then some ([], text) else (splitOnce c text).map fun p => (d :: p.1, p.2)

def stripStart (start text : List Char) : Option (List Char) :=
  if start.isPrefixOf text then some (text.drop start.length) else none

structure ByteRange where
  start : Nat
  stop : Nat
  deriving DecidableEq

def bytesUnit : List Char := "bytes=".toList

def ByteRange.contentRange (r : ByteRange) (contentLength : Nat) : String :=
  "bytes " ++ toString r.start ++ "-" ++ toString (r.stop - 1) ++ "/" ++ toString contentLength

def invalidRange (message : String) : S3Error := .s3 .invalidRange message

def parseRangeNumber (text : List Char) (message : String) : Except S3Error Nat :=
  match parseU64 text with
  | some n => .ok n
  | none => .error (invalidRange message)

def rangeEnd (text : List Char) (contentLength : Nat) : Except S3Error Nat :=
  if text = [] then .ok contentLength
  else do
    let last ← parseRangeNumber text "invalid range end"
    return (last + 1) % 2 ^ 64

/-- `object_range` of the S3 handlers. -/
def objectRange (header : Option (List Char)) (contentLength : Nat) :
    Except S3Error (ByteRange × Option String) :=
  match header with
  | none => .ok (⟨0, contentLength⟩, none)
  | some value =>
    match (stripStart bytesUnit value).bind (splitOnce '-') with
    | none => .error (invalidRange "unsupported range header")
    | some (start, stop) =>
      if start = [] then do
        let suffixLen ← parseRangeNumber stop "invalid suffix range"
        let r : ByteRange := ⟨contentLength - suffixLen, contentLength⟩
        return (r, some (r.contentRange contentLength))
      else do
        let start ← parseRangeNumber start "invalid range start"
        let stop ← rangeEnd stop contentLength
        ensure (!(stop < start || contentLength < stop)) (invalidRange "requested range is invalid")
        let r : ByteRange := ⟨start, stop⟩
        return (r, some (r.contentRange contentLength))

/-- The bounds that `parse_content_range` reads; the sum is a saturating one of 64 bits. -/
def contentRangeBounds (startText endText : List Char) (contentLength : Nat) : Option ByteRange :=
  if startText = [] then
    (parseU64 endText).map fun suffix =>
      ⟨contentLength - min suffix contentLength, contentLength⟩
  else
    (parseU64 startText).bind fun start =>
      if endText = [] then some ⟨start, contentLength⟩
      else (parseU64 endText).map fun last =>
        ⟨start, min (min (last + 1) (2 ^ 64 - 1)) contentLength⟩

/-- `parse_content_range` of the admin download; every error is the length of the object. -/
def parseContentRange (header : Option (List Char)) (contentLength : Nat) :
    Except Nat (ByteRange × Option String) :=
  match header with
  | none => .ok (⟨0, contentLength⟩, none)
  | some value =>
    match (stripStart bytesUnit value).bind (splitOnce '-') with
    | none => .error contentLength
    | some (startText, endText) =>
      if contentLength = 0 then .error contentLength
      else
        match contentRangeBounds startText endText contentLength with
        | none => .error contentLength
        | some r =>
          if r.stop ≤ r.start ∨ contentLength ≤ r.start then .error contentLength
          else .ok (r, some (r.contentRange contentLength))

/-- `parse_byte_range` of a copy source. -/
def parseByteRange (value : List Char) (contentLength : Nat) : Except S3Error ByteRange :=
  match stripStart bytesUnit value with
  | none => .error (invalidRange "unsupported range header")
  | some value =>
    match splitOnce '-' value with
    | none => .error (invalidRange "invalid range header")
    | some (start, stop) => do
      let start ← parseRangeNumber start "invalid range start"
      let stop ← rangeEnd stop contentLength
      ensure (!(stop < start || contentLength < stop)) (invalidRange "requested range is invalid")
      return ⟨start, stop⟩

/-- A single range: from a byte to another, from a byte on, or the last bytes. -/
inductive RangeRequest where
  | fromTo (first last : Nat)
  | fromOn (first : Nat)
  | lastBytes (n : Nat)

namespace RangeRequest

/-- The header value is this request. -/
inductive Written : RangeRequest → List Char → Prop where
  | fromTo : parseU64 first = some a → parseU64 last = some b →
      Written (.fromTo a b) (bytesUnit ++ first ++ '-' :: last)
  | fromOn : parseU64 first = some a → Written (.fromOn a) (bytesUnit ++ first ++ ['-'])
  | lastBytes : parseU64 count = some n → Written (.lastBytes n) (bytesUnit ++ '-' :: count)

/-- What RFC 9110 lets a request select of a representation. -/
def satisfy (contentLength : Nat) : RangeRequest → Option ByteRange
  | .fromTo first last =>
    if first ≤ last ∧ first < contentLength then some ⟨first, min (last + 1) contentLength⟩
    else none
  | .fromOn first => if first < contentLength then some ⟨first, contentLength⟩ else none
  | .lastBytes n =>
    if 0 < n ∧ 0 < contentLength then some ⟨contentLength - n, contentLength⟩ else none

def Exact : RangeRequest → Prop
  | .fromTo _ last => last + 1 < 2 ^ 64
  | _ => True

/-- The requests that the handlers answer as the standard does: ending inside the object or starting
outside it, and not empty in a way the bounds let through. -/
def Regular (contentLength : Nat) : RangeRequest → Prop
  | .fromTo first last => last + 1 < 2 ^ 64 ∧ ¬ (first < contentLength ∧ contentLength ≤ last) ∧
      ¬ (first = last + 1 ∧ last < contentLength)
  | .fromOn first => first ≠ contentLength
  | .lastBytes n => 0 < n ∧ 0 < contentLength

theorem satisfy_bounds (h : satisfy contentLength req = some r) :
    r.start < r.stop ∧ r.stop ≤ contentLength := by
  cases req with
  | fromTo first last =>
    simp only [satisfy, Option.ite_none_right_eq_some, Option.some.injEq] at h
    obtain ⟨⟨hle, hlt⟩, rfl⟩ := h
    exact ⟨by dsimp only; omega, Nat.min_le_right _ _⟩
  | fromOn first =>
    simp only [satisfy, Option.ite_none_right_eq_some, Option.some.injEq] at h
    obtain ⟨hlt, rfl⟩ := h
    exact ⟨hlt, Nat.le_refl _⟩
  | lastBytes n =>
    simp only [satisfy, Option.ite_none_right_eq_some, Option.some.injEq] at h
    obtain ⟨⟨hn, hlen⟩, rfl⟩ := h
    exact ⟨by dsimp only; omega, Nat.le_refl _⟩

end RangeRequest

/-- `object_range` follows the standard without overflow and agrees with `parse_content_range`. -/
structure FollowsRfc (contentLength : Nat) (req : RangeRequest) (text : List Char) : Prop where
  range : (objectRange (some text) contentLength).toOption =
    (req.satisfy contentLength).map fun r => (r, some (r.contentRange contentLength))
  bounds : ∀ r label, objectRange (some text) contentLength = .ok (r, label) →
    r.start < r.stop ∧ r.stop ≤ contentLength
  exact : req.Exact
  admin : (parseContentRange (some text) contentLength).toOption =
    (objectRange (some text) contentLength).toOption

theorem digits_of_fold {text : List Char} {acc : Option Nat}
    (h : text.foldl (fun acc c => acc.bind fun n => (digitValue c).map (10 * n + ·)) acc =
      some n) : acc.isSome = true ∧ ∀ c ∈ text, (digitValue c).isSome = true := by
  induction text generalizing acc with
  | nil =>
    rw [List.foldl_nil] at h
    exact ⟨by rw [h]; rfl, nofun⟩
  | cons c text ih =>
    rw [List.foldl_cons] at h
    obtain ⟨ha, ht⟩ := ih h
    cases acc with
    | none => cases ha
    | some m =>
      refine ⟨rfl, List.forall_mem_cons.2 ⟨?_, ht⟩⟩
      simpa using ha

theorem parseDigits_dash (h : parseDigits text = some n) : text ≠ [] ∧ '-' ∉ text := by
  unfold parseDigits at h
  split at h
  · cases h
  · rename_i hne
    refine ⟨hne, ?_⟩
    intro hm
    obtain ⟨-, hd⟩ := digits_of_fold (Option.filter_eq_some_iff.1 h).1
    exact absurd (hd _ hm) (by decide)

theorem parseU64_dash (h : parseU64 text = some n) : text ≠ [] ∧ '-' ∉ text := by
  unfold parseU64 at h
  split at h
  · obtain ⟨-, hd⟩ := parseDigits_dash h
    exact ⟨nofun, by simpa using hd⟩
  · exact parseDigits_dash h

theorem splitOnce_append (h : c ∉ a) (b : List Char) : splitOnce c (a ++ c :: b) = some (a, b) := by
  induction a with
  | nil => simp [splitOnce]
  | cons d a ih =>
    rw [List.mem_cons, not_or] at h
    simp [splitOnce, Ne.symm h.1, ih h.2]

theorem split_written (h : '-' ∉ first) (last : List Char) :
    (stripStart bytesUnit (bytesUnit ++ first ++ '-' :: last)).bind (splitOnce '-') =
      some (first, last) := by
  rw [stripStart, if_pos (by simp [List.append_assoc]), List.append_assoc, List.drop_left,
    Option.bind_some, splitOnce_append h]

theorem objectRange_between (hf : parseU64 first = some a)
    (hl : rangeEnd last contentLength = .ok stop) :
    (objectRange (some (bytesUnit ++ first ++ '-' :: last)) contentLength).toOption =
      if stop < a ∨ contentLength < stop then none
      else some (⟨a, stop⟩, some ((⟨a, stop⟩ : ByteRange).contentRange contentLength)) := by
  obtain ⟨hne, hd⟩ := parseU64_dash hf
  simp only [objectRange, split_written hd, if_neg hne, parseRangeNumber, hf, hl]
  change (do
    ensure (!(decide (stop < a) || decide (contentLength < stop))) _
    pure _ : Except S3Error _).toOption = _
  cases hb : decide (stop < a) || decide (contentLength < stop) with
  | true =>
    rw [if_pos (by simpa using hb)]
    rfl
  | false =>
    rw [if_neg (by simpa using hb)]
    rfl

theorem objectRange_last (hn : parseU64 count = some n) :
    (objectRange (some (bytesUnit ++ '-' :: count)) contentLength).toOption =
      some (⟨contentLength - n, contentLength⟩,
        some ((⟨contentLength - n, contentLength⟩ : ByteRange).contentRange contentLength)) := by
  have hs := split_written (List.not_mem_nil (a := '-')) count
  rw [List.append_nil] at hs
  simp only [objectRange, hs, parseRangeNumber, hn]
  rfl

theorem parseContentRange_bounds
    (hs : (stripStart bytesUnit text).bind (splitOnce '-') = some (first, last))
    (hb : contentRangeBounds first last contentLength = some r) :
    (parseContentRange (some text) contentLength).toOption =
      if contentLength = 0 ∨ r.stop ≤ r.start ∨ contentLength ≤ r.start then none
      else some (r, some (r.contentRange contentLength)) := by
  simp only [parseContentRange, hs, hb]
  by_cases hz : contentLength = 0
  · rw [if_pos hz, if_pos (.inl hz)]
    rfl
  · rw [if_neg hz]
    by_cases hr : r.stop ≤ r.start ∨ contentLength ≤ r.start
    · rw [if_pos hr, if_pos (.inr hr)]
      rfl
    · rw [if_neg hr, if_neg (not_or.2 ⟨hz, hr⟩)]
      rfl

theorem parseContentRange_follows {req : RangeRequest} (hw : req.Written text)
    (hlen : contentLength < 2 ^ 64) :
    (parseContentRange (some text) contentLength).toOption =
      (req.satisfy contentLength).map fun r => (r, some (r.contentRange contentLength)) := by
  cases hw with
  | @fromTo first a last b hf hl =>
    obtain ⟨hne, hd⟩ := parseU64_dash hf
    obtain ⟨hne', -⟩ := parseU64_dash hl
    have hb : contentRangeBounds first last contentLength =
        some ⟨a, min (min (b + 1) (2 ^ 64 - 1)) contentLength⟩ := by
      rw [contentRangeBounds, if_neg hne, hf, Option.bind_some, if_neg hne', hl]
      rfl
    have hm : min (min (b + 1) (2 ^ 64 - 1)) contentLength = min (b + 1) contentLength := by omega
    rw [parseContentRange_bounds (split_written hd last) hb, hm, RangeRequest.satisfy]
    by_cases hc : a ≤ b ∧ a < contentLength
    · rw [if_pos hc, if_neg (by dsimp only; omega)]
      rfl
    · rw [if_neg hc, if_pos (by dsimp only; omega)]
      rfl
  | @fromOn first a hf =>
    obtain ⟨hne, hd⟩ := parseU64_dash hf
    have hb : contentRangeBounds first [] contentLength = some ⟨a, contentLength⟩ := by
      rw [contentRangeBounds, if_neg hne, hf]
      rfl
    rw [parseContentRange_bounds (split_written hd []) hb, RangeRequest.satisfy]
    by_cases hc : a < contentLength
    · rw [if_pos hc, if_neg (by dsimp only; omega)]
      rfl
    · rw [if_neg hc, if_pos (by dsimp only; omega)]
      rfl
  | @lastBytes count n hn =>
    have hs := split_written (List.not_mem_nil (a := '-')) count
    rw [List.append_nil] at hs
    have hb : contentRangeBounds [] count contentLength =
        some ⟨contentLength - min n contentLength, contentLength⟩ := by
      rw [contentRangeBounds, if_pos rfl, hn]
      rfl
    have hm : contentLength - min n contentLength = contentLength - n := by omega
    rw [parseContentRange_bounds hs hb, hm, RangeRequest.satisfy]
    by_cases hc : 0 < n ∧ 0 < contentLength
    · rw [if_pos hc, if_neg (by dsimp only; omega)]
      rfl
    · rw [if_neg hc, if_pos (by dsimp only; omega)]
      rfl

/-- `object_range` follows the standard on the regular requests and on no others. -/
theorem object_range_follows_rfc {req : RangeRequest} (hw : req.Written text)
    (hlen : contentLength < 2 ^ 64) :
    FollowsRfc contentLength req text ↔ req.Regular contentLength := by
  have hadmin := parseContentRange_follows hw hlen
  have hiff : FollowsRfc contentLength req text ↔ (objectRange (some text) contentLength).toOption =
        ((req.satisfy contentLength).map fun r => (r, some (r.contentRange contentLength))) ∧
      req.Exact := by
    refine ⟨fun h => ⟨h.range, h.exact⟩, fun ⟨hr, he⟩ => ⟨hr, ?_, he, by rw [hadmin, hr]⟩⟩
    intro r label ho
    rw [ho] at hr
    obtain ⟨r', hr', he⟩ := Option.map_eq_some_iff.1 hr.symm
    cases he
    exact RangeRequest.satisfy_bounds hr'
  rw [hiff]
  cases hw with
  | @fromTo first a last b hf hl =>
    have he : rangeEnd last contentLength = .ok ((b + 1) % 2 ^ 64) := by
      rw [rangeEnd, if_neg (parseU64_dash hl).1, parseRangeNumber, hl]
      rfl
    rw [objectRange_between hf he]
    simp only [RangeRequest.satisfy, RangeRequest.Exact, RangeRequest.Regular]
    by_cases hx : b + 1 < 2 ^ 64
    · rw [Nat.mod_eq_of_lt hx]
      by_cases hc : a ≤ b ∧ a < contentLength
      · rw [if_pos hc]
        by_cases hs : b + 1 < a ∨ contentLength < b + 1
        · rw [if_pos hs]
          exact ⟨fun h => (by cases h.1), fun h => absurd ⟨hc.2, by omega⟩ h.2.1⟩
        · rw [if_neg hs, Nat.min_eq_left (by omega)]
          exact ⟨fun _ => ⟨hx, by omega, by omega⟩, fun _ => ⟨rfl, hx⟩⟩
      · rw [if_neg hc]
        by_cases hs : b + 1 < a ∨ contentLength < b + 1
        · rw [if_pos hs]
          exact ⟨fun _ => ⟨hx, by omega, by omega⟩, fun _ => ⟨rfl, hx⟩⟩
        · rw [if_neg hs]
          exact ⟨fun h => (by cases h.1), fun h => absurd (by omega) h.2.2⟩
    · exact ⟨fun h => absurd h.2 hx, fun h => absurd h.1 hx⟩
  | @fromOn first a hf =>
    have he : rangeEnd [] contentLength = .ok contentLength := rfl
    rw [objectRange_between hf he]
    simp only [RangeRequest.satisfy, RangeRequest.Exact, RangeRequest.Regular]
    by_cases hc : a < contentLength
    · rw [if_pos hc, if_neg (by omega)]
      exact ⟨fun _ => by omega, fun _ => ⟨rfl, trivial⟩⟩
    · rw [if_neg hc]
      by_cases hs : contentLength < a ∨ contentLength < contentLength
      · rw [if_pos hs]
        exact ⟨fun _ => by omega, fun _ => ⟨rfl, trivial⟩⟩
      · rw [if_neg hs]
        exact ⟨fun h => (by cases h.1), fun h => absurd (by omega) h⟩
  | @lastBytes count n hn =>
    rw [objectRange_last hn]
    simp only [RangeRequest.satisfy, RangeRequest.Exact, RangeRequest.Regular]
    by_cases hc : 0 < n ∧ 0 < contentLength
    · rw [if_pos hc]
      exact ⟨fun _ => hc, fun _ => ⟨rfl, trivial⟩⟩
    · rw [if_neg hc]
      exact ⟨fun h => (by cases h.1), fun h => absurd h hc⟩

/-- The first two of ten bytes. -/
theorem two_of_ten_bytes_follow_rfc : FollowsRfc 10 (.fromTo 0 1) "bytes=0-1".toList := by
  have hw : RangeRequest.Written (.fromTo 0 1) (bytesUnit ++ ['0'] ++ '-' :: ['1']) :=
    .fromTo rfl rfl
  exact (object_range_follows_rfc hw (by decide)).2 ⟨by decide, by decide, by decide⟩

/-- A request beyond the last of ten bytes is refused instead of shortened. -/
theorem long_request_is_refused : RangeRequest.Written (.fromTo 0 99) "bytes=0-99".toList ∧
      ¬ FollowsRfc 10 (.fromTo 0 99) "bytes=0-99".toList := by
  have hw : RangeRequest.Written (.fromTo 0 99) (bytesUnit ++ ['0'] ++ '-' :: ['9', '9']) :=
    .fromTo rfl rfl
  refine ⟨hw, ?_⟩
  intro h
  exact absurd h.range (by decide)

end TelegramS3
