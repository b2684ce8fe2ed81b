import TelegramS3.Codes
import TelegramS3.Lexicographic
import TelegramS3.Provenance

namespace TelegramS3
open Codes Fallible Lexicographic
set_option autoImplicit true

/-- A text is at most `isize::MAX` bytes long. -/
abbrev Text := { s : String // s.utf8ByteSize < 2 ^ 63 }

def Text.bytes (t : Text) : List UInt8 := t.1.toUTF8.data.toList

def leBytes (width n : Nat) : List UInt8 := (beBytes width n).reverse

/-- What identifies an issue; its summary, details and states are left out of the fingerprint. -/
structure RecoveryIssue where
  kind : Text
  objectId : Option Uuid
  bucket : Option Text
  key : Option Text
  path : Option Text
  accountId : Option Text
  chunkOrder : Option (Fin (2 ^ 32))

def prefixed (t : Text) : List UInt8 := leBytes 8 t.1.utf8ByteSize ++ t.bytes

def fingerprintPart : Option Text → List UInt8
  | some t => prefixed t
  | none => leBytes 8 (2 ^ 64 - 1)

def objectIdBytes (id : Option Uuid) : List UInt8 :=
  (id.map fun id => beBytes 16 id.value.toNat).getD []

def accountBytes (account : Option Text) : List UInt8 :=
  (account.map fun t => "account".toUTF8.data.toList ++ prefixed t).getD []

def chunkOrderBytes (order : Option (Fin (2 ^ 32))) : List UInt8 :=
  (order.map fun n => "chunk".toUTF8.data.toList ++ leBytes 4 n.val).getD []

/-- The bytes that `fingerprint` hashes. -/
def RecoveryIssue.hashed (issue : RecoveryIssue) : List UInt8 :=
  [some issue.kind, issue.objectId.map fun _ => ⟨"object", by decide⟩, issue.bucket, issue.key,
      issue.path].flatMap fingerprintPart ++
    objectIdBytes issue.objectId ++ accountBytes issue.accountId ++
    chunkOrderBytes issue.chunkOrder

def RecoveryIssue.fingerprint (sha256Hex : List UInt8 → String) (issue : RecoveryIssue) : String :=
  String.ofList ((sha256Hex issue.hashed).toList.take 16)

/-- What the composite checksum says about a part. -/
structure PartDigest where
  partNumber : Fin (2 ^ 32)
  size : Fin (2 ^ 64)
  algorithm : Text
  checksum : Text

def PartDigest.bytes (p : PartDigest) : List UInt8 :=
  beBytes 4 p.partNumber ++ beBytes 8 p.size ++ checksumComponent p.algorithm.1 ++
    checksumComponent p.checksum.1

theorem length_beBytes (width n : Nat) : (beBytes width n).length = width := by
  rw [beBytes, List.length_map, List.length_range]

theorem beBytes_toNat (width n : Nat) :
    (beBytes width n).map UInt8.toNat = numeral (fun d => d) 256 width n := by
  simp [beBytes, numeral]

theorem beBytes_inj (hm : m < 256 ^ width) (hn : n < 256 ^ width)
    (h : beBytes width m = beBytes width n) : m = n := by
  apply (numeral_inj (fun _ _ _ _ => Iff.rfl) hm hn).1
  rw [← beBytes_toNat, ← beBytes_toNat, h]

theorem beBytes_delimited (hb : bound ≤ 256 ^ width) :
    Delimited fun n : Fin bound => beBytes width n :=
  .of_length (fun a b => by rw [length_beBytes, length_beBytes]) fun a b h =>
    Fin.ext (beBytes_inj (a.2.trans_le hb) (b.2.trans_le hb) h)

theorem leBytes_delimited (hb : bound ≤ 256 ^ width) :
    Delimited fun n : Fin bound => leBytes width n :=
  .of_length (fun a b => by simp only [leBytes, List.length_reverse, length_beBytes]) fun a b h =>
    Fin.ext (beBytes_inj (a.2.trans_le hb) (b.2.trans_le hb) (List.reverse_injective h))

theorem Text.bytes_inj {s t : Text} (h : s.bytes = t.bytes) : s = t :=
  Subtype.ext (String.toByteArray_inj.1 (ByteArray.ext (Array.toList_inj.1 h)))

/-- A text behind its length. -/
theorem text_delimited {code : Nat → List UInt8}
    (h : Delimited fun n : Fin (2 ^ 64) => code n) :
    Delimited fun t : Text => code t.1.utf8ByteSize ++ t.bytes := by
  intro s t x y he
  simp only [List.append_assoc] at he
  have hfit (t : Text) : t.1.utf8ByteSize < 2 ^ 64 := t.2.trans (by decide)
  obtain ⟨hn, hrest⟩ := h ⟨_, hfit s⟩ ⟨_, hfit t⟩ _ _ he
  obtain ⟨hb, hx⟩ := List.append_inj hrest (Fin.mk.inj hn)
  exact ⟨Text.bytes_inj hb, hx⟩

theorem fingerprintPart_delimited : Delimited fingerprintPart := by
  have hlen : Delimited fun n : Fin (2 ^ 64) => leBytes 8 n := leBytes_delimited (by decide)
  have hnone (t : Text) (x y : List UInt8) : prefixed t ++ x ≠ leBytes 8 (2 ^ 64 - 1) ++ y := by
    intro he
    rw [prefixed, List.append_assoc] at he
    have hn := (hlen ⟨_, t.2.trans (by decide)⟩ ⟨2 ^ 64 - 1, by decide⟩ _ _ he).1
    have ht := t.2
    rw [Fin.mk.inj hn] at ht
    exact absurd ht (by decide)
  intro a b x y he
  cases a with
  | none =>
    cases b with
    | none => exact ⟨rfl, List.append_cancel_left he⟩
    | some t => exact absurd he.symm (hnone t y x)
  | some s =>
    cases b with
    | none => exact absurd he (hnone s x y)
    | some t =>
      obtain ⟨rfl, hx⟩ := text_delimited hlen s t x y he
      exact ⟨rfl, hx⟩

theorem objectIdBytes_cut {a b : Option Uuid} (hf : a.isSome = b.isSome)
    (h : objectIdBytes a ++ x = objectIdBytes b ++ y) : a = b ∧ x = y := by
  cases a with
  | none =>
    cases b with
    | none => exact ⟨rfl, h⟩
    | some b => cases hf
  | some a =>
    cases b with
    | none => cases hf
    | some b =>
      obtain ⟨a⟩ := a
      obtain ⟨b⟩ := b
      obtain ⟨hv, hx⟩ := beBytes_delimited (by decide) a.toFin b.toFin _ _ h
      rw [BitVec.toFin_inj.1 hv]
      exact ⟨rfl, hx⟩

theorem chunkOrderBytes_inj (h : chunkOrderBytes a = chunkOrderBytes b) : a = b := by
  cases a with
  | none =>
    cases b with
    | none => rfl
    | some b => cases h
  | some a =>
    cases b with
    | none => cases h
    | some b =>
      have hn := List.append_cancel_left h
      rw [← List.append_nil (leBytes 4 a), ← List.append_nil (leBytes 4 b)] at hn
      rw [(leBytes_delimited (by decide) a b _ _ hn).1]

theorem accountBytes_cut
    (h : accountBytes a ++ chunkOrderBytes m = accountBytes b ++ chunkOrderBytes n) :
    a = b ∧ m = n := by
  have htag (t : Text) (x : List UInt8) (m : Option (Fin (2 ^ 32))) :
      accountBytes (some t) ++ x ≠ chunkOrderBytes m := by
    intro he
    have hh := congrArg List.head? he
    cases m <;> cases hh
  cases a with
  | none =>
    cases b with
    | none => exact ⟨rfl, chunkOrderBytes_inj h⟩
    | some b => exact absurd h.symm (htag b _ _)
  | some a =>
    cases b with
    | none => exact absurd h (htag a _ _)
    | some b =>
      simp only [accountBytes, Option.map_some, Option.getD_some, List.append_assoc] at h
      obtain ⟨rfl, hn⟩ := text_delimited (leBytes_delimited (by decide)) a b _ _
        (List.append_cancel_left h)
      exact ⟨rfl, chunkOrderBytes_inj hn⟩

theorem RecoveryIssue.hashed_injective : Function.Injective RecoveryIssue.hashed := by
  intro a b he
  obtain ⟨kind, objectId, bucket, key, path, accountId, chunkOrder⟩ := a
  obtain ⟨kind', objectId', bucket', key', path', accountId', chunkOrder'⟩ := b
  simp only [hashed, List.flatMap_cons, List.flatMap_nil, List.append_assoc] at he
  obtain ⟨hkind, h₁⟩ := fingerprintPart_delimited _ _ _ _ he
  obtain ⟨hflag, h₂⟩ := fingerprintPart_delimited _ _ _ _ h₁
  obtain ⟨hbucket, h₃⟩ := fingerprintPart_delimited _ _ _ _ h₂
  obtain ⟨hkey, h₄⟩ := fingerprintPart_delimited _ _ _ _ h₃
  obtain ⟨hpath, h₅⟩ := fingerprintPart_delimited _ _ _ _ h₄
  have hsome := congrArg Option.isSome hflag
  rw [Option.isSome_map, Option.isSome_map] at hsome
  obtain ⟨hid, h₆⟩ := objectIdBytes_cut hsome h₅
  obtain ⟨haccount, horder⟩ := accountBytes_cut h₆
  rw [Option.some.inj hkind, hid, hbucket, hkey, hpath, haccount, horder]

theorem PartDigest.bytes_delimited : Delimited PartDigest.bytes := by
  intro p q x y he
  obtain ⟨partNumber, size, algorithm, checksum⟩ := p
  obtain ⟨partNumber', size', algorithm', checksum'⟩ := q
  have htext : Delimited fun t : Text => checksumComponent t.1 :=
    text_delimited (beBytes_delimited (by decide))
  simp only [PartDigest.bytes, List.append_assoc] at he
  obtain ⟨rfl, h₁⟩ := beBytes_delimited (by decide) _ _ _ _ he
  obtain ⟨rfl, h₂⟩ := beBytes_delimited (by decide) _ _ _ _ h₁
  obtain ⟨rfl, h₃⟩ := htext _ _ _ _ h₂
  obtain ⟨rfl, h₄⟩ := htext _ _ _ _ h₃
  exact ⟨rfl, h₄⟩

/-- What the plan of a part stands for in the composite checksum. -/
def PartDigest.Names (stored : List MultipartPart) (plan : MultipartPartPlan) (p : PartDigest) :
    Prop :=
  ∃ part m, stored.find? (fun part => part.partNumber = plan.partNumber) = some part ∧
    part.manifest = some m ∧ plan.partNumber = p.partNumber ∧ part.size = p.size ∧
    m.checksum.algorithm = p.algorithm ∧ m.checksum.wholeObject = p.checksum

/-- A loop over the parts of a completion that has come to its end. -/
structure ComposedParts where
  stored : List MultipartPart
  plans : List MultipartPartPlan
  parts : List PartDigest
  result : Composition
  names : List.Forall₂ (PartDigest.Names stored) plans parts
  composed : plans.foldlM (composePart stored) {} = .ok result

theorem push_hashed (chunks : List ChunkRef) (acc : Composition) :
    (chunks.foldl (Composition.push objectId) acc).hashed = acc.hashed := by
  induction chunks generalizing acc with
  | nil => rfl
  | cons c chunks ih => exact ih (acc.push objectId c)

theorem composePart_hashed (hn : PartDigest.Names stored plan p)
    (h : composePart stored acc plan = .ok acc') : acc'.hashed = acc.hashed ++ p.bytes := by
  obtain ⟨part, m, hf, hc⟩ := composePart_ok.1 h
  obtain ⟨part', m', hfound, hm, hnumber, hsize, halgorithm, hsum⟩ := hn
  cases hf.found.symm.trans hfound
  cases hf.manifest.symm.trans hm
  rw [← composeChunks_eq hc, push_hashed, Composition.enter, PartDigest.bytes, hnumber, hsize,
    halgorithm, hsum]
  simp only [List.append_assoc]

theorem composeParts_hashed (hn : List.Forall₂ (PartDigest.Names stored) plans parts)
    (h : plans.foldlM (composePart stored) acc = .ok acc') :
    acc'.hashed = acc.hashed ++ parts.flatMap PartDigest.bytes := by
  induction hn generalizing acc with
  | nil =>
    cases h
    rw [List.flatMap_nil, List.append_nil]
  | cons hp _ ih =>
    rw [List.foldlM_cons] at h
    obtain ⟨acc₁, hc, h⟩ := bind_ok.1 h
    rw [ih h, composePart_hashed hp hc, List.flatMap_cons, List.append_assoc]

/-- Issues with the same fingerprint input agree in what identifies them, and completions with the
same checksum input in what their checksum says about the parts. -/
theorem digest_inputs_unambiguous (a b : RecoveryIssue) (c d : ComposedParts) :
    (a.hashed = b.hashed → a = b) ∧ (c.result.hashed = d.result.hashed → c.parts = d.parts) := by
  refine ⟨fun h => RecoveryIssue.hashed_injective h, fun h => ?_⟩
  rw [composeParts_hashed c.names c.composed, composeParts_hashed d.names d.composed] at h
  apply PartDigest.bytes_delimited.flatMap_inj (fun p hp => ?_) (List.append_cancel_left h)
  have hl := congrArg List.length hp
  rw [PartDigest.bytes, List.append_assoc, List.append_assoc, List.length_append,
    length_beBytes] at hl
  exact absurd hl (by simp)

end TelegramS3
