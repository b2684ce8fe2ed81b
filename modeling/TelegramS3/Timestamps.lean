import TelegramS3.Lexicographic
import TelegramS3.ActiveIndex

namespace TelegramS3
open Relational Table MetadataStore Lexicographic Versioned
set_option autoImplicit true

namespace OffsetDateTime
variable (t u : OffsetDateTime)

def Before : Prop := t.fields < u.fields

def InTextOrder : Prop :=
  t.fields.dropLast = u.fields.dropLast →
    t.nanosecond ≠ 0 ∧ ¬ fractionDigits t.nanosecond <+: fractionDigits u.nanosecond

def digitChar (d : Nat) : Char := Char.ofNat (48 + d)

theorem digitChar_lt : ∀ d < 10, ∀ e < 10, digitChar d < digitChar e ↔ d < e := by
  decide

theorem paddedDigits_eq (width n : Nat) : paddedDigits width n = numeral digitChar 10 width n := rfl

theorem block_lt (hn : n < 10 ^ width) (hm : m < 10 ^ width) (s x y : List Char) :
    s ++ paddedDigits width n ++ x < s ++ paddedDigits width m ++ y ↔ n < m ∨ n = m ∧ x < y := by
  rw [List.append_assoc, List.append_assoc, append_lt_append rfl, paddedDigits_eq,
    paddedDigits_eq, append_lt_append (by rw [numeral_length, numeral_length]),
    numeral_lt digitChar_lt hn hm, numeral_inj digitChar_lt hn hm]
  simp

def fractionText (n : Nat) : List Char :=
  (if n = 0 then [] else '.' :: fractionDigits n) ++ ['Z']

theorem text_blocks (t : OffsetDateTime) : t.text.toList =
    [] ++ paddedDigits 4 t.year ++ (['-'] ++ paddedDigits 2 t.month ++
      (['-'] ++ paddedDigits 2 t.day ++ (['T'] ++ paddedDigits 2 t.hour ++
        ([':'] ++ paddedDigits 2 t.minute ++ ([':'] ++ paddedDigits 2 t.second ++
          fractionText t.nanosecond))))) := by
  simp [text, fractionText]

theorem text_lt_text : t.text < u.text ↔ t.fields.dropLast < u.fields.dropLast ∨
      t.fields.dropLast = u.fields.dropLast ∧
        fractionText t.nanosecond < fractionText u.nanosecond := by
  obtain ⟨hy, -, hm, -, hd, hh, hmin, hs, -⟩ := t.valid
  obtain ⟨hy', -, hm', -, hd', hh', hmin', hs', -⟩ := u.valid
  rw [String.lt_iff_toList_lt, text_blocks, text_blocks, block_lt (by omega) (by omega),
    block_lt (by omega) (by omega), block_lt (by omega) (by omega), block_lt (by omega) (by omega),
    block_lt (by omega) (by omega), block_lt (by omega) (by omega)]
  simp only [fields, List.dropLast, List.cons_lt_cons_iff, List.cons.injEq, List.not_lt_nil,
    and_true, and_false, or_false, and_or_left, or_assoc, and_assoc]

theorem before_iff : t.Before u ↔ t.fields.dropLast < u.fields.dropLast ∨
      t.fields.dropLast = u.fields.dropLast ∧ t.nanosecond < u.nanosecond := by
  simp only [Before, fields, List.dropLast, List.cons_lt_cons_iff, List.cons.injEq,
    List.not_lt_nil, and_true, and_false, or_false, and_or_left, or_assoc, and_assoc]

theorem digit_range : ∀ d < 10, '0' ≤ digitChar d ∧ digitChar d < 'Z' := by
  decide

theorem mem_paddedDigits (h : c ∈ paddedDigits width n) : '0' ≤ c ∧ c < 'Z' := by
  obtain ⟨i, -, rfl⟩ := List.mem_map.1 h
  exact digit_range _ (Nat.mod_lt _ (by decide))

theorem exists_zeros (n : Nat) : ∃ k, paddedDigits 9 n = fractionDigits n ++ List.replicate k '0' :=
  exists_dropped _ _

theorem fractionText_order (h : n < m) (hm : m < 10 ^ 9) :
    (n = 0 ∨ fractionDigits n <+: fractionDigits m → fractionText m < fractionText n) ∧
      (n ≠ 0 ∧ ¬ fractionDigits n <+: fractionDigits m → fractionText n < fractionText m) := by
  have hm0 : m ≠ 0 := by omega
  obtain ⟨i, hi⟩ := exists_zeros n
  obtain ⟨j, hj⟩ := exists_zeros m
  have hlt : paddedDigits 9 n < paddedDigits 9 m :=
    (numeral_lt digitChar_lt (h.trans hm) hm).2 h
  have hlen : (paddedDigits 9 n).length = (paddedDigits 9 m).length := by
    rw [paddedDigits_eq, paddedDigits_eq, numeral_length, numeral_length]
  rw [hi, hj] at hlt hlen
  simp only [List.length_append, List.length_replicate] at hlen
  have hdn : ∀ c ∈ fractionDigits n, '0' ≤ c := by
    intro c hc
    have hmem : c ∈ paddedDigits 9 n := hi ▸ List.mem_append_left _ hc
    exact (mem_paddedDigits hmem).1
  have hdm : ∀ c ∈ fractionDigits m, c < 'Z' := by
    intro c hc
    have hmem : c ∈ paddedDigits 9 m := hj ▸ List.mem_append_left _ hc
    exact (mem_paddedDigits hmem).2
  obtain ⟨hs, hd⟩ := marked_order hlen hlt hdn hdm
  by_cases hn0 : n = 0
  · refine ⟨fun _ => ?_, fun hn => absurd hn0 hn.1⟩
    rw [fractionText, fractionText, if_neg hm0, if_pos hn0]
    exact List.cons_lt_cons_iff.2 (.inl (by decide))
  · rw [fractionText, fractionText, if_neg hm0, if_neg hn0]
    refine ⟨fun hn => ?_, fun hn => ?_⟩
    · exact List.cons_lt_cons_iff.2 (.inr ⟨rfl, hs (hn.resolve_left hn0)⟩)
    · exact List.cons_lt_cons_iff.2 (.inr ⟨rfl, hd hn.2⟩)

theorem text_order {t u : OffsetDateTime} (h : t.Before u) :
    (t.InTextOrder u → t.text < u.text) ∧ (¬ t.InTextOrder u → u.text < t.text) := by
  have hu : u.nanosecond < 10 ^ 9 := u.valid.2.2.2.2.2.2.2.2
  rcases (before_iff t u).1 h with hlt | ⟨he, hlt⟩
  · have hne : t.fields.dropLast ≠ u.fields.dropLast := hlt.ne
    refine ⟨fun _ => (text_lt_text t u).2 (.inl hlt), fun hn => ?_⟩
    exact absurd (fun he => absurd he hne) hn
  · obtain ⟨hs, hd⟩ := fractionText_order hlt hu
    refine ⟨fun ho => (text_lt_text t u).2 (.inr ⟨he, hd (ho he)⟩), fun hn => ?_⟩
    refine (text_lt_text u t).2 (.inr ⟨he.symm, hs ?_⟩)
    by_contra hc
    exact hn fun _ => ⟨fun hz => hc (.inl hz), fun hp => hc (.inr hp)⟩

theorem text_lt_iff {t u : OffsetDateTime} (h : t.Before u) :
    t.text < u.text ↔ t.InTextOrder u := by
  obtain ⟨ho, hn⟩ := text_order h
  refine ⟨fun hlt => ?_, ho⟩
  by_contra hc
  exact absurd hlt (lt_asymm (hn hc))

end OffsetDateTime

/-- The committed versions of a key with the instants they were committed at, one after the
other. -/
structure CommittedInTurn (s : MetadataStore) (bucket key : String)
    (versions : List (ManifestRow × OffsetDateTime)) : Prop where
  rows : ∀ r, (∃ t, (r, t) ∈ versions) ↔ r ∈ s.objectManifests ∧ r.commitState = .committed ∧
    r.bucket = bucket ∧ r.objectKey = key
  instants : ∀ v ∈ versions, v.1.committedAt = some v.2
  increasing : versions.Pairwise fun v v' => v.2.Before v'.2

/-- Rebuilding the index makes the version active that was committed last. -/
def LastCommitWins : Prop :=
  ∀ s bucket key earlier r t, CommittedInTurn s bucket key (earlier ++ [(r, t)]) →
    ∀ now, (s.rebuildIndex now).activeObjectId bucket key = some r.objectId

namespace CommittedInTurn
variable {s : MetadataStore} {earlier : List (ManifestRow × OffsetDateTime)} {r : ManifestRow}
  {t : OffsetDateTime}

section
variable (h : CommittedInTurn s bucket key (earlier ++ [(r, t)]))
include h

theorem before (hv : v ∈ earlier) : v.2.Before t :=
  (List.pairwise_append.1 h.increasing).2.2 v hv (r, t) List.mem_cons_self

theorem last :
    r ∈ s.objectManifests ∧ r.commitState = .committed ∧ r.bucket = bucket ∧ r.objectKey = key :=
  (h.rows r).1 ⟨t, List.mem_append_right _ List.mem_cons_self⟩

theorem ne_last (hv : v ∈ earlier) : v.1.objectId ≠ r.objectId := by
  intro he
  obtain ⟨hm, -⟩ := (h.rows v.1).1 ⟨v.2, List.mem_append_left _ hv⟩
  have hr : v.1 = r := eq_of_key_eq hm h.last.1 he
  have hv' := h.instants v (List.mem_append_left _ hv)
  have ht := h.instants (r, t) (List.mem_append_right _ List.mem_cons_self)
  rw [hr, ht] at hv'
  have hb := h.before hv
  rw [← Option.some.inj hv'] at hb
  exact lt_irrefl _ hb

theorem rank_lt_iff (hv : v ∈ earlier) : v.1.rank < r.rank ↔ v.2.text < t.text := by
  have hne : v.2.text ≠ t.text := by
    obtain ⟨ho, hn⟩ := OffsetDateTime.text_order (h.before hv)
    by_cases hin : v.2.InTextOrder t
    · exact (ho hin).ne
    · exact (hn hin).ne'
  rw [ManifestRow.rank, ManifestRow.rank, h.instants v (List.mem_append_left _ hv),
    h.instants (r, t) (List.mem_append_right _ List.mem_cons_self), Prod.Lex.toLex_lt_toLex]
  simp [commitText, hne]

theorem latest_iff :
    s.versions.Latest (bucket, key) r.objectId ↔ ∀ v ∈ earlier, v.2.text < t.text := by
  obtain ⟨hm, hc, hb, hk⟩ := h.last
  have hcom : s.versions.committed r.objectId = some ((bucket, key), r.rank) :=
    versions_committed.2 ⟨r, mem_iff_get?.1 hm, hc, by rw [hb, hk]⟩
  constructor
  · rintro ⟨rank, hr, hlt⟩ v hv
    rw [hcom] at hr
    cases hr
    obtain ⟨hvm, hvc, hvb, hvk⟩ := (h.rows v.1).1 ⟨v.2, List.mem_append_left _ hv⟩
    apply (h.rank_lt_iff hv).1
    apply hlt v.1.objectId v.1.rank _ (h.ne_last hv)
    exact versions_committed.2 ⟨v.1, mem_iff_get?.1 hvm, hvc, by rw [hvb, hvk]⟩
  · intro ht
    refine ⟨r.rank, hcom, ?_⟩
    intro j rank hj hne
    obtain ⟨r', hr', hc', he⟩ := versions_committed.1 hj
    cases he
    obtain ⟨t', hv⟩ := (h.rows r').2 ⟨mem_of_get? hr', hc', rfl, rfl⟩
    rcases List.mem_append.1 hv with hv | hv
    · exact (h.rank_lt_iff hv).2 (ht _ hv)
    · rw [List.mem_singleton] at hv
      cases hv
      exact absurd (key_of_get? hr').symm hne

end

end CommittedInTurn

/-- The last commit becomes active exactly when every earlier one of the key is in text order with
it, that is, when the texts are ordered as the instants. -/
theorem last_commit_wins_iff (h : CommittedInTurn s bucket key (earlier ++ [(r, t)]))
    (now : OffsetDateTime) :
    ((s.rebuildIndex now).activeObjectId bucket key = some r.objectId ↔
      ∀ v ∈ earlier, v.2.InTextOrder t) ∧
    ((∀ v ∈ earlier, v.2.text < t.text) ↔ ∀ v ∈ earlier, v.2.InTextOrder t) := by
  have ht : (∀ v ∈ earlier, v.2.text < t.text) ↔ ∀ v ∈ earlier, v.2.InTextOrder t :=
    forall₂_congr fun v hv => OffsetDateTime.text_lt_iff (h.before hv)
  have ha : (s.rebuildIndex now).versions.active (bucket, key) = some r.objectId ↔
      s.versions.Latest (bucket, key) r.objectId := (rebuildIndex_consistent s now).active_iff
  exact ⟨ha.trans (h.latest_iff.trans ht), ht⟩

def halfPast (n : Nat) : OffsetDateTime :=
  { instant n with
    nanosecond := 500000000
    valid := ⟨(instant n).valid.1, (instant n).valid.2.1, (instant n).valid.2.2.1,
      (instant n).valid.2.2.2.1, (instant n).valid.2.2.2.2.1, (instant n).valid.2.2.2.2.2.1,
      (instant n).valid.2.2.2.2.2.2.1, (instant n).valid.2.2.2.2.2.2.2.1, by decide⟩ }

def committedRow (object : Uuid) (t : OffsetDateTime) : ManifestRow :=
  { objectId := object, connectionId := "legacy", bucket := "photos", objectKey := "a.jpg"
    versionId := none, commitState := .committed
    manifest := (emptyObject object "photos" "a.jpg").withState .committed
    createdAt := instant 1, committedAt := some t, tombstonedAt := none }

def twoCommits (first second : OffsetDateTime) : MetadataStore :=
  { objectManifests := ((∅ : Table ManifestRow).upsert (committedRow ⟨1⟩ first)).upsert
      (committedRow ⟨2⟩ second) }

theorem twoCommits_inTurn (h : first.Before second) :
    CommittedInTurn (twoCommits first second) "photos" "a.jpg"
      ([(committedRow ⟨1⟩ first, first)] ++ [(committedRow ⟨2⟩ second, second)]) := by
  have hrows : ∀ r, r ∈ (twoCommits first second).objectManifests ↔
      r = committedRow ⟨1⟩ first ∨ r = committedRow ⟨2⟩ second := by
    intro r
    have hk : Keyed.key (committedRow ⟨1⟩ first) ≠ Keyed.key (committedRow ⟨2⟩ second) := by
      change (⟨1⟩ : Uuid) ≠ ⟨2⟩
      decide
    simp only [twoCommits, mem_upsert]
    constructor
    · rintro (rfl | ⟨rfl | ⟨h, -⟩, -⟩)
      · exact .inr rfl
      · exact .inl rfl
      · cases h
    · rintro (rfl | rfl)
      · exact .inr ⟨.inl rfl, hk⟩
      · exact .inl rfl
  constructor
  · intro r
    rw [hrows]
    constructor
    · rintro ⟨t, ht⟩
      rcases List.mem_cons.1 ht with ht | ht
      · cases ht
        exact ⟨.inl rfl, rfl, rfl, rfl⟩
      · cases List.mem_singleton.1 ht
        exact ⟨.inr rfl, rfl, rfl, rfl⟩
    · rintro ⟨rfl | rfl, -⟩
      · exact ⟨first, List.mem_cons_self⟩
      · exact ⟨second, List.mem_cons_of_mem _ List.mem_cons_self⟩
  · intro v hv
    rcases List.mem_cons.1 hv with rfl | hv
    · rfl
    · rw [List.mem_singleton.1 hv]
      rfl
  · exact List.pairwise_pair.2 h

/-- Commits of different seconds. -/
theorem later_second_wins :
    ((twoCommits (instant 2) (instant 3)).rebuildIndex (instant 4)).activeObjectId "photos"
      "a.jpg" = some ⟨2⟩ := by
  have hb : (instant 2).Before (instant 3) := by
    unfold OffsetDateTime.Before
    decide
  apply (last_commit_wins_iff (twoCommits_inTurn hb) (instant 4)).1.2
  intro v hv he
  rw [List.mem_singleton.1 hv] at he
  exact absurd he (by decide)

/-- The commit on the full second is shown again although the other one came half a second
later. -/
theorem full_second_hides_fraction : ¬ LastCommitWins := by
  intro h
  have hb : (instant 2).Before (halfPast 2) := by
    unfold OffsetDateTime.Before
    decide
  have ha := h _ _ _ _ _ _ (twoCommits_inTurn hb) (instant 4)
  have hn : ((twoCommits (instant 2) (halfPast 2)).rebuildIndex (instant 4)).activeObjectId
      "photos" "a.jpg" = some ⟨1⟩ := by decide +kernel
  rw [hn] at ha
  exact absurd ha (by decide)

end TelegramS3
