import TelegramS3.Listing
import TelegramS3.Visibility

namespace TelegramS3
open Relational Fallible Patterns
set_option autoImplicit true

def ListedBucketPage.entries (p : ListedBucketPage) : List String :=
  p.objects.map ListedObject.key ++ p.commonPrefixes

def ListedBucket.Lists (b : ListedBucket) (pfx : String) (now : OffsetDateTime) (key : String) :
    Prop :=
  b.Shows now key ∧ likePrefix pfx key = true

/-- What is to be returned: the keys that are not rolled up, and the common prefixes. -/
inductive ListedBucket.Entry (b : ListedBucket) (pfx : String) (delimiter : Option String)
    (now : OffsetDateTime) (e : String) : Prop where
  | object : b.Lists pfx now e → rolledUp pfx delimiter e = none → Entry b pfx delimiter now e
  | commonPrefix : b.Lists pfx now key → rolledUp pfx delimiter key = some e →
      Entry b pfx delimiter now e

/-- The pages return every object and every common prefix once, in increasing order. -/
structure CompletePages (b : ListedBucket) (pfx : String) (delimiter : Option String)
    (maxKeys : Nat) (now : OffsetDateTime) (ps : List ListedBucketPage) : Prop where
  objects : ∀ key, key ∈ (ps.flatMap ListedBucketPage.objects).map ListedObject.key ↔
    b.Lists pfx now key ∧ rolledUp pfx delimiter key = none
  objects_increasing :
    ((ps.flatMap ListedBucketPage.objects).map ListedObject.key).Pairwise (· < ·)
  commonPrefixes : ∀ c, c ∈ ps.flatMap ListedBucketPage.commonPrefixes ↔
    ∃ key, b.Lists pfx now key ∧ rolledUp pfx delimiter key = some c
  commonPrefixes_increasing : (ps.flatMap ListedBucketPage.commonPrefixes).Pairwise (· < ·)
  ordered : ps.Pairwise fun p q => ∀ e ∈ p.entries, ∀ f ∈ q.entries, e < f
  apart : ∀ p ∈ ps, ∀ o ∈ p.objects, ∀ q ∈ ps, o.key ∉ q.commonPrefixes
  bounded : ∀ p ∈ ps, p.keyCount = p.entries.length ∧ p.keyCount ≤ maxKeys
  truncated : ∀ a p c, ps = a ++ p :: c → (p.isTruncated = true ↔
    ∃ e, b.Entry pfx delimiter now e ∧ ∀ q ∈ a ++ [p], e ∉ q.entries)

namespace ListedBucket
variable {b : ListedBucket} {pfx : String} {delimiter : Option String} {now : OffsetDateTime}

theorem entry_iff : b.Entry pfx delimiter now e ↔
    e ∈ Paging.entries ListedObject.key (b.objects pfx delimiter now)
      (b.commonPrefixes pfx delimiter now) := by
  rw [Paging.mem_entries, mem_objects, mem_commonPrefixes]
  constructor
  · rintro (⟨hl, hn⟩ | ⟨hl, hr⟩)
    · exact .inl ⟨hl, hn⟩
    · obtain ⟨m, hm, rfl⟩ := (b.mem_manifests pfx now).2 hl
      exact .inr ⟨m, hm, hr⟩
  · rintro (⟨hl, hn⟩ | ⟨m, hm, hr⟩)
    · exact .object hl hn
    · exact .commonPrefix ((b.mem_manifests pfx now).1 ⟨m, hm, rfl⟩) hr

theorem exists_pages (h : b.Rolls pfx delimiter now) (hn : 1 ≤ maxKeys) :
    ∃ ps, Pages (b.page pfx delimiter now maxKeys) none
        (ps.map (ListedBucketPage.ofMerged maxKeys)) ∧
      Paging.Drained ListedObject.key maxKeys (b.objects pfx delimiter now)
        (b.commonPrefixes pfx delimiter now) ps := by
  obtain ⟨ps, hd⟩ := Paging.exists_drains ListedObject.key hn
    (b.objects pfx delimiter now) (b.commonPrefixes pfx delimiter now)
  refine ⟨ps, pages_of_drains h hn hd ?_ ?_, hd.drained (b.entries_sorted pfx delimiter now h)⟩
  · exact (List.filter_eq_self.2 fun _ _ => rfl).symm
  · exact (List.filter_eq_self.2 fun _ _ => rfl).symm

theorem complete_of_drained (h : b.Rolls pfx delimiter now) (hn : 1 ≤ maxKeys)
    (hd : Paging.Drained ListedObject.key maxKeys (b.objects pfx delimiter now)
      (b.commonPrefixes pfx delimiter now) ps) :
    CompletePages b pfx delimiter maxKeys now (ps.map (ListedBucketPage.ofMerged maxKeys)) := by
  have hs := b.entries_sorted pfx delimiter now h
  have hl : (ps.map (ListedBucketPage.ofMerged maxKeys)).flatMap ListedBucketPage.objects =
      b.objects pfx delimiter now := by
    rw [List.flatMap_map]
    exact hd.left
  have hr : (ps.map (ListedBucketPage.ofMerged maxKeys)).flatMap
      ListedBucketPage.commonPrefixes = b.commonPrefixes pfx delimiter now := by
    rw [List.flatMap_map]
    exact hd.right
  refine ⟨?_, ?_, ?_, ?_, ?_, ?_, ?_, ?_⟩
  · intro key
    rw [hl, List.mem_map]
    exact b.mem_objects pfx delimiter now
  · rw [hl, List.pairwise_map]
    exact hs.left
  · intro c
    rw [hr, mem_commonPrefixes]
    constructor
    · rintro ⟨m, hm, hc⟩
      exact ⟨m.key, (b.mem_manifests pfx now).1 ⟨m, hm, rfl⟩, hc⟩
    · rintro ⟨key, hk, hc⟩
      obtain ⟨m, hm, rfl⟩ := (b.mem_manifests pfx now).2 hk
      exact ⟨m, hm, hc⟩
  · rw [hr]
    exact hs.right
  · rw [List.pairwise_map]
    exact hd.ordered
  · intro p hp o ho q hq hc
    refine hs.apart o ?_ ?_
    · rw [← hl]
      exact List.mem_flatMap.2 ⟨p, hp, ho⟩
    · rw [← hr]
      exact List.mem_flatMap.2 ⟨q, hq, hc⟩
  · intro p hp
    obtain ⟨q, hq, rfl⟩ := List.mem_map.1 hp
    exact ⟨(Paging.Page.entries_length ListedObject.key q).symm, hd.size q hq⟩
  · intro a p c he
    obtain ⟨a', l, hps, rfl, hl⟩ := List.map_eq_append_iff.1 he
    obtain ⟨q, c', rfl, rfl, rfl⟩ := List.map_eq_cons_iff.1 hl
    have ht : (ListedBucketPage.ofMerged maxKeys q).isTruncated = q.more := by
      simp [ListedBucketPage.ofMerged, Nat.lt_of_lt_of_le Nat.zero_lt_one hn]
    rw [ht, hd.more_iff hps]
    simp only [entry_iff, ← List.map_singleton, ← List.map_append, List.forall_mem_map]
    rfl

end ListedBucket

/-- Listing page after page ends, with everything listed. -/
theorem pages_complete (b : ListedBucket) (pfx : String) (delimiter : Option String)
    (maxKeys : Nat) (now : OffsetDateTime)
    (hp : ∀ key, b.Lists pfx now key → StartsWith key pfx) (hn : 1 ≤ maxKeys) :
    (∃ ps, Pages (b.page pfx delimiter now maxKeys) none ps) ∧
      ∀ ps, Pages (b.page pfx delimiter now maxKeys) none ps →
        CompletePages b pfx delimiter maxKeys now ps := by
  have hr : b.Rolls pfx delimiter now :=
    fun m hm _ _ => hp m.key ((b.mem_manifests pfx now).1 ⟨m, hm, rfl⟩)
  obtain ⟨ps, hps, hd⟩ := ListedBucket.exists_pages hr hn
  refine ⟨⟨_, hps⟩, fun qs hq => ?_⟩
  rw [hq.unique hps]
  exact ListedBucket.complete_of_drained hr hn hd

def showing (keys : List String) : MetadataStore :=
  keys.zipIdx.foldl (fun s k =>
    let m := emptyObject ⟨k.2⟩ "photos" k.1
    (s.stageRows .put m (instant 1)).publishManifest ⟨k.2⟩ m (instant 1)) photosStore

def shownBucket (keys : List String) (h : (showing keys).indexes "photos" = true) :
    ListedBucket :=
  ⟨showing keys, "photos", h⟩

theorem folder_pages_complete :
    (∃ ps, Pages ((shownBucket ["a", "b/c", "b/d"] (by decide)).page "" (some "/") (instant 2) 1)
      none ps) ∧
    ∀ ps, Pages ((shownBucket ["a", "b/c", "b/d"] (by decide)).page "" (some "/") (instant 2) 1)
      none ps →
      CompletePages (shownBucket ["a", "b/c", "b/d"] (by decide)) "" (some "/") 1 (instant 2) ps :=
  pages_complete _ _ _ _ _ (fun _ _ => List.nil_prefix) (by decide)

/-- A listing has exactly the keys with the prefix, and a common prefix begins such a key. -/
structure PrefixExact (b : ListedBucket) (pfx : String) (now : OffsetDateTime) : Prop where
  keys : ∀ maxKeys, 1 ≤ maxKeys → ∃ ps, Pages (b.page pfx none now maxKeys) none ps ∧
    ∀ key, key ∈ (ps.flatMap ListedBucketPage.objects).map ListedObject.key ↔
      b.Shows now key ∧ StartsWith key pfx
  commonPrefixes : ∀ delimiter resumeAfter maxKeys p,
    b.page pfx (some delimiter) now maxKeys resumeAfter = .ok p → ∀ c ∈ p.commonPrefixes,
      ∃ key, b.Shows now key ∧ StartsWith key pfx ∧ StartsWith key c

theorem likePrefix_of_startsWith (h : StartsWith key pfx) : likePrefix pfx key = true := by
  obtain ⟨r, hr⟩ := h
  rw [likePrefix, ← hr]
  exact like_append _ _

theorem ListedBucket.plain_pages (b : ListedBucket) (pfx : String) (now : OffsetDateTime)
    (hn : 1 ≤ maxKeys) : ∃ ps, Pages (b.page pfx none now maxKeys) none ps ∧
      ∀ key, key ∈ (ps.flatMap ListedBucketPage.objects).map ListedObject.key ↔
        b.Lists pfx now key := by
  have hr : b.Rolls pfx none now := by
    intro m _ c hc
    cases hc
  obtain ⟨ps, hps, hd⟩ := ListedBucket.exists_pages hr hn
  refine ⟨_, hps, fun key => ?_⟩
  rw [(ListedBucket.complete_of_drained hr hn hd).objects]
  exact and_iff_left rfl

/-- No key that the query matches lacks the prefix. -/
def ListedBucket.NoStray (b : ListedBucket) (pfx : String) (now : OffsetDateTime) : Prop :=
  ∀ key, b.Shows now key → likePrefix pfx key = true → StartsWith key pfx

theorem PrefixExact.noStray (h : PrefixExact b pfx now) : b.NoStray pfx now := by
  intro key hs hl
  obtain ⟨ps, hps, hk⟩ := h.keys 1 (Nat.le_refl 1)
  obtain ⟨qs, hqs, hq⟩ := b.plain_pages pfx now (Nat.le_refl 1)
  rw [hps.unique hqs] at hk
  exact ((hk key).1 ((hq key).2 ⟨hs, hl⟩)).2

theorem prefix_listing_exact (b : ListedBucket) (pfx : String) (now : OffsetDateTime) :
    PrefixExact b pfx now ↔ b.NoStray pfx now := by
  constructor
  · exact PrefixExact.noStray
  · intro h
    refine ⟨fun maxKeys hn => ?_, fun delimiter resumeAfter maxKeys p hp c hc => ?_⟩
    · obtain ⟨ps, hps, hk⟩ := b.plain_pages pfx now hn
      refine ⟨ps, hps, fun key => (hk key).trans ⟨fun hl => ⟨hl.1, h key hl.1 hl.2⟩, fun hl => ?_⟩⟩
      exact ⟨hl.1, likePrefix_of_startsWith hl.2⟩
    · rw [ListedBucket.page, ListedBucket.listBucketPage_eq] at hp
      cases hp
      have hmem := List.mem_of_mem_filter (Paging.mem_of_right hc)
      obtain ⟨m, hm, hr⟩ := (b.mem_commonPrefixes pfx (some delimiter) now).1 hmem
      have hl := (b.mem_manifests pfx now).1 ⟨m, hm, rfl⟩
      have hs := h m.key hl.1 hl.2
      exact ⟨m.key, hl.1, hs, (rolledUp_starts hr hs).2⟩

theorem prefix_listing_ignores_case :
    ¬ PrefixExact (shownBucket ["Report.txt"] (by decide)) "report" (instant 2) := by
  intro h
  have hs := h.noStray "Report.txt" (by decide) (by decide)
  exact absurd hs (by decide)

end TelegramS3
