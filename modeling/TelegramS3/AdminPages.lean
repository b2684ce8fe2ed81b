import Mathlib.Algebra.Order.Ring.Int
import TelegramS3.Blocks

namespace TelegramS3
open Segments
set_option autoImplicit true

/-- A vector has at most `isize::MAX` elements. -/
abbrev Vec (α : Type) := { l : List α // l.length < 2 ^ 63 }

def usizeMax : Nat := 2 ^ 64 - 1

/-- A sum of two `usize`; without a value where the addition overflows. -/
def usizeAdd (a b : Nat) : Option Nat := if a + b ≤ usizeMax then some (a + b) else none

def saturatingAdd (a b : Nat) : Nat := min (a + b) usizeMax

def saturatingMul (a b : Nat) : Nat := min (a * b) usizeMax

/-- The page sizes that `handle_list_objects` accepts. -/
abbrev PageSize := { n : Nat // 1 ≤ n ∧ n ≤ 100 }

structure ListObjectsResponse (ω : Type) where
  folders : List String
  objects : List ω
  page : Nat
  pageSize : Nat
  total : Nat
  hasMore : Bool

/-- The name a folder is reported under: its path below the listed one. -/
def folderName (listed path : String) : String :=
  let below := (path.toList.dropPrefix? listed.toList).getD path.toList
  String.ofList (below.reverse.dropWhile (· = '/')).reverse

/-- The answer for sorted folders and objects; `wire` puts an object into it or fails. -/
def handleListObjects (listed : String) (folders : Vec String) (objects : Vec β)
    (wire : β → Except String ω) (page pageSize : Nat) :
    Option (Except String (ListObjectsResponse ω)) := do
  let f := folders.1.length
  let o := objects.1.length
  let total ← usizeAdd f o
  let start := saturatingMul (page - 1) pageSize
  let stop := min (saturatingAdd start pageSize) total
  let names := (folders.1.drop (min start f)).take (min stop f - min start f)
  let objectStart := start - f
  let objectStop := min (stop - f) o
  let entries := (objects.1.drop (min objectStart o)).take (objectStop - min objectStart o)
  return do
    let objects ← entries.mapM wire
    return { folders := names.map (folderName listed), objects, page, pageSize, total
             hasMore := decide (stop < total) }

/-- The answer that shows some entries of a listing. -/
def respond (listed : String) (wire : β → Except String ω) (page pageSize total : Nat)
    (hasMore : Bool) (entries : List (String ⊕ β)) : Except String (ListObjectsResponse ω) := do
  let objects ← (entries.filterMap Sum.getRight?).mapM wire
  return { folders := (entries.filterMap Sum.getLeft?).map (folderName listed)
           objects, page, pageSize, total, hasMore }

theorem lefts (l : List α) (r : List β) :
    (l.map Sum.inl ++ r.map Sum.inr).filterMap Sum.getLeft? = l := by
  have hr : (r.map (Sum.inr : β → α ⊕ β)).filterMap Sum.getLeft? = [] := by simp
  rw [List.filterMap_append, hr, List.append_nil, List.filterMap_map]
  exact List.filterMap_some

theorem rights (l : List α) (r : List β) :
    (l.map Sum.inl ++ r.map Sum.inr).filterMap Sum.getRight? = r := by
  have hl : (l.map (Sum.inl : α → α ⊕ β)).filterMap Sum.getRight? = [] := by simp
  rw [List.filterMap_append, hl, List.nil_append, List.filterMap_map]
  exact List.filterMap_some

section
variable {f o k : Nat} (hf : f < 2 ^ 63) (ho : o < 2 ^ 63)
  (hs : start = min k usizeMax) (hp : stop = min (saturatingAdd start n) (f + o))
include hf ho hs hp

theorem folder_window (l : List α) (hl : l.length = f) :
    (l.drop (min start f)).take (min stop f - min start f) = slice k (min (k + n) f) l := by
  apply slice_congr l
  · rw [hs, usizeMax, hl]
    omega
  · rw [hp, hs, saturatingAdd, usizeMax, hl]
    omega

theorem object_window (l : List α) (hl : l.length = o) :
    (l.drop (min (start - f) o)).take (min (stop - f) o - min (start - f) o) =
      slice (k - f) (k + n - f) l := by
  apply slice_congr l
  · rw [hs, usizeMax, hl]
    omega
  · rw [hp, hs, saturatingAdd, usizeMax, hl]
    omega

theorem window_open : stop < f + o ↔ k + n < f + o := by
  rw [hp, hs, saturatingAdd, usizeMax]
  omega

end

/-- The answer to a page shows the part of the listing that the page stands for. -/
theorem handleListObjects_eq (listed : String) (folders : Vec String) (objects : Vec β)
    (wire : β → Except String ω) (page pageSize : Nat) :
    handleListObjects listed folders objects wire page pageSize =
      let all := folders.1.map Sum.inl ++ objects.1.map Sum.inr
      let start := (page - 1) * pageSize
      some (respond listed wire page pageSize all.length
        (decide (start + pageSize < all.length)) (slice start (start + pageSize) all)) := by
  have hf := folders.2
  have ho := objects.2
  have htotal : usizeAdd folders.1.length objects.1.length =
      some (folders.1.length + objects.1.length) := by
    rw [usizeAdd, if_pos (by rw [usizeMax]; omega)]
  have hs : saturatingMul (page - 1) pageSize = min ((page - 1) * pageSize) usizeMax := rfl
  have hp := Eq.refl (min (saturatingAdd (saturatingMul (page - 1) pageSize) pageSize)
    (folders.1.length + objects.1.length))
  simp only [handleListObjects, respond, htotal, Option.bind_eq_bind, Option.bind_some,
    Option.pure_def, folder_window hf ho hs hp _ rfl, object_window hf ho hs hp _ rfl,
    window_open hf ho hs hp, slice_append, slice_map, List.length_append, List.length_map,
    lefts, rights]

/-- The pages are the blocks of the folders followed by the objects, and empty afterwards;
`has_more` says whether a later block exists. -/
theorem admin_pages_partition (listed : String) (folders : Vec String) (objects : Vec β)
    (wire : β → Except String ω) (size : PageSize) :
    ∃ pages : List (List (String ⊕ β)),
      pages.flatten = folders.1.map Sum.inl ++ objects.1.map Sum.inr ∧
      (∀ entries ∈ pages, 0 < entries.length ∧ entries.length ≤ size) ∧
      ∀ page, 1 ≤ page → page ≤ usizeMax → handleListObjects listed folders objects wire page size =
          some (respond listed wire page size pages.flatten.length
            (decide (page < pages.length)) (pages[page - 1]?.getD [])) := by
  obtain ⟨pageSize, hsize, -⟩ := size
  refine ⟨blocks pageSize _, flatten_blocks hsize _,
    fun entries h => length_mem_blocks hsize h, fun page hp _ => ?_⟩
  generalize hall : folders.1.map Sum.inl ++ objects.1.map Sum.inr = all
  have hstep : (page - 1) * pageSize + pageSize = page * pageSize := by
    rw [← Nat.succ_mul, Nat.succ_eq_add_one, Nat.sub_add_cancel hp]
  have hmore : page < (blocks pageSize all).length ↔ page * pageSize < all.length := by
    rw [← Nat.not_le, ← List.getElem?_eq_none_iff, getElem?_blocks hsize]
    split <;> simp_all
  have hblock : (blocks pageSize all)[page - 1]?.getD [] =
      slice ((page - 1) * pageSize) (page * pageSize) all := by
    rw [getElem?_blocks hsize, slice, ← hstep, Nat.add_sub_cancel_left]
    split
    · rfl
    · rename_i h
      rw [List.drop_of_length_le (Nat.not_lt.1 h), List.take_nil, Option.getD_none]
  simp only [handleListObjects_eq, flatten_blocks hsize, hall, hstep, hmore, hblock]

end TelegramS3
