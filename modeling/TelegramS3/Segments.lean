import Mathlib.Data.List.Basic

namespace Segments
set_option autoImplicit true

/-- The part of a sequence from one position up to another. -/
def slice (start stop : Nat) (l : List α) : List α := (l.drop start).take (stop - start)

/-- The parts of consecutive pieces, the first of which begins at `offset`, that lie in a range. -/
def overlaps (start stop : Nat) : Nat → List (List α) → List (List α)
  | _, [] => []
  | offset, p :: rest =>
    if offset + p.length ≤ start ∨ stop ≤ offset then
      overlaps start stop (offset + p.length) rest
    else
      slice (max start offset - offset) (min stop (offset + p.length) - offset) p ::
        overlaps start stop (offset + p.length) rest

theorem slice_of_le (h : stop ≤ start) (l : List α) : slice start stop l = [] := by
  rw [slice, Nat.sub_eq_zero_of_le h, List.take_zero]

/-- Parts that follow each other make up a part. -/
theorem slice_append_slice (h₁ : start ≤ middle) (h₂ : middle ≤ stop) (l : List α) :
    slice start middle l ++ slice middle stop l = slice start stop l := by
  have hm : l.drop middle = (l.drop start).drop (middle - start) := by
    rw [List.drop_drop]
    congr 1
    omega
  rw [slice, slice, slice, hm, ← List.take_add]
  congr 1
  omega

theorem slice_append (start stop : Nat) (l r : List α) : slice start stop (l ++ r) =
      slice start (min stop l.length) l ++ slice (start - l.length) (stop - l.length) r := by
  simp only [slice, List.drop_append, List.take_append, List.length_drop]
  congr 1
  · rw [List.take_eq_take_iff, List.length_drop]
    omega
  · congr 1
    omega

theorem slice_clip (l : List α) : slice start stop l =
    slice (min start l.length) (min stop l.length) l := by
  rcases Nat.le_total start l.length with h | h
  · rw [Nat.min_eq_left h, slice, slice, List.take_eq_take_iff, List.length_drop]
    omega
  · rw [slice, slice, List.drop_of_length_le h, Nat.min_eq_right h, List.drop_length,
      List.take_nil, List.take_nil]

theorem slice_congr (l : List α) (ha : min a l.length = min a' l.length)
    (hb : min b l.length = min b' l.length) : slice a b l = slice a' b' l := by
  rw [slice_clip, ha, hb, ← slice_clip]

theorem slice_map (f : α → β) (l : List α) : slice a b (l.map f) = (slice a b l).map f := by
  rw [slice, slice, List.map_take, List.map_drop]

/-- The overlaps of the pieces of a sequence make up the range. -/
theorem overlaps_flatten (start stop offset : Nat) (ps : List (List α)) :
    (overlaps start stop offset ps).flatten =
      slice (start - offset) (stop - offset) ps.flatten := by
  induction ps generalizing offset with
  | nil => simp [overlaps, slice]
  | cons p rest ih =>
    rw [overlaps, List.flatten_cons, slice_append]
    have hrest := ih (offset + p.length)
    rw [Nat.sub_add_eq, Nat.sub_add_eq] at hrest
    split
    · rename_i h
      rw [hrest, slice_of_le (by omega) p, List.nil_append]
    · rename_i h
      rw [List.flatten_cons, hrest, show max start offset - offset = start - offset by omega,
        show min stop (offset + p.length) - offset = min (stop - offset) p.length by omega]

end Segments
