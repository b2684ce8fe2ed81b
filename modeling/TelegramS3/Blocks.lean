import TelegramS3.Segments

namespace Segments
set_option autoImplicit true

/-- A sequence cut into blocks of one size, the last of which may be shorter. -/
def blocks (size : Nat) (l : List α) : List (List α) :=
  if _h : l = [] ∨ size = 0 then [] else l.take size :: blocks size (l.drop size)
termination_by l.length
decreasing_by
  have hpos : 0 < l.length := List.length_pos_iff.2 fun h => _h (.inl h)
  have hsize : size ≠ 0 := fun h => _h (.inr h)
  rw [List.length_drop]
  omega

@[simp] theorem blocks_nil (size : Nat) : blocks size ([] : List α) = [] := by
  rw [blocks, dif_pos (.inl rfl)]

theorem blocks_of_ne_nil (hs : 0 < size) (hl : l ≠ []) :
    blocks size l = l.take size :: blocks size (l.drop size) := by
  rw [blocks, dif_neg fun h => h.elim hl (Nat.ne_of_gt hs)]

/-- A full block comes first. -/
theorem blocks_append (hs : 0 < size) (hb : block.length = size) (l : List α) :
    blocks size (block ++ l) = block :: blocks size l := by
  have hne : block ++ l ≠ [] := by
    intro h
    rw [(List.append_eq_nil_iff.1 h).1] at hb
    exact Nat.ne_of_gt hs hb.symm
  rw [blocks_of_ne_nil hs hne, List.take_left' hb, List.drop_left' hb]

/-- What does not fill a block is a block of its own. -/
theorem blocks_of_lt (hl : l ≠ []) (h : l.length < size) : blocks size l = [l] := by
  rw [blocks_of_ne_nil (Nat.zero_lt_of_lt h) hl, List.take_of_length_le (Nat.le_of_lt h),
    List.drop_of_length_le (Nat.le_of_lt h), blocks_nil]

theorem flatten_blocks (hs : 0 < size) (l : List α) : (blocks size l).flatten = l := by
  fun_induction blocks size l with
  | case1 l h =>
    rcases h with rfl | h
    · rfl
    · exact absurd h (Nat.ne_of_gt hs)
  | case2 l h ih => rw [List.flatten_cons, ih, List.take_append_drop]

theorem getElem?_blocks (hs : 0 < size) (l : List α) (i : Nat) : (blocks size l)[i]? =
      if i * size < l.length then some ((l.drop (i * size)).take size) else none := by
  induction i generalizing l with
  | zero =>
    cases l with
    | nil => simp
    | cons a l => simp [blocks_of_ne_nil hs]
  | succ i ih =>
    have hm : (i + 1) * size = i * size + size := Nat.succ_mul i size
    cases l with
    | nil => simp
    | cons a l =>
      rw [blocks_of_ne_nil hs (List.cons_ne_nil a l), List.getElem?_cons_succ, ih,
        List.length_drop, List.drop_drop, hm, Nat.add_comm size]
      by_cases h : i * size + size < (a :: l).length
      · rw [if_pos (by omega), if_pos h]
      · rw [if_neg (by omega), if_neg h]

theorem length_mem_blocks (hs : 0 < size) (hb : block ∈ blocks size l) :
    0 < block.length ∧ block.length ≤ size := by
  obtain ⟨i, hi⟩ := List.mem_iff_getElem?.1 hb
  rw [getElem?_blocks hs] at hi
  split at hi
  · cases hi
    rw [List.length_take, List.length_drop]
    omega
  · cases hi

theorem length_blocks_le (hs : 0 < size) (h : l.length ≤ n * size) :
    (blocks size l).length ≤ n := by
  rw [← List.getElem?_eq_none_iff, getElem?_blocks hs, if_neg (Nat.not_lt.2 h)]

end Segments
