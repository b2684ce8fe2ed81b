import Mathlib.Data.List.Infix

namespace Patterns
set_option autoImplicit true

/-- ASCII letters without their case. -/
def foldCase (c : Char) : Char := if 'A' ≤ c ∧ c ≤ 'Z' then Char.ofNat (c.toNat + 32) else c

/-- `text LIKE pattern` without `ESCAPE`. -/
def like : List Char → List Char → Bool
  | [], text => text.isEmpty
  | '%' :: pattern, text => text.tails.any fun rest => like pattern rest
  | '_' :: pattern, text =>
    match text with
    | [] => false
    | _ :: rest => like pattern rest
  | p :: pattern, text =>
    match text with
    | [] => false
    | c :: rest => foldCase p == foldCase c && like pattern rest

theorem like_percent : like ('%' :: p) t = true ↔ ∃ u, u <:+ t ∧ like p u = true := by
  simp [like, List.any_eq_true, List.mem_tails]

theorem like_cons (h : like p t = true) : like (c :: p) (c :: t) = true := by
  unfold like
  split
  · contradiction
  · rename_i he
    cases he
    exact like_percent.2 ⟨t, List.suffix_cons _ _, h⟩
  · rename_i he
    cases he
    exact h
  · rename_i he
    cases he
    simp [h]

/-- A text matches every pattern that it starts with. -/
theorem like_append (p t : List Char) : like (p ++ ['%']) (p ++ t) = true := by
  induction p with
  | nil => exact like_percent.2 ⟨[], List.nil_suffix, rfl⟩
  | cons c p ih => exact like_cons ih

/-- What follows a prefix. -/
def strip (p t : List Char) : Option (List Char) :=
  if p.isPrefixOf t then some (t.drop p.length) else none

theorem strip_append (p t : List Char) : strip p (p ++ t) = some t := by
  simp [strip]

/-- The first place at which a text occurs. -/
def find (d : List Char) : List Char → Option Nat
  | [] => if d.isEmpty then some 0 else none
  | c :: t => if d.isPrefixOf (c :: t) then some 0 else (find d t).map (· + 1)

theorem find_eq_some (h : find d t = some i) : d <+: t.drop i ∧ ∀ j, j < i → ¬ d <+: t.drop j := by
  induction t generalizing i with
  | nil =>
    simp only [find] at h
    split at h
    · rename_i hd
      cases h
      rw [List.isEmpty_iff.1 hd]
      exact ⟨List.nil_prefix, fun j hj => by omega⟩
    · cases h
  | cons c t ih =>
    simp only [find] at h
    split at h
    · rename_i hd
      cases h
      exact ⟨List.isPrefixOf_iff_prefix.1 hd, fun j hj => by omega⟩
    · rename_i hd
      obtain ⟨i, hi, rfl⟩ := Option.map_eq_some_iff.1 h
      obtain ⟨hp, hmin⟩ := ih hi
      refine ⟨hp, fun j hj hpre => ?_⟩
      cases j with
      | zero => exact hd (List.isPrefixOf_iff_prefix.2 hpre)
      | succ j => exact hmin j (by omega) hpre

theorem find_isSome (h : d <:+: t) : (find d t).isSome = true := by
  induction t with
  | nil =>
    rw [List.infix_nil.1 h]
    rfl
  | cons c t ih =>
    simp only [find]
    split
    · rfl
    · rename_i hd
      rcases List.infix_cons_iff.1 h with hp | hi
      · exact absurd (List.isPrefixOf_iff_prefix.2 hp) hd
      · simpa using ih hi

/-- A text cut after the first occurrence still has it. -/
theorem find_take (h : find d t = some i) : (find d (t.take (i + d.length))).isSome = true := by
  obtain ⟨⟨u, hu⟩, -⟩ := find_eq_some h
  apply find_isSome
  refine ⟨t.take i, [], ?_⟩
  rw [List.append_nil, List.take_add, ← hu, List.take_left]

end Patterns
