import Mathlib.Algebra.Order.Ring.Nat
import Mathlib.Data.List.DropRight
import Mathlib.Data.List.Lex

namespace Lexicographic
set_option autoImplicit true

section Order
variable [LinearOrder α] {p q x y : List α}

/-- Starts of one length are compared first. -/
theorem append_lt_append (h : p.length = q.length) : p ++ x < q ++ y ↔ p < q ∨ p = q ∧ x < y := by
  induction p generalizing q with
  | nil =>
    cases q with
    | nil => simp
    | cons b q => simp at h
  | cons a p ih =>
    cases q with
    | nil => simp at h
    | cons b q =>
      simp only [List.cons_append, List.cons_lt_cons_iff, List.cons.injEq]
      rw [ih (by simpa using h)]
      tauto

/-- Two lists differ somewhere, unless one starts with the other. -/
theorem start_or_differ (a b : List α) :
    a <+: b ∨ b <+: a ∨ ∃ p x y a' b', x ≠ y ∧ a = p ++ x :: a' ∧ b = p ++ y :: b' := by
  induction a generalizing b with
  | nil => exact .inl List.nil_prefix
  | cons x a ih =>
    cases b with
    | nil => exact .inr (.inl List.nil_prefix )
    | cons y b =>
      by_cases hxy : x = y
      · subst hxy
        rcases ih b with h | h | ⟨p, u, v, a', b', hne, rfl, rfl⟩
        · exact .inl (List.cons_prefix_cons.2 ⟨rfl, h⟩)
        · exact .inr (.inl (List.cons_prefix_cons.2 ⟨rfl, h⟩))
        · exact .inr (.inr ⟨x :: p, u, v, a', b', hne, rfl, rfl⟩)
      · exact .inr (.inr ⟨[], x, y, a, b, hxy, rfl, rfl⟩)

theorem differ_lt (hne : u ≠ v) : p ++ u :: x < p ++ v :: y ↔ u < v := by
  rw [append_lt_append rfl]
  simp [List.cons_lt_cons_iff, hne]

omit [LinearOrder α] in
theorem differ_not_start (hne : u ≠ v) : ¬ p ++ u :: x <+: p ++ v :: y := by
  rw [List.prefix_append_right_inj, List.cons_prefix_cons]
  exact fun h => hne h.1

/-- Nothing of one length is below a list of least elements. -/
theorem not_lt_replicate {z : α} (h : ∀ c ∈ l, z ≤ c) : ¬ l < List.replicate l.length z := by
  induction l with
  | nil => simp
  | cons c l ih =>
    obtain ⟨hc, hl⟩ := List.forall_mem_cons.1 h
    rw [List.length_cons, List.replicate_succ, List.cons_lt_cons_iff]
    rintro (hlt | ⟨-, hlt⟩)
    · exact absurd hlt (not_lt.2 hc)
    · exact ih hl hlt

/-- What is dropped at the end of a list is a run of the dropped element. -/
theorem exists_dropped (l : List α) (z : α) :
    ∃ k, l = (l.reverse.dropWhile (· == z)).reverse ++ List.replicate k z := by
  refine ⟨(l.reverse.takeWhile (· == z)).length, ?_⟩
  have hz : l.reverse.takeWhile (· == z) =
      List.replicate (l.reverse.takeWhile (· == z)).length z := by
    rw [List.eq_replicate_iff]
    exact ⟨rfl, fun c hc => by simpa using List.mem_takeWhile_imp hc⟩
  have hl : (l.reverse.takeWhile (· == z) ++ l.reverse.dropWhile (· == z)).reverse = l := by
    rw [List.takeWhile_append_dropWhile, List.reverse_reverse]
  rw [hz, List.reverse_append, List.reverse_replicate] at hl
  exact hl.symm

/-- Lists compare as what they are padded to; a mark above all elements puts starts second. -/
theorem marked_order {z t : α} (hlen : a.length + i = b.length + j)
    (hlt : a ++ List.replicate i z < b ++ List.replicate j z) (ha : ∀ c ∈ a, z ≤ c)
    (hb : ∀ c ∈ b, c < t) :
    (a <+: b → b ++ [t] < a ++ [t]) ∧ (¬ a <+: b → a ++ [t] < b ++ [t]) := by
  rcases start_or_differ a b with hs | ⟨y, rfl⟩ | ⟨p, u, v, a', b', hne, rfl, rfl⟩
  · refine ⟨fun _ => ?_, fun hn => absurd hs hn⟩
    obtain ⟨x, rfl⟩ := hs
    cases x with
    | nil =>
      rw [List.append_nil] at hlen hlt
      rw [Nat.add_left_cancel hlen] at hlt
      exact absurd hlt (lt_irrefl _)
    | cons c x =>
      have hc : c < t := hb c (by simp)
      rw [List.append_assoc, List.cons_append]
      exact (differ_lt hc.ne).2 hc
  · have hyz : ∀ c ∈ y ++ List.replicate i z, z ≤ c := by
      intro c hc
      rcases List.mem_append.1 hc with hc | hc
      · exact ha c (List.mem_append_right _ hc)
      · rw [List.eq_of_mem_replicate hc]
    have hj : j = (y ++ List.replicate i z).length := by
      simp only [List.length_append, List.length_replicate] at hlen ⊢
      omega
    rw [List.append_assoc, append_lt_append rfl] at hlt
    rcases hlt with hlt | ⟨-, hlt⟩
    · exact absurd hlt (lt_irrefl _)
    · rw [hj] at hlt
      exact absurd hlt (not_lt_replicate hyz)
  · refine ⟨fun hs => absurd hs (differ_not_start hne), fun _ => ?_⟩
    rw [List.append_assoc, List.append_assoc, List.cons_append, List.cons_append,
      differ_lt hne] at hlt
    rw [List.append_assoc, List.append_assoc, List.cons_append, List.cons_append]
    exact (differ_lt hne).2 hlt

end Order

section Numerals

/-- The digits of a number, most significant first. -/
def numeral (digit : Nat → α) (base width n : Nat) : List α :=
  (List.range width).map fun i => digit (n / base ^ (width - 1 - i) % base)

section
variable (digit : Nat → α) (base width n : Nat)
include digit base width n

theorem numeral_length : (numeral digit base width n).length = width := by
  simp [numeral]

theorem numeral_succ : numeral digit base (width + 1) n =
      digit (n / base ^ width % base) :: numeral digit base width n := by
  simp only [numeral, List.range_succ_eq_map, List.map_cons, List.map_map]
  congr 1
  apply List.map_congr_left
  intro i _
  simp only [Function.comp]
  congr 4
  omega

/-- The digits below a place do not see what stands above it. -/
theorem numeral_mod : numeral digit base width (n % base ^ width) = numeral digit base width n := by
  apply List.map_congr_left
  intro i hi
  rw [List.mem_range] at hi
  have hw : base ^ width = base ^ (width - 1 - i) * (base * base ^ i) := by
    rw [← pow_succ', ← pow_add]
    congr 1
    omega
  rw [hw, Nat.mod_mul_right_div_self, Nat.mod_mul_right_mod]

end

variable [LinearOrder α] {digit : Nat → α} {base : Nat}

section
variable (hd : ∀ d < base, ∀ e < base, digit d < digit e ↔ d < e) (hn : n < base ^ width)
  (hm : m < base ^ width)
include hd hn hm

/-- Numerals of one width are ordered as their numbers. -/
theorem numeral_lt : numeral digit base width n < numeral digit base width m ↔ n < m := by
  induction width generalizing n m with
  | zero =>
    rw [pow_zero, Nat.lt_one_iff] at hn hm
    simp [hn, hm]
  | succ width ih =>
    have hpos : 0 < base ^ width := by
      by_contra h
      rw [pow_succ, Nat.eq_zero_of_not_pos h, Nat.zero_mul] at hn
      exact Nat.not_lt_zero _ hn
    rw [pow_succ] at hn hm
    have hqn : n / base ^ width < base := Nat.div_lt_of_lt_mul hn
    have hqm : m / base ^ width < base := Nat.div_lt_of_lt_mul hm
    rw [numeral_succ, numeral_succ, List.cons_lt_cons_iff, Nat.mod_eq_of_lt hqn,
      Nat.mod_eq_of_lt hqm, hd _ hqn _ hqm, ← numeral_mod digit base width n,
      ← numeral_mod digit base width m, ih (Nat.mod_lt _ hpos) (Nat.mod_lt _ hpos)]
    have hinj : digit (n / base ^ width) = digit (m / base ^ width) ↔
        n / base ^ width = m / base ^ width := by
      constructor
      · intro he
        have h₁ := (hd _ hqn _ hqm).not.1 (by rw [he]; exact lt_irrefl _)
        have h₂ := (hd _ hqm _ hqn).not.1 (by rw [he]; exact lt_irrefl _)
        omega
      · exact fun he => by rw [he]
    rw [hinj]
    have hdn := Nat.div_add_mod n (base ^ width)
    have hdm := Nat.div_add_mod m (base ^ width)
    constructor
    · rintro (hlt | ⟨he, hlt⟩)
      · exact lt_of_not_ge fun hge => absurd hlt (Nat.not_lt.2 (Nat.div_le_div_right hge))
      · rw [← hdn, ← hdm, he]
        omega
    · intro hlt
      rcases Nat.lt_or_eq_of_le (Nat.div_le_div_right (c := base ^ width) hlt.le) with h | h
      · exact .inl h
      · refine .inr ⟨h, ?_⟩
        rw [← hdn, ← hdm, h] at hlt
        omega

theorem numeral_inj : numeral digit base width n = numeral digit base width m ↔ n = m := by
  constructor
  · intro he
    have h₁ := (numeral_lt hd hn hm).not.1 (by rw [he]; exact lt_irrefl _)
    have h₂ := (numeral_lt hd hm hn).not.1 (by rw [he]; exact lt_irrefl _)
    omega
  · exact fun he => by rw [he]

end

end Numerals

end Lexicographic
