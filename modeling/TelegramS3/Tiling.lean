import Mathlib.Data.List.Basic

namespace Segments
set_option autoImplicit true

/-- Non-empty intervals that follow each other from one bound to the other. -/
def Tiles : Nat → List (Nat × Nat) → Nat → Prop
  | lo, [], hi => lo = hi
  | lo, p :: rest, hi => p.1 = lo ∧ p.1 < p.2 ∧ Tiles p.2 rest hi

namespace Tiles

section
variable (h : Tiles lo l hi)
include h

theorem le : lo ≤ hi := by
  induction l generalizing lo with
  | nil => exact Nat.le_of_eq h
  | cons p l ih =>
    obtain ⟨rfl, hlt, h⟩ := h
    exact Nat.le_trans (Nat.le_of_lt hlt) (ih h)

theorem bounds (hp : p ∈ l) : lo ≤ p.1 ∧ p.1 < p.2 ∧ p.2 ≤ hi := by
  induction l generalizing lo with
  | nil => cases hp
  | cons q l ih =>
    obtain ⟨rfl, hlt, h⟩ := h
    rcases List.mem_cons.1 hp with rfl | hp
    · exact ⟨Nat.le_refl _, hlt, h.le⟩
    · obtain ⟨hlo, hlt', hhi⟩ := ih h hp
      exact ⟨Nat.le_trans (Nat.le_of_lt hlt) hlo, hlt', hhi⟩

theorem disjoint : l.Pairwise fun p q => p.2 ≤ q.1 := by
  induction l generalizing lo with
  | nil => exact .nil
  | cons p l ih =>
    obtain ⟨-, -, h⟩ := h
    exact .cons (fun q hq => (h.bounds hq).1) (ih h)

theorem covers : (lo ≤ x ∧ x < hi) ↔ ∃ p ∈ l, p.1 ≤ x ∧ x < p.2 := by
  induction l generalizing lo with
  | nil =>
    have he : lo = hi := h
    simp only [List.not_mem_nil, false_and, exists_false, iff_false]
    omega
  | cons p l ih =>
    obtain ⟨rfl, hlt, h⟩ := h
    have hle := h.le
    rw [List.exists_mem_cons_iff, ← ih h]
    omega

end

end Tiles
end Segments
