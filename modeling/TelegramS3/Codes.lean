import Mathlib.Data.List.Basic

namespace Codes
set_option autoImplicit true

/-- A code whose words can be cut off the front of a text in one way only. -/
def Delimited (code : α → List β) : Prop :=
  ∀ a b x y, code a ++ x = code b ++ y → a = b ∧ x = y

variable {code : α → List β}

theorem Delimited.of_length (hl : ∀ a b, (code a).length = (code b).length)
    (hi : Function.Injective code) : Delimited code := by
  intro a b x y h
  obtain ⟨hc, hx⟩ := List.append_inj h (hl a b)
  exact ⟨hi hc, hx⟩

theorem Delimited.flatMap_inj (h : Delimited code) (hne : ∀ a, code a ≠ []) {l r : List α}
    (he : l.flatMap code = r.flatMap code) : l = r := by
  induction l generalizing r with
  | nil =>
    cases r with
    | nil => rfl
    | cons b r => exact absurd (List.append_eq_nil_iff.1 he.symm).1 (hne b)
  | cons a l ih =>
    cases r with
    | nil => exact absurd (List.append_eq_nil_iff.1 he).1 (hne a)
    | cons b r =>
      rw [List.flatMap_cons, List.flatMap_cons] at he
      obtain ⟨rfl, hr⟩ := h _ _ _ _ he
      rw [ih hr]

end Codes
