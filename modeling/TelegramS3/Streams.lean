import Mathlib.Data.List.Basic

namespace Streaming
set_option autoImplicit true

/-- The items up to and including the first error. -/
def upToError : List (Except ε α) → List (Except ε α)
  | [] => []
  | .error e :: _ => [.error e]
  | .ok a :: l => .ok a :: upToError l

/-- What a reader gives that is called until it ends or fails, at most a number of times. -/
def drain (next : σ → Option (Except ε α) × σ) : Nat → σ → List (Except ε α)
  | 0, _ => []
  | n + 1, w =>
    match next w with
    | (none, _) => []
    | (some (.error e), _) => [.error e]
    | (some (.ok a), w') => .ok a :: drain next n w'

/-- A reader that is at the place `k` of the items gives the item there and goes on behind it. -/
def Follows (next : σ → Option (Except ε α) × σ) (items : List (Except ε α))
    (At : Nat → σ → Prop) : Prop :=
  ∀ k w, At k w → (next w).1 = items[k]? ∧
    ∀ a, items[k]? = some (.ok a) → At (k + 1) (next w).2

theorem Follows.drain (h : Follows next items At) (hw : At k w) :
    drain next n w = (upToError (items.drop k)).take n := by
  induction n generalizing k w with
  | zero => rfl
  | succ n ih =>
    obtain ⟨hi, hn⟩ := h k w hw
    unfold Streaming.drain
    cases hk : items[k]? with
    | none =>
      rw [hk] at hi
      rw [List.drop_eq_nil_of_le (List.getElem?_eq_none_iff.1 hk)]
      obtain ⟨w', hs⟩ : ∃ w', next w = (none, w') := ⟨(next w).2, Prod.ext hi rfl⟩
      rw [hs]
      rfl
    | some item =>
      rw [hk] at hi
      obtain ⟨hlt, he⟩ := List.getElem?_eq_some_iff.1 hk
      rw [List.drop_eq_getElem_cons hlt, he]
      obtain ⟨w', hs⟩ : ∃ w', next w = (some item, w') := ⟨(next w).2, Prod.ext hi rfl⟩
      cases item with
      | error e =>
        rw [hs]
        simp [upToError]
      | ok a =>
        have hw' := hn a hk
        rw [hs] at hw' ⊢
        simp only [upToError, List.take_succ_cons]
        rw [ih hw']

/-- The items up to and including the first at which a loop stops. -/
def through (stop : α → Bool) : List α → List α
  | [] => []
  | x :: l => if stop x then [x] else x :: through stop l

theorem mem_through : x ∈ through stop l ↔
    ∃ front back, l = front ++ x :: back ∧ ∀ y ∈ front, stop y = false := by
  induction l with
  | nil => simp [through]
  | cons y l ih =>
    rw [through]
    constructor
    · intro hx
      by_cases hy : stop y = true
      · rw [if_pos hy, List.mem_singleton] at hx
        exact ⟨[], l, by rw [hx]; rfl, fun _ h => nomatch h⟩
      · rw [if_neg hy] at hx
        rcases List.mem_cons.1 hx with rfl | hx
        · exact ⟨[], l, rfl, fun _ h => nomatch h⟩
        · obtain ⟨front, back, rfl, hf⟩ := ih.1 hx
          refine ⟨y :: front, back, rfl, fun z hz => ?_⟩
          rcases List.mem_cons.1 hz with rfl | hz
          · exact Bool.eq_false_iff.2 hy
          · exact hf z hz
    · rintro ⟨front, back, he, hf⟩
      cases front with
      | nil =>
        cases he
        split <;> exact List.mem_cons_self
      | cons z front =>
        cases he
        rw [if_neg (by rw [hf _ List.mem_cons_self]; exact fun h => nomatch h)]
        refine List.mem_cons_of_mem _ (ih.2 ⟨front, back, rfl, fun z hz => ?_⟩)
        exact hf z (List.mem_cons_of_mem _ hz)

theorem mem_through_filter : x ∈ through stop (l.filter p) ↔
    p x = true ∧ x ∈ through (fun y => p y && stop y) l := by
  induction l with
  | nil => simp [through]
  | cons y l ih =>
    cases hp : p y with
    | false =>
      rw [List.filter_cons_of_neg (by rw [hp]; exact fun h => nomatch h), ih, through, hp]
      simp only [Bool.false_and, Bool.false_eq_true, if_false, List.mem_cons]
      constructor
      · exact fun h => ⟨h.1, .inr h.2⟩
      · rintro ⟨hx, rfl | h⟩
        · rw [hp] at hx
          cases hx
        · exact ⟨hx, h⟩
    | true =>
      rw [List.filter_cons_of_pos hp, through, through, hp, Bool.true_and]
      cases stop y with
      | true =>
        simp only [if_true, List.mem_singleton]
        constructor
        · rintro rfl
          exact ⟨hp, rfl⟩
        · exact And.right
      | false =>
        simp only [Bool.false_eq_true, if_false, List.mem_cons, ih]
        constructor
        · rintro (rfl | h)
          · exact ⟨hp, .inl rfl⟩
          · exact ⟨h.1, .inr h.2⟩
        · rintro ⟨hx, rfl | h⟩
          · exact .inl rfl
          · exact .inr ⟨hx, h⟩

/-- A loop over a list that ends with the first failure of its body. -/
def forUntil (body : α → σ → σ × Except ε Unit) : List α → σ → σ × Except ε Unit
  | [], w => (w, .ok ())
  | x :: l, w =>
    match body x w with
    | (w', .error e) => (w', .error e)
    | (w', .ok _) => forUntil body l w'

/-- What a loop leaves behind, from what its body does while an invariant of the rest holds. -/
theorem forUntil_trace {body : α → σ → σ × Except ε Unit} {seen : α → List τ} {stop : α → Bool}
    (trace : σ → List τ) (I : List α → σ → Prop)
    (hb : ∀ x l w, I (x :: l) w → trace (body x w).1 = trace w ++ seen x ∧
      (body x w).2.isOk = !stop x ∧ (stop x = false → I l (body x w).1)) (hw : I l w) :
    trace (forUntil body l w).1 = trace w ++ (through stop l).flatMap seen ∧
      (forUntil body l w).2.isOk = !l.any stop ∧
        (l.any stop = false → I [] (forUntil body l w).1) := by
  induction l generalizing w with
  | nil => exact ⟨by simp [forUntil, through], rfl, fun _ => hw⟩
  | cons x l ih =>
    obtain ⟨ht, hs, hn⟩ := hb x l w hw
    rw [forUntil, through, List.any_cons]
    generalize body x w = r at ht hs hn
    obtain ⟨w', r⟩ := r
    cases r with
    | error e =>
      have hx : stop x = true := by
        cases hx : stop x with
        | true => rfl
        | false =>
          rw [hx] at hs
          cases hs
      simp only [hx, if_true, List.flatMap_singleton, Bool.true_or]
      exact ⟨ht, rfl, fun h => nomatch h⟩
    | ok u =>
      have hx : stop x = false := by
        cases hx : stop x with
        | false => rfl
        | true =>
          rw [hx] at hs
          cases hs
      simp only [hx, Bool.false_eq_true, if_false, Bool.false_or, List.flatMap_cons]
      obtain ⟨htl, hsl, hnl⟩ := ih (hn hx)
      exact ⟨by rw [htl, ht, List.append_assoc], hsl, hnl⟩

end Streaming
