import Mathlib.Data.List.Sort

namespace StableSort
set_option autoImplicit true
variable {α : Type u} {r : α → α → Prop} {p : α → Bool}

/-- No earlier element with the property ranks as high as this one and no later one higher. -/
def Leads (r : α → α → Prop) (p : α → Bool) (l : List α) (a : α) : Prop :=
  ∃ front back, l = front ++ a :: back ∧ p a = true ∧ (∀ b ∈ front, p b = true → ¬ r b a) ∧
    ∀ b ∈ back, p b = true → r a b

namespace Leads

theorem mem (h : Leads r p l a) : a ∈ l := by
  obtain ⟨front, back, rfl, -⟩ := h
  exact List.mem_append_right _ List.mem_cons_self

theorem holds (h : Leads r p l a) : p a = true := by
  obtain ⟨front, back, -, hp, -⟩ := h
  exact hp

theorem unique (h : Leads r p l a) (h' : Leads r p l b) : a = b := by
  obtain ⟨front, back, rfl, hp, hf, hb⟩ := h
  obtain ⟨front', back', he, hp', hf', hb'⟩ := h'
  rcases List.append_eq_append_iff.1 he with ⟨mid, rfl, hm⟩ | ⟨mid, rfl, hm⟩
  · cases mid with
    | nil =>
      cases hm
      rfl
    | cons c mid =>
      cases hm
      exact absurd (hb b (by simp) hp') (hf' a (by simp) hp)
  · cases mid with
    | nil =>
      cases hm
      rfl
    | cons c mid =>
      cases hm
      exact absurd (hb' a (by simp) hp) (hf b (by simp) hp')

theorem filter (h : Leads r p l a) (q : α → Bool) (hq : q a = true) : Leads r p (l.filter q) a := by
  obtain ⟨front, back, rfl, hp, hf, hb⟩ := h
  refine ⟨front.filter q, back.filter q, by simp [hq], hp, ?_, ?_⟩
  · intro b hbf
    exact hf b (List.mem_of_mem_filter hbf)
  · intro b hbb
    exact hb b (List.mem_of_mem_filter hbb)

theorem cons_of_not (h : Leads r p l a) (hx : p x = false) : Leads r p (x :: l) a := by
  obtain ⟨front, back, rfl, hp, hf, hb⟩ := h
  refine ⟨x :: front, back, rfl, hp, ?_, hb⟩
  intro b hbf hpb
  rcases List.mem_cons.1 hbf with rfl | hbf
  · rw [hx] at hpb
    cases hpb
  · exact hf b hbf hpb

theorem cons_of_not_rel (h : Leads r p l a) (hx : ¬ r x a) : Leads r p (x :: l) a := by
  obtain ⟨front, back, rfl, hp, hf, hb⟩ := h
  refine ⟨x :: front, back, rfl, hp, ?_, hb⟩
  intro b hbf hpb
  rcases List.mem_cons.1 hbf with rfl | hbf
  · exact hx
  · exact hf b hbf hpb

theorem rel [Std.Total r] (h : Leads r p l a) (hb : b ∈ l) (hp : p b = true) : r a b := by
  obtain ⟨front, back, rfl, hpa, hf, hback⟩ := h
  have refl : r a a := (Std.Total.total a a).elim id id
  rcases List.mem_append.1 hb with hb | hb
  · exact (Std.Total.total (r := r) b a).resolve_left (hf b hb hp)
  · rcases List.mem_cons.1 hb with rfl | hb
    · exact refl
    · exact hback b hb hp

end Leads

section Insertion
variable [DecidableRel r] {l : List α}

theorem find?_orderedInsert_of_not (hx : p x = false) (l : List α) :
    (l.orderedInsert r x).find? p = l.find? p := by
  induction l with
  | nil => simp [hx]
  | cons b l ih =>
    rw [List.orderedInsert_cons]
    split
    · simp [hx]
    · rw [List.find?_cons, List.find?_cons, ih]

theorem find?_orderedInsert_of_none (hx : p x = true) (hl : l.find? p = none) :
    (l.orderedInsert r x).find? p = some x := by
  induction l with
  | nil => simp [hx]
  | cons c l ih =>
    have hc : ¬ p c = true := List.find?_eq_none.1 hl c List.mem_cons_self
    rw [List.find?_cons_of_neg hc] at hl
    rw [List.orderedInsert_cons]
    split
    · simp [hx]
    · rw [List.find?_cons_of_neg hc]
      exact ih hl

/-- An inserted element comes before the first of a sorted list when it ranks as high. -/
theorem find?_orderedInsert_of_some [IsTrans α r] (hx : p x = true) (hl : l.Pairwise r)
    (hb : l.find? p = some b) :
    (l.orderedInsert r x).find? p = some (if r x b then x else b) := by
  induction l with
  | nil => cases hb
  | cons c l ih =>
    rw [List.pairwise_cons] at hl
    rw [List.orderedInsert_cons]
    cases hc : p c with
    | true =>
      rw [List.find?_cons_of_pos hc] at hb
      cases hb
      split
      · rw [List.find?_cons_of_pos hx]
      · rw [List.find?_cons_of_pos hc]
    | false =>
      rw [List.find?_cons_of_neg (by simp [hc])] at hb
      split
      · rename_i hxc
        have hxb : r x b := IsTrans.trans x c b hxc (hl.1 b (List.mem_of_find?_eq_some hb))
        rw [List.find?_cons_of_pos hx, if_pos hxb]
      · rw [List.find?_cons_of_neg (by simp [hc])]
        exact ih hl.2 hb

theorem leads_of_find? [Std.Total r] [IsTrans α r] (h : (l.insertionSort r).find? p = some a) :
    Leads r p l a := by
  induction l generalizing a with
  | nil => cases h
  | cons x l ih =>
    rw [List.insertionSort_cons] at h
    cases hx : p x with
    | false =>
      rw [find?_orderedInsert_of_not hx] at h
      exact (ih h).cons_of_not hx
    | true =>
      cases hf : (l.insertionSort r).find? p with
      | none =>
        rw [find?_orderedInsert_of_none hx hf] at h
        cases h
        rw [List.find?_eq_none] at hf
        refine ⟨[], l, rfl, hx, by simp, ?_⟩
        intro b hb hp
        exact absurd hp (hf b ((List.mem_insertionSort r).2 hb))
      | some b =>
        rw [find?_orderedInsert_of_some hx (List.pairwise_insertionSort r l) hf] at h
        have hlead := ih hf
        by_cases hxb : r x b
        · rw [if_pos hxb] at h
          cases h
          refine ⟨[], l, rfl, hx, by simp, ?_⟩
          intro c hc hp
          exact IsTrans.trans x b c hxb (hlead.rel hc hp)
        · rw [if_neg hxb] at h
          cases h
          exact hlead.cons_of_not_rel hxb

/-- The first of the sorted list with a property is the one that leads. -/
theorem find?_insertionSort [Std.Total r] [IsTrans α r] :
    (l.insertionSort r).find? p = some a ↔ Leads r p l a := by
  constructor
  · exact leads_of_find?
  · intro h
    cases hf : (l.insertionSort r).find? p with
    | none =>
      rw [List.find?_eq_none] at hf
      exact absurd h.holds (hf a ((List.mem_insertionSort r).2 h.mem))
    | some b => rw [(leads_of_find? hf).unique h]

theorem orderedInsert_of_rel (h : ∀ b ∈ l, r a b) : l.orderedInsert r a = a :: l := by
  cases l with
  | nil => rfl
  | cons b l => rw [List.orderedInsert_cons, if_pos (h b List.mem_cons_self)]

theorem filter_orderedInsert_of_not (hq : q a = false) (l : List α) :
    (l.orderedInsert r a).filter q = l.filter q := by
  induction l with
  | nil => simp [hq]
  | cons b l ih =>
    rw [List.orderedInsert_cons]
    split
    · rw [List.filter_cons_of_neg (by simp [hq])]
    · rw [List.filter_cons, List.filter_cons, ih]

theorem filter_orderedInsert [IsTrans α r] (hq : q a = true) (hl : l.Pairwise r) :
    (l.orderedInsert r a).filter q = (l.filter q).orderedInsert r a := by
  induction l with
  | nil => simp [hq]
  | cons b l ih =>
    rw [List.pairwise_cons] at hl
    rw [List.orderedInsert_cons]
    split
    · rename_i hab
      have hall : ∀ c ∈ (b :: l).filter q, r a c := by
        intro c hc
        rcases List.mem_cons.1 (List.mem_of_mem_filter hc) with rfl | hc
        · exact hab
        · exact IsTrans.trans a b c hab (hl.1 c hc)
      rw [List.filter_cons_of_pos hq, orderedInsert_of_rel hall]
    · rename_i hab
      rw [List.filter_cons, ih hl.2, List.filter_cons]
      split
      · rw [List.orderedInsert_cons, if_neg hab]
      · rfl

/-- Sorting and filtering commute. -/
theorem filter_insertionSort [Std.Total r] [IsTrans α r] (q : α → Bool) (l : List α) :
    (l.insertionSort r).filter q = (l.filter q).insertionSort r := by
  induction l with
  | nil => rfl
  | cons a l ih =>
    rw [List.insertionSort_cons]
    cases hq : q a with
    | true =>
      rw [filter_orderedInsert hq (List.pairwise_insertionSort r l), ih,
        List.filter_cons_of_pos hq, List.insertionSort_cons]
    | false =>
      rw [filter_orderedInsert_of_not hq, ih, List.filter_cons_of_neg (by simp [hq])]

end Insertion

end StableSort
