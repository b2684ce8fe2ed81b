import Mathlib.Data.List.Sort

namespace Paging
set_option autoImplicit true

/-- What a page takes from two lists, and what it leaves of them. -/
structure Page (α : Type u) (β : Type v) where
  left : List β := []
  right : List α := []
  last : Option α := none
  restLeft : List β
  restRight : List α

namespace Page
variable {α : Type u} {β : Type v}

def more (p : Page α β) : Bool := !(p.restLeft.isEmpty && p.restRight.isEmpty)

def size (p : Page α β) : Nat := p.left.length + p.right.length

def consLeft (key : β → α) (x : β) (p : Page α β) : Page α β :=
  { p with left := x :: p.left, last := some (p.last.getD (key x)) }

def consRight (y : α) (p : Page α β) : Page α β :=
  { p with right := y :: p.right, last := some (p.last.getD y) }

theorem consLeft_size (key : β → α) (x : β) (p : Page α β) :
    (p.consLeft key x).size = p.size + 1 := by
  simp only [size, consLeft, List.length_cons]
  omega

theorem consRight_size (y : α) (p : Page α β) : (p.consRight y).size = p.size + 1 := by
  simp only [size, consRight, List.length_cons]
  omega

end Page

/-- Sorting by a key without duplicates. -/
theorem insertionSort_pairwise [LinearOrder α] {key : γ → α} {l : List γ} (hn : (l.map key).Nodup) :
    (l.insertionSort fun a b => key a ≤ key b).Pairwise fun a b => key a < key b := by
  have htotal : Std.Total fun a b => key a ≤ key b := ⟨fun a b => le_total (key a) (key b)⟩
  have htrans : IsTrans γ fun a b => key a ≤ key b := ⟨fun _ _ _ => le_trans⟩
  have hs := List.pairwise_insertionSort (fun a b => key a ≤ key b) l
  have hp := ((List.perm_insertionSort (fun a b => key a ≤ key b) l).map key).nodup_iff.2 hn
  rw [List.Nodup, List.pairwise_map] at hp
  exact (hs.and hp).imp fun h => lt_of_le_of_ne h.1 h.2

section Entries
variable {α : Type u} {β : Type v} (key : β → α)

/-- The keys of both lists. -/
def entries (xs : List β) (ys : List α) : List α := xs.map key ++ ys

def Page.entries (p : Page α β) : List α := Paging.entries key p.left p.right

def Page.rest (p : Page α β) : List α := Paging.entries key p.restLeft p.restRight

@[simp] theorem mem_entries : e ∈ entries key xs ys ↔ (∃ x ∈ xs, key x = e) ∨ e ∈ ys := by
  simp [entries]

theorem Page.entries_length (p : Page α β) : (p.entries key).length = p.size := by
  simp [Page.entries, Paging.entries, size]

theorem Page.mem_consLeft {key : β → α} {p : Page α β} :
    e ∈ (p.consLeft key x).entries key ↔ e = key x ∨ e ∈ p.entries key := by
  simp only [Page.entries, Page.consLeft, Paging.entries, List.map_cons, List.cons_append,
    List.mem_cons]

theorem Page.mem_consRight {key : β → α} {p : Page α β} :
    e ∈ (p.consRight y).entries key ↔ e = y ∨ e ∈ p.entries key := by
  simp only [Page.entries, Page.consRight, mem_entries, List.mem_cons]
  exact or_left_comm

theorem Page.more_eq_true {p : Page α β} : p.more = true ↔ p.rest key ≠ [] := by
  cases hl : p.restLeft <;> cases hr : p.restRight <;> simp [more, rest, Paging.entries, hl, hr]

end Entries

section Fill
variable {α : Type u} {β : Type v} [LinearOrder α] (key : β → α)

/-- Takes up to `n` entries, the smaller head first. -/
def fill : Nat → List β → List α → Page α β
  | 0, xs, ys => { restLeft := xs, restRight := ys }
  | _ + 1, [], [] => { restLeft := [], restRight := [] }
  | n + 1, x :: xs, [] => (fill n xs []).consLeft key x
  | n + 1, [], y :: ys => (fill n [] ys).consRight y
  | n + 1, x :: xs, y :: ys =>
    if key x < y then (fill n xs (y :: ys)).consLeft key x
    else (fill n (x :: xs) ys).consRight y

/-- Both lists are increasing and have no key in common. -/
structure Sorted (xs : List β) (ys : List α) : Prop where
  left : xs.Pairwise fun a b => key a < key b
  right : ys.Pairwise (· < ·)
  apart : ∀ x ∈ xs, key x ∉ ys

variable {key}

theorem Sorted.tail_left (h : Sorted key (x :: xs) ys) : Sorted key xs ys :=
  ⟨(List.pairwise_cons.1 h.left).2, h.right, fun a ha => h.apart a (List.mem_cons_of_mem _ ha)⟩

theorem Sorted.tail_right (h : Sorted key xs (y :: ys)) : Sorted key xs ys :=
  ⟨h.left, (List.pairwise_cons.1 h.right).2,
    fun a ha hm => h.apart a ha (List.mem_cons_of_mem _ hm)⟩

theorem Sorted.filter (h : Sorted key xs ys) (p : α → Bool) :
    Sorted key (xs.filter fun x => p (key x)) (ys.filter p) where
  left := h.left.filter _
  right := h.right.filter _
  apart x hx hm := h.apart x (List.mem_of_mem_filter hx) (List.mem_of_mem_filter hm)

theorem fill_left (key : β → α) (n : Nat) (xs : List β) (ys : List α) :
    (fill key n xs ys).left ++ (fill key n xs ys).restLeft = xs := by
  fun_induction fill key n xs ys with
  | case1 | case2 => rfl
  | case3 n x xs ih => exact congrArg (x :: ·) ih
  | case4 n y ys ih => exact ih
  | case5 n x xs y ys hlt ih => exact congrArg (x :: ·) ih
  | case6 n x xs y ys hlt ih => exact ih

theorem fill_right (key : β → α) (n : Nat) (xs : List β) (ys : List α) :
    (fill key n xs ys).right ++ (fill key n xs ys).restRight = ys := by
  fun_induction fill key n xs ys with
  | case1 | case2 => rfl
  | case3 n x xs ih => exact ih
  | case4 n y ys ih => exact congrArg (y :: ·) ih
  | case5 n x xs y ys hlt ih => exact ih
  | case6 n x xs y ys hlt ih => exact congrArg (y :: ·) ih

theorem fill_size_le (n : Nat) (xs : List β) (ys : List α) : (fill key n xs ys).size ≤ n := by
  fun_induction fill key n xs ys with
  | case1 => exact Nat.le_refl 0
  | case2 n => exact Nat.zero_le _
  | case3 n x xs ih | case5 n x xs y ys hlt ih =>
    rw [Page.consLeft_size]
    omega
  | case4 n y ys ih | case6 n x xs y ys hlt ih =>
    rw [Page.consRight_size]
    omega

/-- A page that leaves something is full. -/
theorem fill_full (h : (fill key n xs ys).more = true) : (fill key n xs ys).size = n := by
  fun_induction fill key n xs ys with
  | case1 => rfl
  | case2 n => cases h
  | case3 n x xs ih | case5 n x xs y ys hlt ih => rw [Page.consLeft_size, ih h]
  | case4 n y ys ih | case6 n x xs y ys hlt ih => rw [Page.consRight_size, ih h]

/-- A page with room for everything takes everything. -/
theorem fill_of_le (key : β → α) (h : xs.length + ys.length ≤ n) :
    (fill key n xs ys).left = xs ∧ (fill key n xs ys).right = ys ∧
      (fill key n xs ys).more = false := by
  have hl := congrArg List.length (fill_left key n xs ys)
  have hr := congrArg List.length (fill_right key n xs ys)
  rw [List.length_append] at hl hr
  have hrest : (fill key n xs ys).restLeft = [] ∧ (fill key n xs ys).restRight = [] := by
    cases hm : (fill key n xs ys).more with
    | false => simpa [Page.more] using hm
    | true =>
      have hs := fill_full hm
      unfold Page.size at hs
      exact ⟨List.length_eq_zero_iff.1 (by omega), List.length_eq_zero_iff.1 (by omega)⟩
  have hxs := fill_left key n xs ys
  have hys := fill_right key n xs ys
  rw [hrest.1, List.append_nil] at hxs
  rw [hrest.2, List.append_nil] at hys
  refine ⟨hxs, hys, ?_⟩
  simp [Page.more, hrest]

theorem mem_of_entries (h : e ∈ (fill key n xs ys).entries key) : e ∈ entries key xs ys := by
  rw [Page.entries, mem_entries] at h
  rw [mem_entries]
  rcases h with ⟨x, hx, rfl⟩ | h
  · exact .inl ⟨x, fill_left key n xs ys ▸ List.mem_append_left _ hx, rfl⟩
  · exact .inr (fill_right key n xs ys ▸ List.mem_append_left _ h)

theorem mem_of_rest (h : e ∈ (fill key n xs ys).rest key) : e ∈ entries key xs ys := by
  rw [Page.rest, mem_entries] at h
  rw [mem_entries]
  rcases h with ⟨x, hx, rfl⟩ | h
  · exact .inl ⟨x, fill_left key n xs ys ▸ List.mem_append_right _ hx, rfl⟩
  · exact .inr (fill_right key n xs ys ▸ List.mem_append_right _ h)

theorem mem_of_right (h : y ∈ (fill key n xs ys).right) : y ∈ ys :=
  fill_right key n xs ys ▸ List.mem_append_left _ h

theorem Sorted.head_left (h : Sorted key (x :: xs) ys) (hy : ∀ y ∈ ys.head?, key x < y)
    (he : e ∈ entries key xs ys) : key x < e := by
  rw [mem_entries] at he
  rcases he with ⟨a, ha, rfl⟩ | he
  · exact (List.pairwise_cons.1 h.left).1 a ha
  · cases ys with
    | nil => cases he
    | cons y ys =>
      have hxy := hy y rfl
      rcases List.mem_cons.1 he with rfl | he
      · exact hxy
      · exact hxy.trans ((List.pairwise_cons.1 h.right).1 e he)

theorem Sorted.head_right (h : Sorted key xs (y :: ys)) (hx : ∀ x ∈ xs.head?, ¬ key x < y)
    (he : e ∈ entries key xs ys) : y < e := by
  rw [mem_entries] at he
  rcases he with ⟨a, ha, rfl⟩ | he
  · cases xs with
    | nil => cases ha
    | cons x xs =>
      have hxy : y < key x := by
        rcases lt_trichotomy (key x) y with hlt | heq | hgt
        · exact absurd hlt (hx x rfl)
        · exact absurd (heq ▸ List.mem_cons_self) (h.apart x List.mem_cons_self)
        · exact hgt
      rcases List.mem_cons.1 ha with rfl | ha
      · exact hxy
      · exact hxy.trans ((List.pairwise_cons.1 h.left).1 a ha)
  · exact (List.pairwise_cons.1 h.right).1 e he

/-- What is on a page comes before what it leaves. -/
theorem fill_below (h : Sorted key xs ys) (he : e ∈ (fill key n xs ys).entries key)
    (hf : f ∈ (fill key n xs ys).rest key) : e < f := by
  fun_induction fill key n xs ys with
  | case1 | case2 => cases he
  | case3 n x xs ih =>
    rcases Page.mem_consLeft.1 he with rfl | he
    · exact h.head_left nofun (mem_of_rest hf)
    · exact ih h.tail_left he hf
  | case4 n y ys ih =>
    rcases Page.mem_consRight.1 he with rfl | he
    · exact h.head_right nofun (mem_of_rest hf)
    · exact ih h.tail_right he hf
  | case5 n x xs y ys hlt ih =>
    rcases Page.mem_consLeft.1 he with rfl | he
    · exact h.head_left (fun _ hy => Option.some.inj hy ▸ hlt) (mem_of_rest hf)
    · exact ih h.tail_left he hf
  | case6 n x xs y ys hlt ih =>
    rcases Page.mem_consRight.1 he with rfl | he
    · exact h.head_right (fun _ hx => Option.some.inj hx ▸ hlt) (mem_of_rest hf)
    · exact ih h.tail_right he hf

/-- The marker of a page is its greatest entry. -/
def Page.Marked (key : β → α) (p : Page α β) : Prop :=
  match p.last with
  | none => p.entries key = []
  | some m => m ∈ p.entries key ∧ ∀ e ∈ p.entries key, e ≤ m

theorem Page.Marked.cons {p q : Page α β} (h : p.Marked key) (hl : q.last = some (p.last.getD k))
    (hm : ∀ e, e ∈ q.entries key ↔ e = k ∨ e ∈ p.entries key)
    (hk : ∀ e ∈ p.entries key, k < e) : q.Marked key := by
  unfold Marked at h ⊢
  rw [hl]
  cases hp : p.last with
  | none =>
    simp only [hp] at h
    refine ⟨(hm k).2 (.inl rfl), fun e he => ?_⟩
    rcases (hm e).1 he with rfl | he
    · exact le_refl _
    · rw [h] at he
      cases he
  | some m =>
    simp only [hp] at h
    refine ⟨(hm m).2 (.inr h.1), fun e he => ?_⟩
    rcases (hm e).1 he with rfl | he
    · exact (hk m h.1).le
    · exact h.2 e he

theorem fill_marked (h : Sorted key xs ys) : (fill key n xs ys).Marked key := by
  fun_induction fill key n xs ys with
  | case1 | case2 => rfl
  | case3 n x xs ih =>
    refine (ih h.tail_left).cons rfl (fun _ => Page.mem_consLeft) fun e he => ?_
    exact h.head_left nofun (mem_of_entries he)
  | case4 n y ys ih =>
    refine (ih h.tail_right).cons rfl (fun _ => Page.mem_consRight) fun e he => ?_
    exact h.head_right nofun (mem_of_entries he)
  | case5 n x xs y ys hlt ih =>
    refine (ih h.tail_left).cons rfl (fun _ => Page.mem_consLeft) fun e he => ?_
    exact h.head_left (fun _ hy => Option.some.inj hy ▸ hlt) (mem_of_entries he)
  | case6 n x xs y ys hlt ih =>
    refine (ih h.tail_right).cons rfl (fun _ => Page.mem_consRight) fun e he => ?_
    exact h.head_right (fun _ hx => Option.some.inj hx ▸ hlt) (mem_of_entries he)

/-- A page that leaves something has a marker. -/
theorem fill_last (h : Sorted key xs ys) (hn : 1 ≤ n) (hm : (fill key n xs ys).more = true) :
    ∃ m, (fill key n xs ys).last = some m ∧ m ∈ (fill key n xs ys).entries key ∧
      ∀ e ∈ (fill key n xs ys).entries key, e ≤ m := by
  have hmark := fill_marked (n := n) h
  have hfull := fill_full hm
  unfold Page.Marked at hmark
  cases hl : (fill key n xs ys).last with
  | none =>
    simp only [hl] at hmark
    rw [← Page.entries_length key, hmark] at hfull
    subst hfull
    cases hn
  | some m =>
    simp only [hl] at hmark
    exact ⟨m, rfl, hmark⟩

theorem filter_split {a b l : List γ} {p : γ → Bool} (h : a ++ b = l) (ha : ∀ x ∈ a, p x = false)
    (hb : ∀ x ∈ b, p x = true) : l.filter p = b := by
  rw [← h, List.filter_append, List.filter_eq_self.2 hb, List.filter_eq_nil_iff.2, List.nil_append]
  intro x hx
  rw [ha x hx]
  exact Bool.false_ne_true

/-- Resuming after the marker goes on with what was left. -/
theorem resume_left (h : Sorted key xs ys) (hm : m ∈ (fill key n xs ys).entries key)
    (hle : ∀ e ∈ (fill key n xs ys).entries key, e ≤ m) :
    xs.filter (fun x => m < key x) = (fill key n xs ys).restLeft := by
  apply filter_split (fill_left key n xs ys)
  · intro x hx
    have he := hle (key x) ((mem_entries key).2 (.inl ⟨x, hx, rfl⟩))
    exact decide_eq_false (not_lt_of_ge he)
  · intro x hx
    exact decide_eq_true (fill_below h hm ((mem_entries key).2 (.inl ⟨x, hx, rfl⟩)))

theorem resume_right (h : Sorted key xs ys) (hm : m ∈ (fill key n xs ys).entries key)
    (hle : ∀ e ∈ (fill key n xs ys).entries key, e ≤ m) :
    ys.filter (fun y => m < y) = (fill key n xs ys).restRight := by
  apply filter_split (fill_right key n xs ys)
  · intro y hy
    exact decide_eq_false (not_lt_of_ge (hle y ((mem_entries key).2 (.inr hy))))
  · intro y hy
    exact decide_eq_true (fill_below h hm ((mem_entries key).2 (.inr hy)))

theorem rest_suffix (key : β → α) (n : Nat) (xs : List β) (ys : List α) :
    (fill key n xs ys).restLeft <:+ xs ∧ (fill key n xs ys).restRight <:+ ys :=
  ⟨⟨_, fill_left key n xs ys⟩, ⟨_, fill_right key n xs ys⟩⟩

theorem Sorted.rest (h : Sorted key xs ys) (n : Nat) :
    Sorted key (fill key n xs ys).restLeft (fill key n xs ys).restRight := by
  obtain ⟨hl, hr⟩ := rest_suffix key n xs ys
  refine ⟨h.left.sublist hl.sublist, h.right.sublist hr.sublist, ?_⟩
  intro x hx hm
  exact h.apart x (hl.subset hx) (hr.subset hm)

/-- The pages of two lists, each resumed from the one before. -/
inductive Drains (key : β → α) (n : Nat) : List β → List α → List (Page α β) → Prop where
  | last : (fill key n xs ys).more = false → Drains key n xs ys [fill key n xs ys]
  | next : (fill key n xs ys).more = true →
      Drains key n (fill key n xs ys).restLeft (fill key n xs ys).restRight ps →
      Drains key n xs ys (fill key n xs ys :: ps)

theorem exists_drains (key : β → α) (hn : 1 ≤ n) (xs : List β) (ys : List α) :
    ∃ ps, Drains key n xs ys ps := by
  induction hk : xs.length + ys.length using Nat.strongRecOn generalizing xs ys with
  | _ k ih =>
    cases hm : (fill key n xs ys).more with
    | false => exact ⟨_, .last hm⟩
    | true =>
      have hl := congrArg List.length (fill_left key n xs ys)
      have hr := congrArg List.length (fill_right key n xs ys)
      have hs := fill_full hm
      rw [List.length_append] at hl hr
      rw [Page.size] at hs
      obtain ⟨ps, hps⟩ := ih _ (by omega) (fill key n xs ys).restLeft
        (fill key n xs ys).restRight rfl
      exact ⟨_, .next hm hps⟩

/-- The pages hold every entry once, in order, and say truthfully whether some are left. -/
structure Drained (key : β → α) (n : Nat) (xs : List β) (ys : List α) (ps : List (Page α β)) :
    Prop where
  left : ps.flatMap Page.left = xs
  right : ps.flatMap Page.right = ys
  size : ∀ p ∈ ps, p.size ≤ n
  ordered : ps.Pairwise fun p q => ∀ e ∈ p.entries key, ∀ f ∈ q.entries key, e < f
  more : ∀ a p b, ps = a ++ p :: b → (p.more = true ↔ ∃ q ∈ b, q.entries key ≠ [])

theorem Drained.mem (h : Drained key n xs ys ps) :
    (∃ p ∈ ps, e ∈ p.entries key) ↔ e ∈ entries key xs ys := by
  simp only [Page.entries, mem_entries, ← h.left, ← h.right, List.mem_flatMap]
  constructor
  · rintro ⟨p, hp, ⟨x, hx, rfl⟩ | he⟩
    · exact .inl ⟨x, ⟨p, hp, hx⟩, rfl⟩
    · exact .inr ⟨p, hp, he⟩
  · rintro (⟨x, ⟨p, hp, hx⟩, rfl⟩ | ⟨p, hp, he⟩)
    · exact ⟨p, hp, .inl ⟨x, hx, rfl⟩⟩
    · exact ⟨p, hp, .inr he⟩

theorem Drains.drained (h : Drains key n xs ys ps) (hs : Sorted key xs ys) :
    Drained key n xs ys ps := by
  induction h with
  | @last xs ys hm =>
    have hl := fill_left key n xs ys
    have hr := fill_right key n xs ys
    simp only [Page.more, Bool.not_eq_false', Bool.and_eq_true, List.isEmpty_iff] at hm
    rw [hm.1, List.append_nil] at hl
    rw [hm.2, List.append_nil] at hr
    refine ⟨by simpa using hl, by simpa using hr, ?_, List.pairwise_singleton _ _, ?_⟩
    · intro p hp
      rw [List.mem_singleton.1 hp]
      exact fill_size_le n xs ys
    · intro a p b he
      cases a with
      | nil =>
        cases he
        simp [Page.more, hm]
      | cons c a => simp at he
  | @next xs ys ps hm hd ih =>
    have hrest := ih (hs.rest n)
    refine ⟨?_, ?_, ?_, ?_, ?_⟩
    · rw [List.flatMap_cons, hrest.left, fill_left]
    · rw [List.flatMap_cons, hrest.right, fill_right]
    · intro p hp
      rcases List.mem_cons.1 hp with rfl | hp
      · exact fill_size_le n xs ys
      · exact hrest.size p hp
    · rw [List.pairwise_cons]
      refine ⟨fun q hq e he f hf => ?_, hrest.ordered⟩
      exact fill_below hs he (hrest.mem.1 ⟨q, hq, hf⟩)
    · intro a p b he
      cases a with
      | nil =>
        cases he
        simp only [hm, true_iff]
        obtain ⟨e, hmem⟩ := List.exists_mem_of_ne_nil _ ((Page.more_eq_true key).1 hm)
        obtain ⟨q, hq, hqe⟩ := hrest.mem.2 hmem
        exact ⟨q, hq, List.ne_nil_of_mem hqe⟩
      | cons c a =>
        cases he
        exact hrest.more a p b rfl

/-- A page leaves something exactly when an entry is on no page so far. -/
theorem Drained.more_iff (h : Drained key n xs ys ps) (hp : ps = a ++ p :: b) :
    p.more = true ↔ ∃ e ∈ entries key xs ys, ∀ q ∈ a ++ [p], e ∉ q.entries key := by
  have ho := h.ordered
  rw [h.more a p b hp]
  rw [hp, List.append_cons, List.pairwise_append] at ho
  constructor
  · rintro ⟨q, hq, hne⟩
    obtain ⟨e, he⟩ := List.exists_mem_of_ne_nil _ hne
    refine ⟨e, h.mem.1 ⟨q, ?_, he⟩, fun r hr hre => ?_⟩
    · rw [hp]
      exact List.mem_append_right _ (List.mem_cons_of_mem _ hq)
    · exact lt_irrefl e (ho.2.2 r hr q hq e hre e he)
  · rintro ⟨e, he, hn⟩
    obtain ⟨q, hq, hqe⟩ := h.mem.2 he
    rw [hp, List.append_cons] at hq
    rcases List.mem_append.1 hq with hq | hq
    · exact absurd hqe (hn q hq)
    · exact ⟨q, hq, List.ne_nil_of_mem hqe⟩

end Fill
end Paging
