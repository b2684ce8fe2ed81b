import Mathlib.Logic.Function.Basic
import Mathlib.Order.Basic

namespace Versioned
set_option autoImplicit true

/-- The committed versions of a keyed store with their ranks, and the version each key shows. -/
@[ext] structure Index (κ : Type u) (ι : Type v) (R : Type w) where
  committed : ι → Option (κ × R)
  active : κ → Option ι

namespace Index
variable {x y : Index κ ι R}

/-- The versions `p` are no longer committed, and no key shows them. -/
def retract (x : Index κ ι R) (p : ι → Bool) : Index κ ι R where
  committed i := if p i then none else x.committed i
  active k := (x.active k).filter fun i => !p i

theorem retract_committed :
    (x.retract p).committed i = some v ↔ p i = false ∧ x.committed i = some v := by
  cases hp : p i <;> simp [retract, hp]

theorem retract_active : (x.retract p).active k = some i ↔ x.active k = some i ∧ p i = false := by
  simp [retract, Option.filter_eq_some_iff]

theorem retract_false : x.retract (fun _ => false) = x := by
  apply Index.ext
  · rfl
  · funext k
    cases hk : x.active k <;> simp [retract, hk, Option.filter_some]

theorem retract_retract : (x.retract p).retract q = x.retract fun i => p i || q i := by
  apply Index.ext
  · funext i
    by_cases hq : q i = true <;> simp [retract, hq]
  · funext k
    simp [retract, Option.filter_filter]

section Publish
variable [DecidableEq κ] [DecidableEq ι]

/-- A version is committed under a rank, and its key shows it. -/
def publish (x : Index κ ι R) (i : ι) (k : κ) (r : R) :
    Index κ ι R where
  committed := Function.update x.committed i (some (k, r))
  active := Function.update x.active k (some i)

theorem publish_committed : (x.publish i k r).committed j = some v ↔
    (j = i ∧ (k, r) = v) ∨ (j ≠ i ∧ x.committed j = some v) := by
  by_cases hj : j = i
  · subst hj
    simp [publish]
  · simp [publish, hj]

theorem publish_active : (x.publish i k r).active k' = some j ↔
    (k' = k ∧ i = j) ∨ (k' ≠ k ∧ x.active k' = some j) := by
  by_cases hk : k' = k
  · subst hk
    simp [publish]
  · simp [publish, hk]

end Publish

variable [Preorder R]

def Latest (x : Index κ ι R) (k : κ) (i : ι) : Prop :=
  ∃ r, x.committed i = some (k, r) ∧ ∀ j r', x.committed j = some (k, r') → j ≠ i → r' < r

theorem Latest.unique (h : x.Latest k i) (h' : x.Latest k j) : i = j := by
  obtain ⟨r, hi, hr⟩ := h
  obtain ⟨r', hj, hr'⟩ := h'
  by_contra hne
  exact lt_asymm (hr j r' hj (Ne.symm hne)) (hr' i r hi hne)

/-- Every key with a committed version shows the latest one, and the other keys show nothing. -/
structure Consistent (x : Index κ ι R) : Prop where
  latest : x.active k = some i → x.Latest k i
  shown : x.committed i = some (k, r) → ∃ j, x.active k = some j

theorem Consistent.active_iff (h : x.Consistent) : x.active k = some i ↔ x.Latest k i := by
  constructor
  · exact h.latest
  · intro hl
    obtain ⟨r, hi, -⟩ := id hl
    obtain ⟨j, hj⟩ := h.shown hi
    rw [hj, (h.latest hj).unique hl]

/-- The committed versions determine what a consistent index shows. -/
theorem Consistent.active_eq (h : x.Consistent) (h' : y.Consistent)
    (hc : x.committed = y.committed) : x.active = y.active := by
  funext k
  ext i
  rw [h.active_iff, h'.active_iff, Latest, Latest, hc]

theorem Consistent.retract (h : x.Consistent) (hp : ∀ k i, x.active k = some i → p i = true →
      ∀ j r, x.committed j = some (k, r) → p j = true) : (x.retract p).Consistent := by
  constructor
  · intro k i hi
    rw [retract_active] at hi
    obtain ⟨r, hr, hlt⟩ := h.latest hi.1
    refine ⟨r, retract_committed.2 ⟨hi.2, hr⟩, ?_⟩
    intro j r' hj
    exact hlt j r' (retract_committed.1 hj).2
  · intro i k r hi
    rw [retract_committed] at hi
    obtain ⟨j, hj⟩ := h.shown hi.2
    refine ⟨j, retract_active.2 ⟨hj, ?_⟩⟩
    by_contra hpj
    have hpi := hp k j hj (by simpa using hpj) i r hi.2
    simp [hi.1] at hpi

theorem Consistent.publish [DecidableEq κ] [DecidableEq ι] (h : x.Consistent)
    (hr : ∀ j r', x.committed j = some (k, r') → j ≠ i → r' < r)
    (hk : ∀ k', x.active k' = some i → k' = k) : (x.publish i k r).Consistent := by
  constructor
  · intro k' i' hi
    rcases publish_active.1 hi with ⟨rfl, rfl⟩ | ⟨hkk, hi'⟩
    · refine ⟨r, publish_committed.2 (.inl ⟨rfl, rfl⟩), ?_⟩
      intro j r' hj hne
      rcases publish_committed.1 hj with ⟨he, -⟩ | ⟨-, hj⟩
      · exact absurd he hne
      · exact hr j r' hj hne
    · have hne : i' ≠ i := by
        rintro rfl
        exact hkk (hk k' hi')
      obtain ⟨r', hr', hlt⟩ := h.latest hi'
      refine ⟨r', publish_committed.2 (.inr ⟨hne, hr'⟩), ?_⟩
      intro j r'' hj hji
      rcases publish_committed.1 hj with ⟨-, he⟩ | ⟨-, hj⟩
      · exact absurd (Prod.mk.inj he).1.symm hkk
      · exact hlt j r'' hj hji
  · intro j k' r' hj
    by_cases hkk : k' = k
    · exact ⟨i, publish_active.2 (.inl ⟨hkk, rfl⟩)⟩
    · rcases publish_committed.1 hj with ⟨-, he⟩ | ⟨-, hj⟩
      · exact absurd (Prod.mk.inj he).1.symm hkk
      · obtain ⟨j', hj'⟩ := h.shown hj
        exact ⟨j', publish_active.2 (.inr ⟨hkk, hj'⟩)⟩

end Index
end Versioned
