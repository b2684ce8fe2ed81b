import Mathlib.Algebra.Ring.Nat
import Mathlib.Data.List.Nodup
import Mathlib.Data.Option.Defs

namespace Relational
set_option autoImplicit true

/-- The primary key of a row type. -/
class Keyed (ρ : Type u) (κ : outParam (Type v)) where
  key : ρ → κ

/-- A stored relation: rows with pairwise distinct primary keys. -/
structure Table (ρ : Type u) {κ : Type v} [Keyed ρ κ] where
  rows : List ρ
  nodup : (rows.map Keyed.key).Nodup

namespace Table
variable {ρ : Type u} {κ : Type v} [Keyed ρ κ]
  {t t' : Table ρ} {p q : ρ → Bool} {f : ρ → ρ} {R S : ρ → ρ → Prop} {P : ρ → Prop}
  {g g' : ρ → Nat}

instance : Membership ρ (Table ρ) := ⟨fun t r => r ∈ t.rows⟩

theorem mem_def : r ∈ t ↔ r ∈ t.rows := Iff.rfl

def empty : Table ρ := ⟨[], List.nodup_nil⟩

instance : EmptyCollection (Table ρ) := ⟨empty⟩
instance : Inhabited (Table ρ) := ⟨empty⟩

/-- `EXISTS (SELECT … WHERE p)`. -/
def any (t : Table ρ) (p : ρ → Bool) : Bool := t.rows.any p

/-- `SELECT … WHERE p`, in insertion order. -/
def select (t : Table ρ) (p : ρ → Bool) : List ρ := t.rows.filter p

/-- `ORDER BY m LIMIT 1` on the rows a query selects. -/
def firstBy (m : ρ → Nat) : List ρ → Option ρ
  | [] => none
  | r :: rest =>
    match firstBy m rest with
    | none => some r
    | some o => if m o < m r then some o else some r

theorem firstBy_mem (h : firstBy m l = some r) : r ∈ l := by
  induction l generalizing r with
  | nil => cases h
  | cons a rest ih =>
    simp only [firstBy] at h
    split at h
    · cases h
      exact List.mem_cons_self
    · rename_i o ho
      split at h
      · cases h
        exact List.mem_cons_of_mem _ (ih ho)
      · cases h
        exact List.mem_cons_self

theorem firstBy_eq_none (h : firstBy m l = none) : l = [] := by
  cases l with
  | nil => rfl
  | cons r rest =>
    simp only [firstBy] at h
    split at h
    · cases h
    · split at h
      · cases h
      · cases h

theorem firstBy_eq_some_of_forall (ha : a ∈ l) (h : ∀ r ∈ l, r = a) : firstBy m l = some a := by
  cases hf : firstBy m l with
  | none =>
    rw [firstBy_eq_none hf] at ha
    cases ha
  | some r => rw [h r (firstBy_mem hf)]

/-- `UPDATE … SET f WHERE p`; no statement of the model changes a primary key. -/
def modify (t : Table ρ) (p : ρ → Bool) (f : ρ → ρ)
    (hf : ∀ r, Keyed.key (f r) = Keyed.key r := by intros; exact (show _ from rfl)) :
    Table ρ where
  rows := t.rows.map fun r => if p r then f r else r
  nodup := by
    have h : (Keyed.key ∘ fun r => if p r then f r else r) = (Keyed.key : ρ → κ) := by
      funext r
      by_cases hp : p r <;> simp [hp, hf]
    simpa only [List.map_map, h] using t.nodup

/-- `DELETE … WHERE p`. -/
def delete (t : Table ρ) (p : ρ → Bool) : Table ρ where
  rows := t.rows.filter fun r => !p r
  nodup := (List.filter_sublist.map _).nodup t.nodup

section Lookup
variable [DecidableEq κ]

/-- The row with a given primary key. -/
def get? (t : Table ρ) (k : κ) : Option ρ := t.rows.find? fun r => decide (Keyed.key r = k)

def contains (t : Table ρ) (k : κ) : Bool := (t.get? k).isSome

theorem get?_eq_some : t.get? k = some r ↔ r ∈ t ∧ Keyed.key r = k := by
  obtain ⟨rows, hn⟩ := t
  simp only [get?, mem_def]
  induction rows with
  | nil => simp
  | cons a rows ih =>
    simp only [List.map_cons, List.nodup_cons, List.mem_map, not_exists, not_and] at hn
    by_cases ha : Keyed.key a = k
    · simp only [List.find?_cons, ha, decide_true, Option.some.injEq, List.mem_cons]
      constructor
      · rintro rfl
        exact ⟨.inl rfl, ha⟩
      · rintro ⟨rfl | hr, hk⟩
        · rfl
        · exact absurd (hk.trans ha.symm) (hn.1 r hr)
    · simp only [List.find?_cons, ha, decide_false, List.mem_cons, ih hn.2]
      constructor
      · rintro ⟨hr, hk⟩
        exact ⟨.inr hr, hk⟩
      · rintro ⟨rfl | hr, hk⟩
        · exact absurd hk ha
        · exact ⟨hr, hk⟩

theorem mem_iff_get? : r ∈ t ↔ t.get? (Keyed.key r) = some r := by
  simp [get?_eq_some]

theorem get?_eq_none : t.get? k = none ↔ ∀ r ∈ t, Keyed.key r ≠ k := by
  simp [get?, mem_def, List.find?_eq_none]

theorem mem_of_get? (h : t.get? k = some r) : r ∈ t := (get?_eq_some.1 h).1

theorem key_of_get? (h : t.get? k = some r) : Keyed.key r = k := (get?_eq_some.1 h).2

/-- Two rows with one primary key are one row. -/
theorem eq_of_key_eq (ha : a ∈ t) (hb : b ∈ t) (h : Keyed.key a = Keyed.key b) : a = b := by
  have ha' := mem_iff_get?.1 ha
  rw [h, mem_iff_get?.1 hb] at ha'
  exact (Option.some.inj ha').symm

@[simp] theorem get?_empty (k : κ) : (∅ : Table ρ).get? k = none := rfl

@[simp] theorem get?_modify (t : Table ρ) (p : ρ → Bool) (f : ρ → ρ) (hf) (k : κ) :
    (t.modify p f hf).get? k = (t.get? k).map fun r => if p r then f r else r := by
  obtain ⟨rows, hn⟩ := t
  simp only [get?, modify, List.find?_map]
  congr 2
  funext r
  by_cases hp : p r <;> simp [hp, hf]

theorem map_update_of_not
    (h : ∀ r, o = some r → p r = false) : o.map (fun r => if p r then f r else r) = o := by
  cases o with
  | none => rfl
  | some r => simp [h r rfl]

@[simp] theorem get?_delete (t : Table ρ) (p : ρ → Bool) (k : κ) :
    (t.delete p).get? k = (t.get? k).filter fun r => !p r := by
  ext r
  simp only [get?_eq_some, Option.filter_eq_some_iff, mem_def, delete, List.mem_filter]
  tauto

/-- `INSERT OR IGNORE`: a row with the same primary key is kept. -/
def insertOrIgnore (t : Table ρ) (r : ρ) : Table ρ :=
  if h : t.get? (Keyed.key r) = none then
    { rows := t.rows ++ [r]
      nodup := by
        rw [List.map_append, List.map_singleton, List.nodup_append]
        refine ⟨t.nodup, List.nodup_singleton _, ?_⟩
        intro a ha b hb
        obtain ⟨x, hx, rfl⟩ := List.mem_map.1 ha
        rw [List.mem_singleton.1 hb]
        exact get?_eq_none.1 h x hx }
  else t

/-- `INSERT … ON CONFLICT DO UPDATE SET f`. -/
def upsertWith (t : Table ρ) (r : ρ) (f : ρ → ρ)
    (hf : ∀ r, Keyed.key (f r) = Keyed.key r := by intros; exact (show _ from rfl)) : Table ρ :=
  (t.modify (fun o => decide (Keyed.key o = Keyed.key r)) f hf).insertOrIgnore r

/-- `INSERT … ON CONFLICT DO UPDATE` of every column. -/
def upsert (t : Table ρ) (r : ρ) : Table ρ :=
  (t.delete fun o => decide (Keyed.key o = Keyed.key r)).insertOrIgnore r

@[simp] theorem get?_insertOrIgnore (t : Table ρ) (r : ρ) (k : κ) : (t.insertOrIgnore r).get? k =
      if Keyed.key r = k then some ((t.get? k).getD r) else t.get? k := by
  unfold insertOrIgnore
  split
  · rename_i h
    simp only [get?, List.find?_append]
    by_cases hk : Keyed.key r = k
    · subst hk
      simp only [get?] at h
      simp [h]
    · simp [hk]
  · rename_i h
    obtain ⟨o, ho⟩ := Option.ne_none_iff_exists'.1 h
    by_cases hk : Keyed.key r = k
    · subst hk
      simp [ho]
    · simp [hk]

/-- An insertion does not touch a row that is there. -/
theorem get?_insertOrIgnore_of_some (h : t.get? k = some o) (r : ρ) :
    (t.insertOrIgnore r).get? k = some o := by
  simp [h]

theorem get?_insertOrIgnore_self (h : t.get? (Keyed.key r) = none) :
    (t.insertOrIgnore r).get? (Keyed.key r) = some r := by
  simp [h]

@[simp] theorem get?_upsert (t : Table ρ) (r : ρ) (k : κ) :
    (t.upsert r).get? k = if Keyed.key r = k then some r else t.get? k := by
  rw [upsert, get?_insertOrIgnore, get?_delete]
  by_cases hk : Keyed.key r = k
  · subst hk
    have hn : (t.get? (Keyed.key r)).filter
        (fun o => !decide (Keyed.key o = Keyed.key r)) = none := by
      rw [Option.filter_eq_none_iff]
      intro o ho
      simp [key_of_get? ho]
    simp [hn]
  · simp only [hk, if_false]
    cases ho : t.get? k with
    | none => rfl
    | some o =>
      have hne : Keyed.key o ≠ Keyed.key r := by
        rw [key_of_get? ho]
        exact Ne.symm hk
      simp [hne]

@[simp] theorem get?_upsertWith (t : Table ρ) (r : ρ) (f : ρ → ρ) (hf) (k : κ) :
    (t.upsertWith r f hf).get? k =
      if Keyed.key r = k then some (((t.get? k).map f).getD r) else t.get? k := by
  rw [upsertWith, get?_insertOrIgnore, get?_modify]
  cases ho : t.get? k with
  | none => simp
  | some o =>
    have hk := key_of_get? ho
    by_cases hr : Keyed.key r = k
    · simp [hr, hk]
    · simp [hr, hk, Ne.symm hr]

/-- The two tables have the same keys, and the rows at each key are related. -/
def Rel (R : ρ → ρ → Prop) (t t' : Table ρ) : Prop := ∀ k, Option.Rel R (t.get? k) (t'.get? k)

theorem Rel.refl (hR : ∀ r, R r r) (t : Table ρ) : Rel R t t := by
  intro k
  cases t.get? k with
  | none => exact .none
  | some r => exact .some (hR r)

theorem Rel.trans (hT : ∀ a b c, R a b → S b c → T a c)
    (h : Rel R t t') (h' : Rel S t' t'') : Rel T t t'' := by
  intro k
  have hk := h k
  have hk' := h' k
  generalize t.get? k = a, t'.get? k = b, t''.get? k = c at hk hk'
  cases hk with
  | none => cases hk'; exact .none
  | some hr =>
    cases hk' with
    | some hs => exact .some (hT _ _ _ hr hs)

theorem Rel.mono (hS : ∀ a b, R a b → S a b) (h : Rel R t t') : Rel S t t' := by
  intro k
  have hk := h k
  generalize t.get? k = a, t'.get? k = b at hk
  cases hk with
  | none => exact .none
  | some hr => exact .some (hS _ _ hr)

/-- Mapping the rows of a table, keys kept, relates each row to its image. -/
theorem Rel.of_rows {g : ρ → ρ}
    (h : t'.rows = t.rows.map g) (hg : ∀ r ∈ t, Keyed.key (g r) = Keyed.key r)
    (hR : ∀ r ∈ t, R r (g r)) : Rel R t t' := by
  intro k
  cases hr : t.get? k with
  | none =>
    have hn : t'.get? k = none := by
      rw [get?_eq_none]
      intro r' hr' hk
      rw [mem_def, h, List.mem_map] at hr'
      obtain ⟨r, hmem, rfl⟩ := hr'
      exact get?_eq_none.1 hr r hmem ((hg r hmem).symm.trans hk)
    rw [hn]
    exact .none
  | some r =>
    obtain ⟨hmem, hk⟩ := get?_eq_some.1 hr
    have hs : t'.get? k = some (g r) := by
      rw [get?_eq_some, mem_def, h]
      exact ⟨List.mem_map_of_mem hmem, (hg r hmem).trans hk⟩
    rw [hs]
    exact .some (hR r hmem)

/-- An update relates each row to the updated row. -/
theorem Rel.of_update (h : t'.rows = t.rows.map fun r => if p r then f r else r)
    (hk : ∀ a b, R a b → Keyed.key b = Keyed.key a) (hn : ∀ r, R r r)
    (hR : ∀ r ∈ t, p r = true → R r (f r)) : Rel R t t' := by
  have hm : ∀ r ∈ t, R r (if p r then f r else r) := by
    intro r hr
    split
    · exact hR r hr ‹_›
    · exact hn r
  exact .of_rows h (fun r hr => hk _ _ (hm r hr)) hm

/-- One row is replaced. -/
theorem Rel.of_set (hR : ∀ r, R r r) (hk : t.get? k = some a)
    (h : ∀ i, t'.get? i = if i = k then some a' else t.get? i) (ha : R a a') : Rel R t t' := by
  intro i
  rw [h]
  split
  · rename_i hi
    subst hi
    rw [hk]
    exact .some ha
  · exact Rel.refl hR t i

theorem Rel.some_left (h : Rel R t t') (hr : t.get? k = some r) :
    ∃ r', t'.get? k = some r' ∧ R r r' := by
  have hk := h k
  rw [hr] at hk
  generalize t'.get? k = b at hk
  cases hk with
  | some hR => exact ⟨_, rfl, hR⟩

theorem Rel.some_right (h : Rel R t t') (hr : t'.get? k = some r') :
    ∃ r, t.get? k = some r ∧ R r r' := by
  have hk := h k
  rw [hr] at hk
  generalize t.get? k = a at hk
  cases hk with
  | some hR => exact ⟨_, rfl, hR⟩

end Lookup

section Membership

theorem any_eq_true : t.any p = true ↔ ∃ r ∈ t, p r = true := by
  simp [any, mem_def]

theorem any_eq_false : t.any p = false ↔ ∀ r ∈ t, p r = false := by
  simp [any, mem_def]

@[simp] theorem mem_select : r ∈ t.select p ↔ r ∈ t ∧ p r = true := by
  simp [select, mem_def]

/-- An update of rows that a query does not see leaves its result alone. -/
theorem select_update (hr : t'.rows = t.rows.map fun r => if p r then f r else r)
    (h : ∀ r, p r = true → q r = false ∧ q (f r) = false) : t'.select q = t.select q := by
  unfold select
  rw [hr]
  induction t.rows with
  | nil => rfl
  | cons r rows ih =>
    rw [List.map_cons, List.filter_cons, List.filter_cons, ih]
    cases hp : p r with
    | true => simp [(h r hp).1, (h r hp).2]
    | false => simp

/-- A deletion of rows that a query does not see leaves its result alone. -/
theorem select_delete (h : ∀ r, p r = true → q r = false) : (t.delete p).select q = t.select q := by
  unfold select delete
  rw [List.filter_filter]
  apply List.filter_congr
  intro r _
  cases hp : p r with
  | true => simp [h r hp]
  | false => simp

theorem any_update
    (hr : t'.rows = t.rows.map fun r => if p r then f r else r) (h : ∀ r, q (f r) = q r) :
    t'.any q = t.any q := by
  unfold any
  rw [hr, List.any_map]
  congr 1
  funext r
  simp only [Function.comp_apply]
  split
  · exact h r
  · rfl

theorem nodup_keys_select (t : Table ρ) (p : ρ → Bool) : ((t.select p).map Keyed.key).Nodup :=
  t.nodup.sublist (List.filter_sublist.map _)

/-- Two selected rows are not both the row of one key. -/
theorem exists_other (h : 1 < (t.select p).length) (k : κ) :
    ∃ r ∈ t, p r = true ∧ Keyed.key r ≠ k := by
  by_contra hn
  have hk : ∀ r ∈ t.select p, Keyed.key r = k := by
    intro r hr
    by_contra hk
    exact hn ⟨r, (mem_select.1 hr).1, (mem_select.1 hr).2, hk⟩
  have hr : (t.select p).map Keyed.key = List.replicate (t.select p).length k :=
    List.map_eq_replicate_iff.2 hk
  have hd := t.nodup_keys_select p
  rw [hr, List.nodup_replicate] at hd
  exact absurd h (Nat.not_lt.2 hd)

@[simp] theorem not_mem_empty (r : ρ) : r ∉ (∅ : Table ρ) := List.not_mem_nil

@[simp] theorem mem_modify : r ∈ t.modify p f hf ↔ ∃ o ∈ t, (if p o then f o else o) = r := by
  simp [modify, mem_def]

/-- An update leaves a row alone that it does not select. -/
theorem mem_of_update_false
    (h : t'.rows = t.rows.map fun r => if p r then f r else r) (hr : r ∈ t) (hp : p r = false) :
    r ∈ t' := by
  rw [mem_def, h]
  refine List.mem_map.2 ⟨r, hr, ?_⟩
  rw [hp]
  rfl

theorem mem_of_update_true
    (h : t'.rows = t.rows.map fun r => if p r then f r else r) (hr : r ∈ t) (hp : p r = true) :
    f r ∈ t' := by
  rw [mem_def, h]
  exact List.mem_map.2 ⟨r, hr, if_pos hp⟩

/-- A row after an update is one the update wrote or one it left alone. -/
theorem of_mem_update (h : t'.rows = t.rows.map fun r => if p r then f r else r) (hr : r ∈ t') :
    (∃ o ∈ t, p o = true ∧ f o = r) ∨ (r ∈ t ∧ p r = false) := by
  rw [mem_def, h] at hr
  obtain ⟨o, ho, rfl⟩ := List.mem_map.1 hr
  cases hp : p o with
  | true => exact .inl ⟨o, ho, hp, rfl⟩
  | false => exact .inr ⟨ho, hp⟩

theorem of_mem_modify (h : r ∈ t.modify p f hf) :
    (∃ o ∈ t, p o = true ∧ f o = r) ∨ (r ∈ t ∧ p r = false) :=
  of_mem_update rfl h

/-- Once a selected row is updated so that it is not selected any more, the others still are. -/
theorem mem_keys_select_update {j : ρ} (h : t'.rows = t.rows.map fun r => if q r then f r else r)
    (hq : ∀ r ∈ t, q r = true ↔ Keyed.key r = Keyed.key j) (hp : ∀ r, p (f r) = false) :
    k ∈ (t'.select p).map Keyed.key ↔ k ∈ (t.select p).map Keyed.key ∧ k ≠ Keyed.key j := by
  constructor
  · intro hk
    obtain ⟨r', hr', rfl⟩ := List.mem_map.1 hk
    obtain ⟨hm, hs⟩ := mem_select.1 hr'
    rw [mem_def, h] at hm
    obtain ⟨r, hr, rfl⟩ := List.mem_map.1 hm
    cases hqr : q r with
    | true =>
      rw [hqr, if_pos rfl, hp] at hs
      cases hs
    | false =>
      rw [hqr, if_neg Bool.false_ne_true] at hs
      rw [if_neg Bool.false_ne_true]
      refine ⟨List.mem_map_of_mem (mem_select.2 ⟨hr, hs⟩), fun he => ?_⟩
      rw [(hq r hr).2 he] at hqr
      cases hqr
  · rintro ⟨hk, hne⟩
    obtain ⟨r, hr, rfl⟩ := List.mem_map.1 hk
    obtain ⟨hm, hs⟩ := mem_select.1 hr
    have hn : q r = false := Bool.eq_false_iff.2 fun he => hne ((hq r hm).1 he)
    exact List.mem_map_of_mem (mem_select.2 ⟨mem_of_update_false h hm hn, hs⟩)

@[simp] theorem mem_delete : r ∈ t.delete p ↔ r ∈ t ∧ p r = false := by
  simp [delete, mem_def]

/-- Every row of the later table comes from a related row of the earlier one. -/
def Descends (R : ρ → ρ → Prop) (t t' : Table ρ) : Prop := ∀ r' ∈ t', ∃ r ∈ t, R r r'

theorem Descends.refl (hR : ∀ r, R r r) (t : Table ρ) : Descends R t t :=
  fun r hr => ⟨r, hr, hR r⟩

theorem Descends.trans (hR : ∀ a b c, R a b → R b c → R a c)
    (h : Descends R t t') (h' : Descends R t' t'') : Descends R t t'' := by
  intro r'' hr''
  obtain ⟨r', hr', h₂⟩ := h' r'' hr''
  obtain ⟨r, hr, h₁⟩ := h r' hr'
  exact ⟨r, hr, hR _ _ _ h₁ h₂⟩

theorem Descends.of_update
    (h : t'.rows = t.rows.map fun r => if p r then f r else r) (hn : ∀ r, R r r)
    (hR : ∀ r ∈ t, p r = true → R r (f r)) : Descends R t t' := by
  intro r' hr'
  rw [mem_def, h, List.mem_map] at hr'
  obtain ⟨r, hr, rfl⟩ := hr'
  refine ⟨r, hr, ?_⟩
  split
  · exact hR r hr ‹_›
  · exact hn r

theorem Descends.delete (hR : ∀ r, R r r) : Descends R t (t.delete p) :=
  fun r hr => ⟨r, (mem_delete.1 hr).1, hR r⟩

/-- Every row persists up to `R`, and a row that comes from none is a `P`. -/
structure Evolves (R : ρ → ρ → Prop) (P : ρ → Prop) (t t' : Table ρ) : Prop where
  kept : ∀ r ∈ t, ∃ r' ∈ t', R r r'
  origin : ∀ r' ∈ t', (∃ r ∈ t, R r r') ∨ P r'

theorem Evolves.refl (hR : ∀ r, R r r) (t : Table ρ) : Evolves R P t t :=
  ⟨fun r hr => ⟨r, hr, hR r⟩, fun r hr => .inl ⟨r, hr, hR r⟩⟩

theorem Evolves.mono (hS : ∀ a b, R a b → S a b)
    (hQ : ∀ r, P r → Q r) (h : Evolves R P t t') : Evolves S Q t t' where
  kept r hr := by
    obtain ⟨r', hr', hR⟩ := h.kept r hr
    exact ⟨r', hr', hS _ _ hR⟩
  origin r' hr' := by
    rcases h.origin r' hr' with ⟨r, hr, hR⟩ | hP
    · exact .inl ⟨r, hr, hS _ _ hR⟩
    · exact .inr (hQ r' hP)

/-- Rows added in two steps are added. -/
theorem Evolves.append (h : Evolves Eq P t t') (h' : Evolves Eq P t' t'') : Evolves Eq P t t'' where
  kept r hr := by
    obtain ⟨r', hr', rfl⟩ := h.kept r hr
    exact h'.kept r hr'
  origin r'' hr'' := by
    rcases h'.origin r'' hr'' with ⟨r', hr', rfl⟩ | hP
    · exact h.origin r' hr'
    · exact .inr hP

theorem Evolves.of_update
    (h : t'.rows = t.rows.map fun r => if p r then f r else r) (hn : ∀ r, R r r)
    (hR : ∀ r ∈ t, p r = true → R r (f r)) : Evolves R P t t' where
  kept r hr := by
    refine ⟨if p r then f r else r, ?_, ?_⟩
    · rw [mem_def, h]
      exact List.mem_map_of_mem hr
    · split
      · exact hR r hr ‹_›
      · exact hn r
  origin r' hr' := .inl (Descends.of_update h hn hR r' hr')

variable [DecidableEq κ]

/-- Keys are distinct, so that the rows may be searched from either end. -/
theorem find?_reverse (t : Table ρ) (k : κ) :
    (t.rows.reverse.find? fun r => decide (Keyed.key r = k)) = t.get? k := by
  cases hf : t.rows.reverse.find? fun r => decide (Keyed.key r = k) with
  | none =>
    symm
    rw [get?_eq_none]
    intro r hr hk
    exact List.find?_eq_none.1 hf r (List.mem_reverse.2 hr) (decide_eq_true hk)
  | some r =>
    symm
    rw [get?_eq_some]
    have hk := List.find?_some hf
    exact ⟨List.mem_reverse.1 (List.mem_of_find?_eq_some hf), of_decide_eq_true hk⟩

/-- Upserting a list of rows one after the other: the last one of each key stays. -/
theorem get?_foldl_upsert (g : β → ρ) (l : List β) (t : Table ρ) (k : κ) :
    (l.foldl (fun t b => t.upsert (g b)) t).get? k =
      ((l.reverse.find? fun b => decide (Keyed.key (g b) = k)).map g).or (t.get? k) := by
  induction l generalizing t with
  | nil => simp
  | cons b l ih =>
    rw [List.foldl_cons, ih, List.reverse_cons, List.find?_append, get?_upsert]
    cases List.find? (fun b => decide (Keyed.key (g b) = k)) l.reverse with
    | some o => simp
    | none => by_cases hk : Keyed.key (g b) = k <;> simp [hk]

theorem mem_foldl_upsert {g : β → ρ} {l : List β}
    (h : r ∈ l.foldl (fun t b => t.upsert (g b)) t) : r ∈ t ∨ ∃ b ∈ l, g b = r := by
  rw [mem_iff_get?, get?_foldl_upsert, Option.or_eq_some_iff] at h
  rcases h with h | ⟨-, h⟩
  · obtain ⟨b, hb, he⟩ := Option.map_eq_some_iff.1 h
    exact .inr ⟨b, List.mem_reverse.1 (List.mem_of_find?_eq_some hb), he⟩
  · exact .inl (mem_of_get? h)

@[simp] theorem mem_insertOrIgnore :
    r ∈ t.insertOrIgnore a ↔ r ∈ t ∨ (r = a ∧ t.get? (Keyed.key a) = none) := by
  unfold insertOrIgnore
  split
  · rename_i h
    simp [mem_def, h]
  · rename_i h
    simp [h]

theorem mem_foldl_insertOrIgnore {g : β → ρ} {l : List β} (hr : r ∈ t) :
    r ∈ l.foldl (fun t b => t.insertOrIgnore (g b)) t := by
  induction l generalizing t with
  | nil => exact hr
  | cons b l ih => exact ih (mem_insertOrIgnore.2 (.inl hr))

/-- After inserting a list of rows there is a row for each of their keys. -/
theorem key_foldl_insertOrIgnore {g : β → ρ} {l : List β} (hb : b ∈ l) :
    ∃ r ∈ l.foldl (fun t b => t.insertOrIgnore (g b)) t, Keyed.key r = Keyed.key (g b) := by
  induction l generalizing t with
  | nil => cases hb
  | cons c l ih =>
    rw [List.foldl_cons]
    rcases List.mem_cons.1 hb with rfl | hb
    · cases ho : t.get? (Keyed.key (g b)) with
      | none =>
        have hm : g b ∈ t.insertOrIgnore (g b) := mem_insertOrIgnore.2 (.inr ⟨rfl, ho⟩)
        exact ⟨g b, mem_foldl_insertOrIgnore hm, rfl⟩
      | some r =>
        have hm : r ∈ t.insertOrIgnore (g b) := mem_insertOrIgnore.2 (.inl (mem_of_get? ho))
        exact ⟨r, mem_foldl_insertOrIgnore hm, key_of_get? ho⟩
    · exact ih hb

theorem contains_eq_true : t.contains k = true ↔ ∃ r ∈ t, Keyed.key r = k := by
  constructor
  · intro h
    obtain ⟨r, hr⟩ := Option.isSome_iff_exists.1 h
    exact ⟨r, mem_of_get? hr, key_of_get? hr⟩
  · rintro ⟨r, hr, rfl⟩
    exact Option.isSome_iff_exists.2 ⟨r, mem_iff_get?.1 hr⟩

theorem of_mem_foldl_insertOrIgnore {g : β → ρ} {l : List β}
    (h : r ∈ l.foldl (fun t b => t.insertOrIgnore (g b)) t) : r ∈ t ∨ ∃ b ∈ l, g b = r := by
  induction l generalizing t with
  | nil => exact .inl h
  | cons c l ih =>
    rcases ih h with h | ⟨b, hb, he⟩
    · rcases mem_insertOrIgnore.1 h with h | ⟨he, -⟩
      · exact .inl h
      · exact .inr ⟨c, List.mem_cons_self, he.symm⟩
    · exact .inr ⟨b, List.mem_cons_of_mem _ hb, he⟩

/-- The keys of a table into which a list of rows was inserted. -/
theorem contains_foldl_insertOrIgnore {g : β → ρ} {l : List β} :
    (l.foldl (fun t b => t.insertOrIgnore (g b)) t).contains k = true ↔
      t.contains k = true ∨ ∃ b ∈ l, Keyed.key (g b) = k := by
  simp only [contains_eq_true]
  constructor
  · rintro ⟨r, hr, hk⟩
    rcases of_mem_foldl_insertOrIgnore hr with hr | ⟨b, hb, rfl⟩
    · exact .inl ⟨r, hr, hk⟩
    · exact .inr ⟨b, hb, hk⟩
  · rintro (⟨r, hr, hk⟩ | ⟨b, hb, hk⟩)
    · exact ⟨r, mem_foldl_insertOrIgnore hr, hk⟩
    · obtain ⟨r, hr, he⟩ := key_foldl_insertOrIgnore (g := g) (t := t) hb
      exact ⟨r, hr, he.trans hk⟩

theorem Evolves.insertOrIgnore (t : Table ρ) (hP : P a) : Evolves Eq P t (t.insertOrIgnore a) where
  kept r hr := ⟨r, mem_insertOrIgnore.2 (.inl hr), rfl⟩
  origin r hr := by
    rcases mem_insertOrIgnore.1 hr with hr | ⟨rfl, -⟩
    · exact .inl ⟨r, hr, rfl⟩
    · exact .inr hP

@[simp] theorem mem_upsert : r ∈ t.upsert a ↔ r = a ∨ (r ∈ t ∧ Keyed.key r ≠ Keyed.key a) := by
  rw [mem_iff_get?, get?_upsert]
  by_cases h : Keyed.key a = Keyed.key r
  · simp [h, eq_comm]
  · simp only [h, if_false, ← mem_iff_get?]
    constructor
    · exact fun hr => .inr ⟨hr, Ne.symm h⟩
    · rintro (rfl | ⟨hr, -⟩)
      · exact absurd rfl h
      · exact hr

theorem mem_upsertWith : r ∈ t.upsertWith a f hf ↔
      ((t.get? (Keyed.key a)).map f).getD a = r ∨ (r ∈ t ∧ Keyed.key r ≠ Keyed.key a) := by
  rw [mem_iff_get?, get?_upsertWith]
  by_cases h : Keyed.key a = Keyed.key r
  · simp [h]
  · simp only [h, if_false, ← mem_iff_get?]
    constructor
    · exact fun hr => .inr ⟨hr, Ne.symm h⟩
    · rintro (rfl | ⟨hr, -⟩)
      · cases ho : t.get? (Keyed.key a) with
        | none => simp [ho] at h
        | some o => simp [ho, hf, key_of_get? ho] at h
      · exact hr

end Membership

section Totals

/-- `SUM(g)` over the rows. -/
def total (t : Table ρ) (g : ρ → Nat) : Nat := (t.rows.map g).sum

theorem total_add (t : Table ρ) (g h : ρ → Nat) :
    t.total (fun r => g r + h r) = t.total g + t.total h := by
  unfold total
  induction t.rows with
  | nil => rfl
  | cons r l ih =>
    simp only [List.map_cons, List.sum_cons, ih]
    omega

variable [DecidableEq κ]

/-- What the row of a key contributes to a sum. -/
def share (t : Table ρ) (g : ρ → Nat) (k : κ) : Nat := ((t.get? k).map g).getD 0

theorem share_of_mem (h : r ∈ t) : t.share g (Keyed.key r) = g r := by
  rw [share, mem_iff_get?.1 h]
  rfl

theorem share_add_total_delete (t : Table ρ) (g : ρ → Nat) (k : κ) :
    t.share g k + (t.delete fun r => decide (Keyed.key r = k)).total g = t.total g := by
  obtain ⟨rows, hn⟩ := t
  simp only [share, total, get?, delete]
  induction rows with
  | nil => rfl
  | cons a rows ih =>
    simp only [List.map_cons, List.nodup_cons, List.mem_map, not_exists, not_and] at hn
    by_cases ha : Keyed.key a = k
    · have hf : rows.filter (fun r => !decide (Keyed.key r = k)) = rows := by
        rw [List.filter_eq_self]
        intro r hr
        simpa [← ha] using hn.1 r hr
      simp [ha, hf]
    · have hi := ih hn.2
      simp only [List.find?_cons, List.filter_cons, ha, decide_false, Bool.not_false, if_true,
        List.map_cons, List.sum_cons]
      omega

/-- The shares of distinct keys sum up to at most the total. -/
theorem sum_share_le (t : Table ρ) (g : ρ → Nat) (ks : List κ) (h : ks.Nodup) :
    (ks.map (t.share g)).sum ≤ t.total g := by
  induction ks generalizing t with
  | nil => exact Nat.zero_le _
  | cons k ks ih =>
    obtain ⟨hk, hks⟩ := List.nodup_cons.1 h
    have hd := t.share_add_total_delete g k
    have hi := ih (t.delete fun r => decide (Keyed.key r = k)) hks
    have hs : ks.map ((t.delete fun r => decide (Keyed.key r = k)).share g) =
        ks.map (t.share g) := by
      apply List.map_congr_left
      intro i hm
      simp only [share, get?_delete]
      cases hr : t.get? i with
      | none => rfl
      | some r =>
        have hne : decide (Keyed.key r = k) = false := by
          rw [key_of_get? hr, decide_eq_false_iff_not]
          rintro rfl
          exact hk hm
        simp [Option.filter, hne]
    rw [List.map_cons, List.sum_cons]
    rw [hs] at hi
    omega

/-- A sum whose rows stay below the shares of their keys stays below the total. -/
theorem total_le {ρ' : Type u} [Keyed ρ' κ] {t' : Table ρ'}
    {g' : ρ' → Nat} (h : ∀ r ∈ t', g' r ≤ t.share g (Keyed.key r)) : t'.total g' ≤ t.total g := by
  have hs : ∀ l : List ρ', (∀ r ∈ l, r ∈ t') →
      (l.map g').sum ≤ ((l.map Keyed.key).map (t.share g)).sum := by
    intro l hl
    induction l with
    | nil => exact Nat.zero_le _
    | cons r l ih =>
      have hr := h r (hl r List.mem_cons_self)
      have hi := ih fun r hr => hl r (List.mem_cons_of_mem _ hr)
      simp only [List.map_cons, List.sum_cons]
      omega
  exact Nat.le_trans (hs t'.rows fun _ hr => hr) (t.sum_share_le g _ t'.nodup)

theorem total_single_le (t : Table ρ) (k : κ) (d : Nat) :
    t.total (fun r => if Keyed.key r = k then d else 0) ≤ d := by
  rw [← t.share_add_total_delete _ k]
  have hs : t.share (fun r => if Keyed.key r = k then d else 0) k ≤ d := by
    unfold share
    cases t.get? k with
    | none => exact Nat.zero_le d
    | some r =>
      simp only [Option.map_some, Option.getD_some]
      split
      · exact Nat.le_refl d
      · exact Nat.zero_le d
  have hz : (t.delete fun r => decide (Keyed.key r = k)).total
      (fun r => if Keyed.key r = k then d else 0) ≤ (∅ : Table ρ).total fun _ => 0 := by
    apply total_le
    intro r hr
    rw [if_neg (of_decide_eq_false (mem_delete.1 hr).2)]
    exact Nat.zero_le _
  exact Nat.add_le_add hs hz

/-- A sum grows by at most what the row of one key gains. -/
theorem total_le_add (k : κ) {d : Nat}
    (h : ∀ r ∈ t', g' r ≤ t.share g (Keyed.key r) + if Keyed.key r = k then d else 0) :
    t'.total g' ≤ t.total g + d := by
  let gain (r : ρ) : Nat := if Keyed.key r = k then d else 0
  have h₁ : t'.total g' ≤ t'.total fun r => (g' r - gain r) + gain r := by
    apply total_le
    intro r hr
    rw [share_of_mem hr]
    omega
  have h₂ : t'.total (fun r => g' r - gain r) ≤ t.total g := by
    apply total_le
    intro r hr
    have hg := h r hr
    simp only [gain]
    omega
  have h₃ : t'.total gain ≤ d := t'.total_single_le k d
  rw [total_add] at h₁
  omega

end Totals
end Table

/-- The last element of a sorted list that passes a test is above the others that do. -/
theorem rel_of_find?_reverse {R : α → α → Prop} {l : List α} {p : α → Bool} (hl : l.Pairwise R)
    (h : l.reverse.find? p = some b) (ha : a ∈ l) (hp : p a = true) : a = b ∨ R a b := by
  obtain ⟨-, before, after, he, hb⟩ := List.find?_eq_some_iff_append.1 h
  have hl' : l = after.reverse ++ b :: before.reverse := by
    rw [← List.reverse_reverse l, he]
    simp
  rw [hl', List.mem_append, List.mem_cons] at ha
  rw [hl', List.pairwise_append] at hl
  rcases ha with ha | rfl | ha
  · exact .inr (hl.2.2 a ha b List.mem_cons_self)
  · exact .inl rfl
  · have hn := hb a (List.mem_reverse.1 ha)
    simp [hp] at hn

end Relational
