import Mathlib.Data.List.Basic
import Mathlib.Data.List.Perm.Subperm

namespace Transition
set_option autoImplicit true

/-- Runs of a labelled system; the list holds the states passed before, newest first. -/
inductive Run (Init : σ → Prop) (Step : α → σ → σ → Prop) : List σ → σ → Prop where
  | init : Init s → Run Init Step [] s
  | step : Run Init Step past s → Step a s s' → Run Init Step (s :: past) s'

/-- The steps of a system that meet a condition on the label and the state before. -/
def Guarded (Step : α → σ → σ → Prop) (C : α → σ → Prop) (a : α) (s s' : σ) : Prop :=
  Step a s s' ∧ C a s

/-- A relation between the states passed and the current one that every step keeps. -/
theorem Run.history_invariant {I : List σ → σ → Prop} (hi : ∀ s, Init s → I [] s)
    (hs : ∀ past a s s', I past s → Step a s s' → I (s :: past) s')
    (hr : Run Init Step past s) : I past s := by
  induction hr with
  | init h => exact hi _ h
  | step hr ht ih => exact hs _ _ _ _ ih ht

theorem Run.invariant {I : σ → Prop}
    (hi : ∀ s, Init s → I s) (hs : ∀ a s s', I s → Step a s s' → I s')
    (hr : Run Init Step past s) : I s :=
  Run.history_invariant (I := fun _ s => I s) hi (fun _ a s s' => hs a s s') hr

/-- A run goes on from the state another one reached. -/
theorem Run.trans (hr : Run Init Step past t) (ht : Run (fun s => s = t) Step later s) :
    Run Init Step (later ++ past) s := by
  induction ht with
  | init h =>
    subst h
    exact hr
  | step _ hs ih => exact .step ih hs

theorem Run.mono (hs : ∀ a s s', Step a s s' → Step' a s s') (hr : Run Init Step past s) :
    Run Init Step' past s := by
  induction hr with
  | init h => exact .init h
  | step hr ht ih => exact .step ih (hs _ _ _ ht)

/-- Every state passed is itself reached by a run. -/
theorem Run.of_mem (hr : Run Init Step past s) (ht : t ∈ s :: past) :
    ∃ earlier, Run Init Step earlier t ∧ earlier <:+ past := by
  induction hr with
  | init h =>
    rw [List.mem_singleton] at ht
    subst ht
    exact ⟨[], .init h, List.suffix_refl _⟩
  | @step past s a s' hr hs ih =>
    rcases List.mem_cons.1 ht with rfl | ht
    · exact ⟨s :: past, .step hr hs, List.suffix_refl _⟩
    · obtain ⟨earlier, he, hsuf⟩ := ih ht
      exact ⟨earlier, he, hsuf.trans (List.suffix_cons _ _)⟩

/-- Executing labels in turn, keeping the states passed newest first. -/
def exec (step : α → σ → Option σ) : List σ → σ → List α → Option (List σ × σ)
  | past, s, [] => some (past, s)
  | past, s, a :: rest =>
    match step a s with
    | none => none
    | some s' => exec step (s :: past) s' rest

theorem Run.of_exec {step : α → σ → Option σ}
    (hr : Run Init (fun a s s' => step a s = some s') past s)
    (he : exec step past s labels = some (past', s')) :
    Run Init (fun a s s' => step a s = some s') past' s' := by
  induction labels generalizing past s with
  | nil =>
    simp only [exec, Option.some.injEq, Prod.mk.injEq] at he
    obtain ⟨rfl, rfl⟩ := he
    exact hr
  | cons a rest ih =>
    simp only [exec] at he
    split at he
    · cases he
    · rename_i t ht
      exact ih (.step hr ht) he

/-- The run of a list of labels that all execute. -/
theorem Run.of_exec_isSome {step : α → σ → Option σ} (hi : Init s)
    (he : (exec step [] s labels).isSome = true) :
    Run Init (fun a s s' => step a s = some s') ((exec step [] s labels).get he).1
      ((exec step [] s labels).get he).2 :=
  Run.of_exec (.init hi) (Option.some_get he).symm

/-- Executing more labels keeps what was passed. -/
theorem exec_suffix (he : exec step past s labels = some (past', s')) :
    s :: past <:+ s' :: past' := by
  induction labels generalizing past s with
  | nil =>
    simp only [exec, Option.some.injEq, Prod.mk.injEq] at he
    obtain ⟨rfl, rfl⟩ := he
    exact List.suffix_refl _
  | cons a rest ih =>
    simp only [exec] at he
    split at he
    · cases he
    · exact (List.suffix_cons _ _).trans (ih he)

/-- What a call that hands out one thing at a time returns when it is called again and again. -/
def drain (claim : σ → Option ρ × σ) : Nat → σ → List ρ
  | 0, _ => []
  | n + 1, s =>
    match claim s with
    | (none, _) => []
    | (some r, s') => r :: drain claim n s'

/-- A call that hands out every candidate once hands out each of them in the end. -/
theorem exists_mem_drain {claim : σ → Option ρ × σ} {key : ρ → κ} (candidates : σ → List κ)
    (hd : ∀ s, (candidates s).Nodup)
    (hn : ∀ s s', claim s = (none, s') → candidates s = [])
    (hs : ∀ s r s', claim s = (some r, s') →
      key r ∈ candidates s ∧ ∀ k, k ∈ candidates s' ↔ k ∈ candidates s ∧ k ≠ key r)
    (hk : k ∈ candidates s) : ∃ n, ∃ r ∈ drain claim n s, key r = k := by
  induction hl : (candidates s).length using Nat.strongRecOn generalizing s with
  | ind l ih =>
    rcases hc : claim s with ⟨_ | r, s'⟩
    · rw [hn s s' hc] at hk
      cases hk
    · obtain ⟨hr, hiff⟩ := hs s r s' hc
      by_cases he : k = key r
      · refine ⟨1, r, ?_, he.symm⟩
        rw [drain, hc]
        exact List.mem_cons_self
      · have hsub : key r :: candidates s' ⊆ candidates s := by
          intro x hx
          rcases List.mem_cons.1 hx with rfl | hx
          · exact hr
          · exact ((hiff x).1 hx).1
        have hnd : (key r :: candidates s').Nodup :=
          List.nodup_cons.2 ⟨fun hx => ((hiff _).1 hx).2 rfl, hd s'⟩
        have hlt : (candidates s').length < l := by
          rw [← hl]
          exact (hnd.subperm hsub).length_le
        obtain ⟨n, r', hr', hkey⟩ := ih _ hlt ((hiff k).2 ⟨hk, he⟩) rfl
        refine ⟨n + 1, r', ?_, hkey⟩
        rw [drain, hc]
        exact List.mem_cons_of_mem _ hr'

end Transition
