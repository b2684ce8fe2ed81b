import Mathlib.Data.Int.CardIntervalMod

namespace TelegramS3
set_option autoImplicit true

/-- The values of `random_below` below this one are drawn again. -/
def rejectionThreshold (upper : Nat) : Nat := (2 ^ 64 - upper) % 2 ^ 64 % upper

/-- `random_below` on the values from a position on, and the position it stops at. -/
def randomBelow (values : Nat → Fin (2 ^ 64)) (upper : Nat) : Nat → Nat → Option (Nat × Nat)
  | 0, _ => none
  | fuel + 1, i =>
    if rejectionThreshold upper ≤ values i then some (values i % upper, i + 1)
    else randomBelow values upper fuel (i + 1)

def sampleChunk (values : Nat → Fin (2 ^ 64)) (fuel requested : Nat) (acc : List Nat × Nat)
    (index : Nat) : Option (List Nat × Nat) :=
  if acc.1.length < requested then some (acc.1 ++ [index], acc.2)
  else
    (randomBelow values (index + 1) fuel acc.2).map fun (slot, next) =>
      (if slot < requested then acc.1.set slot index else acc.1, next)

def randomChunkSample (values : Nat → Fin (2 ^ 64)) (fuel chunkCount requested : Nat) :
    Option (List Nat) :=
  let requested := min requested chunkCount
  if requested = 0 ∨ chunkCount = 0 then some []
  else
    ((List.range chunkCount).foldlM (sampleChunk values fuel requested) ([], 0)).map Prod.fst

/-- A source of random values in which values that are accepted come again and again. -/
structure RandomStream (bound : Nat) where
  values : Nat → Fin (2 ^ 64)
  recurs : ∀ upper, 1 ≤ upper → upper ≤ bound → ∀ n, ∃ m ≥ n, rejectionThreshold upper ≤ values m

instance : Inhabited (RandomStream bound) where
  default :=
    { values _ := Fin.last _
      recurs upper _ _ n := ⟨n, Nat.le_refl n, (Nat.mod_le _ upper).trans
        (Nat.le_of_lt_succ (Nat.mod_lt _ (Nat.two_pow_pos 64)))⟩ }

theorem rejectionThreshold_eq (hu : 1 ≤ upper) (hm : upper < 2 ^ 64) :
    rejectionThreshold upper = 2 ^ 64 % upper := by
  have hneg : (2 ^ 64 - upper) % 2 ^ 64 = 2 ^ 64 - upper := Nat.mod_eq_of_lt (by omega)
  rw [rejectionThreshold, hneg, ← Nat.mod_eq_sub_mod (Nat.le_of_lt hm)]

/-- The values that `random_below` accepts and maps to a result. -/
def acceptedFor (upper result : Nat) : Finset Nat :=
  (Finset.range (2 ^ 64)).filter fun v =>
    randomBelow (fun _ => Fin.ofNat _ v) upper 1 0 = some (result, 1)

theorem acceptedFor_eq (upper result : Nat) : acceptedFor upper result =
    (Finset.range (2 ^ 64)).filter fun v => v % upper = result ∧ rejectionThreshold upper ≤ v := by
  refine Finset.filter_congr fun v hv => ?_
  have hval : (Fin.ofNat (2 ^ 64) v).val = v := Nat.mod_eq_of_lt (Finset.mem_range.1 hv)
  simp only [randomBelow, hval]
  split <;> simp_all

theorem card_acceptedFor (hu : 1 ≤ upper) (hm : upper < 2 ^ 64) (hr : r < upper) :
    (acceptedFor upper r).card = 2 ^ 64 / upper := by
  have ht := rejectionThreshold_eq hu hm
  have hlt : rejectionThreshold upper < upper := Nat.mod_lt _ hu
  have hcount (n : Nat) : ((Finset.range n).filter fun v => v % upper = r).card =
      n / upper + if r < n % upper then 1 else 0 := by
    have h := Nat.count_modEq_card n hu r
    rw [Nat.count_eq_card_filter_range, Nat.mod_eq_of_lt hr] at h
    rw [← h]
    congr 1
    ext v
    simp [Nat.ModEq, Nat.mod_eq_of_lt hr]
  have hlow : (((Finset.range (2 ^ 64)).filter fun v => v % upper = r).filter
      fun v => ¬ rejectionThreshold upper ≤ v) =
        (Finset.range (rejectionThreshold upper)).filter fun v => v % upper = r := by
    ext v
    simp only [Finset.mem_filter, Finset.mem_range]
    omega
  have hsplit := Finset.card_filter_add_card_filter_not
    (s := (Finset.range (2 ^ 64)).filter fun v => v % upper = r)
    (fun v => rejectionThreshold upper ≤ v)
  rw [Finset.filter_filter, hlow, hcount, hcount, Nat.div_eq_of_lt hlt, Nat.mod_eq_of_lt hlt,
    ht] at hsplit
  rw [acceptedFor_eq, ht]
  omega

theorem randomBelow_accepts {values : Nat → Fin (2 ^ 64)} (h : rejectionThreshold upper ≤ values i) : ∃ slot next fuel₀,
    ∀ fuel ≥ fuel₀, randomBelow values upper fuel i = some (slot, next) := by
  refine ⟨values i % upper, i + 1, 1, fun fuel hf => ?_⟩
  obtain ⟨fuel, rfl⟩ := Nat.exists_eq_add_of_le' hf
  rw [randomBelow, if_pos h]

theorem randomBelow_returns {values : Nat → Fin (2 ^ 64)} (h : rejectionThreshold upper ≤ values (i + d)) : ∃ slot next fuel₀,
    ∀ fuel ≥ fuel₀, randomBelow values upper fuel i = some (slot, next) := by
  induction d generalizing i with
  | zero => exact randomBelow_accepts h
  | succ d ih =>
    by_cases ha : rejectionThreshold upper ≤ values i
    · exact randomBelow_accepts ha
    · obtain ⟨slot, next, fuel₀, hrest⟩ := ih (i := i + 1) (by rwa [Nat.add_right_comm])
      refine ⟨slot, next, fuel₀ + 1, fun fuel hf => ?_⟩
      obtain ⟨fuel, rfl⟩ := Nat.exists_eq_add_of_le' (Nat.le_of_add_left_le hf)
      rw [randomBelow, if_neg ha]
      exact hrest fuel (by omega)

/-- What the reservoir holds once the indexes below one have been seen. -/
structure Sampled (requested index : Nat) (selected : List Nat) : Prop where
  length : selected.length = min requested index
  distinct : selected.Nodup
  below : ∀ i ∈ selected, i < index

theorem Sampled.push (h : Sampled requested index selected) (hl : selected.length < requested) :
    Sampled requested (index + 1) (selected ++ [index]) where
  length := by
    rw [List.length_append, List.length_singleton, h.length]
    rw [h.length] at hl
    omega
  distinct := by
    refine List.nodup_append.2 ⟨h.distinct, List.nodup_singleton _, fun i hi j hj => ?_⟩
    rw [List.mem_singleton.1 hj]
    exact Nat.ne_of_lt (h.below i hi)
  below i hi := by
    rcases List.mem_append.1 hi with hi | hi
    · exact Nat.lt_succ_of_lt (h.below i hi)
    · rw [List.mem_singleton.1 hi]
      exact Nat.lt_succ_self _

theorem Sampled.keep (h : Sampled requested index selected) (hl : ¬ selected.length < requested) :
    Sampled requested (index + 1) selected where
  length := by
    have hlen := h.length
    omega
  distinct := h.distinct
  below i hi := Nat.lt_succ_of_lt (h.below i hi)

theorem Sampled.replace (h : Sampled requested index selected)
    (hl : ¬ selected.length < requested) (slot : Nat) :
    Sampled requested (index + 1) (selected.set slot index) where
  length := by rw [List.length_set, (h.keep hl).length]
  distinct := h.distinct.set fun hm => Nat.lt_irrefl _ (h.below _ hm)
  below i hi := by
    rcases List.mem_or_eq_of_mem_set hi with hi | rfl
    · exact Nat.lt_succ_of_lt (h.below i hi)
    · exact Nat.lt_succ_self _

section
variable {bound : Nat} (stream : RandomStream bound)

theorem sampleChunk_returns (hi : index < bound) (h : Sampled requested index acc.1) :
    ∃ acc' fuel₀, Sampled requested (index + 1) acc'.1 ∧
      ∀ fuel ≥ fuel₀, sampleChunk stream.values fuel requested acc index = some acc' := by
  by_cases hl : acc.1.length < requested
  · refine ⟨(acc.1 ++ [index], acc.2), 0, h.push hl, fun fuel _ => ?_⟩
    rw [sampleChunk, if_pos hl]
  · obtain ⟨m, hm, ha⟩ := stream.recurs (index + 1) (Nat.le_add_left 1 index) hi acc.2
    obtain ⟨d, rfl⟩ := Nat.exists_eq_add_of_le hm
    obtain ⟨slot, next, fuel₀, hf⟩ := randomBelow_returns ha
    refine ⟨(if slot < requested then acc.1.set slot index else acc.1, next), fuel₀, ?_,
      fun fuel hfuel => ?_⟩
    · dsimp only
      split
      · exact h.replace hl slot
      · exact h.keep hl
    · rw [sampleChunk, if_neg hl, hf fuel hfuel, Option.map_some]

theorem sample_returns (requested : Nat) (hn : n ≤ bound) : ∃ acc fuel₀, Sampled requested n acc.1 ∧
    ∀ fuel ≥ fuel₀, (List.range n).foldlM (sampleChunk stream.values fuel requested) ([], 0) =
      some acc := by
  induction n with
  | zero => exact ⟨([], 0), 0, ⟨by simp, .nil, by simp⟩, fun _ _ => rfl⟩
  | succ n ih =>
    obtain ⟨acc, fuel₁, h, hrun⟩ := ih (Nat.le_of_succ_le hn)
    obtain ⟨acc', fuel₂, h', hstep⟩ := sampleChunk_returns stream hn h
    refine ⟨acc', max fuel₁ fuel₂, h', fun fuel hf => ?_⟩
    rw [List.range_succ, List.foldlM_append, hrun fuel (le_of_max_le_left hf)]
    simp [hstep fuel (le_of_max_le_right hf)]

end

/-- The sample is drawn in finitely many steps and has distinct chunks, as many as asked for;
every result of a draw has as many accepted values as any other. -/
theorem random_chunk_sample (chunkCount requested : Nat) (stream : RandomStream chunkCount) :
    (∃ selected fuel₀, selected.length = min requested chunkCount ∧ selected.Nodup ∧
      (∀ i ∈ selected, i < chunkCount) ∧ ∀ fuel ≥ fuel₀,
        randomChunkSample stream.values fuel chunkCount requested = some selected) ∧
      ∀ upper, 1 ≤ upper → upper < 2 ^ 64 → ∀ result,
        (acceptedFor upper result).card = if result < upper then 2 ^ 64 / upper else 0 := by
  constructor
  · obtain ⟨acc, fuel₀, h, hrun⟩ :=
      sample_returns stream (min requested chunkCount) (Nat.le_refl chunkCount)
    refine ⟨acc.1, fuel₀, by rw [h.length, Nat.min_assoc, Nat.min_self], h.distinct, h.below,
      fun fuel hf => ?_⟩
    rw [randomChunkSample]
    split
    · have hnil : acc.1 = [] := by
        rw [← List.length_eq_zero_iff, h.length]
        omega
      rw [hnil]
    · rw [hrun fuel hf, Option.map_some]
  · intro upper hu hm result
    split
    · exact card_acceptedFor hu hm ‹_›
    · rename_i hr
      rw [acceptedFor_eq, Finset.card_eq_zero, Finset.filter_eq_empty_iff]
      rintro v - ⟨rfl, -⟩
      exact hr (Nat.mod_lt v hu)

end TelegramS3
