import TelegramS3.Reading
import TelegramS3.Streams

namespace TelegramS3
open Streaming
set_option autoImplicit true

/-- A span that was read, with the counters of its download. -/
structure FetchedSpan where
  result : ReadSpanResult
  telegramBytes : Nat
  telegramRetries : Nat
  telegramUs : Nat

abbrev ReadOutcome := Except IoError FetchedSpan

/-- The arithmetic on `f64` that the adaptive window does. -/
structure ThroughputArithmetic (F : Type) where
  ratio : Nat → Nat → F
  slower : F → F → Bool
  blend : F → F → F

/-- How many spans may be fetched or in flight, and what the next change of that depends on. -/
structure ReadWindow (F : Type) (maxWindow : Nat) where
  window : Nat
  cleanStreak : Nat := 0
  throughputEwma : Option F := none
  pos : 1 ≤ window
  le : window ≤ max maxWindow 1

namespace ReadWindow
variable {F : Type} {maxWindow : Nat}

def new : ReadWindow F maxWindow where
  window := max 1 (min 2 maxWindow)
  pos := by omega
  le := by omega

def halve (w : ReadWindow F maxWindow) : ReadWindow F maxWindow :=
  { w with
    window := max (w.window / 2) 1, cleanStreak := 0
    pos := by omega
    le := by
      have := w.le
      omega }

def shrink (w : ReadWindow F maxWindow) : ReadWindow F maxWindow :=
  { w with
    window := max (w.window - 1) 1, cleanStreak := 0
    pos := by omega
    le := by
      have := w.le
      omega }

def grow (w : ReadWindow F maxWindow) : ReadWindow F maxWindow :=
  let streak := min (w.cleanStreak + 1) 255
  if h : 2 ≤ streak ∧ w.window < maxWindow then
    { w with
      window := w.window + 1, cleanStreak := 0
      pos := by omega
      le := by omega }
  else { w with cleanStreak := streak }

def observe (arith : ThroughputArithmetic F) (w : ReadWindow F maxWindow) :
    ReadOutcome → ReadWindow F maxWindow
  | .error _ => w.halve
  | .ok r =>
    if 0 < r.telegramRetries then w.shrink
    else
      let throughput :=
        if r.telegramUs = 0 then none else some (arith.ratio r.telegramBytes r.telegramUs)
      let slowedDown := throughput.any fun current => w.throughputEwma.any fun baseline =>
        1 < w.window && arith.slower current baseline
      let ewma := match throughput with
        | some current => some ((w.throughputEwma.map fun p => arith.blend p current).getD current)
        | none => w.throughputEwma
      { (if slowedDown then w.halve else w.grow) with throughputEwma := ewma }

end ReadWindow

/-- Any way the window may evolve between one and its maximum. -/
structure WindowRule (σ : Type) (maxWindow : Nat) where
  start : σ
  window : σ → Nat
  observe : σ → ReadOutcome → σ
  within : ∀ x, 1 ≤ window x ∧ window x ≤ max maxWindow 1

def ReadWindow.rule (arith : ThroughputArithmetic F) (maxWindow : Nat) :
    WindowRule (ReadWindow F maxWindow) maxWindow where
  start := .new
  window := ReadWindow.window
  observe := ReadWindow.observe arith
  within w := ⟨w.pos, w.le⟩

/-- The reader with the spans in flight and the results that wait for their turn. -/
structure AdaptiveReadWindow (σ : Type) where
  spans : List ReadSpan
  nextToSchedule : Nat := 0
  nextToEmit : Nat := 0
  pending : List Nat := []
  ready : List (Nat × ReadOutcome) := []
  state : σ

namespace AdaptiveReadWindow
variable {σ : Type} {maxWindow : Nat}

def new (rule : WindowRule σ maxWindow) (spans : List ReadSpan) : AdaptiveReadWindow σ :=
  { spans, state := rule.start }

def outstanding (w : AdaptiveReadWindow σ) : Nat := w.pending.length + w.ready.length

def schedule (w : AdaptiveReadWindow σ) : AdaptiveReadWindow σ :=
  { w with
    pending := w.pending ++ [w.nextToSchedule], nextToSchedule := w.nextToSchedule + 1 }

def fill (rule : WindowRule σ maxWindow) (w : AdaptiveReadWindow σ) : AdaptiveReadWindow σ :=
  if w.nextToSchedule < w.spans.length ∧ w.outstanding < rule.window w.state then
    fill rule w.schedule
  else w
termination_by w.spans.length - w.nextToSchedule
decreasing_by
  simp only [schedule]
  omega

def complete (outcome : Nat → ReadOutcome) (w : AdaptiveReadWindow σ) (sequence : Nat) :
    AdaptiveReadWindow σ :=
  { w with
    pending := w.pending.erase sequence
    ready := (sequence, outcome sequence) :: w.ready.filter fun p => p.1 != sequence }

def emit (rule : WindowRule σ maxWindow) (w : AdaptiveReadWindow σ) (result : ReadOutcome) :
    AdaptiveReadWindow σ :=
  { w with
    ready := w.ready.filter fun p => p.1 != w.nextToEmit
    nextToEmit := w.nextToEmit + 1
    state := rule.observe w.state result }

/-- The loop of `next`: until the result whose turn it is has come, the span `pick` says ends. -/
def await (rule : WindowRule σ maxWindow) (outcome : Nat → ReadOutcome)
    (pick : AdaptiveReadWindow σ → Nat) (w : AdaptiveReadWindow σ) :
    Option ReadOutcome × AdaptiveReadWindow σ :=
  match w.ready.lookup w.nextToEmit with
  | some result => (some result, (w.emit rule result).fill rule)
  | none =>
    if h : 0 < w.pending.length then
      await rule outcome pick
        (w.complete outcome (w.pending.get ⟨pick w % w.pending.length, Nat.mod_lt _ h⟩))
    else (none, w)
termination_by w.pending.length
decreasing_by
  simp only [complete]
  rw [List.length_erase_of_mem (List.get_mem _ _)]
  omega

def next (rule : WindowRule σ maxWindow) (outcome : Nat → ReadOutcome)
    (pick : AdaptiveReadWindow σ → Nat) (w : AdaptiveReadWindow σ) :
    Option ReadOutcome × AdaptiveReadWindow σ :=
  (w.fill rule).await rule outcome pick

end AdaptiveReadWindow

/-- The task that reads ahead with its channel; a result it holds waits for room. -/
structure ReadAheadTask where
  total : Nat
  position : Nat := 0
  held : Option ReadOutcome := none
  queue : List ReadOutcome := []
  stopped : Bool := false
  capacity : Nat
  roomy : 0 < capacity

namespace ReadAheadTask

def work (outcome : Nat → ReadOutcome) (t : ReadAheadTask) : ReadAheadTask :=
  match t.held with
  | some result =>
    if t.queue.length < t.capacity then
      { t with held := none, queue := t.queue ++ [result], stopped := !result.isOk }
    else t
  | none =>
    if t.stopped || t.total ≤ t.position then { t with stopped := true }
    else { t with held := some (outcome t.position), position := t.position + 1 }

def toDo (t : ReadAheadTask) : Nat :=
  2 * (t.total - t.position) + t.held.toList.length + (!t.stopped).toNat

theorem work_toDo (outcome : Nat → ReadOutcome) (t : ReadAheadTask) (hq : t.queue = [])
    (hs : t.stopped = false) : (t.work outcome).toDo < t.toDo := by
  have hr := t.roomy
  unfold work
  cases hh : t.held with
  | some result =>
    simp only [hq, List.length_nil, hr, if_true, toDo, hh, hs]
    cases result.isOk with
    | true => simp
    | false =>
      show 2 * (t.total - t.position) + 0 + 0 < 2 * (t.total - t.position) + 1 + 1
      omega
  | none =>
    simp only [hs, Bool.false_or, decide_eq_true_eq]
    split
    · simp [toDo, hh, hs]
    · simp [toDo, hh, hs]
      omega

/-- `recv`: the first result in the channel, or the next one the task brings. -/
def recv (outcome : Nat → ReadOutcome) (t : ReadAheadTask) : Option ReadOutcome × ReadAheadTask :=
  match _hq : t.queue with
  | result :: queue => (some result, { t with queue })
  | [] => if _hs : t.stopped = true then (none, t) else recv outcome (t.work outcome)
termination_by t.toDo
decreasing_by exact work_toDo outcome t _hq (Bool.eq_false_of_not_eq_true _hs)

end ReadAheadTask

structure SequentialReadAhead where
  spans : List ReadSpan
  nextToRead : Nat := 0
  receiver : Option ReadAheadTask
  window : Nat

namespace SequentialReadAhead

def new (spans : List ReadSpan) (maxWindow : Nat) : SequentialReadAhead :=
  if h : maxWindow - 1 = 0 then { spans, receiver := none, window := 1 }
  else
    { spans := [], window := maxWindow
      receiver := some
        { total := spans.length, capacity := maxWindow - 1, roomy := Nat.pos_of_ne_zero h } }

/-- Before the result is received, the task has come as far as `ahead` says. -/
def next (outcome : Nat → ReadOutcome) (ahead : ReadAheadTask → Nat) (w : SequentialReadAhead) :
    Option ReadOutcome × SequentialReadAhead :=
  match w.receiver with
  | some t =>
    let (item, t) := ReadAheadTask.recv outcome ((ReadAheadTask.work outcome)^[ahead t] t)
    (item, { w with receiver := some t })
  | none =>
    match w.spans[w.nextToRead]? with
    | none => (none, w)
    | some _ => (some (outcome w.nextToRead), { w with nextToRead := w.nextToRead + 1 })

end SequentialReadAhead

inductive ReadPipelineTail (σ : Type) where
  | adaptive (window : AdaptiveReadWindow σ)
  | sequential (window : SequentialReadAhead)

structure ReadPipeline (σ : Type) where
  first : Option ReadSpan
  remaining : Option (ReadPipelineTail σ) := none
  spans : List ReadSpan
  mode : String

/-- Which span in flight ends next, and how far the task that reads ahead has come. -/
structure ReadSchedule (σ : Type) where
  pick : AdaptiveReadWindow σ → Nat
  ahead : ReadAheadTask → Nat

namespace ReadPipeline
variable {σ : Type} {maxWindow : Nat}

def new (spans : List ReadSpan) (mode : String) : ReadPipeline σ :=
  { first := spans.head?, spans, mode }

/-- The spans behind the first are read by the tail, whose places start from zero again. -/
def next (rule : WindowRule σ maxWindow) (run : ReadSchedule σ) (outcome : Nat → ReadOutcome)
    (p : ReadPipeline σ) : Option ReadOutcome × ReadPipeline σ :=
  match p.first with
  | some _ =>
    let remaining := p.spans.drop 1
    let tail : ReadPipelineTail σ :=
      if p.mode = "sequential" then .sequential (.new remaining maxWindow)
      else .adaptive (.new rule remaining)
    (some (outcome 0),
      { p with first := none, remaining := if (outcome 0).isOk then some tail else p.remaining })
  | none =>
    match p.remaining with
    | none => (none, p)
    | some (.adaptive window) =>
      let (item, window) := window.next rule (fun i => outcome (i + 1)) run.pick
      (item, { p with remaining := some (.adaptive window) })
    | some (.sequential window) =>
      let (item, window) := window.next (fun i => outcome (i + 1)) run.ahead
      (item, { p with remaining := some (.sequential window) })

end ReadPipeline

def readInTurn (outcome : Nat → ReadOutcome) : Nat → List ReadSpan → List ReadOutcome
  | _, [] => []
  | i, _ :: spans =>
    match outcome i with
    | .error e => [.error e]
    | .ok v => .ok v :: readInTurn outcome (i + 1) spans

def outcomes (outcome : Nat → ReadOutcome) (n : Nat) : List ReadOutcome :=
  (List.range n).map outcome

theorem outcomes_getElem? (outcome : Nat → ReadOutcome) (n k : Nat) :
    (outcomes outcome n)[k]? = if k < n then some (outcome k) else none := by
  unfold outcomes
  rw [List.getElem?_map]
  split
  · rename_i h
    rw [List.getElem?_range h]
    rfl
  · rename_i h
    rw [List.getElem?_eq_none (by simpa using h)]
    rfl

theorem readInTurn_eq (outcome : Nat → ReadOutcome) (i : Nat) (spans : List ReadSpan) :
    readInTurn outcome i spans = upToError (outcomes (fun j => outcome (i + j)) spans.length) := by
  induction spans generalizing i with
  | nil => rfl
  | cons span spans ih =>
    have hsplit : outcomes (fun j => outcome (i + j)) (spans.length + 1) =
        outcome i :: outcomes (fun j => outcome (i + 1 + j)) spans.length := by
      simp [outcomes, List.range_succ_eq_map, Nat.add_assoc, Nat.add_comm 1]
    rw [List.length_cons, hsplit, readInTurn]
    cases outcome i with
    | error e => rfl
    | ok v =>
      simp only [upToError]
      rw [ih]

namespace AdaptiveReadWindow
variable {σ : Type} {maxWindow : Nat} {rule : WindowRule σ maxWindow}

/-- In flight and waiting are the places from the next to emit to the next to schedule, each once.
-/
structure Ordered (outcome : Nat → ReadOutcome) (n k : Nat) (w : AdaptiveReadWindow σ) : Prop where
  size : w.spans.length = n
  turn : w.nextToEmit = k
  scheduled : w.nextToSchedule ≤ n
  members : ∀ i, i ∈ w.pending ∨ i ∈ w.ready.map Prod.fst ↔ k ≤ i ∧ i < w.nextToSchedule
  reached : k ≤ w.nextToSchedule
  pendingOnce : w.pending.Nodup
  readyOnce : (w.ready.map Prod.fst).Nodup
  apart : ∀ i ∈ w.pending, i ∉ w.ready.map Prod.fst
  results : ∀ p ∈ w.ready, p.2 = outcome p.1

theorem Ordered.new (rule : WindowRule σ maxWindow) (spans : List ReadSpan) :
    Ordered outcome spans.length 0 (new rule spans) where
  size := rfl
  turn := rfl
  scheduled := Nat.zero_le _
  members i := by simp [AdaptiveReadWindow.new]
  reached := Nat.le_refl _
  pendingOnce := List.nodup_nil
  readyOnce := List.nodup_nil
  apart i hi := by cases hi
  results p hp := by cases hp

theorem Ordered.schedule (h : Ordered outcome n k w)
    (hlt : w.nextToSchedule < w.spans.length) : Ordered outcome n k w.schedule := by
  have hout : ∀ i, i ∈ w.pending ∨ i ∈ w.ready.map Prod.fst → i ≠ w.nextToSchedule := by
    intro i hi he
    have := ((h.members i).1 hi).2
    omega
  refine ⟨h.size, h.turn, ?_, ?_, ?_, ?_, h.readyOnce, ?_, h.results⟩
  · rw [← h.size]
    exact hlt
  · intro i
    have hi := h.members i
    have hr := h.reached
    simp only [AdaptiveReadWindow.schedule, List.mem_append, List.mem_singleton]
    constructor
    · rintro ((hp | rfl) | hp)
      · have := hi.1 (.inl hp)
        omega
      · omega
      · have := hi.1 (.inr hp)
        omega
    · rintro ⟨hk, hlt'⟩
      by_cases he : i = w.nextToSchedule
      · exact .inl (.inr he)
      · rcases hi.2 ⟨hk, by omega⟩ with hp | hp
        · exact .inl (.inl hp)
        · exact .inr hp
  · exact Nat.le_succ_of_le h.reached
  · apply List.Nodup.append h.pendingOnce (List.nodup_singleton _)
    intro i hi hi'
    exact hout i (.inl hi) (List.mem_singleton.1 hi')
  · intro i hi
    rcases List.mem_append.1 hi with hi | hi
    · exact h.apart i hi
    · intro hr
      exact hout i (.inr hr) (List.mem_singleton.1 hi)

theorem fill_keeps {P : AdaptiveReadWindow σ → Prop} (w : AdaptiveReadWindow σ)
    (hs : ∀ w, P w → w.nextToSchedule < w.spans.length →
      w.outstanding < rule.window w.state → P w.schedule) (h : P w) : P (w.fill rule) := by
  fun_induction fill rule w with
  | case1 w hc ih => exact ih (hs w h hc.1 hc.2)
  | case2 w hc => exact h

theorem fill_full (rule : WindowRule σ maxWindow) (w : AdaptiveReadWindow σ) :
    ¬ ((w.fill rule).nextToSchedule < (w.fill rule).spans.length ∧
      (w.fill rule).outstanding < rule.window (w.fill rule).state) := by
  fun_induction fill rule w with
  | case1 w hc ih => exact ih
  | case2 w hc => exact hc

theorem Ordered.fill (h : Ordered outcome n k w) : Ordered outcome n k (w.fill rule) :=
  fill_keeps w (fun _ h hlt _ => h.schedule hlt) h

theorem ready_filter {ready : List (Nat × ReadOutcome)} (hi : i ∉ ready.map Prod.fst) :
    ready.filter (fun p => p.1 != i) = ready := by
  apply List.filter_eq_self.2
  intro p hp
  rw [bne_iff_ne]
  rintro rfl
  exact hi (List.mem_map_of_mem hp)

theorem complete_eq (h : Ordered outcome n k w) (hi : i ∈ w.pending) : w.complete outcome i =
      { w with pending := w.pending.erase i, ready := (i, outcome i) :: w.ready } := by
  unfold complete
  rw [ready_filter (h.apart i hi)]

theorem Ordered.complete (h : Ordered outcome n k w) (hi : i ∈ w.pending) :
    Ordered outcome n k (w.complete outcome i) := by
  rw [complete_eq h hi]
  refine ⟨h.size, h.turn, h.scheduled, ?_, h.reached, h.pendingOnce.erase i, ?_, ?_, ?_⟩
  · intro j
    rw [← h.members j]
    by_cases hj : j = i
    · subst hj
      simp [hi]
    · simp [List.mem_erase_of_ne hj, hj]
  · exact List.nodup_cons.2 ⟨h.apart i hi, h.readyOnce⟩
  · intro j hj hr
    obtain ⟨hne, hj⟩ := (h.pendingOnce.mem_erase_iff).1 hj
    rcases List.mem_cons.1 hr with he | hr
    · exact hne he
    · exact h.apart j hj hr
  · intro p hp
    rcases List.mem_cons.1 hp with rfl | hp
    · rfl
    · exact h.results p hp

theorem complete_outstanding (h : Ordered outcome n k w) (hi : i ∈ w.pending) :
    (w.complete outcome i).outstanding = w.outstanding := by
  have hp := List.length_pos_of_mem hi
  rw [complete_eq h hi]
  simp only [outstanding, List.length_cons, List.length_erase_of_mem hi]
  omega

theorem lookup_mem {ready : List (Nat × ReadOutcome)} (h : ready.lookup k = some r) :
    (k, r) ∈ ready := by
  obtain ⟨l₁, l₂, rfl, -⟩ := List.lookup_eq_some_iff.1 h
  simp

theorem Ordered.emit (h : Ordered outcome n k w) (hl : w.ready.lookup w.nextToEmit = some r) :
    r = outcome k ∧ k < n ∧ Ordered outcome n (k + 1) (w.emit rule r) := by
  have hmem := lookup_mem hl
  rw [h.turn] at hmem
  have hkey : k ∈ w.ready.map Prod.fst := List.mem_map_of_mem hmem
  have hk := ((h.members k).1 (.inr hkey)).2
  have hkeys : (w.ready.filter fun p => p.1 != k).map Prod.fst =
      (w.ready.map Prod.fst).filter fun i => i != k := by
    rw [List.filter_map]
    rfl
  refine ⟨h.results _ hmem, Nat.lt_of_lt_of_le hk h.scheduled, h.size, ?_, h.scheduled, ?_, hk,
    h.pendingOnce, ?_, ?_, ?_⟩
  · simp only [AdaptiveReadWindow.emit, h.turn]
  · intro i
    simp only [AdaptiveReadWindow.emit, h.turn]
    rw [hkeys, List.mem_filter, bne_iff_ne]
    have hi := h.members i
    constructor
    · rintro (hp | ⟨hr, hne⟩)
      · have hne : i ≠ k := by
          rintro rfl
          exact h.apart i hp hkey
        have := hi.1 (.inl hp)
        omega
      · have := hi.1 (.inr hr)
        omega
    · rintro ⟨hlt, hs⟩
      rcases hi.2 ⟨by omega, hs⟩ with hp | hr
      · exact .inl hp
      · exact .inr ⟨hr, by omega⟩
  · simp only [AdaptiveReadWindow.emit, h.turn]
    rw [hkeys]
    exact h.readyOnce.filter _
  · intro i hi hr
    simp only [AdaptiveReadWindow.emit, h.turn] at hr
    rw [hkeys] at hr
    exact h.apart i hi (List.mem_filter.1 hr).1
  · intro p hp
    exact h.results p (List.mem_filter.1 hp).1

theorem Ordered.ended (h : Ordered outcome n k w)
    (hf : ¬ (w.nextToSchedule < w.spans.length ∧ w.outstanding < rule.window w.state))
    (hl : w.ready.lookup w.nextToEmit = none) (hp : ¬ 0 < w.pending.length) : k = n := by
  have hpend : w.pending = [] := List.length_eq_zero_iff.1 (by omega)
  have hk : ¬ (k < w.nextToSchedule) := by
    intro hlt
    rcases (h.members k).2 ⟨Nat.le_refl _, hlt⟩ with hm | hm
    · rw [hpend] at hm
      cases hm
    · obtain ⟨p, hpm, hpk⟩ := List.mem_map.1 hm
      have hne := List.lookup_eq_none_iff.1 hl p hpm
      rw [h.turn, hpk] at hne
      simp at hne
  have hready : w.ready = [] := by
    cases hr : w.ready with
    | nil => rfl
    | cons p ready =>
      have hm := (h.members p.1).1 (.inr (by simp [hr]))
      omega
  have hw := (rule.within w.state).1
  have ho : w.outstanding = 0 := by simp [outstanding, hpend, hready]
  have hr := h.reached
  have hs := h.scheduled
  have hn := h.size
  omega

theorem await_follows (w : AdaptiveReadWindow σ) (pick : AdaptiveReadWindow σ → Nat)
    (h : Ordered outcome n k w)
    (hf : ¬ (w.nextToSchedule < w.spans.length ∧ w.outstanding < rule.window w.state)) :
    (w.await rule outcome pick).1 = (outcomes outcome n)[k]? ∧
      ∀ a, (outcomes outcome n)[k]? = some a →
        Ordered outcome n (k + 1) (w.await rule outcome pick).2 := by
  fun_induction await rule outcome pick w with
  | case1 w r hl =>
    have he : r = outcome k ∧ k < n ∧ Ordered outcome n (k + 1) (w.emit rule r) := h.emit hl
    obtain ⟨rfl, hlt, ho⟩ := he
    rw [outcomes_getElem?, if_pos hlt]
    exact ⟨rfl, fun _ _ => ho.fill⟩
  | case2 w hl hp ih =>
    have hi : w.pending.get ⟨pick w % w.pending.length, Nat.mod_lt _ hp⟩ ∈ w.pending :=
      List.get_mem _ _
    apply ih (h.complete hi)
    rw [complete_outstanding h hi]
    exact hf
  | case3 w hl hp =>
    have hk := h.ended hf hl hp
    rw [outcomes_getElem?, if_neg (by omega)]
    exact ⟨rfl, nofun⟩

theorem next_follows (rule : WindowRule σ maxWindow) (outcome : Nat → ReadOutcome)
    (pick : AdaptiveReadWindow σ → Nat) (n : Nat) :
    Follows (next rule outcome pick) (outcomes outcome n) (Ordered outcome n) := by
  intro k w h
  obtain ⟨hi, hn⟩ := await_follows (w.fill rule) pick h.fill (fill_full rule w)
  exact ⟨hi, fun a ha => hn _ ha⟩

/-- The states the reader comes through, whatever is scheduled, completed and emitted when. -/
inductive Reached (rule : WindowRule σ maxWindow) (outcome : Nat → ReadOutcome)
    (w : AdaptiveReadWindow σ) : AdaptiveReadWindow σ → Prop where
  | start : Reached rule outcome w w
  | schedule : Reached rule outcome w v → v.nextToSchedule < v.spans.length →
      v.outstanding < rule.window v.state → Reached rule outcome w v.schedule
  | complete : Reached rule outcome w v → i ∈ v.pending →
      Reached rule outcome w (v.complete outcome i)
  | emit : Reached rule outcome w v → v.ready.lookup v.nextToEmit = some r →
      Reached rule outcome w (v.emit rule r)

theorem Reached.bounded (h : Reached rule outcome (new rule l) w) :
    w.outstanding ≤ max maxWindow 1 := by
  suffices (∃ k, Ordered outcome l.length k w) ∧ w.outstanding ≤ max maxWindow 1 from this.2
  induction h with
  | start => exact ⟨⟨0, .new rule l⟩, Nat.zero_le _⟩
  | schedule _ hlt ho ih =>
    obtain ⟨⟨k, hk⟩, hb⟩ := ih
    refine ⟨⟨k, hk.schedule hlt⟩, ?_⟩
    have hw := (rule.within _).2.trans' (Nat.succ_le_of_lt ho)
    simp only [outstanding, AdaptiveReadWindow.schedule, List.length_append,
      List.length_singleton] at hw ⊢
    omega
  | complete _ hi ih =>
    obtain ⟨⟨k, hk⟩, hb⟩ := ih
    exact ⟨⟨k, hk.complete hi⟩, complete_outstanding hk hi ▸ hb⟩
  | emit _ hl ih =>
    obtain ⟨⟨k, hk⟩, hb⟩ := ih
    refine ⟨⟨k + 1, (hk.emit hl).2.2⟩, Nat.le_trans ?_ hb⟩
    exact Nat.add_le_add_left (List.length_filter_le _ _) _

end AdaptiveReadWindow

namespace ReadAheadTask

/-- The waiting results are those from `k` to the next to read, with no error passed. -/
structure Ahead (outcome : Nat → ReadOutcome) (n k : Nat) (t : ReadAheadTask) : Prop where
  size : t.total = n
  reached : k ≤ t.position
  read : t.position ≤ n
  waiting : t.queue ++ t.held.toList = (List.range' k (t.position - k)).map outcome
  fine : ∀ i, k ≤ i → i + 1 < t.position → (outcome i).isOk = true
  going : t.stopped = false → t.held = none → ∀ i, k ≤ i → i < t.position →
    (outcome i).isOk = true
  done : t.stopped = true → t.held = none ∧
    (t.position = n ∨ k < t.position ∧ (outcome (t.position - 1)).isOk = false)

theorem Ahead.held_last (h : Ahead outcome n k t) (hh : t.held = some r) :
    k < t.position ∧ r = outcome (t.position - 1) := by
  have hw := h.waiting
  rw [hh] at hw
  have hr := h.reached
  have hlen := congrArg List.length hw
  simp only [Option.toList_some, List.length_append, List.length_singleton, List.length_map,
    List.length_range'] at hlen
  have hlast := congrArg List.getLast? hw
  refine ⟨by omega, ?_⟩
  obtain ⟨d, hd⟩ : ∃ d, t.position - k = d + 1 := ⟨t.position - k - 1, by omega⟩
  rw [hd, List.range'_concat] at hlast
  simp only [Option.toList_some, List.getLast?_append, List.getLast?_singleton, List.map_append,
    List.map_cons, List.map_nil, Option.some_or, Option.some.injEq] at hlast
  rw [hlast]
  congr 1
  omega

theorem Ahead.work (h : Ahead outcome n k t) : Ahead outcome n k (t.work outcome) := by
  have hr := h.reached
  unfold ReadAheadTask.work
  cases hh : t.held with
  | some result =>
    obtain ⟨hlt, rfl⟩ := h.held_last hh
    dsimp only
    split
    · have hw := h.waiting
      rw [hh] at hw
      refine ⟨h.size, hr, h.read, by simpa using hw, h.fine, ?_, ?_⟩
      · intro hs _ i hi hip
        have hip : i < t.position := hip
        by_cases he : i + 1 < t.position
        · exact h.fine i hi he
        · obtain rfl : i = t.position - 1 := by omega
          simpa using hs
      · intro hs
        exact ⟨rfl, .inr ⟨hlt, by simpa using hs⟩⟩
    · exact h
  | none =>
    dsimp only
    split
    · rename_i hstop
      have hw := h.waiting
      rw [hh] at hw
      refine ⟨h.size, hr, h.read, hw, h.fine, ?_, ?_⟩
      · intro hs
        cases hs
      intro _
      refine ⟨rfl, ?_⟩
      rw [Bool.or_eq_true, decide_eq_true_eq] at hstop
      rcases hstop with hs | hle
      · exact (h.done hs).2
      · have hread := h.read
        have hsize := h.size
        have hend : t.position = n := by omega
        exact .inl hend
    · rename_i hgo
      rw [Bool.or_eq_true, decide_eq_true_eq, not_or, Bool.not_eq_true] at hgo
      have hall := h.going hgo.1 hh
      have hsize := h.size
      have hw := h.waiting
      rw [hh, Option.toList_none, List.append_nil] at hw
      refine ⟨h.size, by dsimp only; omega, by dsimp only; omega, ?_, ?_, ?_, ?_⟩
      · dsimp only
        have hd : t.position + 1 - k = t.position - k + 1 := by omega
        have hpos : k + 1 * (t.position - k) = t.position := by omega
        rw [hd, List.range'_concat, List.map_append, ← hw, hpos]
        rfl
      · intro i hi hip
        exact hall i hi (by dsimp only at hip; omega)
      · intro _ hn
        cases hn
      · intro hs
        rw [hgo.1] at hs
        cases hs

theorem Ahead.work_iterate (h : Ahead outcome n k t) (steps : Nat) :
    Ahead outcome n k ((ReadAheadTask.work outcome)^[steps] t) := by
  induction steps generalizing t with
  | zero => exact h
  | succ steps ih => exact ih h.work

theorem recv_follows (t : ReadAheadTask) (h : Ahead outcome n k t) :
    (t.recv outcome).1 = (outcomes outcome n)[k]? ∧
      ∀ a, (outcomes outcome n)[k]? = some (.ok a) → Ahead outcome n (k + 1) (t.recv outcome).2 := by
  fun_induction recv outcome t with
  | case1 t r queue hq =>
    have hr := h.reached
    have hn := h.read
    have hw := h.waiting
    rw [hq, List.cons_append] at hw
    obtain ⟨d, hd⟩ : ∃ d, t.position - k = d + 1 := by
      refine ⟨t.position - k - 1, ?_⟩
      have hlen := congrArg List.length hw
      simp only [List.length_cons, List.length_map, List.length_range'] at hlen
      omega
    rw [hd, List.range'_succ, List.map_cons] at hw
    obtain ⟨rfl, htail⟩ := List.cons.inj hw
    rw [outcomes_getElem?, if_pos (by omega)]
    refine ⟨rfl, ?_⟩
    intro a ha
    have hok : (outcome k).isOk = true := by
      rw [Option.some.inj ha]
      rfl
    refine ⟨h.size, by dsimp only; omega, hn, ?_, ?_, ?_, ?_⟩
    · dsimp only
      rw [htail]
      congr 2
      omega
    · exact fun i hi => h.fine i (by omega)
    · exact fun hs hh i hi => h.going hs hh i (by omega)
    · intro hs
      obtain ⟨hh, hend⟩ := h.done hs
      refine ⟨hh, hend.imp_right ?_⟩
      rintro ⟨hlt, herr⟩
      refine ⟨?_, herr⟩
      by_contra hle
      have hlast : t.position - 1 = k := by dsimp only at hle; omega
      rw [hlast, hok] at herr
      cases herr
  | case2 t hq hs =>
    obtain ⟨hh, hend⟩ := h.done hs
    have hw := congrArg List.length h.waiting
    rw [hq, hh] at hw
    simp only [Option.toList_none, List.append_nil, List.length_nil, List.length_map,
      List.length_range'] at hw
    have hr := h.reached
    have hk : k = n := by omega
    rw [outcomes_getElem?, if_neg (by omega)]
    exact ⟨rfl, nofun⟩
  | case3 t hq hs ih => exact ih h.work

end ReadAheadTask

namespace SequentialReadAhead

def At (outcome : Nat → ReadOutcome) (n k : Nat) (w : SequentialReadAhead) : Prop :=
  match w.receiver with
  | some t => t.Ahead outcome n k
  | none => w.spans.length = n ∧ w.nextToRead = k

theorem At.new (outcome : Nat → ReadOutcome) (spans : List ReadSpan) (maxWindow : Nat) :
    At outcome spans.length 0 (new spans maxWindow) := by
  unfold SequentialReadAhead.new
  split
  · exact ⟨rfl, rfl⟩
  · refine ⟨rfl, Nat.le_refl _, Nat.zero_le _, rfl, ?_, ?_, ?_⟩
    · intro i _ hi
      cases hi
    · intro _ _ i _ hi
      cases hi
    · intro hs
      cases hs

theorem next_follows (outcome : Nat → ReadOutcome) (ahead : ReadAheadTask → Nat) (n : Nat) :
    Follows (next outcome ahead) (outcomes outcome n) (At outcome n) := by
  intro k w h
  unfold At at h
  unfold next
  split at h
  · rename_i t ht
    exact ReadAheadTask.recv_follows _ (h.work_iterate (ahead t))
  · rename_i ht
    obtain ⟨rfl, rfl⟩ := h
    rw [outcomes_getElem?]
    split
    · rename_i hg
      rw [if_neg (by simpa using List.getElem?_eq_none_iff.1 hg)]
      exact ⟨rfl, nofun⟩
    · rename_i span hg
      rw [if_pos (List.getElem?_eq_some_iff.1 hg).1]
      refine ⟨rfl, fun a _ => ?_⟩
      unfold At
      simp only [ht]
      exact ⟨trivial, trivial⟩

end SequentialReadAhead

namespace ReadPipeline
variable {σ : Type} {maxWindow : Nat}

def TailAt (outcome : Nat → ReadOutcome) (n k : Nat) : ReadPipelineTail σ → Prop
  | .adaptive window => window.Ordered outcome n k
  | .sequential window => window.At outcome n k

def At (outcome : Nat → ReadOutcome) (spans : List ReadSpan) : Nat → ReadPipeline σ → Prop
  | 0, p => p.spans = spans ∧ p.first = spans.head? ∧ p.remaining = none
  | k + 1, p => p.first = none ∧ ∃ tail, p.remaining = some tail ∧
    TailAt (fun i => outcome (i + 1)) (spans.length - 1) k tail

theorem outcomes_succ (outcome : Nat → ReadOutcome) (n k : Nat) :
    (outcomes outcome n)[k + 1]? = (outcomes (fun i => outcome (i + 1)) (n - 1))[k]? := by
  rw [outcomes_getElem?, outcomes_getElem?]
  by_cases h : k + 1 < n
  · rw [if_pos h, if_pos (by omega)]
  · rw [if_neg h, if_neg (by omega)]

theorem next_follows (rule : WindowRule σ maxWindow) (run : ReadSchedule σ)
    (outcome : Nat → ReadOutcome) (spans : List ReadSpan) :
    Follows (next rule run outcome) (outcomes outcome spans.length) (At outcome spans) := by
  intro k p h
  unfold next
  cases k with
  | zero =>
    obtain ⟨rfl, hf, hr⟩ := h
    rw [outcomes_getElem?]
    cases hs : p.spans with
    | nil =>
      rw [hs] at hf
      rw [hf, hr]
      exact ⟨rfl, nofun⟩
    | cons span spans =>
      rw [hs] at hf
      rw [hf]
      refine ⟨rfl, fun a ha => ⟨rfl, ?_⟩⟩
      have hok : (outcome 0).isOk = true := by
        rw [if_pos (List.length_pos_of_ne_nil (List.cons_ne_nil _ _))] at ha
        rw [Option.some.inj ha]
        rfl
      simp only [hok, if_true]
      refine ⟨_, rfl, ?_⟩
      split
      · exact SequentialReadAhead.At.new _ _ _
      · exact AdaptiveReadWindow.Ordered.new _ _
  | succ k =>
    obtain ⟨hf, tail, hr, ht⟩ := h
    rw [hf, hr, outcomes_succ]
    cases tail with
    | adaptive window =>
      obtain ⟨hi, hn⟩ := AdaptiveReadWindow.next_follows rule _ run.pick _ k window ht
      exact ⟨hi, fun a ha => ⟨rfl, _, rfl, hn a ha⟩⟩
    | sequential window =>
      obtain ⟨hi, hn⟩ := SequentialReadAhead.next_follows _ run.ahead _ k window ht
      exact ⟨hi, fun a ha => ⟨rfl, _, rfl, hn a ha⟩⟩

end ReadPipeline

/-- Whatever the window and the order of the reads, the pipeline gives the spans in turn up to the
first error, with no more than the maximum of spans fetched or in flight. -/
theorem prefetch_transparent (hm : 1 ≤ maxWindow) (rule : WindowRule σ maxWindow)
    (run : ReadSchedule σ) (outcome : Nat → ReadOutcome) (spans : List ReadSpan) :
    (∀ mode n, drain (ReadPipeline.next rule run outcome) n (ReadPipeline.new spans mode) =
      (readInTurn outcome 0 spans).take n) ∧
    ∀ w, AdaptiveReadWindow.Reached rule outcome (.new rule spans) w →
      w.outstanding ≤ maxWindow := by
  constructor
  · intro mode n
    have hat : ReadPipeline.At outcome spans 0 (ReadPipeline.new spans mode : ReadPipeline σ) :=
      ⟨rfl, rfl, rfl⟩
    rw [(ReadPipeline.next_follows rule run outcome spans).drain hat, List.drop_zero, readInTurn_eq]
    simp only [Nat.zero_add]
  · intro w hw
    have hb := hw.bounded
    omega

def wholeArithmetic : ThroughputArithmetic Nat where
  ratio bytes us := bytes / us
  slower current baseline := 10 * current < 7 * baseline
  blend previous current := (8 * previous + 2 * current) / 10

def laterFirst : ReadSchedule (ReadWindow Nat 2) where
  pick w := w.pending.length - 1
  ahead _ := 2

def sampleOutcome (i : Nat) : ReadOutcome :=
  if i < 2 then
    .ok { result := { accountId := "1", chunkOrder := i, length := 0, bytes := [] }
          telegramBytes := 1, telegramRetries := 0, telegramUs := 1 }
  else .error { kind := .other, message := "closed" }

def sampleSpans : List ReadSpan :=
  [0, 1, 2, 3].map fun order => { order, offsetWithinChunk := 0, length := 0, checksum := "" }

/-- Three of four spans are given, the last of them with its error. -/
theorem sample_spans_in_turn :
    1 ≤ 2 ∧ drain (ReadPipeline.next (ReadWindow.rule wholeArithmetic 2) laterFirst sampleOutcome) 5
      (ReadPipeline.new sampleSpans "adaptive") = [0, 1, 2].map sampleOutcome := by
  refine ⟨by decide, ?_⟩
  exact (prefetch_transparent (by decide) (ReadWindow.rule wholeArithmetic 2) laterFirst
    sampleOutcome sampleSpans).1 "adaptive" 5

end TelegramS3
