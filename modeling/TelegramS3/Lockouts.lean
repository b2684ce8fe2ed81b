import Mathlib.Algebra.Order.Ring.Int
import TelegramS3.Run

namespace TelegramS3
open Transition
set_option autoImplicit true

inductive AuthErrorKind where
  | invalidUsername | invalidDisplayName | weakPassword | unknownUser | invalidPassword | disabled
  | lockedOut | rateLimited | usernameTaken | notAllowed | internal
  deriving DecidableEq

structure AuthError where
  kind : AuthErrorKind
  message : String
  retryAfterSecs : Option Nat := none
  deriving DecidableEq

/-- A monotonic instant, in nanoseconds. -/
abbrev Instant := Nat

def seconds (n : Nat) : Instant := n * 10 ^ 9

def limiterWindow : Instant := seconds 300
def maxFailsInWindow : Nat := 8
def lockStepCeilingSecs : Nat := 900

/-- The bucket of a key; the counters have 32 bits. -/
structure LoginBucket where
  windowStarted : Instant
  fails : Nat := 0
  lockStep : Nat := 0
  lockedUntil : Option Instant := none

abbrev LoginLimiter := String → Option LoginBucket

def LoginLimiter.lockForStep (step : Nat) : Instant :=
  seconds (min (min (30 * 2 ^ min step 10) (2 ^ 64 - 1)) lockStepCeilingSecs)

namespace LoginBucket

def roll (b : LoginBucket) (now : Instant) : LoginBucket :=
  if limiterWindow ≤ now - b.windowStarted then { windowStarted := now } else b

/-- One more failure; enough of them lock the key when it is not locked. -/
def count (b : LoginBucket) (now : Instant) : LoginBucket :=
  let b := { b with fails := (b.fails + 1) % 2 ^ 32 }
  if maxFailsInWindow ≤ b.fails ∧ b.lockedUntil.all (· ≤ now) then
    { b with
      lockedUntil := some (now + LoginLimiter.lockForStep b.lockStep)
      lockStep := (b.lockStep + 1) % 2 ^ 32 }
  else b

def remaining (b : LoginBucket) (now : Instant) : Option Nat :=
  match b.lockedUntil with
  | some lockedUntil =>
    if now < lockedUntil then some (max ((lockedUntil - now) / 10 ^ 9) 1) else none
  | none =>
    if now - b.windowStarted < limiterWindow ∧ maxFailsInWindow ≤ b.fails then some 300 else none

end LoginBucket

namespace LoginLimiter
variable (l : LoginLimiter)

def recordKey (key : String) (now : Instant) : LoginLimiter :=
  fun k => if k = key then some ((((l key).getD { windowStarted := now }).roll now).count now) else l k

/-- `record_failure`; the clock is read once for every key. -/
def recordFailure (stamps : List (String × Instant)) : LoginLimiter :=
  stamps.foldl (fun l stamp => l.recordKey stamp.1 stamp.2) l

def reset (keys : List String) : LoginLimiter :=
  fun k => if k ∈ keys then none else l k

def blocked (now : Instant) (acc : Option Nat) (key : String) : Option Nat :=
  match (l key).bind fun b => b.remaining now with
  | none => acc
  | some remaining => some (acc.elim remaining (max · remaining))

def check (keys : List String) (now : Instant) : Option AuthError :=
  (keys.foldl (l.blocked now) none).map fun retryAfter =>
    { kind := .rateLimited, message := "too many login attempts, try again shortly"
      retryAfterSecs := some retryAfter }

end LoginLimiter

structure LimiterWorld where
  limiter : LoginLimiter
  clock : Instant

inductive LimiterAction where
  | check (keys : List String) (now : Instant)
  | recordFailure (stamps : List (String × Instant))
  | reset (keys : List String)

def readClock (clock : Instant) : List Instant → Option Instant
  | [] => some clock
  | now :: rest => if clock ≤ now then readClock now rest else none

def LimiterAction.apply (a : LimiterAction) (w : LimiterWorld) : Option LimiterWorld :=
  match a with
  | .check _ now => (readClock w.clock [now]).map fun clock => { w with clock }
  | .recordFailure stamps => (readClock w.clock (stamps.map Prod.snd)).map fun clock =>
      { limiter := w.limiter.recordFailure stamps, clock }
  | .reset keys => some { w with limiter := w.limiter.reset keys }

def LimiterAction.resets (a : LimiterAction) (key : String) : Bool :=
  match a with
  | .reset keys => keys.contains key
  | _ => false

def LimiterStep (a : LimiterAction) (w w' : LimiterWorld) : Prop := a.apply w = some w'

def LimiterWorld.Initial (w : LimiterWorld) : Prop := w.limiter = fun _ => none

def LoginLimiter.LockedUntil (l : LoginLimiter) (key : String) (deadline : Instant) : Prop :=
  ∃ b, l key = some b ∧ b.lockedUntil = some deadline

def LimiterWorld.Locked (w : LimiterWorld) (key : String) (deadline : Instant) : Prop :=
  w.clock < deadline ∧ w.limiter.LockedUntil key deadline

/-- A key that is locked is refused until the lock ends, unless it is reset. -/
def LockoutsKept (Step : LimiterAction → LimiterWorld → LimiterWorld → Prop) : Prop :=
  ∀ past w, Run LimiterWorld.Initial Step past w → ∀ key lockedUntil, w.Locked key lockedUntil →
    ∀ later w', Run (fun v => v = w) (Guarded Step fun a _ => a.resets key = false) later w' →
      ∀ now, w'.clock ≤ now → now < lockedUntil → ∀ keys, key ∈ keys →
        (w'.limiter.check keys now).isSome = true

/-- No failure of a locked key comes when its window is over. -/
def KeepsLocks : LoginLimiter → List (String × Instant) → Prop
  | _, [] => True
  | l, (key, now) :: rest =>
    (∀ b lockedUntil, l key = some b → b.lockedUntil = some lockedUntil → now < lockedUntil →
      now - b.windowStarted < limiterWindow) ∧ KeepsLocks (l.recordKey key now) rest

def FailsInWindow (a : LimiterAction) (w : LimiterWorld) : Prop :=
  match a with
  | .recordFailure stamps => KeepsLocks w.limiter stamps
  | _ => True

namespace LoginBucket
variable {now deadline : Instant}

theorem count_locked {b : LoginBucket} (hb : b.lockedUntil = some deadline)
    (hl : now < deadline) : (b.count now).lockedUntil = some deadline := by
  unfold count
  dsimp only
  rw [if_neg, hb]
  rintro ⟨-, hall⟩
  rw [hb, Option.all_some, decide_eq_true_eq] at hall
  exact Nat.not_lt.2 hall hl

theorem remaining_locked {b : LoginBucket} (hb : b.lockedUntil = some deadline)
    (hl : now < deadline) : (b.remaining now).isSome = true := by
  simp only [remaining, hb, if_pos hl]
  rfl

end LoginBucket

namespace LoginLimiter
variable {l : LoginLimiter} {key : String} {now deadline : Instant}

theorem LockedUntil.record (h : l.LockedUntil key deadline)
    (hl : now < deadline) (hw : ∀ b, k = key → l key = some b →
      now - b.windowStarted < limiterWindow) : (l.recordKey k now).LockedUntil key deadline := by
  obtain ⟨b, hb, hu⟩ := h
  by_cases hk : key = k
  · subst hk
    have hin := hw b rfl hb
    refine ⟨_, if_pos rfl, ?_⟩
    rw [hb, Option.getD_some, LoginBucket.roll, if_neg (Nat.not_le.2 hin)]
    exact LoginBucket.count_locked hu hl
  · exact ⟨b, (if_neg hk).trans hb, hu⟩

theorem LockedUntil.reset (h : l.LockedUntil key deadline) (hk : key ∉ keys) :
    (l.reset keys).LockedUntil key deadline := by
  obtain ⟨b, hb, hu⟩ := h
  exact ⟨b, (if_neg hk).trans hb, hu⟩

theorem blocked_isSome (h : acc.isSome = true) : (l.blocked now acc key).isSome = true := by
  unfold blocked
  split
  · exact h
  · rfl

theorem blocked_fold_isSome (keys : List String) (h : acc.isSome = true) :
    (keys.foldl (l.blocked now) acc).isSome = true := by
  induction keys generalizing acc with
  | nil => exact h
  | cons k keys ih => exact ih (blocked_isSome h)

theorem LockedUntil.check (h : l.LockedUntil key deadline)
    (hl : now < deadline) (hk : key ∈ keys) : (l.check keys now).isSome = true := by
  obtain ⟨b, hb, hu⟩ := h
  obtain ⟨before, after, rfl⟩ := List.append_of_mem hk
  rw [LoginLimiter.check, Option.isSome_map, List.foldl_append, List.foldl_cons]
  apply blocked_fold_isSome
  have hr := LoginBucket.remaining_locked hu hl
  unfold blocked
  rw [hb, Option.bind_some]
  split
  · rename_i hn
    rw [hn] at hr
    cases hr
  · rfl

end LoginLimiter

theorem readClock_le (h : readClock clock times = some clock') : clock ≤ clock' := by
  induction times generalizing clock with
  | nil =>
    cases h
    exact Nat.le_refl _
  | cons now rest ih =>
    simp only [readClock, Option.ite_none_right_eq_some] at h
    exact Nat.le_trans h.1 (ih h.2)

theorem LoginLimiter.LockedUntil.recordFailure {l : LoginLimiter} (h : l.LockedUntil key deadline)
    (hc : readClock clock (stamps.map Prod.snd) = some clock') (hl : clock' < deadline)
    (hw : KeepsLocks l stamps) : (l.recordFailure stamps).LockedUntil key deadline := by
  induction stamps generalizing l clock with
  | nil => exact h
  | cons stamp rest ih =>
    obtain ⟨k, now⟩ := stamp
    simp only [List.map_cons, readClock, Option.ite_none_right_eq_some] at hc
    obtain ⟨hin, hw⟩ := hw
    have hnow : now < deadline := Nat.lt_of_le_of_lt (readClock_le hc.2) hl
    apply ih _ hc.2 hw
    apply h.record hnow
    rintro b rfl hb
    obtain ⟨b', hb', hu⟩ := h
    rw [hb] at hb'
    cases hb'
    exact hin b deadline hb hu hnow

theorem LimiterWorld.Locked.step (h : w.clock < deadline → w.limiter.LockedUntil key deadline)
    (hs : LimiterStep a w w') (hr : a.resets key = false) (hf : FailsInWindow a w) :
    w'.clock < deadline → w'.limiter.LockedUntil key deadline := by
  cases a with
  | check keys now =>
    obtain ⟨clock, hc, rfl⟩ := Option.map_eq_some_iff.1 hs
    exact fun hl => h (Nat.lt_of_le_of_lt (readClock_le hc) hl)
  | recordFailure stamps =>
    obtain ⟨clock, hc, rfl⟩ := Option.map_eq_some_iff.1 hs
    exact fun hl => (h (Nat.lt_of_le_of_lt (readClock_le hc) hl)).recordFailure hc hl hf
  | reset keys =>
    cases hs
    intro hl
    apply (h hl).reset
    simpa [LimiterAction.resets] using hr

/-- Lockouts are kept while no failure of a locked key comes after its window. -/
theorem lockouts_kept {w w' : LimiterWorld} (hw : w.Locked key deadline) (hr : Run (fun v => v = w)
      (Guarded (Guarded LimiterStep FailsInWindow) fun a _ => a.resets key = false) later w')
    (hle : w'.clock ≤ now) (hlt : now < deadline) (hk : key ∈ keys) :
    (w'.limiter.check keys now).isSome = true := by
  have hi : w'.clock < deadline → w'.limiter.LockedUntil key deadline := by
    apply hr.invariant (I := fun v => v.clock < deadline → v.limiter.LockedUntil key deadline)
    · rintro v rfl -
      exact hw.2
    · intro a v v' hv hs
      exact LimiterWorld.Locked.step hv hs.1.1 hs.2 hs.1.2
  exact (hi (Nat.lt_of_le_of_lt hle hlt)).check hlt hk

/-- The bucket after eight failures, the last seven of them 290 seconds after the first. -/
def lockedBucket : LoginBucket :=
  { windowStarted := 0, fails := 8, lockStep := 1, lockedUntil := some (seconds 320) }

def lockedWorld : LimiterWorld where
  limiter key := if key = "user:alice" then some lockedBucket else none
  clock := seconds 290

/-- A ninth failure in the window leaves the key locked. -/
theorem ninth_failure_keeps_lockout :
    ((lockedWorld.limiter.recordFailure [("user:alice", seconds 295)]).check ["user:alice"]
      (seconds 319)).isSome = true := by
  have hw : lockedWorld.Locked "user:alice" (seconds 320) :=
    ⟨by decide, lockedBucket, rfl, rfl⟩
  have hs : LimiterStep (.recordFailure [("user:alice", seconds 295)]) lockedWorld
      { limiter := lockedWorld.limiter.recordFailure [("user:alice", seconds 295)]
        clock := seconds 295 } := rfl
  have hf : FailsInWindow (.recordFailure [("user:alice", seconds 295)]) lockedWorld := by
    refine ⟨?_, trivial⟩
    intro b deadline hb _ _
    cases hb
    decide
  exact lockouts_kept hw (.step (.init rfl) ⟨⟨hs, hf⟩, rfl⟩) (by decide) (by decide)
    List.mem_cons_self

/-- Eight failures in 290 seconds lock the key for 30 seconds. -/
def lockedLogin : List LimiterAction :=
  .recordFailure [("user:alice", seconds 0)] ::
    List.replicate 7 (.recordFailure [("user:alice", seconds 290)])

def lockedLoginRun : List LimiterWorld × LimiterWorld :=
  (exec LimiterAction.apply [] { limiter := fun _ => none, clock := 0 } lockedLogin).get
    (by decide +kernel)

/-- Ten seconds later the window is over and one more failure ends the lock. -/
def unlockedLoginRun : List LimiterWorld × LimiterWorld :=
  (exec LimiterAction.apply [] lockedLoginRun.2
    [.recordFailure [("user:alice", seconds 300)]]).get (by decide +kernel)

theorem late_failure_ends_lockout : ¬ LockoutsKept LimiterStep := by
  intro h
  have hi : LimiterWorld.Initial { limiter := fun _ => none, clock := 0 } := rfl
  have hr : Run LimiterWorld.Initial LimiterStep lockedLoginRun.1 lockedLoginRun.2 :=
    Run.of_exec_isSome hi (by decide +kernel)
  have hs : LimiterStep (.recordFailure [("user:alice", seconds 300)]) lockedLoginRun.2
      unlockedLoginRun.2 := rfl
  have hw : lockedLoginRun.2.Locked "user:alice" (seconds 320) :=
    ⟨by decide +kernel, _, rfl, by decide +kernel⟩
  have hc := h _ _ hr _ _ hw _ _ (.step (.init rfl) ⟨hs, rfl⟩) (seconds 301) (by decide +kernel)
    (by decide +kernel) ["user:alice"] (by simp)
  exact absurd hc (by decide +kernel)

end TelegramS3
