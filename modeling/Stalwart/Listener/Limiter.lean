import Mathlib.Data.List.Basic

/-!
# The concurrency limiter (`common::listener::limiter`)

A `ConcurrencyLimiter` holds a limit and an atomic counter, shared by every thread that checks
it. `is_allowed` makes two atomic operations: a `load` compared with the limit, then a
`fetch_add` when the count was below it. The second one hands the thread an `InFlight` guard,
whose drop is a `fetch_sub`. The listeners and the access token's limits on HTTP, IMAP and
upload requests all call `is_allowed`.

Here a run is a list of events, one per atomic operation of a thread. Any interleaving of the
threads' operations is such a list.

## What is proved

* In every run the counter equals the number of guards the threads hold
  (`run_concurrent_eq_holders`).
* When no thread loads the counter while another is between its load and its increment, the
  guards never exceed the limit (`run_holders_le_of_atomic`).
* The check and the increment are two operations, so two threads can both read a count below
  the limit and both take a guard. With a limit of one, two guards are live and the counter is
  two (`limiter_admits_two_over_one`).
-/

set_option autoImplicit false

namespace Stalwart.Listener

/-- `LimiterResult`. -/
inductive LimiterResult where
  | allowed
  | forbidden
  | disabled
  deriving DecidableEq, Repr

/-- Where a thread stands with the limiter: before its check, after a `load` that read a count
below the limit, or holding a guard. A thread refused goes back to where it was. -/
inductive Phase where
  | idle
  | passed
  | holding
  deriving DecidableEq, Repr

/-- The limiter and the threads that share it. -/
structure System where
  maxConcurrent : Nat
  concurrent : Nat
  phases : List Phase
  deriving DecidableEq, Repr

/-- An atomic operation of thread `i`. -/
inductive Event where
  /-- The `load` of `is_allowed`, and its comparison with the limit. -/
  | load (i : Nat)
  /-- The `fetch_add` of `is_allowed`, which creates the guard. -/
  | fetchAdd (i : Nat)
  /-- `InFlight::drop`. -/
  | drop (i : Nat)
  deriving DecidableEq, Repr

/-- A `load`. -/
def Event.isLoad : Event → Bool
  | .load _ => true
  | _ => false

namespace System

/-- `ConcurrencyLimiter::new`, shared by `threads` threads that have not called it yet. -/
def new (maxConcurrent threads : Nat) : System :=
  ⟨maxConcurrent, 0, List.replicate threads .idle⟩

/-- Thread `i` moves to `phase`. -/
def setPhase (s : System) (i : Nat) (phase : Phase) : System :=
  { s with phases := s.phases.set i phase }

/-- One atomic operation. An operation of a thread that is not at that point of its code, or of
no thread, changes nothing. -/
def step (s : System) : Event → System
  | .load i =>
    if s.phases[i]? = some .idle ∧ s.concurrent < s.maxConcurrent then s.setPhase i .passed
    else s
  | .fetchAdd i =>
    if s.phases[i]? = some .passed then
      { s.setPhase i .holding with concurrent := s.concurrent + 1 }
    else s
  | .drop i =>
    if s.phases[i]? = some .holding then
      { s.setPhase i .idle with concurrent := s.concurrent - 1 }
    else s

/-- A run of operations, in the order they happen. -/
def run (s : System) (events : List Event) : System :=
  events.foldl step s

theorem step_maxConcurrent (s : System) (e : Event) :
    (s.step e).maxConcurrent = s.maxConcurrent := by
  cases e <;> simp only [step] <;> split_ifs <;> rfl

theorem run_maxConcurrent : ∀ (s : System) (events : List Event),
    (run s events).maxConcurrent = s.maxConcurrent
  | _, [] => rfl
  | s, e :: events => (run_maxConcurrent (s.step e) events).trans (step_maxConcurrent s e)

/-- The number of threads in `phase`. -/
def count (s : System) (phase : Phase) : Nat :=
  s.phases.count phase

/-- The live guards. -/
def holders (s : System) : Nat :=
  s.count .holding

/-! ## The counter counts the guards -/

/-- Setting thread `i` from `old` to `new` moves one thread between the two counts. -/
theorem count_set_add {phases : List Phase} {i : Nat} {old : Phase} (h : phases[i]? = some old)
    (new phase : Phase) :
    (phases.set i new).count phase + (if old = phase then 1 else 0) =
      phases.count phase + (if new = phase then 1 else 0) := by
  induction phases generalizing i with
  | nil => simp at h
  | cons p ps ih =>
    cases i with
    | zero =>
      obtain rfl : p = old := by simpa using h
      simp only [List.set_cons_zero, List.count_cons, beq_iff_eq]
      split_ifs <;> omega
    | succ i =>
      simp only [List.getElem?_cons_succ] at h
      simp only [List.set_cons_succ, List.count_cons]
      have := ih h
      omega

theorem holders_setPhase {s : System} {i : Nat} {old : Phase} (h : s.phases[i]? = some old)
    (new : Phase) :
    (s.setPhase i new).holders + (if old = .holding then 1 else 0) =
      s.holders + (if new = .holding then 1 else 0) :=
  count_set_add h new .holding

theorem step_concurrent_eq_holders (s : System) (e : Event) (hs : s.concurrent = s.holders) :
    (s.step e).concurrent = (s.step e).holders := by
  cases e with
  | load i =>
    simp only [step]
    split_ifs with h
    · -- a passed check takes no guard yet
      have hset := holders_setPhase h.1 .passed
      simp only [reduceCtorEq, if_false, Nat.add_zero] at hset
      show s.concurrent = (s.setPhase i .passed).holders
      omega
    · exact hs
  | fetchAdd i =>
    simp only [step]
    split_ifs with h
    · have hset := holders_setPhase h .holding
      simp only [reduceCtorEq, if_false, if_true, Nat.add_zero] at hset
      show s.concurrent + 1 = (s.setPhase i .holding).holders
      omega
    · exact hs
  | drop i =>
    simp only [step]
    split_ifs with h
    · have hset := holders_setPhase h .idle
      simp only [reduceCtorEq, if_false, if_true, Nat.add_zero] at hset
      show s.concurrent - 1 = (s.setPhase i .idle).holders
      omega
    · exact hs

/-- **The counter is the number of live guards**, in every interleaving. -/
theorem run_concurrent_eq_holders (maxConcurrent threads : Nat) (events : List Event) :
    (run (new maxConcurrent threads) events).concurrent =
      (run (new maxConcurrent threads) events).holders := by
  suffices hrun : ∀ s : System, s.concurrent = s.holders →
      (run s events).concurrent = (run s events).holders from
    hrun _ (by simp [new, holders, count, List.count_replicate])
  induction events with
  | nil => exact fun _ hs => hs
  | cons e events ih => exact fun s hs => ih _ (step_concurrent_eq_holders s e hs)

/-! ## Atomic checks keep the limit -/

/-- A run in which no thread loads the counter while another is between its load and its
increment: every `is_allowed` happens as one atomic operation. -/
def atomic (s : System) : List Event → Bool
  | [] => true
  | e :: events => (e.isLoad → s.count .passed = 0) && atomic (s.step e) events

/-- The invariant of a run with atomic checks: the counter counts the guards, and the guards and
the checks under way stay within the limit. -/
structure Bounded (s : System) : Prop where
  concurrent_eq : s.concurrent = s.holders
  within : s.holders + s.count .passed ≤ s.maxConcurrent

theorem passed_setPhase {s : System} {i : Nat} {old : Phase} (h : s.phases[i]? = some old)
    (new : Phase) :
    (s.setPhase i new).count .passed + (if old = .passed then 1 else 0) =
      s.count .passed + (if new = .passed then 1 else 0) :=
  count_set_add h new .passed

theorem Bounded.step {s : System} {e : Event} (hs : s.Bounded)
    (hatomic : e.isLoad → s.count .passed = 0) : (s.step e).Bounded := by
  obtain ⟨heq, hwithin⟩ := hs
  refine ⟨step_concurrent_eq_holders s e heq, ?_⟩
  cases e with
  | load i =>
    simp only [System.step]
    split_ifs with h
    · -- the check passes on a count below the limit, with no other check under way
      have hnone := hatomic rfl
      have hheld := holders_setPhase h.1 .passed
      have hpassed := passed_setPhase h.1 .passed
      simp only [reduceCtorEq, if_false, if_true, Nat.add_zero] at hheld hpassed
      show (s.setPhase i .passed).holders + (s.setPhase i .passed).count .passed ≤ s.maxConcurrent
      omega
    · exact hwithin
  | fetchAdd i =>
    simp only [System.step]
    split_ifs with h
    · have hheld := holders_setPhase h .holding
      have hpassed := passed_setPhase h .holding
      simp only [reduceCtorEq, if_false, if_true, Nat.add_zero] at hheld hpassed
      show (s.setPhase i .holding).holders + (s.setPhase i .holding).count .passed ≤
        s.maxConcurrent
      omega
    · exact hwithin
  | drop i =>
    simp only [System.step]
    split_ifs with h
    · have hheld := holders_setPhase h .idle
      have hpassed := passed_setPhase h .idle
      simp only [reduceCtorEq, if_false, if_true, Nat.add_zero] at hheld hpassed
      show (s.setPhase i .idle).holders + (s.setPhase i .idle).count .passed ≤ s.maxConcurrent
      omega
    · exact hwithin

theorem run_bounded : ∀ (s : System) (events : List Event), s.Bounded → atomic s events →
    (run s events).Bounded
  | _, [], hs, _ => hs
  | s, e :: events, hs, hatomic => by
    simp only [atomic, Bool.and_eq_true, decide_eq_true_eq] at hatomic
    exact run_bounded _ events (hs.step hatomic.1) hatomic.2

theorem bounded_new (maxConcurrent threads : Nat) : (new maxConcurrent threads).Bounded :=
  ⟨by simp [new, holders, count, List.count_replicate],
    by simp [new, holders, count, List.count_replicate]⟩

/-- **With atomic checks, the live guards never exceed the limit.** -/
theorem run_holders_le_of_atomic (maxConcurrent threads : Nat) (events : List Event)
    (hatomic : atomic (new maxConcurrent threads) events) :
    (run (new maxConcurrent threads) events).holders ≤ maxConcurrent := by
  have hbound := (run_bounded _ events (bounded_new maxConcurrent threads) hatomic).within
  have hmax : (run (new maxConcurrent threads) events).maxConcurrent = maxConcurrent :=
    run_maxConcurrent _ events
  omega

/-- One thread takes the one guard, drops it, and takes it again, while a second thread's check
comes after the first thread's increment and fails. -/
theorem run_holders_le_of_atomic_retake :
    atomic (new 1 2) [.load 0, .fetchAdd 0, .load 1, .drop 0, .load 0, .fetchAdd 0] ∧
      (run (new 1 2) [.load 0, .fetchAdd 0, .load 1, .drop 0, .load 0, .fetchAdd 0]).holders ≤ 1 :=
  ⟨by decide, run_holders_le_of_atomic 1 2 _ (by decide)⟩

end System

theorem limiter_admits_two_over_one :
    ((System.new 1 2).run [.load 0, .load 1, .fetchAdd 0, .fetchAdd 1]).holders = 2 ∧
      ((System.new 1 2).run [.load 0, .load 1, .fetchAdd 0, .fetchAdd 1]).concurrent = 2 := by
  decide

end Stalwart.Listener
