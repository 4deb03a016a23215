import VirtioGpu.Fence.Engine
import VirtioGpu.Machine.Basic
import Mathlib.Data.List.Range
import Mathlib.Order.Interval.Finset.Nat

/-!
# Reporting completed fences, one step at a time

`GpuData::notify_fence` and `GpuData::notify_queued_fences` run on the handler thread and on every
thread that submits work, without a common lock: a fence that is next in line is reported outside
the `pending_fences` lock, and `notify_queued_fences` reads `last_completed_fence` before it takes
the lock.

`Notify.machine` runs any set of threads `τ` through these two functions on one engine.  A step is
one atomic load, store or swap, one acquire or release of the lock, one operation on the set under
the lock, or one interrupt.  `Pc` names the step a thread takes next together with the local
variables it still needs.  Other parts of the driver may advance `last_submitted_fence` or post a
preemption request at any time.

The fences that remain to be notified are part of the state (`todo`): a call `notify_fence(f)`
takes `f` out of it, so every fence is notified at most once.

`EngineState.notifyFence` is a whole call with no other thread about.
-/

namespace VirtioGpu

namespace Notify

/-- The next step of a thread.  `nf` steps belong to `notify_fence`, `nq` steps to
`notify_queued_fences`. -/
inductive Pc where
  | idle
  /-- Load `last_completed_fence` and compare. -/
  | nfLoad (fence : ℕ)
  /-- `notify_cb(engine, fence)`. -/
  | nfNotify (fence : ℕ)
  /-- `complete`: store `last_completed_fence`. -/
  | nfStore (fence : ℕ)
  /-- `complete`: store `last_completed_timestamp`. -/
  | nfStamp
  /-- Acquire `pending_fences`. -/
  | nfLock (fence : ℕ)
  /-- `insert(fence)`. -/
  | nfInsert (fence : ℕ)
  /-- Release `pending_fences`. -/
  | nfUnlock
  /-- Load `last_completed_fence`. -/
  | nqLoad
  /-- Acquire `pending_fences`. -/
  | nqLock (lastCompleted : ℕ)
  /-- `pending.first()`, and decide. -/
  | nqFirst (lastCompleted : ℕ)
  /-- `pending.pop_first()`. -/
  | nqPop (nextFence : ℕ)
  /-- Report `DmaCompleted(engine, next_fence)`. -/
  | nqNotify (nextFence : ℕ)
  /-- `complete`: store `last_completed_fence`. -/
  | nqStore (nextFence : ℕ)
  /-- `complete`: store `last_completed_timestamp`; the local copy becomes `next_fence`. -/
  | nqStamp (nextFence : ℕ)
  /-- Load `last_submitted_fence` and compare. -/
  | nqSubmitted (lastCompleted : ℕ)
  /-- `last_preemption_fence.swap(0)`. -/
  | nqSwap (lastCompleted : ℕ)
  /-- Report `DmaPreempted`. -/
  | nqPreempted (preemptionFence lastCompleted : ℕ)
  /-- Release `pending_fences` and return. -/
  | nqUnlock
  deriving DecidableEq

/-- The engine, the lock, the threads, and the run's bookkeeping. -/
structure State (τ : Type*) where
  engine : EngineState
  /-- The holder of the `pending_fences` lock. -/
  lock : Option τ
  pc : τ → Pc
  /-- The fences `notify_fence` has not been called for. -/
  todo : Finset ℕ
  /-- The interrupts reported, oldest first. -/
  reports : List Interrupt

/-- `panic!("missed fence: next_fence (last completed last_completed)")`. -/
inductive Panic where
  | missedFence (nextFence lastCompleted : ℕ)

inductive Act (τ : Type*) where
  /-- `t` calls `notify_dma_completed(engine, fence)`. -/
  | notifyFence (t : τ) (fence : ℕ)
  /-- `t` calls `notify_queued_fences(engine)`. -/
  | notifyQueuedFences (t : τ)
  /-- `t` takes its next step; the performance counter stands at `now`. -/
  | step (t : τ) (now : ℕ)
  /-- `EngineState::submit`, the store of the fence. -/
  | submit (fence : ℕ)
  /-- `EngineState::submit`, the store of the timestamp. -/
  | submitStamp (now : ℕ)
  | submitPreemption (preemptionFence : ℕ)

variable {τ : Type*} [DecidableEq τ]

variable (s : State τ)

def State.goto (t : τ) (p : Pc) : State τ :=
  { s with pc := Function.update s.pc t p }

/-- The store of `last_completed_fence` in `EngineState::complete`. -/
def State.storeCompleted (fence : ℕ) : State τ :=
  { s with engine := { s.engine with lastCompletedFence := fence } }

/-- The store of `last_completed_timestamp` in `EngineState::complete`. -/
def State.stampCompleted (now : ℕ) : State τ :=
  { s with engine := { s.engine with lastCompletedTimestamp := now } }

/-- A change of the set under the lock. -/
def State.setPending (pending : Finset ℕ) : State τ :=
  { s with engine := { s.engine with pendingFences := pending } }

/-- `notify_interrupt_synchronized`. -/
def State.report (i : Interrupt) : State τ :=
  { s with reports := s.reports ++ [i] }

/-- Acquire the lock and go on at `p`; a thread that finds it taken spins. -/
def State.acquire (t : τ) (p : Pc) : Outcome (State τ) Panic :=
  if s.lock = none then .next ({ s with lock := some t }.goto t p) else .stuck

def State.release : State τ :=
  { s with lock := none }

/-- The next step of thread `t` in `notify_fence` or `notify_queued_fences` of engine `e`. -/
def stepThread (e : Engine) (s : State τ) (t : τ) (now : ℕ) : Outcome (State τ) Panic :=
  match s.pc t with
  | .idle => .stuck
  | .nfLoad fence =>
      if nextFence s.engine.lastCompletedFence = fence then .next (s.goto t (.nfNotify fence))
      else .next (s.goto t (.nfLock fence))
  | .nfNotify fence => .next ((s.report (.dmaCompleted e fence)).goto t (.nfStore fence))
  | .nfStore fence => .next ((s.storeCompleted fence).goto t .nfStamp)
  | .nfStamp => .next ((s.stampCompleted now).goto t .nqLoad)
  | .nfLock fence => s.acquire t (.nfInsert fence)
  | .nfInsert fence =>
      .next ((s.setPending (insert fence s.engine.pendingFences)).goto t .nfUnlock)
  | .nfUnlock => .next (s.release.goto t .nqLoad)
  | .nqLoad => .next (s.goto t (.nqLock s.engine.lastCompletedFence))
  | .nqLock lastCompleted => s.acquire t (.nqFirst lastCompleted)
  | .nqFirst lastCompleted => match first s.engine.pendingFences with
    | none => .next (s.goto t (.nqSubmitted lastCompleted))
    | some next =>
        if nextFence lastCompleted = next then .next (s.goto t (.nqPop next))
        else if nextFence lastCompleted > next then .panic (.missedFence next lastCompleted)
        else .next (s.goto t (.nqSubmitted lastCompleted))
  | .nqPop next => .next ((s.setPending (popFirst s.engine.pendingFences)).goto t (.nqNotify next))
  | .nqNotify next => .next ((s.report (.dmaCompleted e next)).goto t (.nqStore next))
  | .nqStore next => .next ((s.storeCompleted next).goto t (.nqStamp next))
  | .nqStamp next => .next ((s.stampCompleted now).goto t (.nqFirst next))
  | .nqSubmitted lastCompleted =>
      if lastCompleted = s.engine.lastSubmittedFence then .next (s.goto t (.nqSwap lastCompleted))
      else .next (s.goto t .nqUnlock)
  | .nqSwap lastCompleted =>
      let swapped := { s with engine := { s.engine with lastPreemptionFence := 0 } }
      if s.engine.lastPreemptionFence ≠ 0 then
        .next (swapped.goto t (.nqPreempted s.engine.lastPreemptionFence lastCompleted))
      else .next (swapped.goto t .nqUnlock)
  | .nqPreempted preemptionFence lastCompleted =>
      .next ((s.report (.dmaPreempted e preemptionFence lastCompleted)).goto t .nqUnlock)
  | .nqUnlock => .next (s.release.goto t .idle)

/-- Threads `τ` completing fences of engine `e`. -/
def machine (τ : Type*) [DecidableEq τ] (e : Engine) : Machine (State τ) (Act τ) Panic where
  step s
    | .notifyFence t fence =>
        if s.pc t = .idle ∧ fence ∈ s.todo then
          .next ({ s with todo := s.todo.erase fence }.goto t (.nfLoad fence))
        else .stuck
    | .notifyQueuedFences t => if s.pc t = .idle then .next (s.goto t .nqLoad) else .stuck
    | .step t now => stepThread e s t now
    | .submit fence => .next { s with engine := { s.engine with lastSubmittedFence := fence } }
    | .submitStamp now => .next { s with engine := { s.engine with lastSubmittedTimestamp := now } }
    | .submitPreemption fence =>
        .next { s with engine := { s.engine with lastPreemptionFence := fence } }

/-- All threads idle, and the `n` fences after `last_completed_fence` still to be notified. -/
def init (τ : Type*) (engine : EngineState) (n : ℕ) : State τ where
  engine := engine
  lock := none
  pc := fun _ => .idle
  todo := Finset.Ioc engine.lastCompletedFence (engine.lastCompletedFence + n)
  reports := []

/-- The `DmaCompleted` reports, oldest first. -/
def State.completed : List Interrupt :=
  s.reports.filter Interrupt.isDmaCompleted

end Notify

/-! ### Without other threads -/

namespace EngineState

def complete (s : EngineState) (fence now : ℕ) : EngineState :=
  { s with lastCompletedFence := fence, lastCompletedTimestamp := now }

/-- The loop of `notify_queued_fences` in at most `rounds` rounds, with the local copy of
`last_completed_fence`: the state and the copy after it, and the reports. -/
def drain (e : Engine) (now : ℕ) : ℕ → EngineState → ℕ →
    Outcome (EngineState × ℕ × List Interrupt) Notify.Panic
  | 0, s, last => .next (s, last, [])
  | rounds + 1, s, last => match first s.pendingFences with
    | none => .next (s, last, [])
    | some next =>
      if nextFence last = next then
        (drain e now rounds
          ({ s with pendingFences := popFirst s.pendingFences }.complete next now) next).bind
          fun r => .next (r.1, r.2.1, .dmaCompleted e next :: r.2.2)
      else if nextFence last > next then .panic (.missedFence next last)
      else .next (s, last, [])

/-- The end of `notify_queued_fences`: answer a preemption request if nothing is outstanding. -/
def answerPreemption (e : Engine) (s : EngineState) (last : ℕ) : EngineState × List Interrupt :=
  if last = s.lastSubmittedFence then
    ({ s with lastPreemptionFence := 0 },
      if s.lastPreemptionFence ≠ 0 then [.dmaPreempted e s.lastPreemptionFence last] else [])
  else (s, [])

/-- `GpuData::notify_queued_fences` without other threads. -/
def notifyQueuedFences (e : Engine) (now : ℕ) (s : EngineState) :
    Outcome (EngineState × List Interrupt) Notify.Panic :=
  (drain e now s.pendingFences.card s s.lastCompletedFence).bind fun r =>
    let answer := answerPreemption e r.1 r.2.1
    .next (answer.1, r.2.2 ++ answer.2)

/-- `GpuData::notify_fence` for `notify_dma_completed`, without other threads. -/
def notifyFence (e : Engine) (now : ℕ) (s : EngineState) (fence : ℕ) :
    Outcome (EngineState × List Interrupt) Notify.Panic :=
  if nextFence s.lastCompletedFence = fence then
    (notifyQueuedFences e now (s.complete fence now)).bind fun r =>
      .next (r.1, .dmaCompleted e fence :: r.2)
  else
    notifyQueuedFences e now { s with pendingFences := insert fence s.pendingFences }

end EngineState

end VirtioGpu
