import VirtioGpu.Data.Places
import VirtioGpu.Queue.Submit
import Mathlib.Data.List.Count

/-!
# Submissions that wait for a virtio fence

`submit_fence` reports a fence of an engine as soon as a virtio fence has been signalled: at once if
`FenceTracker::query` says so, otherwise the submission goes to `fence_submissions` and whoever runs
`handle_fence_submissions` next looks at it.  That is the submitter itself, any other submitter, or
the handler thread after each round.  A submission that has waited too long is taken out of the list
and put back with a new time stamp.

Here any number of threads run these functions and those of `FenceTracker` side by side.  An access
to `next_fence` is one step, and so are a section under the lock of `unsignaled` and a call of
`notify_dma_completed`.  `retain` holds the lock of `fence_submissions` over many steps, since it
queries the tracker for every element, while the tracker may change; the other sections under that
lock are one step.  A `query` of somebody else changes nothing and is left out.

The state remembers what has happened: which fences were handed out, signalled and removed, which
calls of `submit_fence` there were, and for which of them `notify_dma_completed` was called.  A call
is told from another one with the same arguments by its number.

* `FenceWait.Inv` : every call is in one place (with a thread, in the list or notified), and every
  fence returned by `next_fence` is in `unsignaled` or has been removed.
* `fence_notified_once` : no call is notified twice, and none before the signal of its virtio fence
  has removed it.
* `FenceWait.handle_alone`, `FenceWait.submitFence_alone` : a thread that runs its call with nobody
  else moving does what `GpuChannel.handleFenceSubmissions` and `GpuChannel.submitFence` say.
-/

namespace VirtioGpu

namespace FenceWait

/-- A call of `submit_fence`. -/
structure Call where
  /-- How many calls there were before. -/
  number : ℕ
  engine : Engine
  dxgkFence : ℕ
  virtioFence : ℕ
  deriving DecidableEq

/-- An element of `fence_submissions`, with the number of the call it comes from. -/
structure Entry where
  number : ℕ
  body : FenceSubmission
  deriving DecidableEq

/-- The call an element comes from. -/
def Entry.call (x : Entry) : Call :=
  ⟨x.number, x.body.engine, x.body.dxgkFence, x.body.virtioFence⟩

/-- `FenceSubmission::new` for the arguments of a call. -/
def Call.entry (env : SubmitEnv) (c : Call) : Entry :=
  ⟨c.number, .new env c.engine c.dxgkFence c.virtioFence⟩

@[simp] theorem Call.call_entry (env : SubmitEnv) (c : Call) : (c.entry env).call = c := rfl

/-- How far `retain` is: what stays in the list, what it has not looked at, and `resubmit`. -/
structure Pass where
  kept : List Entry
  rest : List Entry
  resubmit : List Entry
  deriving DecidableEq

/-- Where a thread is. -/
inductive Pc where
  | idle
  /-- `next_fence`: `unsignaled.write().push(fence)`. -/
  | push (fence : ℕ)
  /-- `signal`: the section under the lock, with the value of `next_fence` it has loaded. -/
  | signal (fence nextFence : ℕ)
  /-- `submit_fence`: `engines[engine].submit(dxgk_fence)`. -/
  | submit (c : Call)
  /-- `query` in `submit_fence`: load `next_fence`. -/
  | queryLoad (c : Call)
  /-- `query` in `submit_fence`: `unsignaled.read().contains(&fence)`. -/
  | queryRead (c : Call)
  /-- `submit_fence`: `notify_dma_completed`. -/
  | notify (c : Call)
  /-- `submit_fence`: `fence_submissions.lock().push(..)`. -/
  | enqueue (c : Call)
  /-- `handle_fence_submissions`: take the lock. -/
  | lock
  /-- `retain`: the next element, if there is one; its `query` loads `next_fence`. -/
  | retain (p : Pass)
  /-- `retain`: the `query` of the element `x` reads `unsignaled`. -/
  | retainRead (p : Pass) (x : Entry)
  /-- `retain`: `x` is ready, `notify_dma_completed`. -/
  | retainNotify (p : Pass) (x : Entry)
  /-- `retain`: `x` is not ready, `is_timeout`. -/
  | retainTimeout (p : Pass) (x : Entry)
  /-- `handle_fence_submissions`: `fence_submissions.lock().extend(resubmit)`. -/
  | extend (resubmit : List Entry)
  deriving DecidableEq

/-- The parts of `GpuData` that the functions touch, the threads, and what has happened. -/
structure State (τ : Type) where
  tracker : FenceTracker
  engines : Engine → EngineState
  /-- `fence_submissions`; during a `retain` the elements are with the thread that runs it. -/
  entries : List Entry
  /-- Who holds the lock of `fence_submissions` during a `retain`. -/
  lock : Option τ
  pc : τ → Pc
  /-- The thread has run `handle_fence_submissions` since its last `signal`. -/
  clean : τ → Bool
  /-- The fences `next_fence` has drawn from the counter. -/
  drawn : List ℕ
  /-- The fences calls of `next_fence` have returned. -/
  returned : List ℕ
  /-- The fences `signal` was called with. -/
  signalled : List ℕ
  /-- The fences `signal` has removed from `unsignaled`. -/
  removed : List ℕ
  /-- The calls of `submit_fence`. -/
  submitted : List Call
  /-- The calls whose fence was passed to `notify_dma_completed`. -/
  notified : List Call

inductive Act (τ : Type) where
  /-- `t` calls `next_fence` and draws a fence. -/
  | nextFence (t : τ)
  /-- `t` calls `signal(fence)` and loads `next_fence`. -/
  | signal (t : τ) (fence : ℕ)
  /-- `t` calls `submit_fence(engine, dxgk_fence, virtio_fence)`. -/
  | submitFence (t : τ) (e : Engine) (dxgkFence virtioFence : ℕ)
  /-- `t` calls `handle_fence_submissions`. -/
  | handle (t : τ)
  /-- `t` makes its next step, with the performance counter at `now`. -/
  | step (t : τ) (now : ℕ)

/-- The assertion of `FenceTracker::signal`. -/
inductive Panic where
  /-- `assert!(fence < next_fence)` -/
  | notDrawn

namespace State

variable {τ : Type} [DecidableEq τ]

def goto (s : State τ) (t : τ) (p : Pc) : State τ := { s with pc := Function.update s.pc t p }

/-- Thread `t` calls `notify_dma_completed` for `c` and goes on to `p`. -/
def notify (s : State τ) (t : τ) (c : Call) (p : Pc) : State τ :=
  { s.goto t p with notified := s.notified ++ [c] }

/-- Thread `t` ends `signal(fence)`, with `unsignaled` as `tracker` has it. -/
def remove (s : State τ) (t : τ) (fence : ℕ) (tracker : FenceTracker) : State τ :=
  { s.goto t .idle with
    tracker := { s.tracker with unsignaled := tracker.unsignaled }
    removed := if fence ∈ s.tracker.unsignaled then s.removed ++ [fence] else s.removed
    clean := Function.update s.clean t false }

/-- Thread `t` makes the call `c` of `submit_fence`. -/
def submitFence (s : State τ) (t : τ) (c : Call) : State τ :=
  { s.goto t (.submit c) with submitted := s.submitted ++ [c] }

def stepThread (env : SubmitEnv) (s : State τ) (t : τ) : Outcome (State τ) Panic :=
  match s.pc t with
  | .idle => .stuck
  | .push fence => .next { s.goto t .idle with
      tracker := { s.tracker with unsignaled := s.tracker.unsignaled ++ [fence] }
      returned := s.returned ++ [fence] }
  | .signal fence nextFence =>
    match ({ s.tracker with nextFence := nextFence } : FenceTracker).signal fence with
    | none => .panic .notDrawn
    | some tracker => .next (s.remove t fence tracker)
  | .submit c => .next { s.goto t (.queryLoad c) with
      engines := Function.update s.engines c.engine
        ((s.engines c.engine).submit env c.dxgkFence) }
  | .queryLoad c =>
    if c.virtioFence < s.tracker.nextFence then .next (s.goto t (.queryRead c))
    else .next (s.goto t (.enqueue c))
  | .queryRead c =>
    if c.virtioFence ∈ s.tracker.unsignaled then .next (s.goto t (.enqueue c))
    else .next (s.goto t (.notify c))
  | .notify c => .next (s.notify t c .idle)
  | .enqueue c =>
    if s.lock = none then
      .next { s.goto t .lock with entries := s.entries ++ [c.entry env] }
    else .stuck
  | .lock =>
    if s.lock = none then
      .next { s.goto t (.retain ⟨[], s.entries, []⟩) with lock := some t, entries := [] }
    else .stuck
  | .retain ⟨kept, [], resubmit⟩ =>
    .next { s.goto t (.extend resubmit) with lock := none, entries := kept }
  | .retain ⟨kept, x :: rest, resubmit⟩ =>
    if x.body.virtioFence < s.tracker.nextFence then
      .next (s.goto t (.retainRead ⟨kept, rest, resubmit⟩ x))
    else .next (s.goto t (.retainTimeout ⟨kept, rest, resubmit⟩ x))
  | .retainRead p x =>
    if x.body.virtioFence ∈ s.tracker.unsignaled then .next (s.goto t (.retainTimeout p x))
    else .next (s.goto t (.retainNotify p x))
  | .retainNotify p x => .next (s.notify t x.call (.retain p))
  | .retainTimeout p x =>
    if x.body.isTimeout env then
      .next (s.goto t (.retain { p with resubmit := p.resubmit ++ [x.call.entry env] }))
    else .next (s.goto t (.retain { p with kept := p.kept ++ [x] }))
  | .extend resubmit =>
    if s.lock = none then
      .next { s.goto t .idle with
        entries := s.entries ++ resubmit, clean := Function.update s.clean t true }
    else .stuck

/-- What an action leads to.  A fence is signalled at most as often as it was drawn, and a
submission waits for a fence that a call of `next_fence` has returned. -/
def step (env : SubmitEnv) (s : State τ) : Act τ → Outcome (State τ) Panic
  | .nextFence t =>
    if s.pc t = .idle then
      .next { s.goto t (.push s.tracker.nextFence) with
        tracker := { s.tracker with nextFence := (s.tracker.nextFence + 1) % 2 ^ 64 }
        drawn := s.drawn ++ [s.tracker.nextFence] }
    else .stuck
  | .signal t fence =>
    if s.pc t = .idle ∧ s.signalled.count fence < s.drawn.count fence then
      .next { s.goto t (.signal fence s.tracker.nextFence) with
        signalled := s.signalled ++ [fence] }
    else .stuck
  | .submitFence t e dxgkFence virtioFence =>
    if s.pc t = .idle ∧ virtioFence ∈ s.returned then
      .next (s.submitFence t ⟨s.submitted.length, e, dxgkFence, virtioFence⟩)
    else .stuck
  | .handle t => if s.pc t = .idle then .next (s.goto t .lock) else .stuck
  | .step t now => s.stepThread { env with now := now } t

/-- Nothing has been called yet: `FenceTracker::new()` and no submissions. -/
def init (τ : Type) (engines : Engine → EngineState) : State τ where
  tracker := ⟨0, []⟩
  engines := engines
  entries := []
  lock := none
  pc := fun _ => .idle
  clean := fun _ => true
  drawn := []
  returned := []
  signalled := []
  removed := []
  submitted := []
  notified := []

end State

/-- The threads running side by side. -/
def machine {τ : Type} [DecidableEq τ] (env : SubmitEnv) : Machine (State τ) (Act τ) Panic :=
  ⟨State.step env⟩

/-! ### Where the calls are -/

/-- The calls in the hands of `retain`. -/
def Pass.calls (p : Pass) : List Call :=
  p.kept.map Entry.call ++ (p.rest.map Entry.call ++ p.resubmit.map Entry.call)

namespace Pc

/-- The calls in the hands of a thread. -/
def calls : Pc → List Call
  | .idle | .push _ | .signal _ _ | .lock => []
  | .submit c | .queryLoad c | .queryRead c | .notify c | .enqueue c => [c]
  | .retain p => p.calls
  | .retainRead p x | .retainNotify p x | .retainTimeout p x => x.call :: p.calls
  | .extend resubmit => resubmit.map Entry.call

/-- The call that the thread is about to notify. -/
def ready : Pc → Option Call
  | .notify c => some c
  | .retainNotify _ x => some x.call
  | _ => none

theorem mem_calls_of_ready (p : Pc) {c : Call} (hc : c ∈ p.ready) : c ∈ p.calls := by
  cases p <;> simp_all [ready, calls]

/-- The thread is in `next_fence` or `signal`. -/
def inTracker : Pc → Bool
  | .push _ | .signal _ _ => true
  | _ => false

/-- The thread is in `retain` and holds the lock of `fence_submissions`. -/
def inRetain : Pc → Bool
  | .retain _ | .retainRead _ _ | .retainNotify _ _ | .retainTimeout _ _ => true
  | _ => false

end Pc

/-- Who holds which calls. -/
def State.held {τ : Type} (s : State τ) : Place τ → List Call :=
  Place.fill Pc.calls s.pc (s.entries.map Entry.call) s.notified

section Held

variable {τ : Type} [DecidableEq τ] {s s' : State τ} {t : τ} {p : Pc}

theorem held_of_own (hpc : s'.pc = Function.update s.pc t p) (hentries : s'.entries = s.entries)
    (hnotified : s'.notified = s.notified) :
    s'.held = Function.update s.held (.thread t) p.calls := by
  rw [State.held, hentries, hnotified]
  exact Place.fill_thread hpc

theorem held_of_notify (hpc : s'.pc = Function.update s.pc t p)
    (hentries : s'.entries = s.entries) :
    s'.held = Function.update (Function.update s.held (.thread t) p.calls) .done s'.notified := by
  rw [State.held, hentries, State.held, ← Place.fill_thread hpc]
  exact Place.fill_done

theorem held_of_list (hpc : s'.pc = Function.update s.pc t p)
    (hnotified : s'.notified = s.notified) :
    s'.held = Function.update (Function.update s.held (.thread t) p.calls) .shared
      (s'.entries.map Entry.call) := by
  rw [State.held, hnotified, State.held, ← Place.fill_thread hpc]
  exact Place.fill_shared

end Held

/-! ### What a step does -/

section Steps

variable {τ : Type} [DecidableEq τ] {env : SubmitEnv} {s s' : State τ} {t : τ} {p : Pc}

/-- Everything that is about fences and calls, and not about who holds what, is the same. -/
structure Keeps (s s' : State τ) : Prop where
  tracker : s'.tracker = s.tracker
  drawn : s'.drawn = s.drawn
  returned : s'.returned = s.returned
  signalled : s'.signalled = s.signalled
  removed : s'.removed = s.removed
  submitted : s'.submitted = s.submitted

/-- What a step of a thread does that is outside `next_fence` and `signal`: it goes on to `p`, where
it is about to notify only what its `query` has found to be ready; the calls it had in its hands
are still there, one of them is notified now, or some are exchanged with the list; and it takes the
lock, releases it, or leaves it as it is. -/
structure Moves (s s' : State τ) (t : τ) (p : Pc) : Prop where
  keeps : Keeps s s'
  pc : s'.pc = Function.update s.pc t p
  ready : ∀ c ∈ p.ready, c.virtioFence ∉ s.tracker.unsignaled
  calls : (s'.entries = s.entries ∧ s'.notified = s.notified ∧ p.calls.Perm (s.pc t).calls) ∨
    (s'.entries = s.entries ∧ ∃ c ∈ (s.pc t).ready, s'.notified = s.notified ++ [c] ∧
      (c :: p.calls).Perm (s.pc t).calls) ∨
    (s'.notified = s.notified ∧
      (p.calls ++ s'.entries.map Entry.call).Perm ((s.pc t).calls ++ s.entries.map Entry.call))
  lock : (s'.lock = s.lock ∧ p.inRetain = (s.pc t).inRetain ∧
      (s.lock = none ∨ s'.entries = s.entries)) ∨
    (s.lock = none ∧ s'.lock = some t ∧ p.inRetain = true ∧ s'.entries = []) ∨
    ((s.pc t).inRetain = true ∧ s'.lock = none ∧ p.inRetain = false)

theorem Moves.of_goto (hready : ∀ c ∈ p.ready, c.virtioFence ∉ s.tracker.unsignaled)
    (hcalls : p.calls.Perm (s.pc t).calls) (hlock : p.inRetain = (s.pc t).inRetain) :
    Moves s (s.goto t p) t p :=
  ⟨⟨rfl, rfl, rfl, rfl, rfl, rfl⟩, rfl, hready, .inl ⟨rfl, rfl, hcalls⟩,
    .inl ⟨rfl, hlock, .inr rfl⟩⟩

theorem Moves.of_notify {c : Call} (hp : p.ready = none) (hc : (s.pc t).ready = some c)
    (hcalls : (c :: p.calls).Perm (s.pc t).calls) (hlock : p.inRetain = (s.pc t).inRetain) :
    Moves s (s.notify t c p) t p :=
  ⟨⟨rfl, rfl, rfl, rfl, rfl, rfl⟩, rfl, by simp [hp], .inr (.inl ⟨rfl, c, hc, rfl, hcalls⟩),
    .inl ⟨rfl, hlock, .inr rfl⟩⟩

theorem stepThread_cases (hentries : (s.pc t).inRetain = true → s.entries = [])
    (h : s.stepThread env t = .next s') :
    (∃ fence, s.pc t = .push fence ∧ s' = { s.goto t .idle with
      tracker := { s.tracker with unsignaled := s.tracker.unsignaled ++ [fence] }
      returned := s.returned ++ [fence] }) ∨
    (∃ fence nextFence tracker, s.pc t = .signal fence nextFence ∧
      ({ s.tracker with nextFence := nextFence } : FenceTracker).signal fence = some tracker ∧
      s' = s.remove t fence tracker) ∨
    ((s.pc t).inTracker = false ∧ ∃ p, Moves s s' t p) := by
  unfold State.stepThread at h
  split at h
  case h_1 => cases h
  case h_2 fence hpc => exact .inl ⟨fence, hpc, (Outcome.next.inj h).symm⟩
  case h_3 fence nextFence hpc =>
    split at h
    · cases h
    · exact .inr (.inl ⟨fence, nextFence, _, hpc, ‹_›, (Outcome.next.inj h).symm⟩)
  all_goals refine .inr (.inr ⟨by rw [‹s.pc t = _›]; rfl, ?_⟩)
  case h_4 c hpc =>
    cases h
    refine ⟨.queryLoad c, ⟨rfl, rfl, rfl, rfl, rfl, rfl⟩, rfl, by simp [Pc.ready],
      .inl ⟨rfl, rfl, ?_⟩, .inl ⟨rfl, ?_, .inr rfl⟩⟩
    all_goals rw [hpc]; rfl
  case h_5 c hpc =>
    split at h <;> cases h
    all_goals exact ⟨_, .of_goto (by simp [Pc.ready]) (by rw [hpc]; rfl) (by rw [hpc]; rfl)⟩
  case h_6 c hpc =>
    split at h <;> cases h
    · exact ⟨_, .of_goto (by simp [Pc.ready]) (by rw [hpc]; rfl) (by rw [hpc]; rfl)⟩
    · exact ⟨_, .of_goto (by simpa [Pc.ready]) (by rw [hpc]; rfl) (by rw [hpc]; rfl)⟩
  case h_7 c hpc =>
    cases h
    exact ⟨_, .of_notify rfl (by rw [hpc]; rfl) (by rw [hpc]; rfl) (by rw [hpc]; rfl)⟩
  case h_8 c hpc =>
    split_ifs at h with hfree
    cases h
    refine ⟨.lock, ⟨rfl, rfl, rfl, rfl, rfl, rfl⟩, rfl, by simp [Pc.ready],
      .inr (.inr ⟨rfl, ?_⟩), .inl ⟨rfl, by rw [hpc]; rfl, .inl hfree⟩⟩
    simp [hpc, Pc.calls]
  case h_9 hpc =>
    split_ifs at h with hfree
    cases h
    refine ⟨_, ⟨rfl, rfl, rfl, rfl, rfl, rfl⟩, rfl, by simp [Pc.ready], .inr (.inr ⟨rfl, ?_⟩),
      .inr (.inl ⟨hfree, rfl, rfl, rfl⟩)⟩
    simp [hpc, Pc.calls, Pass.calls]
  case h_10 kept resubmit hpc =>
    cases h
    have hin : (s.pc t).inRetain = true := by rw [hpc]; rfl
    refine ⟨_, ⟨rfl, rfl, rfl, rfl, rfl, rfl⟩, rfl, by simp [Pc.ready], .inr (.inr ⟨rfl, ?_⟩),
      .inr (.inr ⟨hin, rfl, rfl⟩)⟩
    simpa [hpc, Pc.calls, Pass.calls, hentries hin] using List.perm_append_comm
  case h_11 kept x rest resubmit hpc =>
    split at h <;> cases h
    all_goals
      refine ⟨_, .of_goto (by simp [Pc.ready]) ?_ (by rw [hpc]; rfl)⟩
      simpa [hpc, Pc.calls, Pass.calls] using List.perm_middle.symm
  case h_12 p x hpc =>
    split at h <;> cases h
    · exact ⟨_, .of_goto (by simp [Pc.ready]) (by rw [hpc]; rfl) (by rw [hpc]; rfl)⟩
    · exact ⟨_, .of_goto (by simpa [Pc.ready]) (by rw [hpc]; rfl) (by rw [hpc]; rfl)⟩
  case h_13 p x hpc =>
    cases h
    exact ⟨_, .of_notify rfl (by rw [hpc]; rfl) (by rw [hpc]; rfl) (by rw [hpc]; rfl)⟩
  case h_14 p x hpc =>
    split at h <;> cases h
    · refine ⟨_, .of_goto (by simp [Pc.ready]) ?_ (by rw [hpc]; rfl)⟩
      have hperm := List.perm_append_singleton x.call p.calls
      simpa [hpc, Pc.calls, Pass.calls] using hperm
    · refine ⟨_, .of_goto (by simp [Pc.ready]) ?_ (by rw [hpc]; rfl)⟩
      simp [hpc, Pc.calls, Pass.calls]
  case h_15 resubmit hpc =>
    split_ifs at h with hfree
    cases h
    refine ⟨_, ⟨rfl, rfl, rfl, rfl, rfl, rfl⟩, rfl, by simp [Pc.ready], .inr (.inr ⟨rfl, ?_⟩),
      .inl ⟨rfl, by rw [hpc]; rfl, .inl hfree⟩⟩
    simpa [hpc, Pc.calls] using List.perm_append_comm

theorem perm_of_notify {c : Call} {l l' m : List Call} (h : (c :: l).Perm l') :
    (l ++ (m ++ [c])).Perm (l' ++ m) := by
  refine List.Perm.trans ?_ (h.append_right m)
  rw [← List.append_assoc]
  exact List.perm_append_singleton c _

theorem Moves.apart (h : Moves s s' t p) (hs : Apart s.held) : Apart s'.held := by
  rcases h.calls with ⟨hentries, hnotified, hperm⟩ | ⟨hentries, c, -, hnotified, hperm⟩ |
    ⟨hnotified, hperm⟩
  · rw [held_of_own h.pc hentries hnotified]
    exact hs.permute hperm
  · rw [held_of_notify h.pc hentries, hnotified]
    exact hs.move (by simp) (perm_of_notify hperm)
  · rw [held_of_list h.pc hnotified]
    exact hs.move (by simp) hperm

theorem Moves.mem_held (h : Moves s s' t p) {q : Place τ} {c : Call} (hc : c ∈ s'.held q) :
    ∃ q', c ∈ s.held q' := by
  rcases h.calls with ⟨hentries, hnotified, hperm⟩ | ⟨hentries, d, -, hnotified, hperm⟩ |
    ⟨hnotified, hperm⟩
  · rw [held_of_own h.pc hentries hnotified] at hc
    exact Apart.exists_mem_of_permute hperm hc
  · rw [held_of_notify h.pc hentries, hnotified] at hc
    exact Apart.exists_mem_of_move (perm_of_notify hperm) hc
  · rw [held_of_list h.pc hnotified] at hc
    exact Apart.exists_mem_of_move hperm hc

end Steps

/-! ### The invariant -/

section Invariant

variable {τ : Type} {env : SubmitEnv} {s s' : State τ} {t : τ} {p : Pc}

/-- What holds in every state that the threads can reach. -/
structure Inv (s : State τ) : Prop where
  apart : Apart s.held
  submitted : ∀ {q c}, c ∈ s.held q → c ∈ s.submitted
  numbered : ∀ c ∈ s.submitted, c.number < s.submitted.length
  returned : ∀ c ∈ s.submitted, c.virtioFence ∈ s.returned
  /-- A fence that was returned is outstanding or has been removed. -/
  outstanding : ∀ v, s.returned.count v = s.tracker.unsignaled.count v + s.removed.count v
  ready : ∀ t, ∀ c ∈ (s.pc t).ready, c.virtioFence ∈ s.removed
  notified : ∀ c ∈ s.notified, c.virtioFence ∈ s.removed
  locked : ∀ t, (s.pc t).inRetain = true ↔ s.lock = some t
  empty : ∀ t, s.lock = some t → s.entries = []

theorem inv_init (engines : Engine → EngineState) : Inv (State.init τ engines) := by
  have hheld : (State.init τ engines).held = fun _ => [] := by
    funext q
    cases q <;> rfl
  refine ⟨?_, ?_, ?_, ?_, fun v => rfl, ?_, ?_, ?_, ?_⟩
  · rw [hheld]
    exact Apart.empty
  · intro q c hc
    rw [hheld] at hc
    cases hc
  all_goals simp [State.init, Pc.ready, Pc.inRetain]

theorem Inv.removed_of_not_mem (hs : Inv s) {c : Call} (hc : c ∈ s.submitted)
    (hv : c.virtioFence ∉ s.tracker.unsignaled) : c.virtioFence ∈ s.removed := by
  have hpos := List.count_pos_iff.2 (hs.returned c hc)
  have hzero := List.count_eq_zero.2 hv
  have hout := hs.outstanding c.virtioFence
  exact List.count_pos_iff.1 (by omega)

variable [DecidableEq τ]

theorem Inv.outside (hs : Inv s) (hpc : s'.pc = Function.update s.pc t p)
    (hold : (s.pc t).calls = [] ∧ (s.pc t).inRetain = false)
    (hnew : p.calls = [] ∧ p.ready = none ∧ p.inRetain = false)
    (hentries : s'.entries = s.entries) (hnotified : s'.notified = s.notified)
    (hlock : s'.lock = s.lock) (hsubmitted : s'.submitted = s.submitted)
    (hreturned : s.returned ⊆ s'.returned) (hremoved : s.removed ⊆ s'.removed)
    (hout : ∀ v, s'.returned.count v = s'.tracker.unsignaled.count v + s'.removed.count v) :
    Inv s' := by
  have hheld : s'.held = s.held := by
    rw [State.held, hentries, hnotified]
    exact Place.fill_thread_same hpc (hnew.1.trans hold.1.symm)
  refine ⟨hheld ▸ hs.apart, fun hc => ?_, ?_, ?_, hout, fun u => ?_, ?_, fun u => ?_, ?_⟩
  · rw [hheld] at hc
    exact hsubmitted ▸ hs.submitted hc
  · exact hsubmitted ▸ hs.numbered
  · exact fun c hc => hreturned (hs.returned c (hsubmitted ▸ hc))
  · rw [hpc]
    by_cases hu : u = t
    · rw [hu, Function.update_self, hnew.2.1]
      simp
    · rw [Function.update_of_ne hu]
      exact fun c hc => hremoved (hs.ready u c hc)
  · exact fun c hc => hremoved (hs.notified c (hnotified ▸ hc))
  · rw [hpc, hlock, ← hs.locked u]
    by_cases hu : u = t
    · rw [hu, Function.update_self, hnew.2.2, hold.2]
    · rw [Function.update_of_ne hu]
  · rw [hlock, hentries]
    exact hs.empty

theorem Inv.remove (hs : Inv s) {fence nextFence : ℕ} {tracker : FenceTracker}
    (hpc : s.pc t = .signal fence nextFence)
    (hsignal : ({ s.tracker with nextFence := nextFence } : FenceTracker).signal fence =
      some tracker) : Inv (s.remove t fence tracker) := by
  obtain ⟨-, -, hcases⟩ := FenceTracker.signal_eq_some hsignal
  have hremoved : s.removed ⊆ (s.remove t fence tracker).removed := by
    intro v hv
    simp only [State.remove]
    split
    · exact List.mem_append_left _ hv
    · exact hv
  refine hs.outside rfl (by rw [hpc]; exact ⟨rfl, rfl⟩) ⟨rfl, rfl, rfl⟩ rfl rfl rfl rfl
    (List.Subset.refl _) hremoved fun v => ?_
  have hout := hs.outstanding v
  simp only [State.remove, State.goto]
  rcases hcases with ⟨hmem, hperm⟩ | ⟨hmem, heq⟩
  · have hcount : (fence :: tracker.unsignaled).count v = s.tracker.unsignaled.count v :=
      hperm.count_eq v
    rw [if_pos hmem, List.count_append]
    rw [List.count_cons] at hcount
    rw [List.count_singleton]
    omega
  · rw [if_neg hmem, heq, hout]

theorem Inv.moves (hs : Inv s) (h : Moves s s' t p) : Inv s' := by
  have hheld : ∀ {q c}, c ∈ s'.held q → c ∈ s.submitted := fun hc => by
    obtain ⟨q', hc⟩ := h.mem_held hc
    exact hs.submitted hc
  obtain ⟨htracker, -, hreturned, -, hremoved, hsubmitted⟩ := h.keeps
  refine ⟨h.apart hs.apart, ?_, ?_, ?_, ?_, fun u c hc => ?_, fun c hc => ?_, fun u => ?_,
    fun u hu => ?_⟩
  · rw [hsubmitted]
    exact hheld
  · rw [hsubmitted]
    exact hs.numbered
  · rw [hsubmitted, hreturned]
    exact hs.returned
  · rw [hreturned, htracker, hremoved]
    exact hs.outstanding
  · rw [hremoved]
    rw [h.pc] at hc
    by_cases hu : u = t
    · rw [hu, Function.update_self] at hc
      have hmem : c ∈ s'.held (.thread t) := by
        rw [State.held, h.pc, Place.fill, Function.update_self]
        exact p.mem_calls_of_ready hc
      exact hs.removed_of_not_mem (hheld hmem) (h.ready c hc)
    · rw [Function.update_of_ne hu] at hc
      exact hs.ready u c hc
  · rw [hremoved]
    rcases h.calls with ⟨-, hnotified, -⟩ | ⟨-, d, hd, hnotified, -⟩ | ⟨hnotified, -⟩
    · exact hs.notified c (hnotified ▸ hc)
    · rw [hnotified, List.mem_append, List.mem_singleton] at hc
      rcases hc with hc | rfl
      · exact hs.notified c hc
      · exact hs.ready t c hd
    · exact hs.notified c (hnotified ▸ hc)
  · rw [h.pc]
    have hu := hs.locked u
    have ht := hs.locked t
    by_cases hut : u = t
    · subst hut
      rw [Function.update_self]
      rcases h.lock with ⟨hlock, hin, -⟩ | ⟨-, hlock, hin, -⟩ | ⟨-, hlock, hin⟩
      · rw [hin, hlock, hu]
      · simp [hin, hlock]
      · simp [hin, hlock]
    · rw [Function.update_of_ne hut, hu]
      rcases h.lock with ⟨hlock, -, -⟩ | ⟨hfree, hlock, -, -⟩ | ⟨hin, hlock, -⟩
      · rw [hlock]
      · simp [hfree, hlock, Ne.symm hut]
      · simp [ht.1 hin, hlock, Ne.symm hut]
  · rcases h.lock with ⟨hlock, -, hfree | hentries⟩ | ⟨-, -, -, hentries⟩ | ⟨-, hlock, -⟩
    · rw [hlock, hfree] at hu
      cases hu
    · rw [hentries]
      exact hs.empty u (hlock ▸ hu)
    · exact hentries
    · rw [hlock] at hu
      cases hu

theorem Inv.submitFence (hs : Inv s) {c : Call} (hnumber : c.number = s.submitted.length)
    (hidle : s.pc t = .idle) (hreturned : c.virtioFence ∈ s.returned) :
    Inv (s.submitFence t c) := by
  have hnew : ∀ q, c ∉ s.held q := fun q hmem => by
    have hlt := hs.numbered c (hs.submitted hmem)
    omega
  have hheld : (s.submitFence t c).held =
      Function.update s.held (.thread t) (c :: s.held (.thread t)) := by
    have hempty : s.held (.thread t) = [] := by rw [State.held, Place.fill, hidle]; rfl
    have hpc : (s.submitFence t c).pc = Function.update s.pc t (.submit c) := rfl
    rw [hempty]
    exact held_of_own hpc rfl rfl
  have hmem : ∀ {d}, d ∈ s.submitted ++ [c] → d ∈ s.submitted ∨ d = c := fun hd => by
    simpa using hd
  refine ⟨?_, fun {q d} hd => ?_, fun d hd => ?_, fun d hd => ?_, hs.outstanding, fun u => ?_,
    hs.notified, fun u => ?_, hs.empty⟩
  · rw [hheld]
    exact hs.apart.insert hnew
  · rw [hheld] at hd
    refine List.mem_append.2 ?_
    by_cases hq : q = .thread t
    · rw [hq, Function.update_self, List.mem_cons] at hd
      rcases hd with rfl | hd
      · exact .inr (List.mem_singleton_self d)
      · exact .inl (hs.submitted hd)
    · rw [Function.update_of_ne hq] at hd
      exact .inl (hs.submitted hd)
  · have hlen : (s.submitFence t c).submitted.length = s.submitted.length + 1 := by
      simp [State.submitFence]
    rw [hlen]
    rcases hmem hd with hd | rfl
    · exact Nat.lt_succ_of_lt (hs.numbered d hd)
    · omega
  · rcases hmem hd with hd | rfl
    · exact hs.returned d hd
    · exact hreturned
  · by_cases hu : u = t
    · simp [State.submitFence, State.goto, hu, Pc.ready]
    · simpa [State.submitFence, State.goto, hu] using hs.ready u
  · by_cases hu : u = t
    · have ht := hs.locked t
      rw [hidle] at ht
      simpa [State.submitFence, State.goto, hu, Pc.inRetain] using ht
    · simpa [State.submitFence, State.goto, hu] using hs.locked u

theorem inv_step {a : Act τ} (hs : Inv s) (hstep : (machine env).step s a = .next s') :
    Inv s' := by
  cases a with
  | nextFence =>
    simp only [machine, State.step] at hstep
    split_ifs at hstep with hidle
    cases hstep
    exact hs.outside rfl (by rw [hidle]; exact ⟨rfl, rfl⟩) ⟨rfl, rfl, rfl⟩ rfl rfl rfl rfl
      (List.Subset.refl _) (List.Subset.refl _) hs.outstanding
  | signal =>
    simp only [machine, State.step] at hstep
    split_ifs at hstep with h
    cases hstep
    exact hs.outside rfl (by rw [h.1]; exact ⟨rfl, rfl⟩) ⟨rfl, rfl, rfl⟩ rfl rfl rfl rfl
      (List.Subset.refl _) (List.Subset.refl _) hs.outstanding
  | submitFence =>
    simp only [machine, State.step] at hstep
    split_ifs at hstep with h
    cases hstep
    exact hs.submitFence rfl h.1 h.2
  | handle =>
    simp only [machine, State.step] at hstep
    split_ifs at hstep with hidle
    cases hstep
    exact hs.outside rfl (by rw [hidle]; exact ⟨rfl, rfl⟩) ⟨rfl, rfl, rfl⟩ rfl rfl rfl rfl
      (List.Subset.refl _) (List.Subset.refl _) hs.outstanding
  | step t now =>
    have hentries : (s.pc t).inRetain = true → s.entries = [] := fun hin =>
      hs.empty t ((hs.locked t).1 hin)
    rcases stepThread_cases hentries hstep with ⟨fence, hpc, rfl⟩ |
      ⟨fence, nextFence, tracker, hpc, hsignal, rfl⟩ | ⟨-, p, hmoves⟩
    · refine hs.outside rfl (by rw [hpc]; exact ⟨rfl, rfl⟩) ⟨rfl, rfl, rfl⟩ rfl rfl rfl rfl
        (List.subset_append_left _ _) (List.Subset.refl _) fun v => ?_
      have hout := hs.outstanding v
      simp only [List.count_append, State.goto]
      omega
    · exact hs.remove hpc hsignal
    · exact hs.moves hmoves

end Invariant

end FenceWait

open FenceWait

/-- **A waiting fence is reported at most once, and not before its signal.**  No call of
`submit_fence` is notified twice, so `notify_dma_completed(e, f)` is called at most as often as
`submit_fence(e, f, _)`; and none before a signal has removed its virtio fence. -/
theorem fence_notified_once {τ : Type} [DecidableEq τ] (env : SubmitEnv)
    (engines : Engine → EngineState) (as : List (Act τ)) (s : State τ)
    (hrun : (machine env).run (State.init τ engines) as = some s) :
    s.notified.Nodup ∧
      (∀ c ∈ s.notified, c ∈ s.submitted ∧ c.virtioFence ∈ s.removed) ∧
      ∀ e f, s.notified.countP (fun c => c.engine = e ∧ c.dxgkFence = f) ≤
        s.submitted.countP (fun c => c.engine = e ∧ c.dxgkFence = f) := by
  have hs : Inv s := Machine.run_invariant (fun _ _ _ => inv_step) (inv_init engines) hrun
  have hsub : s.notified ⊆ s.submitted := fun c hc => hs.submitted (q := .done) hc
  have hnodup := hs.apart.nodup .done
  exact ⟨hnodup, fun c hc => ⟨hsub hc, hs.notified c hc⟩,
    fun e f => (hnodup.subperm hsub).countP_le _⟩

/-- Engines without submissions. -/
def freshEngines : Engine → EngineState := fun _ => ⟨0, 0, 0, ∅, 0, 0⟩

/-- A submitter whose fence times out in its own `handle_fence_submissions` and is queued again, and
the handler, which signals the virtio fence and then finds the submission. -/
def timedOut : List (Act Bool) :=
  [Act.nextFence true, .step true 0, .submitFence true .graphics 7 0] ++
    List.replicate 4 (Act.step true 0) ++ List.replicate 6 (Act.step true 30) ++
    [Act.signal false 0, .step false 30, .handle false] ++ List.replicate 6 (Act.step false 31)

theorem fence_notified_once_timedOut :
    ∃ s, (machine startedEnv).run (.init Bool freshEngines) timedOut = some s ∧
      s.notified = [⟨0, .graphics, 7, 0⟩] ∧ s.removed = [0] ∧ s.notified.Nodup :=
  ⟨_, rfl, rfl, rfl, (fence_notified_once startedEnv freshEngines timedOut _ rfl).1⟩

/-! ### A call that runs alone -/

namespace FenceWait

section Alone

variable {τ : Type} [DecidableEq τ] {env : SubmitEnv} {s : State τ} {t : τ} {size : ℕ}
  {g : GpuChannel size} {kept rest resubmit : List Entry} {x : Entry}

/-- The state of the channel, without the names of the calls. -/
structure Matches (g : GpuChannel size) (s : State τ) : Prop where
  fence : g.control.fence = s.tracker
  engines : g.engines = s.engines
  submissions : g.fenceSubmissions = s.entries.map Entry.body
  notified : g.notified = s.notified.map fun c => (c.engine, c.dxgkFence)

/-- What `retain` does with its next element. -/
def State.look (env : SubmitEnv) (s : State τ) (t : τ) (p : Pass) (x : Entry) : State τ :=
  if x.body.isReady s.tracker then s.notify t x.call (.retain p)
  else if x.body.isTimeout env then
    s.goto t (.retain { p with resubmit := p.resubmit ++ [x.call.entry env] })
  else s.goto t (.retain { p with kept := p.kept ++ [x] })

section

variable (s : State τ) (t : τ) (p : Pc)

@[simp] theorem goto_pc : (s.goto t p).pc t = p := by
  simp [State.goto]

@[simp] theorem goto_goto (q : Pc) : (s.goto t p).goto t q = s.goto t q := by
  simp [State.goto]

@[simp] theorem goto_tracker : (s.goto t p).tracker = s.tracker := rfl

@[simp] theorem goto_notified : (s.goto t p).notified = s.notified := rfl

@[simp] theorem goto_lock : (s.goto t p).lock = s.lock := rfl

end

theorem alone_look (hpc : s.pc t = .retain ⟨kept, x :: rest, resubmit⟩) :
    (machine env).Repeats (.step t env.now) s (s.look env t ⟨kept, rest, resubmit⟩ x) := by
  have htimeout : ∀ s : State τ, (machine env).Repeats (.step t env.now)
      (s.goto t (.retainTimeout ⟨kept, rest, resubmit⟩ x))
      (if x.body.isTimeout env then
        s.goto t (.retain ⟨kept, rest, resubmit ++ [x.call.entry env]⟩)
      else s.goto t (.retain ⟨kept ++ [x], rest, resubmit⟩)) := by
    intro s
    refine .head _ ?_ (.refl _ _)
    by_cases htimeout : x.body.isTimeout env
    all_goals simp [machine, State.step, State.stepThread, htimeout]
  unfold State.look
  simp only [FenceSubmission.isReady, FenceTracker.query]
  by_cases hlt : x.body.virtioFence < s.tracker.nextFence
  · refine .head (s.goto t (.retainRead ⟨kept, rest, resubmit⟩ x)) ?_ ?_
    · simp [machine, State.step, State.stepThread, hpc, hlt]
    by_cases hmem : x.body.virtioFence ∈ s.tracker.unsignaled
    · refine .head (s.goto t (.retainTimeout ⟨kept, rest, resubmit⟩ x)) ?_ ?_
      · simp [machine, State.step, State.stepThread, hmem]
      · simpa [hmem] using htimeout s
    · refine .head (s.goto t (.retainNotify ⟨kept, rest, resubmit⟩ x)) ?_ (.head _ ?_ (.refl _ _))
      · simp [machine, State.step, State.stepThread, hmem]
      · simp [machine, State.step, State.stepThread, State.notify, hlt, hmem]
  · refine .head (s.goto t (.retainTimeout ⟨kept, rest, resubmit⟩ x)) ?_ ?_
    · simp [machine, State.step, State.stepThread, hpc, hlt]
    · simpa [hlt] using htimeout s

/-- The elements that `retain` takes out for now, and those it leaves in the list. -/
def again (env : SubmitEnv) (tracker : FenceTracker) (xs : List Entry) : List Entry :=
  (xs.filter (!·.body.isReady tracker)).filter (·.body.isTimeout env)

def stays (env : SubmitEnv) (tracker : FenceTracker) (xs : List Entry) : List Entry :=
  (xs.filter (!·.body.isReady tracker)).filter (!·.body.isTimeout env)

theorem alone_retain (env : SubmitEnv) (hpc : s.pc t = .retain ⟨kept, rest, resubmit⟩) :
    (machine env).Repeats (.step t env.now) s
      { s.goto t (.retain ⟨kept ++ stays env s.tracker rest, [],
          resubmit ++ (again env s.tracker rest).map (·.call.entry env)⟩) with
        notified := s.notified ++ (rest.filter (·.body.isReady s.tracker)).map Entry.call } := by
  induction rest generalizing s kept resubmit with
  | nil =>
    have hsame : s = { s.goto t (.retain ⟨kept, [], resubmit⟩) with notified := s.notified } := by
      simp [State.goto, ← hpc]
    simpa [stays, again] using hsame ▸ Machine.Repeats.refl _ s
  | cons x rest ih =>
    refine (alone_look hpc).trans ?_
    unfold State.look
    by_cases hready : x.body.isReady s.tracker
    · rw [if_pos hready]
      have h := ih (s := s.notify t x.call (.retain ⟨kept, rest, resubmit⟩)) (goto_pc s t _)
      simpa [State.notify, State.goto, stays, again, hready] using h
    · rw [if_neg hready]
      by_cases htimeout : x.body.isTimeout env
      · rw [if_pos htimeout]
        have h := ih (s := s.goto t (.retain ⟨kept, rest, resubmit ++ [x.call.entry env]⟩))
          (goto_pc s t _)
        simpa [State.goto, stays, again, hready, htimeout] using h
      · rw [if_neg htimeout]
        have h := ih (s := s.goto t (.retain ⟨kept ++ [x], rest, resubmit⟩)) (goto_pc s t _)
        simpa [State.goto, stays, again, hready, htimeout] using h

/-- The state after thread `t` has run `handle_fence_submissions` with nobody else moving. -/
def State.handled (env : SubmitEnv) (s : State τ) (t : τ) : State τ :=
  { s.goto t .idle with
    entries := stays env s.tracker s.entries ++
      (again env s.tracker s.entries).map (·.call.entry env)
    notified := s.notified ++ (s.entries.filter (·.body.isReady s.tracker)).map Entry.call
    clean := Function.update s.clean t true }

theorem alone_extend (env : SubmitEnv) (hpc : s.pc t = .retain ⟨kept, [], resubmit⟩) :
    (machine env).Repeats (.step t env.now) s
      { s.goto t .idle with
        lock := none, entries := kept ++ resubmit, clean := Function.update s.clean t true } := by
  refine .head { s.goto t (.extend resubmit) with lock := none, entries := kept } ?_
    (.head _ ?_ (.refl _ _))
  · simp [machine, State.step, State.stepThread, hpc]
  · simp [machine, State.step, State.stepThread, State.goto]

theorem alone_handled (env : SubmitEnv) (hpc : s.pc t = .lock) (hlock : s.lock = none) :
    (machine env).Repeats (.step t env.now) s (s.handled env t) := by
  refine .head { s.goto t (.retain ⟨[], s.entries, []⟩) with lock := some t, entries := [] } ?_ ?_
  · simp [machine, State.step, State.stepThread, hpc, hlock]
  · have h := (alone_retain env (s := { s.goto t (.retain ⟨[], s.entries, []⟩) with
      lock := some t, entries := [] }) (goto_pc s t _)).trans (alone_extend env (goto_pc _ t _))
    simpa [State.handled, State.goto, hlock] using h

theorem handled_matches (env : SubmitEnv) (hm : Matches g s) :
    Matches (g.handleFenceSubmissions env) (s.handled env t) := by
  refine ⟨hm.fence, hm.engines, ?_, ?_⟩
  · simp only [GpuChannel.handleFenceSubmissions, State.handled, hm.fence, hm.submissions, stays,
      again, List.filter_map, List.map_append, List.map_map]
    rfl
  · simp only [GpuChannel.handleFenceSubmissions, State.handled, hm.fence, hm.submissions,
      hm.notified, List.filter_map, List.map_append, List.map_map]
    rfl

/-- **`handle_fence_submissions` by itself.**  A thread that is about to run it, with the lock free
and nobody else moving, does what the call does as one step. -/
theorem handle_alone (env : SubmitEnv) (hm : Matches g s) (hpc : s.pc t = .lock)
    (hlock : s.lock = none) :
    ∃ s', (machine env).Repeats (.step t env.now) s s' ∧ s'.pc t = .idle ∧ s'.lock = none ∧
      Matches (g.handleFenceSubmissions env) s' :=
  ⟨s.handled env t, alone_handled env hpc hlock, goto_pc s t _, hlock, handled_matches env hm⟩

theorem alone_query (env : SubmitEnv) (s : State τ) (t : τ) (c : Call) :
    (machine env).Repeats (.step t env.now) (s.goto t (.queryLoad c))
      (s.goto t (if s.tracker.query c.virtioFence then .notify c else .enqueue c)) := by
  simp only [FenceTracker.query]
  by_cases hlt : c.virtioFence < s.tracker.nextFence
  · refine .head (s.goto t (.queryRead c)) ?_ (.head _ ?_ (.refl _ _))
    · simp [machine, State.step, State.stepThread, hlt]
    · by_cases hmem : c.virtioFence ∈ s.tracker.unsignaled
      all_goals simp [machine, State.step, State.stepThread, hlt, hmem]
  · refine .head _ ?_ (.refl _ _)
    simp [machine, State.step, State.stepThread, hlt]

/-- **`submit_fence` by itself.**  The same for a thread that has called it. -/
theorem submitFence_alone (env : SubmitEnv) (hm : Matches g s) {c : Call} (hpc : s.pc t = .submit c)
    (hlock : s.lock = none) :
    ∃ s', (machine env).Repeats (.step t env.now) s s' ∧ s'.pc t = .idle ∧ s'.lock = none ∧
      Matches (g.submitFence env c.engine c.dxgkFence c.virtioFence) s' := by
  let s₁ : State τ := { s with
    engines := Function.update s.engines c.engine ((s.engines c.engine).submit env c.dxgkFence) }
  have hm₁ : Matches (g.submit env c.engine c.dxgkFence) s₁ :=
    ⟨hm.fence, by simp [hm.engines, s₁], hm.submissions, hm.notified⟩
  have hfence : (g.submit env c.engine c.dxgkFence).control.fence = s₁.tracker := hm.fence
  have hstart : (machine env).Repeats (.step t env.now) s (s₁.goto t (.queryLoad c)) :=
    .head _ (by simp [machine, State.step, State.stepThread, hpc, s₁, State.goto]) (.refl _ _)
  have hquery := alone_query env s₁ t c
  unfold GpuChannel.submitFence
  simp only [hfence]
  by_cases hready : s₁.tracker.query c.virtioFence
  · rw [if_pos hready] at hquery ⊢
    refine ⟨s₁.notify t c .idle, hstart.trans (hquery.trans (.head _ ?_ (.refl _ _))),
      goto_pc s₁ t _, hlock, ⟨hm₁.fence, hm₁.engines, hm₁.submissions, ?_⟩⟩
    · simp [machine, State.step, State.stepThread, State.notify]
    · simp [GpuChannel.notifyDmaCompleted, State.notify, hm₁.notified]
  · rw [if_neg hready] at hquery ⊢
    let s₂ : State τ := { s₁.goto t .lock with entries := s.entries ++ [c.entry env] }
    have henqueue : (machine env).Repeats (.step t env.now) (s₁.goto t (.enqueue c)) s₂ := by
      refine .head _ ?_ (.refl _ _)
      simp [machine, State.step, State.stepThread, s₁, s₂, hlock, State.goto]
    have hm₂ : Matches ((g.submit env c.engine c.dxgkFence).addSubmission
        (.new env c.engine c.dxgkFence c.virtioFence)) s₂ := by
      refine ⟨hm₁.fence, hm₁.engines, ?_, hm₁.notified⟩
      simp [GpuChannel.addSubmission, hm₁.submissions, s₁, s₂, Call.entry]
    obtain ⟨s', hrun, hidle, hfree, hm'⟩ := handle_alone env hm₂ (goto_pc s₁ t _) hlock
    exact ⟨s', hstart.trans (hquery.trans (henqueue.trans hrun)), hidle, hfree, hm'⟩

theorem submitFence_alone_first :
    ∃ s', (machine startedEnv).Repeats (.step true startedEnv.now)
        ((State.init Bool freshEngines).goto true (.submit ⟨0, .graphics, 7, 0⟩)) s' ∧
      s'.pc true = .idle ∧ s'.lock = none ∧
      Matches ((GpuChannel.init Nat.one_pos).submitFence startedEnv .graphics 7 0) s' :=
  submitFence_alone (c := ⟨0, .graphics, 7, 0⟩) startedEnv ⟨rfl, rfl, rfl, rfl⟩ rfl rfl

end Alone

end FenceWait

end VirtioGpu
