import VirtioGpu.Fence.Order

/-!
# Preemption requests

`dxgkrnl` asks the driver to preempt an engine with `preempt_command` and waits for a `DmaPreempted`
that carries the fence of the request.  The driver does not stop anything: it answers when all that
has been submitted has completed.  If that is so when the call arrives, the call answers itself;
otherwise it stores the fence in `last_preemption_fence`, from where the end of a
`notify_queued_fences` that sees nothing outstanding takes it.

The store and the look are not under a common lock.  Nothing is lost since the call itself looks
once more after its store, and nothing is answered with an old fence since the call passes through
`notify_queued_fences` before it decides: whoever compared with an older `last_submitted_fence` held
the lock then and has left it.

`Preempt.machine` adds the calls of `preempt_command` and the submissions to the threads of
`Notify.machine`.  `dxgkrnl` submits nothing and asks for nothing more until a request is answered,
and it numbers the submissions consecutively.

* `Preempt.preempt_answered` : every request is answered, once and in order, when everything that
  was submitted has completed.
-/

namespace VirtioGpu

/-- The fences of the preemption requests that have been answered, oldest first. -/
def answersOf (reports : List Interrupt) : List ℕ :=
  reports.filterMap fun
    | .dmaPreempted _ p _ => some p
    | .dmaCompleted .. => none

namespace Preempt

/-- Where a thread is in `preempt_command`. -/
inductive CallPc where
  | idle
  /-- In the first `notify_queued_fences`, or back from it. -/
  | first (p : ℕ)
  /-- It has loaded `last_completed_fence`. -/
  | loadSubmitted (p lastCompleted : ℕ)
  /-- Report `DmaPreempted`. -/
  | report (p lastCompleted : ℕ)
  /-- `submit_preemption`. -/
  | store (p : ℕ)
  /-- In the second `notify_queued_fences`, or back from it. -/
  | second
  deriving DecidableEq

/-- The threads of the driver and `dxgkrnl`. -/
structure State (τ : Type*) where
  notify : Notify.State τ
  /-- The number of submissions. -/
  submitted : ℕ
  call : τ → CallPc
  /-- The fences of the preemption requests, oldest first. -/
  asked : List ℕ

inductive Act (τ : Type*) where
  /-- `dxgkrnl` submits the next fence, and `EngineState::submit` stores it. -/
  | submit
  /-- `EngineState::submit`, the store of the timestamp. -/
  | submitStamp (now : ℕ)
  | preemptCommand (t : τ) (p : ℕ)
  | notifyFence (t : τ) (fence : ℕ)
  /-- `t` calls `notify_queued_fences(engine)`, as `preempt_command` of another engine does. -/
  | notifyQueuedFences (t : τ)
  /-- `t` takes its next step; the performance counter stands at `now`. -/
  | step (t : τ) (now : ℕ)

inductive Panic where
  | notify (p : Notify.Panic)
  /-- `assert!(preempt_command.PreemptionFenceId != 0)` -/
  | zeroFence

namespace State

variable {τ : Type*}

/-- The answers to the requests. -/
def answers (s : State τ) : List ℕ := answersOf s.notify.reports

/-- The last request has been answered. -/
def Answered (s : State τ) : Prop := s.asked.length ≤ s.answers.length
  deriving Decidable

/-- Go on with a step of `notify_fence` or `notify_queued_fences`. -/
def lift (s : State τ) : Outcome (Notify.State τ) Notify.Panic → Outcome (State τ) Panic
  | .next notify => .next { s with notify := notify }
  | .stuck => .stuck
  | .panic p => .panic (.notify p)

variable [DecidableEq τ]

/-- Thread `t` is at `c` of `preempt_command`. -/
def setCall (s : State τ) (t : τ) (c : CallPc) : State τ :=
  { s with call := Function.update s.call t c }

/-- The next step of thread `t` on engine `e`. -/
def stepThread (e : Engine) (s : State τ) (t : τ) (now : ℕ) : Outcome (State τ) Panic :=
  -- a thread in one of the other functions goes on there
  if s.notify.pc t ≠ .idle then s.lift (Notify.stepThread e s.notify t now)
  else match s.call t with
    | .idle => .stuck
    | .first p => .next (s.setCall t (.loadSubmitted p s.notify.engine.lastCompletedFence))
    | .loadSubmitted p lastCompleted =>
      if lastCompleted = s.notify.engine.lastSubmittedFence then
        .next (s.setCall t (.report p lastCompleted))
      else if p = 0 then .panic .zeroFence
      else .next (s.setCall t (.store p))
    | .report p lastCompleted =>
      .next ({ s with notify := s.notify.report (.dmaPreempted e p lastCompleted) }.setCall t .idle)
    | .store p =>
      .next ({ s with
        notify := { s.notify with
          engine := { s.notify.engine with lastPreemptionFence := p } }.goto t .nqLoad }.setCall t
            .second)
    | .second => .next (s.setCall t .idle)

end State

/-- Threads `τ` on engine `e`, whose submissions are numbered from `f₀ + 1` on. -/
def machine (τ : Type*) [DecidableEq τ] (e : Engine) (f₀ : ℕ) :
    Machine (State τ) (Act τ) Panic where
  step s
    | .submit =>
        if s.Answered ∧ f₀ + s.submitted + 1 < 2 ^ 32 then
          .next { s with
            notify := { s.notify with
              engine := { s.notify.engine with lastSubmittedFence := f₀ + s.submitted + 1 }
              todo := insert (f₀ + s.submitted + 1) s.notify.todo }
            submitted := s.submitted + 1 }
        else .stuck
    | .submitStamp now =>
        .next { s with notify := { s.notify with
          engine := { s.notify.engine with lastSubmittedTimestamp := now } } }
    | .preemptCommand t p =>
        if s.Answered ∧ p ≠ 0 ∧ s.call t = .idle ∧ s.notify.pc t = .idle then
          .next ({ s with notify := s.notify.goto t .nqLoad, asked := s.asked ++ [p] }.setCall t
            (.first p))
        else .stuck
    | .notifyFence t fence =>
        if s.call t = .idle then
          s.lift ((Notify.machine τ e).step s.notify (.notifyFence t fence))
        else .stuck
    | .notifyQueuedFences t =>
        if s.call t = .idle then
          s.lift ((Notify.machine τ e).step s.notify (.notifyQueuedFences t))
        else .stuck
    | .step t now => s.stepThread e t now

/-- All threads idle, nothing submitted and no request. -/
def init (τ : Type*) (engine : EngineState) : State τ :=
  ⟨Notify.init τ engine 0, 0, fun _ => .idle, []⟩

/-! ### What a step of the other functions means for a request -/

section Notify

open Notify

variable {τ : Type*} [DecidableEq τ] {e : Engine} {f₀ n k now : ℕ} {s s' : Notify.State τ}
  {home : ℕ → Home τ} {t : τ}

/-- The copy of `last_completed_fence` that is compared with `last_submitted_fence`, or has been. -/
def copy : Pc → Option ℕ
  | .nqSubmitted last | .nqSwap last | .nqPreempted _ last => some last
  | _ => none

/-- The thread is going to take a request if `last` is the last submitted fence and completed. -/
def WillSwap (last : ℕ) : Pc → Prop
  | .nfStamp | .nfUnlock | .nqLoad => True
  | .nqLock l | .nqFirst l | .nqStamp l | .nqSubmitted l | .nqSwap l => l = last
  | _ => False

/-- `last_preemption_fence.swap(0)` of thread `t`, if there is a request. -/
def takeRequest (s : Notify.State τ) (t : τ) (last : ℕ) : Notify.State τ :=
  { s with engine := { s.engine with lastPreemptionFence := 0 } }.goto t
    (.nqPreempted s.engine.lastPreemptionFence last)

/-- A step of thread `t` to `p` that does not touch the requests. -/
structure Quiet (f₀ n : ℕ) (t : τ) (p : Pc) (s s' : Notify.State τ) : Prop where
  pc : s'.pc = Function.update s.pc t p
  submitted : s'.engine.lastSubmittedFence = s.engine.lastSubmittedFence
  slot : s'.engine.lastPreemptionFence = s.engine.lastPreemptionFence
  answers : answersOf s'.reports = answersOf s.reports
  le : s.engine.lastCompletedFence ≤ s'.engine.lastCompletedFence
  notPreempted : ∀ q last, p ≠ .nqPreempted q last
  swap : ∀ last, p = .nqSwap last → last = s.engine.lastSubmittedFence
  copy : ∀ last, copy p = some last → last ≤ s'.engine.lastCompletedFence
  /-- If all has completed after the step, a thread that was going to take a request still is, and
  one that has just completed the last fence will. -/
  willSwap : s.engine.lastPreemptionFence ≠ 0 → s.engine.lastSubmittedFence = f₀ + n →
    s'.engine.lastCompletedFence = f₀ + n →
    (s.engine.lastCompletedFence = f₀ + n → WillSwap (f₀ + n) (s.pc t)) → WillSwap (f₀ + n) p
  /-- The lock is free if the thread has left the start of `notify_queued_fences`. -/
  acquired : s.lock = none ∨ p = .nqLoad ∨ (∃ last, p = .nqLock last) ∨
    (s.pc t ≠ .nqLoad ∧ ∀ last, s.pc t ≠ .nqLock last)

theorem quiet_of_same {p : Pc} (hpc : s'.pc = Function.update s.pc t p)
    (hsubmitted : s'.engine.lastSubmittedFence = s.engine.lastSubmittedFence)
    (hslot : s'.engine.lastPreemptionFence = s.engine.lastPreemptionFence)
    (hanswers : answersOf s'.reports = answersOf s.reports)
    (hlast : s'.engine.lastCompletedFence = s.engine.lastCompletedFence)
    (hnot : ∀ q last, p ≠ .nqPreempted q last)
    (hswap : ∀ last, p = .nqSwap last → last = s.engine.lastSubmittedFence)
    (hcopy : ∀ last, copy p = some last → last ≤ s.engine.lastCompletedFence)
    (hwill : s.engine.lastPreemptionFence ≠ 0 → s.engine.lastSubmittedFence = f₀ + n →
      s.engine.lastCompletedFence = f₀ + n → WillSwap (f₀ + n) (s.pc t) → WillSwap (f₀ + n) p)
    (hacq : s.lock = none ∨ p = .nqLoad ∨ (∃ last, p = .nqLock last) ∨
      (s.pc t ≠ .nqLoad ∧ ∀ last, s.pc t ≠ .nqLock last)) : Quiet f₀ n t p s s' where
  pc := hpc
  submitted := hsubmitted
  slot := hslot
  answers := hanswers
  le := hlast.ge
  notPreempted := hnot
  swap := hswap
  copy := by rwa [hlast]
  willSwap h₁ h₂ h₃ h₄ := by
    rw [hlast] at h₃
    exact hwill h₁ h₂ h₃ (h₄ h₃)
  acquired := hacq

theorem answersOf_completed (reports : List Interrupt) (f : ℕ) :
    answersOf (reports ++ [.dmaCompleted e f]) = answersOf reports := by
  simp [answersOf]

theorem answersOf_preempted (reports : List Interrupt) (p last : ℕ) :
    answersOf (reports ++ [.dmaPreempted e p last]) = answersOf reports ++ [p] := by
  simp [answersOf]

/-- A step of `notify_fence` or `notify_queued_fences` takes the request, answers one, or does not
touch the requests. -/
theorem stepThread_cases (hs : Notify.Inv e f₀ n s home k)
    (hcopy : ∀ last, copy (s.pc t) = some last → last ≤ s.engine.lastCompletedFence)
    (hstep : Notify.stepThread e s t now = .next s') :
    (∃ last, s.pc t = .nqSwap last ∧ s.engine.lastPreemptionFence ≠ 0 ∧
      s' = takeRequest s t last) ∨
    (∃ q last, s.pc t = .nqPreempted q last ∧
      s' = (s.report (.dmaPreempted e q last)).goto t .nqUnlock) ∨
    ∃ p, Quiet f₀ n t p s s' := by
  unfold Notify.stepThread at hstep
  cases hpc : s.pc t with
  | idle => simp [hpc] at hstep
  | nqSwap last =>
    simp only [hpc] at hstep
    split_ifs at hstep with hzero
    · cases hstep
      exact .inl ⟨last, rfl, hzero, rfl⟩
    · cases hstep
      refine .inr (.inr ⟨.nqUnlock, quiet_of_same rfl rfl ?_ rfl rfl ?_ ?_ ?_ ?_ ?_⟩)
      · exact (not_not.1 hzero).symm
      · simp
      · simp
      · simp [copy]
      · intro h
        exact absurd (not_not.1 hzero) h
      · simp [hpc]
  | nqPreempted q last =>
    simp only [hpc, Outcome.next.injEq] at hstep
    exact .inr (.inl ⟨q, last, rfl, hstep.symm⟩)
  | nfLoad =>
    simp only [hpc] at hstep
    split_ifs at hstep
    all_goals
      cases hstep
      refine .inr (.inr ⟨_, quiet_of_same rfl rfl rfl rfl rfl ?_ ?_ ?_ ?_ ?_⟩)
      all_goals simp [hpc, copy, WillSwap]
  | nfNotify f | nqNotify f =>
    simp only [hpc] at hstep
    cases hstep
    refine .inr (.inr ⟨_, quiet_of_same rfl rfl rfl (answersOf_completed _ _) rfl ?_ ?_ ?_ ?_ ?_⟩)
    all_goals simp [hpc, copy, WillSwap]
  | nfStore f =>
    simp only [hpc] at hstep
    cases hstep
    have hf := hs.held_reported t f ((hs.placed.held t f true).1 (by rw [hpc]; rfl))
    refine .inr (.inr ⟨.nfStamp, rfl, rfl, rfl, rfl, ?_, by simp, by simp, by simp [copy], ?_, ?_⟩)
    · simp only [State.goto, State.storeCompleted]
      omega
    · exact fun _ _ _ _ => trivial
    · simp [hpc]
  | nqStore f =>
    simp only [hpc] at hstep
    cases hstep
    have hf := hs.held_reported t f ((hs.placed.held t f true).1 (by rw [hpc]; rfl))
    refine .inr (.inr ⟨.nqStamp f, rfl, rfl, rfl, rfl, ?_, by simp, by simp, by simp [copy], ?_,
      ?_⟩)
    · simp only [State.goto, State.storeCompleted]
      omega
    · exact fun _ _ h _ => h
    · simp [hpc]
  | nfStamp | nfInsert f | nfUnlock | nqLoad | nqPop f | nqStamp f | nqUnlock =>
    simp only [hpc] at hstep
    cases hstep
    refine .inr (.inr ⟨_, quiet_of_same rfl rfl rfl rfl rfl ?_ ?_ ?_ ?_ ?_⟩)
    all_goals simp [hpc, copy, WillSwap]
  | nfLock f | nqLock last =>
    simp only [hpc, State.acquire] at hstep
    split_ifs at hstep with hfree
    cases hstep
    refine .inr (.inr ⟨_, quiet_of_same rfl rfl rfl rfl rfl ?_ ?_ ?_ ?_ (.inl hfree)⟩)
    all_goals simp [hpc, copy, WillSwap]
  | nqSubmitted last =>
    have hle := hcopy last (by rw [hpc]; rfl)
    simp only [hpc] at hstep
    split_ifs at hstep with heq
    · cases hstep
      refine .inr (.inr ⟨_, quiet_of_same rfl rfl rfl rfl rfl ?_ ?_ ?_ ?_ ?_⟩)
      all_goals simp [hpc, copy, WillSwap, ← heq, hle]
    · cases hstep
      refine .inr (.inr ⟨_, quiet_of_same rfl rfl rfl rfl rfl ?_ ?_ ?_ ?_ ?_⟩)
      case refine_4 =>
        intro _ hsub _ hwill
        rw [hpc] at hwill
        exact absurd (hwill.trans hsub.symm) heq
      all_goals simp [hpc, copy]
  | nqFirst last =>
    have hle : last ≤ s.engine.lastCompletedFence := by simpa only [hpc, Pc.Valid] using hs.valid t
    simp only [hpc] at hstep
    -- with everything completed there is nothing in the set
    have hempty : ∀ f, first s.engine.pendingFences = some f →
        s.engine.lastCompletedFence ≠ f₀ + n := by
      intro f hf heq
      have := hs.pending_range (first_eq_some hf).1
      omega
    split at hstep
    · cases hstep
      refine .inr (.inr ⟨_, quiet_of_same rfl rfl rfl rfl rfl ?_ ?_ ?_ ?_ ?_⟩)
      all_goals simp [hpc, copy, WillSwap, hle]
    · rename_i f hf
      split_ifs at hstep
      all_goals
        cases hstep
        refine .inr (.inr ⟨_, quiet_of_same rfl rfl rfl rfl rfl ?_ ?_ ?_ ?_ ?_⟩)
        case refine_4 => exact fun _ _ hall => absurd hall (hempty f hf)
        all_goals simp [hpc, copy, hle]

end Notify

/-! ### Where a request is -/

/-- Where the request that has not been answered is. -/
inductive Loc (τ : Type*) where
  /-- There is none. -/
  | answered
  /-- In the hands of the call on thread `t`. -/
  | call (t : τ) (p : ℕ)
  /-- In `last_preemption_fence`. -/
  | slot (p : ℕ)
  /-- Taken by thread `t`, which is about to answer it. -/
  | taken (t : τ) (p : ℕ)

/-- The fence of the request. -/
def Loc.fence {τ : Type*} : Loc τ → List ℕ
  | .answered => []
  | .call _ p | .slot p | .taken _ p => [p]

/-- The fence a call has neither answered nor stored. -/
def CallPc.fence : CallPc → Option ℕ
  | .first p | .loadSubmitted p _ | .report p _ | .store p => some p
  | .idle | .second => none

/-- The thread is at the start of `notify_queued_fences`, before it has the lock. -/
def AtStart : Notify.Pc → Prop
  | .nqLoad | .nqLock _ => True
  | _ => False

/-- What the local variables of a call say: a thread that compares or has compared is in no other
function, its copy of `last_completed_fence` is not ahead, and it answers only if everything has
completed. -/
def CallPc.Valid (submitted : ℕ) (notify : Notify.Pc) (engine : EngineState) : CallPc → Prop
  | .loadSubmitted _ last => notify = .idle ∧ last ≤ engine.lastCompletedFence
  | .report _ last => notify = .idle ∧ last = submitted ∧ last ≤ engine.lastCompletedFence
  | .store _ => notify = .idle
  | _ => True

variable {τ : Type*} {e : Engine} {f₀ : ℕ} {s s' : State τ} {loc : Loc τ}

/-- The request is past the first `notify_queued_fences` of its call, or at least that has the
lock. -/
def PastLock (s : State τ) : Loc τ → Prop
  | .call t p => ¬ (s.call t = .first p ∧ AtStart (s.notify.pc t))
  | .slot _ => True
  | .answered | .taken _ _ => False

/-- What the invariant says of thread `t`, at `c` of `preempt_command` and at `pc` of the other
functions. -/
structure ThreadInv (submitted : ℕ) (engine : EngineState) (loc : Loc τ) (past : Prop) (t : τ)
    (c : CallPc) (pc : Notify.Pc) : Prop where
  call : ∀ p, c.fence = some p ↔ loc = .call t p
  taken : ∀ p, (∃ last, pc = .nqPreempted p last) ↔ loc = .taken t p
  valid : c.Valid submitted pc engine
  copy : ∀ last, copy pc = some last → last ≤ engine.lastCompletedFence
  /-- It is not going to take the request with an older fence. -/
  swap : past → ∀ last, pc = .nqSwap last → last = submitted
  preempted : ∀ p last, pc = .nqPreempted p last → last = submitted

/-- The invariant of the requests; the fences are the subject of `Notify.Inv`. -/
structure Inv (f₀ : ℕ) (s : State τ) (loc : Loc τ) : Prop where
  bound : f₀ + s.submitted < 2 ^ 32
  submitted : s.notify.engine.lastSubmittedFence = f₀ + s.submitted
  asked : s.asked = s.answers ++ loc.fence
  slot : ∀ p, s.notify.engine.lastPreemptionFence = p ∧ p ≠ 0 ↔ loc = .slot p
  nonzero : ∀ t p, loc = .call t p → p ≠ 0
  thread : ∀ t, ThreadInv (f₀ + s.submitted) s.notify.engine loc (PastLock s loc) t (s.call t)
    (s.notify.pc t)
  /-- If everything has completed, somebody is going to take the request. -/
  willSwap : (∃ p, loc = .slot p) → s.notify.engine.lastCompletedFence = f₀ + s.submitted →
    ∃ t, WillSwap (f₀ + s.submitted) (s.notify.pc t)

theorem inv_init {engine : EngineState} (h : engine.Settled f₀)
    (hp : engine.lastPreemptionFence = 0) : Inv f₀ (init τ engine) .answered where
  bound := by simpa [init] using h.lt
  submitted := by simpa [init, Notify.init] using h.submitted
  asked := rfl
  slot := by simp [init, Notify.init, hp, eq_comm]
  nonzero := by simp
  thread _ := ⟨by simp [init, CallPc.fence], by simp [init, Notify.init], trivial,
    by simp [init, Notify.init, copy], False.elim, by simp [init, Notify.init]⟩
  willSwap := by simp

theorem Inv.answered_iff (hs : Inv f₀ s loc) : s.Answered ↔ loc = .answered := by
  unfold State.Answered
  rw [hs.asked, List.length_append]
  cases loc <;> simp [Loc.fence]

/-! ### The steps of the other functions -/

section Steps

variable [DecidableEq τ] {t : τ} {notify : Notify.State τ} {k : ℕ} {home : ℕ → Notify.Home τ}
  {engine engine' : EngineState} {c : CallPc} {submitted : ℕ} {p : Notify.Pc}

/-- A request gets past the lock only while the lock is free. -/
theorem PastLock.of_quiet (hq : Quiet f₀ s.submitted t p s.notify notify)
    (h : PastLock { s with notify := notify } loc) : PastLock s loc ∨ s.notify.lock = none := by
  cases loc with
  | answered | taken u q => cases h
  | slot => exact .inl trivial
  | call u =>
    simp only [PastLock, hq.pc] at h ⊢
    by_cases hut : u = t
    · subst hut
      rw [Function.update_self] at h
      rcases hq.acquired with hfree | hstart | ⟨last, hstart⟩ | ⟨hne, hne'⟩
      · exact .inr hfree
      · rw [hstart] at h
        exact .inl fun hold => h ⟨hold.1, trivial⟩
      · rw [hstart] at h
        exact .inl fun hold => h ⟨hold.1, trivial⟩
      · refine .inl fun hold => ?_
        cases hpc : s.notify.pc u with
        | nqLoad => exact hne hpc
        | nqLock last => exact hne' last hpc
        | _ => simp [hpc, AtStart] at hold
    · rw [Function.update_of_ne hut] at h
      exact .inl h

theorem CallPc.Valid.of_le {pc : Notify.Pc} (h : c.Valid submitted pc engine)
    (hle : engine.lastCompletedFence ≤ engine'.lastCompletedFence) :
    c.Valid submitted pc engine' := by
  cases c with
  | loadSubmitted => exact ⟨h.1, h.2.trans hle⟩
  | report => exact ⟨h.1, h.2.1, h.2.2.trans hle⟩
  | idle | first p | store p | second => exact h

/-- A thread in one of the other functions is at no step of its own of `preempt_command`. -/
theorem CallPc.Valid.of_ne {pc pc' : Notify.Pc} (h : c.Valid submitted pc engine)
    (hne : pc ≠ .idle ∨ c = .idle) :
    c.Valid submitted pc' engine' := by
  cases c with
  | idle | first p | second => trivial
  | loadSubmitted p last | report p last => exact absurd h.1 (by simpa using hne)
  | store =>
    have hidle : pc = .idle := h
    simp [hidle] at hne

omit [DecidableEq τ] in
/-- A thread that does not move. -/
theorem ThreadInv.congr {loc' : Loc τ} {past past' : Prop} {pc : Notify.Pc}
    (h : ThreadInv submitted engine loc past t c pc)
    (hle : engine.lastCompletedFence ≤ engine'.lastCompletedFence)
    (hcall : ∀ p, loc = .call t p ↔ loc' = .call t p)
    (htaken : ∀ p, loc = .taken t p ↔ loc' = .taken t p)
    (hswap : past' → ∀ last, pc = .nqSwap last → last = submitted) :
    ThreadInv submitted engine' loc' past' t c pc :=
  ⟨fun p => (h.call p).trans (hcall p), fun p => (h.taken p).trans (htaken p), h.valid.of_le hle,
    fun last hcopy => (h.copy last hcopy).trans hle, hswap, h.preempted⟩

theorem forall_thread {P : τ → CallPc → Notify.Pc → Prop} {call : τ → CallPc} {pc : τ → Notify.Pc}
    (ht : P t c p) (hother : ∀ u, u ≠ t → P u (call u) (pc u)) (u : τ) :
    P u (Function.update call t c u) (Function.update pc t p u) := by
  by_cases hut : u = t
  · subst hut
    rwa [Function.update_self, Function.update_self]
  · rw [Function.update_of_ne hut, Function.update_of_ne hut]
    exact hother u hut

section

variable (hs : Inv f₀ s loc)
include hs

theorem Inv.quiet (hlock : ∀ u, (s.notify.pc u).Locked → s.notify.lock = some u)
    (hq : Quiet f₀ s.submitted t p s.notify notify) (hne : s.notify.pc t ≠ .idle ∨ s.call t = .idle)
    (htaken : ∀ q last, s.notify.pc t ≠ .nqPreempted q last) :
    Inv f₀ { s with notify := notify } loc where
  bound := hs.bound
  submitted := hq.submitted.trans hs.submitted
  asked := by
    rw [State.answers, hq.answers]
    exact hs.asked
  slot := by
    rw [hq.slot]
    exact hs.slot
  nonzero := hs.nonzero
  thread := by
    have ht := hs.thread t
    rw [hq.pc]
    refine (Function.forall_update_iff s.notify.pc fun u pc =>
      ThreadInv _ _ _ _ u (s.call u) pc).2 ⟨⟨ht.call, fun q => ?_, ht.valid.of_ne hne, hq.copy,
        fun _ last hp => (hq.swap last hp).trans hs.submitted,
        fun q last hp => absurd hp (hq.notPreempted q last)⟩, fun u _ => ?_⟩
    · rw [← ht.taken q]
      exact iff_of_false (fun ⟨last, h⟩ => hq.notPreempted q last h)
        fun ⟨last, h⟩ => htaken q last h
    · refine (hs.thread u).congr hq.le (fun _ => Iff.rfl) (fun _ => Iff.rfl) fun hpast last hu => ?_
      rcases hpast.of_quiet hq with hpast | hfree
      · exact (hs.thread u).swap hpast last hu
      · have := hlock u (by rw [hu]; trivial)
        rw [hfree] at this
        cases this
  willSwap hslot hall := by
    have hnz : s.notify.engine.lastPreemptionFence ≠ 0 := by
      obtain ⟨q, hq⟩ := hslot
      obtain ⟨rfl, hne⟩ := (hs.slot q).2 hq
      exact hne
    have hall : notify.engine.lastCompletedFence = f₀ + s.submitted := hall
    simp only [hq.pc]
    by_cases hbefore : s.notify.engine.lastCompletedFence = f₀ + s.submitted
    · obtain ⟨u, hu⟩ := hs.willSwap hslot hbefore
      by_cases hut : u = t
      · subst hut
        refine ⟨u, ?_⟩
        rw [Function.update_self]
        exact hq.willSwap hnz hs.submitted hall fun _ => hu
      · exact ⟨u, by rwa [Function.update_of_ne hut]⟩
    · -- the step has completed the last fence
      refine ⟨t, ?_⟩
      rw [Function.update_self]
      exact hq.willSwap hnz hs.submitted hall fun h => absurd h hbefore

theorem Inv.take {last : ℕ} (hpc : s.notify.pc t = .nqSwap last)
    (hnz : s.notify.engine.lastPreemptionFence ≠ 0) :
    Inv f₀ { s with notify := takeRequest s.notify t last }
      (.taken t s.notify.engine.lastPreemptionFence) := by
  obtain rfl : loc = .slot s.notify.engine.lastPreemptionFence := (hs.slot _).1 ⟨rfl, hnz⟩
  have ht := hs.thread t
  rw [hpc] at ht
  refine ⟨hs.bound, hs.submitted, hs.asked, ?_, by simp, ?_, by simp⟩
  · simp [takeRequest, Notify.State.goto, eq_comm]
  · refine (Function.forall_update_iff s.notify.pc fun u pc => ThreadInv _ _ _ _ u (s.call u) pc).2
      ⟨⟨by simp [ht.call], by simp, ht.valid.of_ne (.inl (by simp)), ht.copy, False.elim, ?_⟩,
        fun u hut => ?_⟩
    · rintro q l ⟨⟩
      exact ht.swap trivial last rfl
    · exact (hs.thread u).congr le_rfl (by simp) (by simp [Ne.symm hut]) False.elim

theorem Inv.answer {q last : ℕ} (hpc : s.notify.pc t = .nqPreempted q last) :
    Inv f₀ { s with notify := (s.notify.report (.dmaPreempted e q last)).goto t .nqUnlock }
      .answered := by
  have ht := hs.thread t
  rw [hpc] at ht
  obtain rfl : loc = .taken t q := (ht.taken q).1 ⟨last, rfl⟩
  refine ⟨hs.bound, hs.submitted, ?_, fun p => ?_, by simp, ?_, by simp⟩
  · rw [State.answers, Loc.fence, List.append_nil]
    simp only [Notify.State.goto, Notify.State.report, answersOf_preempted]
    exact hs.asked
  · simpa [Notify.State.goto, Notify.State.report] using hs.slot p
  · refine (Function.forall_update_iff s.notify.pc fun u pc => ThreadInv _ _ _ _ u (s.call u) pc).2
      ⟨⟨by simp [ht.call], by simp, ht.valid.of_ne (.inl (by simp)), by simp [copy], False.elim,
        by simp⟩, fun u hut =>
          (hs.thread u).congr le_rfl (by simp) (by simp [Ne.symm hut]) False.elim⟩

/-! ### The steps of `preempt_command` and of `dxgkrnl` -/

theorem Inv.setCall (hidle : s.notify.pc t = .idle) (hfence : c.fence = (s.call t).fence)
    (hvalid : c.Valid (f₀ + s.submitted) (s.notify.pc t) s.notify.engine) :
    Inv f₀ (s.setCall t c) loc := by
  have ht := hs.thread t
  have hpast : PastLock (s.setCall t c) loc → PastLock s loc := by
    intro hpast
    cases loc with
    | answered | taken u q => exact hpast
    | slot => trivial
    | call u =>
      by_cases hut : u = t
      · subst hut
        simp [PastLock, hidle, AtStart]
      · simpa [PastLock, State.setCall, Function.update_of_ne hut] using hpast
  refine ⟨hs.bound, hs.submitted, hs.asked, hs.slot, hs.nonzero, ?_, hs.willSwap⟩
  exact (Function.forall_update_iff s.call fun u c => ThreadInv _ _ _ _ u c (s.notify.pc u)).2
    ⟨⟨by rw [hfence]; exact ht.call, ht.taken, hvalid, ht.copy, fun h => ht.swap (hpast h),
      ht.preempted⟩, fun u _ => (hs.thread u).congr le_rfl (fun _ => Iff.rfl) (fun _ => Iff.rfl)
        fun h => (hs.thread u).swap (hpast h)⟩

theorem Inv.report {p last : ℕ} (hcall : s.call t = .report p last) :
    Inv f₀ ({ s with notify := s.notify.report (.dmaPreempted e p last) }.setCall t .idle)
      .answered := by
  have ht := hs.thread t
  rw [hcall] at ht
  obtain rfl : loc = .call t p := (ht.call p).1 rfl
  refine ⟨hs.bound, hs.submitted, ?_, fun q => ?_, by simp, ?_, by simp⟩
  · rw [State.answers, Loc.fence, List.append_nil]
    simp only [State.setCall, Notify.State.report, answersOf_preempted]
    exact hs.asked
  · simpa [State.setCall, Notify.State.report] using hs.slot q
  · exact (Function.forall_update_iff s.call fun u c => ThreadInv _ _ _ _ u c (s.notify.pc u)).2
      ⟨⟨by simp [CallPc.fence], by simp [ht.taken], trivial, ht.copy, False.elim, ht.preempted⟩,
        fun u hut => (hs.thread u).congr le_rfl (by simp [Ne.symm hut]) (by simp) False.elim⟩

theorem Inv.store {p : ℕ} (hcall : s.call t = .store p) :
    Inv f₀ ({ s with
        notify := { s.notify with
          engine := { s.notify.engine with lastPreemptionFence := p } }.goto t .nqLoad }.setCall t
            .second) (.slot p) := by
  have ht := hs.thread t
  rw [hcall] at ht
  obtain rfl : loc = .call t p := (ht.call p).1 rfl
  have hpast : PastLock s (.call t p) := by simp [PastLock, hcall]
  refine ⟨hs.bound, hs.submitted, hs.asked, fun q => ?_, by simp, ?_, fun _ _ => ⟨t, ?_⟩⟩
  · simp only [State.setCall, Notify.State.goto, Loc.slot.injEq]
    refine ⟨fun h => h.1, ?_⟩
    rintro rfl
    exact ⟨rfl, hs.nonzero t p rfl⟩
  · exact forall_thread (P := ThreadInv _ _ _ _)
      ⟨by simp [CallPc.fence], by simp, trivial, by simp [copy], by simp, by simp⟩ fun u hut =>
        (hs.thread u).congr le_rfl (by simp [Ne.symm hut]) (by simp) fun _ =>
          (hs.thread u).swap hpast
  · simp only [State.setCall, Notify.State.goto, Function.update_self]
    trivial

end

omit [DecidableEq τ] in
theorem Inv.submit (hs : Inv f₀ s .answered) (hbound : f₀ + s.submitted + 1 < 2 ^ 32) :
    Inv f₀ { s with
      notify := { s.notify with
        engine := { s.notify.engine with lastSubmittedFence := f₀ + s.submitted + 1 }
        todo := insert (f₀ + s.submitted + 1) s.notify.todo }
      submitted := s.submitted + 1 } .answered := by
  refine ⟨hbound, rfl, hs.asked, hs.slot, hs.nonzero, fun u => ?_, by simp⟩
  have hu := hs.thread u
  refine ⟨hu.call, hu.taken, ?_, hu.copy, False.elim, fun q last hpc => ?_⟩
  · -- no call compares or has compared
    cases hcall : s.call u with
    | idle | first p | second => trivial
    | loadSubmitted p last | report p last | store p => cases (hu.call p).1 (by rw [hcall]; rfl)
  · cases (hu.taken q).1 ⟨last, hpc⟩

theorem Inv.preemptCommand {p : ℕ} (hs : Inv f₀ s .answered) (hnz : p ≠ 0) :
    Inv f₀ ({ s with notify := s.notify.goto t .nqLoad, asked := s.asked ++ [p] }.setCall t
      (.first p)) (.call t p) := by
  refine ⟨hs.bound, hs.submitted, ?_, fun q => ?_, ?_, ?_, by simp⟩
  · have := hs.asked
    rw [Loc.fence, List.append_nil] at this
    simp only [State.setCall, this]
    rfl
  · simpa [State.setCall, Notify.State.goto] using hs.slot q
  · rintro u q ⟨⟩
    exact hnz
  · refine forall_thread (P := ThreadInv _ _ _ _)
      ⟨by simp [CallPc.fence], by simp, trivial, by simp [copy], by simp, by simp⟩ fun u hut =>
        (hs.thread u).congr le_rfl (by simp [Ne.symm hut]) (by simp) fun hpast => ?_
    -- the call has not been through the lock
    simp [PastLock, State.setCall, Notify.State.goto, AtStart] at hpast

omit [DecidableEq τ] in
theorem notifyInv_submit {n : ℕ} {s : Notify.State τ} (hs : Notify.Inv e f₀ n s home k) :
    Notify.Inv e f₀ (n + 1) { s with
        engine := { s.engine with lastSubmittedFence := f₀ + n + 1 }
        todo := insert (f₀ + n + 1) s.todo }
      (Function.update home (f₀ + n + 1) .todo) k := by
  have hout : home (f₀ + n + 1) = .outside := (hs.placed.outside _).2 (by omega)
  have hhome : ∀ {g : ℕ} {h : Notify.Home τ}, h ≠ .outside → h ≠ .todo →
      (Function.update home (f₀ + n + 1) .todo g = h ↔ home g = h) := by
    intro g h hne hne'
    rw [Function.update_apply]
    split_ifs with hg
    · subst hg
      rw [hout]
      exact iff_of_false (Ne.symm hne') (Ne.symm hne)
    · rfl
  refine ⟨⟨?_, ?_, ?_, ?_, ?_⟩, hs.le_completed, ?_, ?_, hs.completed, hs.lock, ?_, hs.look⟩
  · intro g
    rw [Function.update_apply]
    split_ifs with hg
    · simp only [false_iff, not_not]
      omega
    · rw [hs.placed.outside]
      omega
  · intro g
    rw [Function.update_apply, Finset.mem_insert]
    split_ifs with hg
    · simp [hg]
    · rw [hs.placed.todo]
      simp [hg]
  · intro u g b
    rw [hhome (by simp) (by simp)]
    exact hs.placed.held u g b
  · intro g
    rw [hhome (by simp) (by simp)]
    exact hs.placed.pending g
  · intro g
    rw [hhome (by simp) (by simp)]
    exact hs.placed.done g
  · intro g
    rw [Notify.reported_update (by simp [hout, Notify.Home.Reported]), hs.reported]
  · intro u g
    rw [hhome (by simp) (by simp)]
    exact hs.held_reported u g
  · intro u
    have hvalid := hs.valid u
    revert hvalid
    cases s.pc u <;> exact id

end Steps

/-! ### Whole runs -/

/-- Both invariants. -/
def Good (e : Engine) (f₀ : ℕ) (s : State τ) : Prop :=
  ∃ home k loc, Notify.Inv e f₀ s.submitted s.notify home k ∧ Inv f₀ s loc

theorem lift_eq_next {x : Outcome (Notify.State τ) Notify.Panic} (h : s.lift x = .next s') :
    ∃ notify, x = .next notify ∧ s' = { s with notify := notify } := by
  cases x with
  | next notify =>
    cases h
    exact ⟨notify, rfl, rfl⟩
  | stuck | panic p => cases h

theorem lift_eq_panic {x : Outcome (Notify.State τ) Notify.Panic} {p : Panic}
    (h : s.lift x = .panic p) : ∃ q, x = .panic q := by
  cases x with
  | panic q => exact ⟨q, rfl⟩
  | next notify | stuck => cases h

section Runs

variable [DecidableEq τ] {a : Act τ} {t : τ} {now : ℕ}

theorem Good.notify_step {notify : Notify.State τ} (hs : Good e f₀ s)
    (hstep : Notify.stepThread e s.notify t now = .next notify)
    (hne : s.notify.pc t ≠ .idle) : Good e f₀ { s with notify := notify } := by
  obtain ⟨home, k, loc, hnotify, hinv⟩ := hs
  obtain ⟨home', k', hnotify'⟩ := Notify.inv_stepThread hinv.bound hnotify hstep
  rcases stepThread_cases hnotify (hinv.thread t).copy hstep with
    ⟨last, hpc, hnz, rfl⟩ | ⟨q, last, hpc, rfl⟩ | ⟨p, hquiet⟩
  · exact ⟨home', k', _, hnotify', hinv.take hpc hnz⟩
  · exact ⟨home', k', _, hnotify', hinv.answer hpc⟩
  · by_cases htaken : ∃ q last, s.notify.pc t = .nqPreempted q last
    · obtain ⟨q, last, hpc⟩ := htaken
      simp only [Notify.stepThread, hpc] at hstep
      cases hstep
      exact ⟨home', k', _, hnotify', hinv.answer hpc⟩
    · refine ⟨home', k', loc, hnotify', hinv.quiet hnotify.lock hquiet (.inl hne) ?_⟩
      exact fun q last hpc => htaken ⟨q, last, hpc⟩

theorem Good.call_step (hs : Good e f₀ s) (hidle : s.notify.pc t = .idle)
    (hstep : s.stepThread e t now = .next s') : Good e f₀ s' := by
  obtain ⟨home, k, loc, hnotify, hinv⟩ := hs
  unfold State.stepThread at hstep
  rw [if_neg (not_not.2 hidle)] at hstep
  have hvalid := (hinv.thread t).valid
  cases hcall : s.call t with
  | idle => simp [hcall] at hstep
  | first =>
    simp only [hcall] at hstep
    cases hstep
    refine ⟨home, k, loc, hnotify, hinv.setCall hidle ?_ ⟨hidle, le_rfl⟩⟩
    rw [hcall]
    rfl
  | loadSubmitted =>
    rw [hcall] at hvalid
    simp only [hcall] at hstep
    split_ifs at hstep with hlast hzero
    · cases hstep
      refine ⟨home, k, loc, hnotify, hinv.setCall hidle ?_ ⟨hidle, ?_, hvalid.2⟩⟩
      · rw [hcall]
        rfl
      · rw [hlast, hinv.submitted]
    · cases hstep
      refine ⟨home, k, loc, hnotify, hinv.setCall hidle ?_ hidle⟩
      rw [hcall]
      rfl
  | report =>
    simp only [hcall] at hstep
    cases hstep
    refine ⟨home, k, _, ?_, hinv.report hcall⟩
    refine hnotify.congr ⟨rfl, rfl, rfl, ?_⟩ rfl rfl
    simp [State.setCall, Notify.State.completed, Notify.State.report, Interrupt.isDmaCompleted]
  | store p =>
    simp only [hcall] at hstep
    cases hstep
    refine ⟨home, k, _, ?_, hinv.store hcall⟩
    refine hnotify.move (t := t) (p := .nqLoad) ⟨rfl, rfl, rfl, rfl⟩ rfl ?_
      (Notify.lock_goto hnotify.lock ?_) trivial ?_
    all_goals simp [hidle]
  | second =>
    simp only [hcall] at hstep
    cases hstep
    refine ⟨home, k, loc, hnotify, hinv.setCall hidle ?_ trivial⟩
    rw [hcall]
    rfl

theorem quiet_start {n : ℕ} {s : Notify.State τ} {todo : Finset ℕ} {p : Notify.Pc}
    (hidle : s.pc t = .idle) (hp : (∃ f, p = .nfLoad f) ∨ p = .nqLoad) :
    Quiet f₀ n t p s ({ s with todo := todo }.goto t p) := by
  refine quiet_of_same rfl rfl rfl rfl rfl ?_ ?_ ?_ ?_ ?_
  all_goals rcases hp with ⟨f, rfl⟩ | rfl <;> simp [hidle, copy, WillSwap]

theorem good_step (hs : Good e f₀ s) (hstep : (machine τ e f₀).step s a = .next s') :
    Good e f₀ s' := by
  cases a with
  | step t =>
    by_cases hidle : s.notify.pc t = .idle
    · exact hs.call_step hidle hstep
    · simp only [machine, State.stepThread, ne_eq, hidle, not_false_eq_true, if_true] at hstep
      obtain ⟨notify, hnotify, rfl⟩ := lift_eq_next hstep
      exact hs.notify_step hnotify hidle
  | submit =>
    obtain ⟨home, k, loc, hnotify, hinv⟩ := hs
    simp only [machine] at hstep
    split_ifs at hstep with hok
    cases hstep
    obtain rfl := hinv.answered_iff.1 hok.1
    exact ⟨_, k, .answered, notifyInv_submit hnotify, hinv.submit hok.2⟩
  | submitStamp =>
    obtain ⟨home, k, loc, hnotify, hinv⟩ := hs
    cases hstep
    refine ⟨home, k, loc, hnotify.congr ⟨rfl, rfl, rfl, rfl⟩ rfl rfl, ?_⟩
    exact ⟨hinv.bound, hinv.submitted, hinv.asked, hinv.slot, hinv.nonzero, fun u =>
      (hinv.thread u).congr le_rfl (by simp) (by simp) (hinv.thread u).swap, hinv.willSwap⟩
  | preemptCommand =>
    obtain ⟨home, k, loc, hnotify, hinv⟩ := hs
    simp only [machine] at hstep
    split_ifs at hstep with hok
    cases hstep
    obtain rfl := hinv.answered_iff.1 hok.1
    obtain ⟨-, hnz, -, hidle⟩ := hok
    refine ⟨home, k, _, ?_, hinv.preemptCommand hnz⟩
    refine hnotify.goto ?_ ?_ trivial ?_
    all_goals simp [hidle]
  | notifyFence t f =>
    obtain ⟨home, k, loc, hnotify, hinv⟩ := hs
    simp only [machine] at hstep
    split_ifs at hstep with hcall
    obtain ⟨notify, hcalled, rfl⟩ := lift_eq_next hstep
    simp only [Notify.machine] at hcalled
    split_ifs at hcalled with hok
    cases hcalled
    refine ⟨_, k, loc, hnotify.call hok.1 hok.2, ?_⟩
    exact hinv.quiet hnotify.lock (quiet_start hok.1 (.inl ⟨f, rfl⟩)) (.inr hcall)
      (by simp [hok.1])
  | notifyQueuedFences =>
    obtain ⟨home, k, loc, hnotify, hinv⟩ := hs
    simp only [machine] at hstep
    split_ifs at hstep with hcall
    obtain ⟨notify, hcalled, rfl⟩ := lift_eq_next hstep
    simp only [Notify.machine] at hcalled
    split_ifs at hcalled with hidle
    cases hcalled
    refine ⟨home, k, loc, ?_, hinv.quiet hnotify.lock (quiet_start hidle (.inr rfl)) (.inr hcall)
      (by simp [hidle])⟩
    refine hnotify.goto ?_ ?_ trivial ?_
    all_goals simp [hidle]

theorem not_panic (hs : Good e f₀ s) (a : Act τ) (q : Panic) :
    (machine τ e f₀).step s a ≠ .panic q := by
  obtain ⟨home, k, loc, hnotify, hinv⟩ := hs
  intro hstep
  cases a with
  | submit | preemptCommand t p =>
    simp only [machine] at hstep
    split_ifs at hstep
  | submitStamp => cases hstep
  | notifyFence t f | notifyQueuedFences t =>
    simp only [machine] at hstep
    split_ifs at hstep with hcall
    obtain ⟨q', hq'⟩ := lift_eq_panic hstep
    exact Notify.not_panic hinv.bound hnotify hq'
  | step t now =>
    simp only [machine, State.stepThread] at hstep
    by_cases hidle : s.notify.pc t = .idle
    · rw [if_neg (not_not.2 hidle)] at hstep
      cases hcall : s.call t with
      | loadSubmitted p =>
        have hnz := hinv.nonzero t p (((hinv.thread t).call p).1 (by rw [hcall]; rfl))
        simp only [hcall] at hstep
        split_ifs at hstep
      | idle | first p | report p last | store p | second => simp [hcall] at hstep
    · rw [if_pos hidle] at hstep
      obtain ⟨q', hq'⟩ := lift_eq_panic hstep
      exact Notify.not_panic (a := .step t now) hinv.bound hnotify hq'

theorem answers_step (hs : Good e f₀ s) (hstep : (machine τ e f₀).step s a = .next s') :
    s'.answers = s.answers ∨ ∃ p last,
      s'.notify.reports = s.notify.reports ++ [.dmaPreempted e p last] ∧
        last = f₀ + s.submitted ∧ last ≤ s.notify.engine.lastCompletedFence := by
  obtain ⟨home, k, loc, hnotify, hinv⟩ := hs
  cases a with
  | submit | preemptCommand t p =>
    simp only [machine] at hstep
    split_ifs at hstep
    cases hstep
    exact .inl rfl
  | submitStamp =>
    cases hstep
    exact .inl rfl
  | notifyFence t f | notifyQueuedFences t =>
    simp only [machine] at hstep
    split_ifs at hstep
    obtain ⟨notify, hcalled, rfl⟩ := lift_eq_next hstep
    simp only [Notify.machine] at hcalled
    split_ifs at hcalled
    cases hcalled
    exact .inl rfl
  | step t =>
    simp only [machine, State.stepThread] at hstep
    by_cases hidle : s.notify.pc t = .idle
    · rw [if_neg (not_not.2 hidle)] at hstep
      have hvalid := (hinv.thread t).valid
      cases hcall : s.call t with
      | idle => simp [hcall] at hstep
      | first p | store p | second =>
        simp only [hcall] at hstep
        cases hstep
        exact .inl rfl
      | loadSubmitted =>
        simp only [hcall] at hstep
        split_ifs at hstep
        all_goals
          cases hstep
          exact .inl rfl
      | report p last =>
        rw [hcall] at hvalid
        simp only [hcall] at hstep
        cases hstep
        exact .inr ⟨p, last, rfl, hvalid.2⟩
    · rw [if_pos hidle] at hstep
      obtain ⟨notify, hthread, rfl⟩ := lift_eq_next hstep
      rcases stepThread_cases hnotify (hinv.thread t).copy hthread with
        ⟨last, hpc, hnz, rfl⟩ | ⟨q, last, hpc, rfl⟩ | ⟨p, hquiet⟩
      · exact .inl rfl
      · refine .inr ⟨q, last, rfl, (hinv.thread t).preempted q last hpc,
          (hinv.thread t).copy last ?_⟩
        rw [hpc]
        rfl
      · exact .inl hquiet.answers

omit [DecidableEq τ] in
theorem mem_reports {n k f : ℕ} {s : Notify.State τ} {home : ℕ → Notify.Home τ}
    (hs : Notify.Inv e f₀ n s home k) (hf : f₀ < f) (hle : f ≤ s.engine.lastCompletedFence) :
    .dmaCompleted e f ∈ s.reports := by
  have hdone : home f = .done := (hs.placed.done f).2 ⟨hf, hle⟩
  have hrep := (hs.reported f).1 (by rw [hdone]; trivial)
  have hmem : .dmaCompleted e f ∈ s.completed := by
    rw [hs.completed, List.mem_map]
    exact ⟨f, List.mem_range'_1.2 ⟨hf, by omega⟩, rfl⟩
  exact List.mem_of_mem_filter hmem

omit [DecidableEq τ] in
theorem Good.finished (hs : Good e f₀ s) (htodo : s.notify.todo = ∅)
    (hidle : ∀ t, s.notify.pc t = .idle ∧ s.call t = .idle) : s.answers = s.asked := by
  obtain ⟨home, k, loc, hnotify, hinv⟩ := hs
  have hasked := hinv.asked
  cases loc with
  | answered => simpa [Loc.fence] using hasked.symm
  | call t p =>
    have := ((hinv.thread t).call p).2 rfl
    rw [(hidle t).2] at this
    cases this
  | taken t p =>
    obtain ⟨last, hpc⟩ := ((hinv.thread t).taken p).2 rfl
    rw [(hidle t).1] at hpc
    cases hpc
  | slot p =>
    obtain ⟨t, ht⟩ := hinv.willSwap ⟨p, rfl⟩ (hnotify.completed_eq htodo fun t => (hidle t).1)
    rw [(hidle t).1] at ht
    cases ht

end Runs

/-- **Preemption requests are answered**, in order and each at most once; a step that answers one
reports the last submitted fence (or the initial one) as completed, after the completion of that
fence; and when all submitted fences have been passed to `notify_fence` and all calls have returned,
every request has been answered.  No step panics. -/
theorem preempt_answered [DecidableEq τ] (e : Engine) (f₀ : ℕ) (engine : EngineState)
    (hengine : engine.Settled f₀) (hp : engine.lastPreemptionFence = 0) (as : List (Act τ))
    (s : State τ) (hrun : (machine τ e f₀).run (init τ engine) as = some s) :
    (∃ rest, s.asked = s.answers ++ rest ∧ rest.length ≤ 1) ∧
      (s.notify.todo = ∅ → (∀ t, s.notify.pc t = .idle ∧ s.call t = .idle) →
        s.answers = s.asked) ∧
      (∀ a s', (machine τ e f₀).step s a = .next s' → s'.answers = s.answers ∨ ∃ p last,
        s'.notify.reports = s.notify.reports ++ [.dmaPreempted e p last] ∧
          last = f₀ + s.submitted ∧
            (0 < s.submitted → .dmaCompleted e last ∈ s.notify.reports)) ∧
      ∀ a q, (machine τ e f₀).step s a ≠ .panic q := by
  have hs : Good e f₀ s := by
    refine Machine.run_invariant (I := Good e f₀) (fun _ _ _ => good_step) ?_ hrun
    obtain ⟨home, hhome⟩ := Notify.inv_init (τ := τ) (e := e) engine 0 hengine.pending
    rw [hengine.completed] at hhome
    exact ⟨home, 0, .answered, hhome, inv_init hengine hp⟩
  refine ⟨?_, hs.finished, fun a s' hstep => ?_, not_panic hs⟩
  · obtain ⟨home, k, loc, -, hinv⟩ := hs
    refine ⟨loc.fence, hinv.asked, ?_⟩
    cases loc <;> simp [Loc.fence]
  · refine (answers_step hs hstep).imp_right ?_
    rintro ⟨p, last, hreports, hlast, hle⟩
    obtain ⟨home, k, loc, hnotify, hinv⟩ := hs
    refine ⟨p, last, hreports, hlast, fun hpos => mem_reports hnotify ?_ hle⟩
    omega

/-- Fence 1 completes on one thread while another is in `preempt_command` for 5, which has found it
outstanding. -/
def overtaken : List (Act Bool) :=
  [Act.submit, .preemptCommand true 5] ++ List.replicate 8 (Act.step true 0) ++
    [Act.notifyFence false 1] ++ List.replicate 11 (Act.step false 0) ++
    List.replicate 7 (Act.step true 0)

theorem preempt_answered_overtaken :
    ∃ s, (machine Bool .graphics 0).run (init Bool ⟨0, 0, 0, ∅, 0, 0⟩) overtaken = some s ∧
      s.notify.reports = [.dmaCompleted .graphics 1, .dmaPreempted .graphics 5 1] ∧
      s.answers = s.asked := by
  refine ⟨_, rfl, rfl, ?_⟩
  refine (preempt_answered .graphics 0 ⟨0, 0, 0, ∅, 0, 0⟩ ⟨by decide, rfl, rfl, rfl⟩ rfl overtaken _
    rfl).2.1 rfl fun t => ?_
  cases t <;> exact ⟨rfl, rfl⟩

end Preempt

end VirtioGpu
