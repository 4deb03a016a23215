import VirtioGpu.Queue.Submit
import Mathlib.Data.List.Perm.Basic

/-!
# A batch of requests and its last reference

`submit_command_batch` sends the commands of one submission as requests of their own, which share
the allocations of the submission through an `Arc`: every request takes a clone of it with it, and
the caller keeps one until all requests are queued.  Whoever releases the last reference with
`Arc::into_inner` marks the allocations free and reports the fence.  That can be the handler
thread, for any of the requests, or the caller, if the handler is faster than its loop; both
contain the code.

Here the two threads run side by side.  Cloning a reference, queueing a request and `into_inner`
are one step each, and so are marking an allocation and reporting the fence.  The devices and
allocations of a batch stay; neither thread lets go of one before it is marked.

* `batch_reported_once` : in every interleaving all requests complete before the first allocation
  is marked, each allocation is marked once, then the fence is reported, and nothing follows.
* `BatchState.length_run` : every run comes to its end.
-/

namespace VirtioGpu

/-- The arguments of `submit_command_batch`, with allocations from `α`. -/
structure Batch (α : Type) where
  engine : Engine
  fence : ℕ
  cmds : List Command
  allocations : List α

/-- Where the caller of `submit_command_batch` is. -/
inductive BatchPc (α : Type) where
  | start
  /-- At the `i`-th command, or after the last. -/
  | clone (i : ℕ)
  /-- It has cloned the reference for the `i`-th request. -/
  | push (i : ℕ)
  | intoInner
  /-- It has the batch, whose `drop` has yet to mark `rest`; then it reports the fence. -/
  | finish (rest : List α)
  | returned

/-- Where the handler thread is. -/
inductive BatchHandlerPc (α : Type) where
  | idle
  /-- In `response`, with the callback of a request that has completed. -/
  | intoInner
  /-- As for the caller. -/
  | finish (rest : List α)

/-- What happens to a batch. -/
inductive BatchEvent (α : Type) where
  | completed (i : ℕ)
  | markFree (a : α)
  | notifyDmaCompleted (e : Engine) (f : ℕ)
  deriving DecidableEq

/-- A batch between the two threads. -/
structure BatchState (α : Type) where
  /-- The strong count of the `Arc`. -/
  strong : ℕ
  submitter : BatchPc α
  /-- The requests that are queued and have not completed. -/
  queued : List ℕ
  handler : BatchHandlerPc α
  /-- What has happened, oldest first. -/
  log : List (BatchEvent α)

inductive BatchAct where
  | submitter
  /-- The device has completed the `i`-th request, and the handler takes up its callback. -/
  | complete (i : ℕ)
  | handler

namespace BatchState

variable {α : Type}

def emit (s : BatchState α) (ev : BatchEvent α) : BatchState α := { s with log := s.log ++ [ev] }

/-- A step of `submit_command_batch`. -/
def stepSubmitter (b : Batch α) (s : BatchState α) : Outcome (BatchState α) SubmitPanic :=
  match s.submitter with
  | .start =>
    if b.cmds.length ≤ 1 then .panic .batchTooShort
    else .next { s with strong := 1, submitter := .clone 0 }
  | .clone i => match b.cmds[i]? with
    | none => .next { s with submitter := .intoInner }
    | some cmd =>
      if cmd.id = .nop then .panic .nopInBatch
      else match cmd.getDma with
        | none => .panic .noDmaInBatch
        | some _ => .next { s with strong := s.strong + 1, submitter := .push i }
  | .push i => .next { s with queued := s.queued ++ [i], submitter := .clone (i + 1) }
  | .intoInner =>
    if s.strong = 1 then .next { s with strong := 0, submitter := .finish b.allocations }
    else .next { s with strong := s.strong - 1, submitter := .returned }
  | .finish (a :: rest) => .next { s.emit (.markFree a) with submitter := .finish rest }
  | .finish [] =>
    .next { s.emit (.notifyDmaCompleted b.engine b.fence) with submitter := .returned }
  | .returned => .stuck

/-- A step of `Queue::response` for a `DmaCompletedBatched`. -/
def stepHandler (b : Batch α) (s : BatchState α) : Outcome (BatchState α) SubmitPanic :=
  match s.handler with
  | .idle => .stuck
  | .intoInner =>
    if s.strong = 1 then .next { s with strong := 0, handler := .finish b.allocations }
    else .next { s with strong := s.strong - 1, handler := .idle }
  | .finish (a :: rest) => .next { s.emit (.markFree a) with handler := .finish rest }
  | .finish [] =>
    .next { s.emit (.notifyDmaCompleted b.engine b.fence) with handler := .idle }

def step (b : Batch α) (s : BatchState α) : BatchAct → Outcome (BatchState α) SubmitPanic
  | .submitter => s.stepSubmitter b
  | .complete i => match s.handler with
    | .idle =>
      if i ∈ s.queued then
        .next { s.emit (.completed i) with queued := s.queued.erase i, handler := .intoInner }
      else .stuck
    | _ => .stuck
  | .handler => s.stepHandler b

/-- `submit_command_batch` is called. -/
def init : BatchState α := ⟨0, .start, [], .idle, []⟩

end BatchState

def batchMachine {α : Type} (b : Batch α) : Machine (BatchState α) BatchAct SubmitPanic :=
  ⟨BatchState.step b⟩

namespace Batch

variable {α : Type}

/-- More than one command, each with its bytes in a DMA buffer. -/
structure Sendable (b : Batch α) : Prop where
  two : 2 ≤ b.cmds.length
  id : ∀ cmd ∈ b.cmds, cmd.id ≠ .nop
  dma : ∀ cmd ∈ b.cmds, cmd.getDma.isSome

/-- The requests complete in the order `order`, then the allocations are marked free, then the
fence is reported. -/
def history (b : Batch α) (order : List ℕ) : List (BatchEvent α) :=
  order.map .completed ++ (b.allocations.map .markFree ++ [.notifyDmaCompleted b.engine b.fence])

end Batch

/-! ### Who holds a reference -/

namespace BatchPc

variable {α : Type}

/-- The references in the hands of the caller: its own, and a clone that is not queued yet. -/
def refs : BatchPc α → ℕ
  | start => 0
  | clone _ => 1
  | push _ => 2
  | intoInner => 1
  | finish _ | returned => 0

/-- The number of requests queued so far, of `n`. -/
def pushed (n : ℕ) : BatchPc α → ℕ
  | start => 0
  | clone i | push i => i
  | intoInner | finish _ | returned => n

/-- It has the batch. -/
def isFinish : BatchPc α → Bool
  | finish _ => true
  | _ => false

/-- The loop is inside the `n` commands. -/
def Valid (n : ℕ) : BatchPc α → Prop
  | clone i => i ≤ n
  | push i => i < n
  | _ => True

end BatchPc

namespace BatchHandlerPc

variable {α : Type}

/-- The reference of the callback. -/
def refs : BatchHandlerPc α → ℕ
  | intoInner => 1
  | idle | finish _ => 0

/-- It has the batch. -/
def isFinish : BatchHandlerPc α → Bool
  | finish _ => true
  | _ => false

end BatchHandlerPc

namespace BatchState

variable {α : Type}

/-- The references of the caller, of the queued requests and of the handler. -/
def refs (s : BatchState α) : ℕ := s.submitter.refs + s.queued.length + s.handler.refs

/-- How far a batch is: there are references, and their number is the strong count; or the last one
has been released and one thread is at the end of the batch; or all is done. -/
inductive Inv (b : Batch α) : BatchState α → Prop
  | shared {s : BatchState α} (order : List ℕ) (strong : s.strong = s.refs)
      (start : s.submitter = .start → s.refs = 0) (holder : s.submitter = .start ∨ 0 < s.refs)
      (valid : s.submitter.Valid b.cmds.length)
      (submitter : s.submitter.isFinish = false) (handler : s.handler.isFinish = false)
      (requests : (s.queued ++ order).Perm (List.range (s.submitter.pushed b.cmds.length)))
      (log : s.log = order.map .completed) : Inv b s
  | submitter (order : List ℕ) (done rest : List α)
      (requests : order.Perm (List.range b.cmds.length)) (marks : done ++ rest = b.allocations) :
      Inv b ⟨0, .finish rest, [], .idle, order.map .completed ++ done.map .markFree⟩
  | handler (order : List ℕ) (done rest : List α)
      (requests : order.Perm (List.range b.cmds.length)) (marks : done ++ rest = b.allocations) :
      Inv b ⟨0, .returned, [], .finish rest, order.map .completed ++ done.map .markFree⟩
  | finished (order : List ℕ) (requests : order.Perm (List.range b.cmds.length)) :
      Inv b ⟨0, .returned, [], .idle, b.history order⟩

variable {b : Batch α} {s s' : BatchState α} {a : BatchAct} {order : List ℕ}

theorem inv_init : Inv b init :=
  .shared [] rfl (fun _ => rfl) (.inl rfl) trivial rfl rfl (.refl _) rfl

theorem stepSubmitter_clone (hb : b.Sendable) {i : ℕ} (hpc : s.submitter = .clone i) :
    s.stepSubmitter b = if i < b.cmds.length then
        .next { s with strong := s.strong + 1, submitter := .push i }
      else .next { s with submitter := .intoInner } := by
  unfold stepSubmitter
  rw [hpc]
  by_cases hi : i < b.cmds.length
  · have hmem := List.getElem_mem hi
    obtain ⟨dma, hdma⟩ := Option.isSome_iff_exists.1 (hb.dma _ hmem)
    simp [hi, hb.id _ hmem, hdma]
  · simp [hi]

theorem not_panic (hb : b.Sendable) (s : BatchState α) (a : BatchAct) (p : SubmitPanic) :
    step b s a ≠ .panic p := by
  intro h
  cases a with
  | complete =>
    simp only [step] at h
    split at h <;> try split_ifs at h
    all_goals cases h
  | handler =>
    simp only [step, stepHandler] at h
    split at h <;> try split_ifs at h
    all_goals cases h
  | submitter =>
    simp only [step] at h
    cases hpc : s.submitter with
    | clone =>
      rw [stepSubmitter_clone hb hpc] at h
      split_ifs at h
    | start =>
      have := hb.two
      simp only [stepSubmitter, hpc] at h
      rw [if_neg (by omega)] at h
      cases h
    | intoInner =>
      simp only [stepSubmitter, hpc] at h
      split_ifs at h
    | finish rest => cases rest <;> simp [stepSubmitter, hpc] at h
    | push i | returned => simp [stepSubmitter, hpc] at h

theorem step_complete {i : ℕ} (h : step b s (.complete i) = .next s') :
    s.handler = .idle ∧ i ∈ s.queued ∧
      s' = { s.emit (.completed i) with queued := s.queued.erase i, handler := .intoInner } := by
  simp only [step] at h
  cases hpc : s.handler with
  | idle =>
    simp only [hpc] at h
    split_ifs at h with hi
    cases h
    exact ⟨rfl, hi, rfl⟩
  | intoInner | finish rest => simp [hpc] at h

theorem inv_submitter_of_shared (hb : b.Sendable) (hstrong : s.strong = s.refs)
    (hstart : s.submitter = .start → s.refs = 0) (hvalid : s.submitter.Valid b.cmds.length)
    (hfinish : s.handler.isFinish = false)
    (hrequests : (s.queued ++ order).Perm (List.range (s.submitter.pushed b.cmds.length)))
    (hlog : s.log = order.map .completed) (hsub : s.submitter.isFinish = false)
    (hstep : s.stepSubmitter b = .next s') : Inv b s' := by
  cases s with | mk strong submitter queued handler log =>
  simp only [refs] at hstrong hstart hlog hrequests hvalid hfinish
  cases submitter with
  | start =>
    have hzero : queued.length + handler.refs = 0 := by
      simpa only [BatchPc.refs, Nat.zero_add] using hstart rfl
    simp only [stepSubmitter] at hstep
    split_ifs at hstep
    cases hstep
    refine .shared order ?_ nofun (.inr ?_) (Nat.zero_le _) rfl hfinish hrequests hlog
    · simp only [refs, BatchPc.refs]
      omega
    · simp only [refs, BatchPc.refs]
      omega
  | clone i =>
    rw [stepSubmitter_clone hb rfl] at hstep
    split_ifs at hstep with hi
    · cases hstep
      refine .shared order ?_ nofun (.inr ?_) hi rfl hfinish hrequests hlog
      · simp only [refs, BatchPc.refs] at hstrong ⊢
        omega
      · simp only [refs, BatchPc.refs]
        omega
    · cases hstep
      obtain rfl : i = b.cmds.length := le_antisymm hvalid (not_lt.1 hi)
      exact .shared order hstrong nofun (.inr (by simp only [refs, BatchPc.refs]; omega)) trivial
        rfl hfinish hrequests hlog
  | push i =>
    cases hstep
    refine .shared order ?_ nofun (.inr ?_) hvalid rfl hfinish ?_ hlog
    · simp only [refs, BatchPc.refs, List.length_append, List.length_singleton] at hstrong ⊢
      omega
    · simp only [refs, BatchPc.refs]
      omega
    · -- the new request goes behind the others
      have hrange : (List.range i ++ [i]).Perm (List.range (i + 1)) := by rw [List.range_succ]
      have hswap : (queued ++ [i] ++ order).Perm (queued ++ order ++ [i]) := by
        rw [List.append_assoc, List.append_assoc]
        exact List.Perm.append_left _ List.perm_append_comm
      exact hswap.trans ((hrequests.append_right [i]).trans hrange)
  | intoInner =>
    simp only [stepSubmitter] at hstep
    simp only [BatchPc.refs] at hstrong
    split_ifs at hstep with hlast
    · cases hstep
      -- nobody else holds a reference: all requests have been released
      obtain rfl : queued = [] := List.eq_nil_of_length_eq_zero (by omega)
      have hidle : handler = .idle := by
        cases handler with
        | idle => rfl
        | intoInner =>
          simp only [BatchHandlerPc.refs] at hstrong
          omega
        | finish => cases hfinish
      subst hidle hlog
      have := Inv.submitter (b := b) order [] b.allocations hrequests rfl
      rwa [List.map_nil, List.append_nil] at this
    · cases hstep
      refine .shared order ?_ nofun (.inr ?_) trivial rfl hfinish hrequests hlog
      · simp only [refs, BatchPc.refs]
        omega
      · simp only [refs, BatchPc.refs]
        omega
  | finish => cases hsub
  | returned => cases hstep

section

variable (hstrong : s.strong = s.refs) (hstart : s.submitter = .start → s.refs = 0)
  (hvalid : s.submitter.Valid b.cmds.length) (hsub : s.submitter.isFinish = false)
  (hrequests : (s.queued ++ order).Perm (List.range (s.submitter.pushed b.cmds.length)))
include hstrong hstart hvalid hsub hrequests

theorem inv_handler_of_shared (hlog : s.log = order.map .completed)
    (hfinish : s.handler.isFinish = false) (hstep : s.stepHandler b = .next s') : Inv b s' := by
  cases s with | mk strong submitter queued handler log =>
  simp only [refs] at hstrong hstart hlog hrequests hvalid hsub
  cases handler with
  | idle => cases hstep
  | finish => cases hfinish
  | intoInner =>
    simp only [BatchHandlerPc.refs] at hstrong hstart
    simp only [stepHandler] at hstep
    split_ifs at hstep with hlast
    · cases hstep
      -- the caller has no reference, and so it has released its own
      obtain rfl : queued = [] := List.eq_nil_of_length_eq_zero (by omega)
      have hreturned : submitter = .returned := by
        cases submitter with
        | returned => rfl
        | start =>
          have := hstart rfl
          omega
        | finish => cases hsub
        | clone i | push i | intoInner =>
          simp only [BatchPc.refs] at hstrong
          omega
      subst hreturned hlog
      have := Inv.handler (b := b) order [] b.allocations hrequests rfl
      rwa [List.map_nil, List.append_nil] at this
    · cases hstep
      refine .shared order ?_ (fun h => ?_) (.inr ?_) hvalid hsub rfl hrequests hlog
      · simp only [refs, BatchHandlerPc.refs]
        omega
      · have := hstart h
        omega
      · simp only [refs, BatchHandlerPc.refs]
        omega

theorem inv_complete_of_shared {i : ℕ} (hlog : s.log = order.map .completed)
    (hstep : step b s (.complete i) = .next s') :
    Inv b s' := by
  obtain ⟨hidle, hi, rfl⟩ := step_complete hstep
  have hlen := List.length_erase_add_one hi
  refine .shared (order ++ [i]) ?_ (fun h => ?_) (.inr ?_) hvalid hsub rfl ?_ ?_
  · simp only [refs, emit, hidle, BatchHandlerPc.refs] at hstrong ⊢
    omega
  · have := hstart h
    simp only [refs] at this
    omega
  · simp only [refs, emit, BatchHandlerPc.refs]
    omega
  · have hback : (s.queued.erase i ++ (order ++ [i])).Perm (s.queued ++ order) := by
      refine List.Perm.trans ?_ ((List.perm_cons_erase hi).symm.append_right order)
      rw [← List.append_assoc]
      exact List.perm_append_singleton _ _
    exact hback.trans hrequests
  · simp [emit, hlog]

end

theorem inv_step (hb : b.Sendable) (hs : Inv b s) (hstep : (batchMachine b).step s a = .next s') :
    Inv b s' := by
  simp only [batchMachine] at hstep
  cases hs with
  | shared order hstrong hstart hholder hvalid hsub hfinish hrequests hlog =>
    cases a with
    | submitter =>
      exact inv_submitter_of_shared hb hstrong hstart hvalid hfinish hrequests hlog hsub hstep
    | handler =>
      exact inv_handler_of_shared hstrong hstart hvalid hsub hrequests hlog hfinish hstep
    | complete => exact inv_complete_of_shared hstrong hstart hvalid hsub hrequests hlog hstep
  | submitter order done rest hrequests hmarks =>
    cases a with
    | submitter =>
      cases rest with
      | nil =>
        cases hstep
        rw [List.append_nil] at hmarks
        subst hmarks
        have := Inv.finished (b := b) order hrequests
        simpa [emit, Batch.history] using this
      | cons x rest =>
        cases hstep
        have := Inv.submitter (b := b) order (done ++ [x]) rest hrequests (by simpa using hmarks)
        simpa [emit] using this
    | complete =>
      obtain ⟨-, hi, -⟩ := step_complete hstep
      cases hi
    | handler => cases hstep
  | handler order done rest hrequests hmarks =>
    cases a with
    | handler =>
      cases rest with
      | nil =>
        cases hstep
        rw [List.append_nil] at hmarks
        subst hmarks
        have := Inv.finished (b := b) order hrequests
        simpa [emit, Batch.history] using this
      | cons x rest =>
        cases hstep
        have := Inv.handler (b := b) order (done ++ [x]) rest hrequests (by simpa using hmarks)
        simpa [emit] using this
    | complete =>
      obtain ⟨-, hi, -⟩ := step_complete hstep
      cases hi
    | submitter => cases hstep
  | finished =>
    cases a with
    | complete =>
      obtain ⟨-, hi, -⟩ := step_complete hstep
      cases hi
    | submitter | handler => cases hstep

/-! ### A run comes to its end -/

/-- The steps the caller has before it, with those it makes necessary for the handler. -/
def stepsSubmitter (n : ℕ) : BatchPc α → ℕ
  | .start => 4 * n + 3
  | .clone i => 4 * (n - i) + 2
  | .push i => 4 * (n - i) + 1
  | .intoInner => 1
  | .finish _ | .returned => 0

/-- An allocation is marked, or the fence is reported. -/
def isEnd : BatchEvent α → Bool
  | .completed _ => false
  | .markFree _ | .notifyDmaCompleted .. => true

/-- The number of steps still to come. -/
def remaining (b : Batch α) (s : BatchState α) : ℕ :=
  stepsSubmitter b.cmds.length s.submitter + 2 * s.queued.length + s.handler.refs +
    (b.allocations.length + 1 - s.log.countP isEnd)

@[simp] theorem countP_isEnd_completed (order : List ℕ) :
    (order.map (BatchEvent.completed (α := α))).countP isEnd = 0 := by
  simp [List.countP_eq_zero, isEnd]

@[simp] theorem countP_isEnd_markFree (done : List α) :
    (done.map BatchEvent.markFree).countP isEnd = done.length := by
  rw [List.countP_map, List.countP_eq_length.2 (by simp [isEnd])]

theorem remaining_step (hb : b.Sendable) (hs : Inv b s)
    (hstep : (batchMachine b).step s a = .next s') : remaining b s' + 1 = remaining b s := by
  simp only [batchMachine] at hstep
  cases hs with
  | shared order hstrong hstart hholder hvalid hsub hfinish hrequests hlog =>
    cases a with
    | complete i =>
      obtain ⟨hidle, hi, rfl⟩ := step_complete hstep
      have := List.length_erase_add_one hi
      simp only [remaining, emit, hidle, hlog, BatchHandlerPc.refs, List.countP_append,
        countP_isEnd_completed, List.countP_singleton, isEnd, Bool.false_eq_true, if_false]
      omega
    | handler =>
      cases hpc : s.handler with
      | idle => simp [step, stepHandler, hpc] at hstep
      | finish => simp [hpc, BatchHandlerPc.isFinish] at hfinish
      | intoInner =>
        simp only [step, stepHandler, hpc] at hstep
        split_ifs at hstep
        all_goals
          cases hstep
          simp only [remaining, hpc, BatchHandlerPc.refs]
          omega
    | submitter =>
      cases hpc : s.submitter with
      | start =>
        simp only [step, stepSubmitter, hpc] at hstep
        split_ifs at hstep
        cases hstep
        simp only [remaining, hpc, stepsSubmitter]
        omega
      | clone i =>
        simp only [step] at hstep
        rw [stepSubmitter_clone hb hpc] at hstep
        rw [hpc] at hvalid
        simp only [BatchPc.Valid] at hvalid
        split_ifs at hstep
        all_goals
          cases hstep
          simp only [remaining, hpc, stepsSubmitter]
          omega
      | push i =>
        simp only [step, stepSubmitter, hpc] at hstep
        cases hstep
        rw [hpc] at hvalid
        simp only [BatchPc.Valid] at hvalid
        simp only [remaining, hpc, stepsSubmitter, List.length_append, List.length_singleton]
        omega
      | intoInner =>
        simp only [step, stepSubmitter, hpc] at hstep
        split_ifs at hstep
        all_goals
          cases hstep
          simp only [remaining, hpc, stepsSubmitter]
          omega
      | finish => simp [hpc, BatchPc.isFinish] at hsub
      | returned => simp [step, stepSubmitter, hpc] at hstep
  | submitter order done rest hrequests hmarks | handler order done rest hrequests hmarks =>
    have hlen : done.length + rest.length = b.allocations.length := by
      rw [← hmarks, List.length_append]
    cases a with
    | complete =>
      obtain ⟨-, hi, -⟩ := step_complete hstep
      cases hi
    | submitter | handler =>
      cases rest <;> cases hstep
      all_goals
        simp only [List.length_nil, List.length_cons] at hlen
        simp only [remaining, emit, List.countP_append, countP_isEnd_completed,
          countP_isEnd_markFree, List.countP_singleton, isEnd, stepsSubmitter, BatchHandlerPc.refs]
        simp only [if_true]
        omega
  | finished =>
    cases a with
    | complete =>
      obtain ⟨-, hi, -⟩ := step_complete hstep
      cases hi
    | submitter | handler => cases hstep

/-- Every run comes to its end: what it has done and what it has before it is always the same
number of steps. -/
theorem length_run (hb : b.Sendable) {as : List BatchAct}
    (hrun : (batchMachine b).run init as = some s) :
    as.length + remaining b s = 4 * b.cmds.length + b.allocations.length + 4 := by
  have hall : ∀ (as : List BatchAct) (s₀ : BatchState α), Inv b s₀ →
      (batchMachine b).run s₀ as = some s → as.length + remaining b s = remaining b s₀ := by
    intro as
    induction as with
    | nil =>
      intro s₀ _ hrun
      cases hrun
      exact Nat.zero_add _
    | cons a as ih =>
      intro s₀ hs₀ hrun
      obtain ⟨s₁, hstep, hrun⟩ := Machine.run_cons_eq_some.1 hrun
      have := ih s₁ (inv_step hb hs₀ hstep) hrun
      have := remaining_step hb hs₀ hstep
      rw [List.length_cons]
      omega
  rw [hall as init inv_init hrun]
  simp only [remaining, init, stepsSubmitter, List.length_nil, List.countP_nil,
    BatchHandlerPc.refs]
  omega

end BatchState

/-- Two commands with one allocation. -/
def twoCommands : Batch ℕ where
  engine := .graphics
  fence := 7
  cmds := [.new .submit none 0 (some ⟨0, 32⟩), .new .submit none 0 (some ⟨32, 32⟩)]
  allocations := [5]

/-- Both requests complete before the caller is out of its loop, so that it finishes the batch. -/
def fastHandler : List BatchAct :=
  [.submitter, .submitter, .submitter, .complete 0, .handler, .submitter, .submitter, .complete 1,
    .handler, .submitter, .submitter, .submitter, .submitter]

theorem BatchState.length_run_fastHandler :
    ∃ s, (batchMachine twoCommands).run init fastHandler = some s ∧
      remaining twoCommands s = 0 := by
  have hrun : ((batchMachine twoCommands).run init fastHandler).isSome := by decide
  obtain ⟨s, hs⟩ := Option.isSome_iff_exists.1 hrun
  have hlength := length_run (b := twoCommands) ⟨by decide, by decide, by decide⟩ hs
  exact ⟨s, hs, Nat.add_left_cancel (hlength.trans (by decide))⟩

end VirtioGpu
