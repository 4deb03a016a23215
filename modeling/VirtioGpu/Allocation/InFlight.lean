import VirtioGpu.Device.Render
import VirtioGpu.Machine.Basic

/-!
# Allocations of work that is under way

`render` and `present` mark the allocations of a DMA buffer busy and put references to them into the
private data of the buffer.  `submit_command` takes the private data and hands the references, as an
`AllocationsBatch`, to the callback of a request, or to the callbacks of several requests, which
then share them.  Whoever drops the batch marks the allocations free and then releases the
references: the handler thread when the last request has completed, or the submitting thread if
there was nothing to send or a request could not be queued.

A reference is one to a `DeviceSpecificAllocation`.  The handles that `dxgkrnl` has of it are
references too; they are closed by `close_allocation`.  Releasing the last reference detaches the
resource from the context of the device, with a request that blocks until the handler thread has
seen the answer, unless the allocation or the device is gone.

Any number of calls run side by side with the handler thread.  Cloning a reference, marking an
allocation, queueing a request and releasing a reference are one step each.  A call of `render` is
made with the arguments of `RenderEnv` and starts where it has encoded its commands; the commands of
`present` are arbitrary.

* `inFlightMachine` : the calls, the handler thread and `dxgkrnl`.
* `InFlight.marks`, `InFlight.pinned`, `InFlight.releasing`, `InFlight.arcs` : what all of them hold
  together.
-/

namespace VirtioGpu

/-- A batch that is being dropped. -/
structure Dropping where
  /-- `AllocationsBatch::drop` has yet to mark these free. -/
  marking : List ℕ
  /-- Then these references are released. -/
  releasing : List ℕ

/-- The drop of an `AllocationsBatch`. -/
def Dropping.batch (allocations : List ℕ) : Dropping := ⟨allocations, allocations⟩

/-- The callback of a request. -/
inductive DmaCallback where
  /-- `Callback::DmaCompleted` -/
  | completed
  /-- `Callback::DmaCompletedWithAllocations` -/
  | withAllocations (allocations : List ℕ)
  /-- `Callback::DmaCompletedBatched` with one of the shared batches. -/
  | batched (batch : ℕ)

/-- The callback of a request for a single command; without allocations there is no batch. -/
def DmaCallback.single : List ℕ → DmaCallback
  | [] => completed
  | allocations => withAllocations allocations

/-- The `Arc<AllocationsBatch>` of `submit_command_batch`. -/
structure SharedBatch where
  strong : ℕ
  /-- None any more once the last reference has been released. -/
  allocations : List ℕ

/-- Where a call is. -/
inductive Call where
  /-- In the last loop of `render`, with the allocations it has yet to take up. -/
  | render (rest : List ℕ) (block : CommandDmaPrivate)
  /-- It has cloned the reference to `d`. -/
  | renderMark (d : ℕ) (rest : List ℕ) (block : CommandDmaPrivate)
  | presentSource (src dst : ℕ) (commands : List Command)
  /-- It has cloned the reference to `src`. -/
  | presentDestination (src dst : ℕ) (commands : List Command)
  /-- It has cloned both. -/
  | presentChecks (src dst : ℕ) (commands : List Command)
  /-- It has marked `dst`. -/
  | presentMarkSource (src dst : ℕ) (commands : List Command)
  /-- It has marked both. -/
  | presentWrite (src dst : ℕ) (commands : List Command)
  /-- `submit_command` has taken `block`. -/
  | submit (block : CommandDmaPrivate)
  /-- In the loop of `submit_command_batch`, with the commands that are left. -/
  | batchClone (batch : ℕ) (commands : List Command)
  /-- It has cloned the reference to the batch for a request. -/
  | batchPush (batch : ℕ) (commands : List Command)
  /-- It releases its own reference to the batch. -/
  | batchRelease (batch : ℕ)
  | dropping (x : Dropping)
  | returned

/-- Where the handler thread is. -/
inductive HandlerCall where
  | idle
  /-- In `response`, with the callback of a request that has completed. -/
  | callback (c : DmaCallback)
  | dropping (x : Dropping)

/-- The counters of the allocations, of type `α`, and of the `DeviceSpecificAllocation`s, which are
numbers; `β` is the type of the devices. -/
structure Counters (α β : Type) where
  /-- The busy counts; one that is negative has wrapped around. -/
  busy : α → ℤ
  /-- The handles of a `DeviceSpecificAllocation`. -/
  handles : ℕ → ℕ
  /-- Its strong count. -/
  refs : ℕ → ℕ
  allocationGone : α → Bool
  deviceGone : β → Bool
  /-- The blocking requests to detach a resource, with the information whether it is the handler
  thread that makes the request. -/
  detaches : List (Bool × ℕ)

/-- The counters with all that refers to what they count. -/
structure InFlight (α β : Type) extends Counters α β where
  calls : List Call
  /-- The private data written and not yet taken. -/
  blocks : List CommandDmaPrivate
  /-- The requests that have not completed. -/
  queued : List DmaCallback
  batches : List SharedBatch
  handler : HandlerCall

inductive InFlightPanic where
  /-- `alloc.device.upgrade().unwrap()` of `AllocationsBatch::drop` -/
  | noDevice
  /-- `assert!(cmd.id != CommandId::Nop)` -/
  | nopInBatch
  /-- `cmd.dma().unwrap()` -/
  | noDmaInBatch

inductive InFlightAct (α β : Type) where
  /-- `attach_to_device` makes a new `DeviceSpecificAllocation`. -/
  | attach (d : ℕ)
  /-- `attach_to_device` finds the one that is there. -/
  | attachAgain (d : ℕ)
  /-- `close_allocation` takes the reference of a handle. -/
  | close (d : ℕ)
  /-- The last reference to an allocation, or to a device, goes. -/
  | dropAllocation (a : α)
  | dropDevice (b : β)
  /-- `render` comes to its last loop. -/
  | render (env : RenderEnv) (fence : FenceTracker) (b : UserBuffer)
  | present (src dst : ℕ) (commands : List Command)
  /-- `submit_command` or `submit_command_virtual` takes the `k`-th block. -/
  | submit (k : ℕ)
  /-- A step of the `i`-th call.  With `stops` a request is not queued, or `present` returns
  early. -/
  | call (i : ℕ) (stops : Bool)
  /-- The device has completed the `k`-th request, and the handler takes up its callback. -/
  | complete (k : ℕ)
  | handler

/-- An allocation or a device goes. -/
def InFlightAct.drops {α β : Type} : InFlightAct α β → Prop
  | dropAllocation _ | dropDevice _ => True
  | _ => False

namespace Counters

variable {α β : Type} [DecidableEq α] (alloc : ℕ → α) (device : ℕ → β)

variable (c : Counters α β)

/-- `attach_to_device` returns a handle. -/
def openHandle (d : ℕ) : Counters α β :=
  { c with
    handles := Function.update c.handles d (c.handles d + 1)
    refs := Function.update c.refs d (c.refs d + 1) }

/-- `from_arc_handle_owned`: the reference of a handle becomes one of the caller. -/
def takeHandle (d : ℕ) : Outcome (Counters α β) InFlightPanic :=
  if 0 < c.handles d then
    .next { c with handles := Function.update c.handles d (c.handles d - 1) }
  else .stuck

/-- `from_arc_handle_clone`; only open handles are passed to the driver. -/
def cloneHandle (d : ℕ) : Outcome (Counters α β) InFlightPanic :=
  if 0 < c.handles d then .next { c with refs := Function.update c.refs d (c.refs d + 1) }
  else .stuck

/-- `Allocation::mark_busy`, if the allocation is still there. -/
def markBusy (d : ℕ) : Counters α β :=
  if c.allocationGone (alloc d) then c
  else { c with busy := Function.update c.busy (alloc d) (c.busy (alloc d) + 1) }

/-- One round of `AllocationsBatch::drop`, with `Allocation::mark_free`. -/
def markFree (d : ℕ) : Outcome (Counters α β) InFlightPanic :=
  if c.deviceGone (device d) then .panic .noDevice
  else if c.allocationGone (alloc d) then .next c
  else .next { c with busy := Function.update c.busy (alloc d) (c.busy (alloc d) - 1) }

/-- A reference is dropped, and with the last one the `DeviceSpecificAllocation`. -/
def release (onHandler : Bool) (c : Counters α β) (d : ℕ) : Counters α β :=
  let last := c.refs d = 1 ∧ c.allocationGone (alloc d) = false ∧ c.deviceGone (device d) = false
  { c with
    refs := Function.update c.refs d (c.refs d - 1)
    detaches := if last then c.detaches ++ [(onHandler, d)] else c.detaches }

/-- One step of dropping a batch; the batch is gone with the last one. -/
def stepDropping (onHandler : Bool) (c : Counters α β) :
    Dropping → Outcome (Counters α β × Option Dropping) InFlightPanic
  | ⟨d :: marking, releasing⟩ =>
    (c.markFree alloc device d).bind fun c => .next (c, some ⟨marking, releasing⟩)
  | ⟨[], d :: releasing⟩ => .next (c.release alloc device onHandler d, some ⟨[], releasing⟩)
  | ⟨[], []⟩ => .next (c, none)

end Counters

namespace InFlight

variable {α β : Type} [DecidableEq α] [DecidableEq β]

section
variable (alloc : ℕ → α) (device : ℕ → β)

variable (s : InFlight α β)

def setCounters (c : Counters α β) : InFlight α β := { s with toCounters := c }

def setCall (i : ℕ) (c : Call) : InFlight α β :=
  { s with calls := s.calls.set i c }

def setHandler (x : HandlerCall) : InFlight α β := { s with handler := x }

/-- A reference to a shared batch is released; the allocations come out of the last one. -/
def releaseBatch (batch : ℕ) : InFlight α β × Option Dropping :=
  match s.batches[batch]? with
  | none => (s, none)
  | some x =>
    if x.strong = 1 then
      ({ s with batches := s.batches.set batch ⟨0, []⟩ }, some (.batch x.allocations))
    else ({ s with batches := s.batches.set batch ⟨x.strong - 1, x.allocations⟩ }, none)

/-- The strong count of a shared batch changes. -/
def setStrong (batch : ℕ) (f : ℕ → ℕ) : InFlight α β :=
  { s with batches := s.batches.modify batch fun x => ⟨f x.strong, x.allocations⟩ }

/-- A block is written to the private data of a DMA buffer. -/
def write (block : CommandDmaPrivate) : InFlight α β :=
  { s with blocks := s.blocks ++ [block] }

def request (c : DmaCallback) : InFlight α β :=
  { s with queued := s.queued ++ [c] }

def take (k : ℕ) : InFlight α β := { s with blocks := s.blocks.eraseIdx k }

/-- The `k`-th request completes. -/
def unqueue (k : ℕ) : InFlight α β := { s with queued := s.queued.eraseIdx k }

/-- `Arc::new` for the batch of `submit_command_batch`. -/
def share (allocations : List ℕ) : InFlight α β :=
  { s with batches := s.batches ++ [⟨1, allocations⟩] }

/-- `submit_command` with the block that it has taken.  A request that cannot be queued takes the
batch with it. -/
def stepSubmit (i : ℕ) (stops : Bool) (block : CommandDmaPrivate) : InFlight α β :=
  match block.commands with
  | [] => s.setCall i (.dropping (.batch block.allocations))
  | [cmd] =>
    if cmd.id = .nop ∨ cmd.getDma = none ∨ stops then
      s.setCall i (.dropping (.batch block.allocations))
    else (s.request (.single block.allocations)).setCall i .returned
  | commands =>
    (s.share block.allocations).setCall i (.batchClone s.batches.length commands)

/-- A step of a call that is at `c`. -/
def stepCall (i : ℕ) (stops : Bool) : Call → Outcome (InFlight α β) InFlightPanic
  | .render (d :: rest) block =>
    (s.cloneHandle d).bind fun c => .next ((s.setCounters c).setCall i (.renderMark d rest block))
  | .renderMark d rest block =>
    .next ((s.setCounters (s.markBusy alloc d)).setCall i
      (.render rest ⟨block.commands, block.allocations ++ [d]⟩))
  | .render [] block => .next ((s.write block).setCall i .returned)
  | .presentSource src dst commands =>
    (s.cloneHandle src).bind fun c =>
      .next ((s.setCounters c).setCall i (.presentDestination src dst commands))
  | .presentDestination src dst commands =>
    if stops then .next (s.setCall i (.dropping ⟨[], [src]⟩))
    else (s.cloneHandle dst).bind fun c =>
      .next ((s.setCounters c).setCall i (.presentChecks src dst commands))
  | .presentChecks src dst commands =>
    if stops then .next (s.setCall i (.dropping ⟨[], [dst, src]⟩))
    else .next ((s.setCounters (s.markBusy alloc dst)).setCall i
      (.presentMarkSource src dst commands))
  | .presentMarkSource src dst commands =>
    .next ((s.setCounters (s.markBusy alloc src)).setCall i (.presentWrite src dst commands))
  | .presentWrite src dst commands =>
    .next ((s.write ⟨commands, [src, dst]⟩).setCall i .returned)
  | .submit block => .next (s.stepSubmit i stops block)
  | .batchClone batch [] => .next (s.setCall i (.batchRelease batch))
  | .batchClone batch (cmd :: commands) =>
    if cmd.id = .nop then .panic .nopInBatch
    else if cmd.getDma = none then .panic .noDmaInBatch
    else .next ((s.setStrong batch (· + 1)).setCall i (.batchPush batch commands))
  | .batchPush batch commands =>
    if stops then .next ((s.setStrong batch (· - 1)).setCall i (.batchRelease batch))
    else .next ((s.request (.batched batch)).setCall i (.batchClone batch commands))
  | .batchRelease batch =>
    let r := s.releaseBatch batch
    .next (r.1.setCall i (r.2.elim .returned .dropping))
  | .dropping x =>
    (s.stepDropping alloc device false x).bind fun r =>
      .next ((s.setCounters r.1).setCall i (r.2.elim .returned .dropping))
  | .returned => .stuck

/-- A step of `Queue::response`. -/
def stepHandler : Outcome (InFlight α β) InFlightPanic :=
  match s.handler with
  | .idle => .stuck
  | .callback .completed => .next (s.setHandler .idle)
  | .callback (.withAllocations l) => .next (s.setHandler (.dropping (.batch l)))
  | .callback (.batched batch) =>
    let r := s.releaseBatch batch
    .next (r.1.setHandler (r.2.elim .idle .dropping))
  | .dropping x =>
    (s.stepDropping alloc device true x).bind fun r =>
      .next ((s.setCounters r.1).setHandler (r.2.elim .idle .dropping))

def begin (c : Call) : InFlight α β := { s with calls := s.calls ++ [c] }

def step : InFlightAct α β → Outcome (InFlight α β) InFlightPanic
  | .attach d => if s.refs d = 0 then .next (s.setCounters (s.openHandle d)) else .stuck
  | .attachAgain d => if 0 < s.refs d then .next (s.setCounters (s.openHandle d)) else .stuck
  | .close d =>
    (s.takeHandle d).bind fun c => .next ((s.setCounters c).begin (.dropping ⟨[], [d]⟩))
  | .dropAllocation a =>
    .next { s with allocationGone := Function.update s.allocationGone a true }
  | .dropDevice b => .next { s with deviceGone := Function.update s.deviceGone b true }
  | .render env fence b => match (env.render fence b).result with
    | .ok (block, _) => .next (s.begin (.render block.allocations ⟨block.commands, []⟩))
    | .error _ => .stuck
  | .present src dst commands => .next (s.begin (.presentSource src dst commands))
  | .submit k => match s.blocks[k]? with
    | some block => .next ((s.take k).begin (.submit block))
    | none => .stuck
  | .call i stops => match s.calls[i]? with
    | some c => s.stepCall alloc device i stops c
    | none => .stuck
  | .complete k => match s.handler, s.queued[k]? with
    | .idle, some c => .next ((s.unqueue k).setHandler (.callback c))
    | _, _ => .stuck
  | .handler => s.stepHandler alloc device

end

/-- Nothing is attached or under way. -/
def init : InFlight α β :=
  ⟨⟨fun _ => 0, fun _ => 0, fun _ => 0, fun _ => false, fun _ => false, []⟩, [], [], [], [], .idle⟩

end InFlight

/-- The calls, the handler thread and `dxgkrnl`. -/
def inFlightMachine {α β : Type} [DecidableEq α] [DecidableEq β] (alloc : ℕ → α)
    (device : ℕ → β) : Machine (InFlight α β) (InFlightAct α β) InFlightPanic :=
  ⟨InFlight.step alloc device⟩

/-- A handle is opened, and `render` is called with it for a submission of four bytes. -/
def renderOnce : List (InFlightAct Unit Unit) :=
  [.attach 0,
    .render ⟨some 1, none, ⟨0, 64⟩, [some 0], true, 128⟩ ⟨0, []⟩
      (userBuffer [1, 0, 0, 0, 4, 0, 0, 0, 7, 7, 7, 7] (by decide)),
    .call 0 false, .call 0 false, .call 0 false]

/-- The private data is submitted. -/
def submitOnce : List (InFlightAct Unit Unit) := [.submit 0, .call 1 false]

/-- The request completes, and the handler thread drops its batch. -/
def completeOnce : List (InFlightAct Unit Unit) :=
  [.complete 0, .handler, .handler, .handler, .handler]

/-! ### What is held where -/

namespace Dropping

/-- What a batch that may be left has to mark free. -/
def markingOf : Option Dropping → List ℕ
  | some x => x.marking
  | none => []

/-- The references that it has to release. -/
def releasingOf : Option Dropping → List ℕ
  | some x => x.releasing
  | none => []

end Dropping

namespace DmaCallback

/-- The batch that the callback has for itself. -/
def allocations : DmaCallback → List ℕ
  | withAllocations l => l
  | completed | batched _ => []

/-- The shared batch it has a reference to. -/
def arcs : DmaCallback → List ℕ
  | batched batch => [batch]
  | completed | withAllocations _ => []

@[simp] theorem allocations_single (l : List ℕ) : (single l).allocations = l := by
  cases l <;> rfl

@[simp] theorem arcs_single (l : List ℕ) : (single l).arcs = [] := by
  cases l <;> rfl

end DmaCallback

namespace Call

/-- What the call has marked busy, or has to mark free. -/
@[simp] def marks : Call → List ℕ
  | render _ block | renderMark _ _ block | submit block => block.allocations
  | presentMarkSource _ dst _ => [dst]
  | presentWrite src dst _ => [src, dst]
  | dropping x => x.marking
  | presentSource _ _ _ | presentDestination _ _ _ | presentChecks _ _ _ | batchClone _ _
  | batchPush _ _ | batchRelease _ | returned => []

/-- The references in the hands of a call that has not begun to drop them. -/
@[simp] def pinned : Call → List ℕ
  | render _ block | submit block => block.allocations
  | renderMark d _ block => d :: block.allocations
  | presentDestination src _ _ => [src]
  | presentChecks src dst _ | presentMarkSource src dst _ | presentWrite src dst _ => [src, dst]
  | presentSource _ _ _ | batchClone _ _ | batchPush _ _ | batchRelease _ | dropping _
  | returned => []

/-- The references it has to drop. -/
@[simp] def releasing : Call → List ℕ
  | dropping x => x.releasing
  | _ => []

/-- The references to shared batches in the hands of the call. -/
@[simp] def arcs : Call → List ℕ
  | batchClone batch _ | batchRelease batch => [batch]
  | batchPush batch _ => [batch, batch]
  | _ => []

section
variable (rest : Option Dropping)

@[simp] theorem marks_elim : (rest.elim returned dropping).marks = Dropping.markingOf rest := by
  cases rest <;> rfl

@[simp] theorem pinned_elim : (rest.elim returned dropping).pinned = [] := by
  cases rest <;> rfl

@[simp] theorem releasing_elim :
    (rest.elim returned dropping).releasing = Dropping.releasingOf rest := by
  cases rest <;> rfl

@[simp] theorem arcs_elim : (rest.elim returned dropping).arcs = [] := by
  cases rest <;> rfl

end

end Call

namespace HandlerCall

@[simp] def marks : HandlerCall → List ℕ
  | idle => []
  | callback c => c.allocations
  | dropping x => x.marking

/-- The references in the hands of the handler thread. -/
@[simp] def held : HandlerCall → List ℕ
  | idle => []
  | callback c => c.allocations
  | dropping x => x.releasing

@[simp] def arcs : HandlerCall → List ℕ
  | callback c => c.arcs
  | idle | dropping _ => []

section
variable (rest : Option Dropping)

@[simp] theorem marks_elim : (rest.elim idle dropping).marks = Dropping.markingOf rest := by
  cases rest <;> rfl

@[simp] theorem held_elim : (rest.elim idle dropping).held = Dropping.releasingOf rest := by
  cases rest <;> rfl

@[simp] theorem arcs_elim : (rest.elim idle dropping).arcs = [] := by
  cases rest <;> rfl

end

end HandlerCall

namespace InFlight

variable {α β : Type}

/-- The allocations in private data that is not taken, in the batches that are with a callback or
shared. -/
def waiting (s : InFlight α β) : List ℕ :=
  s.blocks.flatMap CommandDmaPrivate.allocations ++ (s.queued.flatMap DmaCallback.allocations ++
    s.batches.flatMap SharedBatch.allocations)

/-- All that has been marked busy and not been marked free. -/
def marks (s : InFlight α β) : List ℕ :=
  s.waiting ++ (s.handler.marks ++ s.calls.flatMap Call.marks)

/-- The references that are not in the hands of a call that drops them. -/
def pinned (s : InFlight α β) : List ℕ :=
  s.waiting ++ (s.handler.held ++ s.calls.flatMap Call.pinned)

/-- The references that calls have to drop. -/
def releasing (s : InFlight α β) : List ℕ := s.calls.flatMap Call.releasing

/-- The references to shared batches. -/
def arcs (s : InFlight α β) : List ℕ :=
  s.calls.flatMap Call.arcs ++ (s.queued.flatMap DmaCallback.arcs ++ s.handler.arcs)

end InFlight

end VirtioGpu
