import VirtioGpu.Data.ArrayQueue
import VirtioGpu.Fence.Notify
import VirtioGpu.Fence.Tracker
import VirtioGpu.Queue.Requests
import VirtioGpu.Queue.Virtq

/-!
# Handing requests to the device and taking back the answers

`Queue` (`queue.rs`) owns a virtqueue and `SIZE` slots.  `request` takes a free slot and a request
from the channel, moves the request into the slot and adds it to the ring; `response` takes the
next answered token from the ring, runs the callback stored in its slot and frees the slot.
`handle_requests` and `handle_responses` repeat them until there is nothing left to do.

`queueMachine` is a queue at work: producers push requests into the channel, the handler thread
calls `request` and `response`, and the device answers outstanding tokens in any order, writing
what it likes into their output buffers.  The channel may hand out its requests in any order (see
`ArraySegQueue.out_of_order`), so `request` is told which one it gets.

Besides the queue, the state has the rest of the driver (`Elsewhere`), which other threads may
change between two steps; it records what `response` does to it (`Effect`), and three pieces of
history: the requests taken from the channel, the request added under each outstanding token, and
the requests whose callback has been run.
-/

namespace VirtioGpu

/-! ### Reading and writing buffers -/

/-- The fields of `gpu::CtrlHeader` the driver reads back. -/
structure CtrlHeader where
  hdrType : ℕ
  flags : ℕ
  fenceId : ℕ

namespace CtrlHeader

def readFromPrefix (bytes : List UInt8) : Option CtrlHeader :=
  if bytes.length < ctrlHeaderSize then none
  else some ⟨leNat (bytes.take 4), leNat ((bytes.drop 4).take 4), leNat ((bytes.drop 8).take 8)⟩

/-- `flags & GPU_FLAG_FENCE != 0`. -/
def fenced (h : CtrlHeader) : Bool := h.flags.testBit 0

/-- `hdr_type.is_error()`. -/
def isError (h : CtrlHeader) : Bool := 0x1200 ≤ h.hdrType

/-- `hdr_type == RESOURCE_UNREF`. -/
def isResourceUnref (h : CtrlHeader) : Bool := h.hdrType == 0x102

end CtrlHeader

namespace MaybeInlineBuffer

variable {maxInline : ℕ}

/-- `as_ref()`; the bytes of a DMA buffer are in `mem`. -/
def bytes (mem : ℕ → UInt8) : MaybeInlineBuffer maxInline → List UInt8
  | .inline len data _ _ => data.take len
  | .boxed box => box.data
  | .dma r => (List.range r.len).map fun k => mem (r.addr + k)

theorem bytes_of_tryFromBytes (mem : ℕ → UInt8) (hmax : maxInline < 2 ^ 16) {alloc : PageAddr}
    {bytes : List UInt8} {b : MaybeInlineBuffer maxInline}
    (h : tryFromBytes alloc bytes = .ok b) : b.bytes mem = bytes := by
  unfold tryFromBytes at h
  split_ifs at h with hinline hpage
  · cases h
    have hlen : bytes.length % 2 ^ 16 = bytes.length := Nat.mod_eq_of_lt (by omega)
    simp only [ofBytes, MaybeInlineBuffer.bytes, hlen, List.take_left]
  · cases h
    rfl

/-- `new` written over the first bytes of `old`. -/
def overwrite (old new : List UInt8) : List UInt8 :=
  new.take old.length ++ old.drop new.length

theorem length_overwrite (old new : List UInt8) : (overwrite old new).length = old.length := by
  simp only [overwrite, List.length_append, List.length_take, List.length_drop]
  omega

/-- The device writes `new` to the buffer, at most as far as it reaches. -/
def write (new : List UInt8) : MaybeInlineBuffer maxInline → MaybeInlineBuffer maxInline
  | .inline len data h hle =>
      .inline len (overwrite data (new.take len)) (by rw [length_overwrite, h]) hle
  | .boxed box => .boxed { box with data := overwrite box.data new }
  | .dma r => .dma r

end MaybeInlineBuffer

/-! ### The queue -/

/-- The fixed surroundings of a queue: where its slots lie and what is in DMA memory. -/
structure QueueEnv (maxIn maxOut : ℕ) where
  inputs : SlotArray maxIn
  outputs : SlotArray maxOut
  mem : ℕ → UInt8

/-- `Queue<Q, SIZE, FAST, IN, OUT>` without its channel. -/
structure Queue (size maxIn maxOut : ℕ) where
  /-- The ring; a chain refers to the slot that holds its buffers. -/
  queue : Virtq size (Fin size)
  inputs : Fin size → Option (MaybeInlineBuffer maxIn)
  outputs : Fin size → Option (MaybeInlineBuffer maxOut)
  callbacks : Fin size → Callback
  /-- The slot of each outstanding token. -/
  indices : Fin size → Option (Fin size)
  /-- The slots not in use. -/
  free : ArrayQueue (Fin size) size

/-- The panics a queue can reach. -/
inductive QueuePanic where
  /-- "multi-page non-dma virtio buffers are not yet supported" -/
  | multiPage
  /-- `assert_ne!(buffer.len(), 0)` of the virtqueue. -/
  | emptyBuffer
  /-- A token the device made up, used as an index. -/
  | outOfBounds
  /-- `unwrap` of an empty slot. -/
  | unwrapNone
  /-- `read_from_prefix(..).unwrap()` on a buffer that is too short. -/
  | shortBuffer
  /-- `assert!(fence < next_fence)`. -/
  | fenceNotIssued
  /-- `free.push(i).unwrap()` on a full list. -/
  | freeFull
  /-- "missed fence" of `notify_queued_fences`. -/
  | missedFence (nextFence lastCompleted : ℕ)
  /-- `device.upgrade().unwrap()` of `AllocationsBatch::drop`. -/
  | deviceGone
  deriving DecidableEq

/-- It is a callback that panics. -/
def QueuePanic.isEffect : QueuePanic → Bool
  | missedFence .. | deviceGone => true
  | _ => false

namespace Queue

variable {size maxIn maxOut : ℕ}

def new (maxIn maxOut : ℕ) (h : 0 < size) (indirect : Bool) : Queue size maxIn maxOut where
  queue := .new size (Fin size) indirect
  inputs := fun _ => none
  outputs := fun _ => none
  callbacks := fun _ => .none
  indices := fun _ => none
  free := ⟨List.finRange size, h, by simp⟩

variable (q : Queue size maxIn maxOut)

/-- The request is moved into slot `i`. -/
def store (i : Fin size) (b : Buffer maxIn maxOut) : Queue size maxIn maxOut :=
  { q with
    inputs := Function.update q.inputs i (some b.input)
    outputs := Function.update q.outputs i (some b.output)
    callbacks := Function.update q.callbacks i b.callback }

/-- `Queue::push_to_device`: the token, or `QueueFull`. -/
def pushToDevice (env : QueueEnv maxIn maxOut) (q : Queue size maxIn maxOut) (i : Fin size)
    (b : Buffer maxIn maxOut) :
    Outcome (Except NtStatus (Fin size) × Queue size maxIn maxOut) QueuePanic :=
  let q := q.store i b
  if ¬ b.Sound env.inputs env.outputs i then .panic .multiPage
  else if q.queue.Full then .next (.error .queueFull, q)
  else if q.queue.indirect = false ∧ (b.input.length = 0 ∨ b.output.length = 0) then
    .panic .emptyBuffer
  else match q.queue.take i with
    | none => .stuck
    | some (token, queue) => .next (.ok token, { q with
        queue := queue
        indices := Function.update q.indices token (some i) })

/-- `Queue::pop_from_device`: the token and the slot of the next answered request. -/
def popFromDevice :
    Outcome (Except NtStatus (Option (Fin size × Fin size)) × Queue size maxIn maxOut) QueuePanic :=
  match q.queue.peekUsed with
  | none => .next (.ok none, q)
  | some token =>
    if h : token < size then
      match q.indices ⟨token, h⟩ with
      | none => .next (.error .invalidDeviceState, q)
      | some i => match q.inputs i, q.outputs i with
        | some input, some output => match q.queue.chain ⟨token, h⟩ with
          | none => .panic .unwrapNone
          | some c =>
            if input.length = 0 ∨ output.length = 0 then .panic .emptyBuffer
            else .next (.ok (some (⟨token, h⟩, i)), { q with
              queue := q.queue.recycle ⟨token, h⟩ c
              indices := Function.update q.indices ⟨token, h⟩ none })
        | _, _ => .next (.error .invalidDeviceState, q)
    else .panic .outOfBounds

def markFree (i : Fin size) : Outcome (Queue size maxIn maxOut) QueuePanic :=
  match q.free.push i with
  | .error _ => .panic .freeFull
  | .ok free => .next { q with
      inputs := Function.update q.inputs i none
      outputs := Function.update q.outputs i none
      callbacks := Function.update q.callbacks i .none
      free := free }

end Queue

/-! ### The handler's two operations -/

/-- What a callback does to the rest of the driver. -/
inductive Effect (maxOut : ℕ) where
  | signal (virtioFence : ℕ)
  /-- `BlockingBuffer::write`. -/
  | writeBlock (block : ℕ) (output : MaybeInlineBuffer maxOut)
  /-- `BlockingBuffer::set`. -/
  | setEvent (block : ℕ)
  | freeResourceId (id : ℕ)
  | freeContextId (id : ℕ)
  | dropAllocations (allocations : List ℕ)
  | dropBatch (batch : ℕ)
  | notifyDmaCompleted (engine : Engine) (fence : ℕ)

/-- What the callbacks find in the rest of the driver. -/
structure Elsewhere where
  engines : Engine → EngineState
  /-- The allocations of a batch. -/
  batches : ℕ → List ℕ
  /-- The device of an allocation does not exist any more. -/
  deviceGone : ℕ → Bool
  /-- The performance counter. -/
  now : ℕ
  /-- The interrupts reported, oldest first. -/
  reports : List Interrupt

namespace Effect

variable {maxOut : ℕ}

/-- The effect itself, as far as it can fail. -/
def run (rest : Elsewhere) : Effect maxOut → Outcome Elsewhere QueuePanic
  | notifyDmaCompleted e f => match (rest.engines e).notifyFence e rest.now f with
    | .next (engine, reports) => .next { rest with
        engines := Function.update rest.engines e engine
        reports := rest.reports ++ reports }
    | .stuck => .stuck
    | .panic (.missedFence next last) => .panic (.missedFence next last)
  | dropAllocations allocations =>
      if allocations.any rest.deviceGone then .panic .deviceGone else .next rest
  | dropBatch batch =>
      if (rest.batches batch).any rest.deviceGone then .panic .deviceGone else .next rest
  | signal .. | writeBlock .. | setEvent .. | freeResourceId .. | freeContextId .. => .next rest

/-- The effects, one after the other. -/
def runAll : Elsewhere → List (Effect maxOut) → Outcome Elsewhere QueuePanic
  | rest, [] => .next rest
  | rest, effect :: effects => (effect.run rest).bind fun rest => runAll rest effects

end Effect

namespace Callback

variable {maxOut : ℕ}

/-- What a callback does, run on `output`: the threads in `cancelled` have given up, and `arcs` are
the strong counts of the batches. -/
def effects (cancelled : ℕ → Bool) (arcs : ℕ → ℕ) (output : MaybeInlineBuffer maxOut) :
    Callback → List (Effect maxOut)
  | .none => []
  | .setEvent block =>
      (if cancelled block then [] else [.writeBlock block output]) ++ [.setEvent block]
  | .freeResourceId id => [.freeResourceId id]
  | .freeContextId id => [.freeContextId id]
  | .dmaCompleted engine fence => [.notifyDmaCompleted engine fence]
  | .dmaCompletedWithAllocations engine fence allocations =>
      [.dropAllocations allocations, .notifyDmaCompleted engine fence]
  | .dmaCompletedBatched engine fence batch =>
      -- `Arc::into_inner` succeeds for the last reference only.
      if arcs batch = 1 then [.dropBatch batch, .notifyDmaCompleted engine fence] else []

/-- The strong counts after it. -/
def release (arcs : ℕ → ℕ) : Callback → ℕ → ℕ
  | .dmaCompletedBatched _ _ batch => Function.update arcs batch (arcs batch - 1)
  | _ => arcs

end Callback

/-- A queue, its channel and the parts of the driver its callbacks touch. -/
structure QueueState (size maxIn maxOut : ℕ) where
  q : Queue size maxIn maxOut
  chan : List (Buffer maxIn maxOut)
  fence : FenceTracker
  /-- The waiting threads that have given up. -/
  cancelled : ℕ → Bool
  /-- The strong counts of the batches. -/
  arcs : ℕ → ℕ
  rest : Elsewhere
  effects : List (Effect maxOut)
  popped : List (Buffer maxIn maxOut)
  /-- The request added under each outstanding token, with what the device has written. -/
  added : Fin size → Option (Buffer maxIn maxOut)
  /-- The requests whose callback has been run, with the buffers it was run on. -/
  ran : List (Buffer maxIn maxOut)

/-- What a call of `request` or `response` returns: `Ok(None)`, `Ok(Some(()))` or an error. -/
inductive Returned where
  | none
  | some
  | err (e : NtStatus)
  deriving DecidableEq

namespace QueueState

variable {size maxIn maxOut : ℕ}

variable (env : QueueEnv maxIn maxOut) (s : QueueState size maxIn maxOut)

/-- `Queue::request`.  If the channel is not empty, it hands out the request at `pick`. -/
def request (pick : ℕ) : Outcome (Returned × QueueState size maxIn maxOut) QueuePanic :=
  match s.q.free.pop with
  | (none, _) => .next (.none, s)
  | (some i, free) =>
    if s.chan = [] then match free.push i with
      | .error _ => .panic .freeFull
      | .ok free => .next (.none, { s with q := { s.q with free := free } })
    else match s.chan[pick]? with
      | none => .stuck
      | some b =>
        let s := { s with chan := s.chan.eraseIdx pick, popped := s.popped ++ [b] }
        (Queue.pushToDevice env { s.q with free := free } i b).bind fun
          | (.error e, q) => .next (.err e, { s with q := q })
          | (.ok token, q) =>
              .next (.some, { s with q := q, added := Function.update s.added token (some b) })

/-- `check_response` and `read_completed_fence` of slot `i`: the virtio fence to signal. -/
def readCompletedFence (q : Queue size maxIn maxOut) (i : Fin size) :
    Outcome (Option ℕ) QueuePanic :=
  match q.inputs i, q.outputs i with
  | some input, some output =>
    match CtrlHeader.readFromPrefix (output.bytes env.mem),
      CtrlHeader.readFromPrefix (input.bytes env.mem) with
    | some rsp, some req =>
      -- The message about a failed `RESOURCE_UNREF` prints the whole command.
      if rsp.isError && req.isResourceUnref && (input.bytes env.mem).length < 32 then
        .panic .shortBuffer
      else if rsp.fenced then .next (some rsp.fenceId)
      else if req.fenced then .next (some req.fenceId)
      else .next none
    | _, _ => .panic .shortBuffer
  | _, _ => .panic .unwrapNone

/-- `data.fence.signal(virtio_fence)`, if there is one. -/
def signal (s : QueueState size maxIn maxOut) :
    Option ℕ → Outcome (QueueState size maxIn maxOut) QueuePanic
  | none => .next s
  | some virtioFence => match s.fence.signal virtioFence with
    | none => .panic .fenceNotIssued
    | some fence =>
        .next { s with fence := fence, effects := s.effects ++ [.signal virtioFence] }

/-- The record of a callback. -/
def recordEffects (output : MaybeInlineBuffer maxOut) (callback : Callback) :
    QueueState size maxIn maxOut :=
  { s with
    arcs := callback.release s.arcs
    effects := s.effects ++ callback.effects s.cancelled s.arcs output }

/-- The effects of a callback on the rest of the driver, run on `output`. -/
def runEffects (output : MaybeInlineBuffer maxOut) (callback : Callback) :
    Outcome (QueueState size maxIn maxOut) QueuePanic :=
  (Effect.runAll s.rest (callback.effects s.cancelled s.arcs output)).bind fun rest =>
    .next { s.recordEffects output callback with rest := rest }

/-- `Queue::response`. -/
def response : Outcome (Returned × QueueState size maxIn maxOut) QueuePanic :=
  s.q.popFromDevice.bind fun
    | (.error e, q) => .next (.err e, { s with q := q })
    | (.ok none, q) => .next (.none, { s with q := q })
    | (.ok (some (token, i)), q) =>
        let callback := q.callbacks i
        (readCompletedFence env q i).bind fun virtioFence =>
        (s.signal virtioFence).bind fun s =>
        match q.inputs i, q.outputs i with
        | some input, some output =>
          (s.runEffects output callback).bind fun s =>
          (q.markFree i).bind fun q => .next (.some, { s with
            q := q
            added := Function.update s.added token none
            ran := s.ran ++ [⟨input, output, callback⟩] })
        | _, _ => .panic .unwrapNone

end QueueState

/-! ### The machine -/

inductive QueueAct (size maxIn maxOut : ℕ) where
  /-- A producer stores a request in the channel. -/
  | push (b : Buffer maxIn maxOut)
  /-- The handler thread calls `request` and gets the request at `pick`. -/
  | request (pick : ℕ)
  /-- The handler thread calls `response`. -/
  | response
  /-- The device writes `data` to the output of an outstanding token and returns it. -/
  | complete (token : Fin size) (len : ℕ) (data : List UInt8)
  /-- A waiting thread gives up. -/
  | cancel (block : ℕ)
  /-- A thread takes a virtio fence for a new command. -/
  | issueFence
  /-- A thread creates, clones or drops references to a batch. -/
  | setArc (batch count : ℕ)
  /-- Other threads submit or complete work, make batches, or close devices; time passes. -/
  | elsewhere (rest : Elsewhere)

namespace QueueState

variable {size maxIn maxOut : ℕ}

/-- The device writes `data` to the output of `token` and returns it, once. -/
def complete (s : QueueState size maxIn maxOut) (token : Fin size) (len : ℕ) (data : List UInt8) :
    Outcome (QueueState size maxIn maxOut) QueuePanic :=
  match s.q.queue.chain token with
  | none => .stuck
  | some c =>
    if token.val ∈ s.q.queue.returned then .stuck
    else .next { s with
      q := { s.q with
        queue := { s.q.queue with used := s.q.queue.used ++ [(token.val, len)] }
        outputs := Function.update s.q.outputs c.buffers
          ((s.q.outputs c.buffers).map (MaybeInlineBuffer.write data)) }
      added := Function.update s.added token
        ((s.added token).map fun b => { b with output := b.output.write data }) }

/-- A queue whose slots are all free. -/
def init (maxIn maxOut : ℕ) (h : 0 < size) (indirect : Bool) : QueueState size maxIn maxOut where
  q := .new maxIn maxOut h indirect
  chan := []
  fence := ⟨0, []⟩
  cancelled := fun _ => false
  arcs := fun _ => 0
  rest := ⟨fun _ => ⟨0, 0, 0, ∅, 0, 0⟩, fun _ => [], fun _ => false, 0, []⟩
  effects := []
  popped := []
  added := fun _ => none
  ran := []

end QueueState

/-- A queue at work. -/
def queueMachine {size maxIn maxOut : ℕ} (env : QueueEnv maxIn maxOut) :
    Machine (QueueState size maxIn maxOut) (QueueAct size maxIn maxOut) QueuePanic where
  step s
    | .push b => .next { s with chan := s.chan ++ [b] }
    | .request pick => (s.request env pick).bind fun r => .next r.2
    | .response => (s.response env).bind fun r => .next r.2
    | .complete token len data => s.complete token len data
    | .cancel block => .next { s with cancelled := Function.update s.cancelled block true }
    | .issueFence => .next { s with fence := s.fence.issue.2 }
    | .setArc batch count => .next { s with arcs := Function.update s.arcs batch count }
    | .elsewhere rest => .next { s with rest := rest }

end VirtioGpu
