import VirtioGpu.Device.Command
import VirtioGpu.Queue.Device
import Mathlib.Data.List.Dedup

/-!
# Submitting work

`dxgkrnl` gives every submission to an engine a fence and expects it back through
`notify_dma_completed` when the work is done.  The functions of `GpuChannel` in this file take a
submission and leave its fence with whoever will report it: they report it themselves (there was
nothing to do), put it into the callback of a request or of a batch of requests, or keep it as a
`FenceSubmission` until a virtio fence is signalled.

The first thing each of them does is to advance `last_submitted_fence` of the engine
(`EngineState::submit`), before the steps that can fail.

`GpuChannel` is the control queue together with what these functions touch.  The calls of
`notify_dma_completed` they make are recorded; what such a call does to the engine is the subject of
`Fence.Notify`.  A call runs as one step, with the performance counter standing still.

* `GpuChannel.carriers e f` : who holds fence `f` of engine `e`: requests, batches and fence
  submissions.
* `GpuChannel.Completes` : a holder passes the fence to `notify_dma_completed` once when it
  completes.
-/

namespace VirtioGpu

/-- What a submission finds outside the driver: the allocator and the performance counter with its
frequency. -/
structure SubmitEnv where
  alloc : Allocs
  now : ℕ
  freq : ℕ

/-- Time 0, with a performance counter of one tick a second. -/
def startedEnv : SubmitEnv :=
  ⟨⟨⟨0, Nat.dvd_zero pageSize⟩, ⟨0, Nat.dvd_zero pageSize⟩⟩, 0, 1⟩

def EngineState.submit (env : SubmitEnv) (e : EngineState) (fence : ℕ) : EngineState :=
  { e with lastSubmittedFence := fence, lastSubmittedTimestamp := env.now }

namespace FenceSubmission

/-- `EngineState::RESPONSIVE_TIMEOUT_SEC`. -/
def responsiveTimeoutSec : ℕ := 30

def new (env : SubmitEnv) (engine : Engine) (dxgkFence virtioFence : ℕ) : FenceSubmission :=
  ⟨engine, dxgkFence, virtioFence, env.now⟩

def isReady (t : FenceTracker) (x : FenceSubmission) : Bool := t.query x.virtioFence

def isTimeout (env : SubmitEnv) (x : FenceSubmission) : Bool :=
  responsiveTimeoutSec * env.freq ≤ env.now - x.timestamp

/-- The submission holds fence `f` of engine `e`. -/
def holds (e : Engine) (f : ℕ) (x : FenceSubmission) : Bool := x.engine == e && x.dxgkFence == f

@[simp] theorem holds_new (env : SubmitEnv) (e e' : Engine) (f f' v : ℕ) :
    (new env e' f' v).holds e f = (e' == e && f' == f) := rfl

end FenceSubmission

/-- The assertions and `unwrap`s of the submission path. -/
inductive SubmitPanic where
  /-- `Engine::try_from_node_ordinal(NodeOrdinal).unwrap()` -/
  | noEngine
  /-- `assert!(cmds.len() > 1)` -/
  | batchTooShort
  /-- `assert!(cmd.id != CommandId::Nop)` -/
  | nopInBatch
  /-- `cmd.dma().unwrap()` -/
  | noDmaInBatch

/-- The input of the request that submits the command. -/
def Command.input (cmd : Command) : Option (MaybeInlineBuffer maxCommandSize) :=
  cmd.getDma.map .dma

/-- `GpuChannel`, with the parts of `GpuData` a submission touches. -/
structure GpuChannel (size : ℕ) where
  /-- The control queue with its channel, the fence tracker, the strong counts of the batches and
  the engines. -/
  control : QueueState size maxCommandSize maxResponseSize
  fenceSubmissions : List FenceSubmission
  /-- The name of the next batch. -/
  nextBatch : ℕ
  /-- The calls `notify_dma_completed(engine, fence)` made by submissions, oldest first. -/
  notified : List (Engine × ℕ)

namespace GpuChannel

variable {size : ℕ}

def engines (s : GpuChannel size) : Engine → EngineState := s.control.rest.engines

/-- `engines[engine].submit(fence)`. -/
def submit (env : SubmitEnv) (s : GpuChannel size) (e : Engine) (f : ℕ) : GpuChannel size :=
  { s with control := { s.control with rest := { s.control.rest with
      engines := Function.update s.engines e ((s.engines e).submit env f) } } }

variable (env : SubmitEnv) (s : GpuChannel size) (e : Engine)

@[simp] theorem engines_submit (f : ℕ) :
    (s.submit env e f).engines = Function.update s.engines e ((s.engines e).submit env f) := rfl

/-- `GpuData::notify_dma_completed`. -/
def notifyDmaCompleted (f : ℕ) : GpuChannel size :=
  { s with notified := s.notified ++ [(e, f)] }

/-- A request goes into the control channel. -/
def push (b : Buffer maxCommandSize maxResponseSize) : GpuChannel size :=
  { s with control := { s.control with chan := s.control.chan ++ [b] } }

/-- The strong count of a batch changes. -/
def setArc (batch count : ℕ) : GpuChannel size :=
  { s with control := { s.control with arcs := Function.update s.control.arcs batch count } }

def setFence (t : FenceTracker) : GpuChannel size :=
  { s with control := { s.control with fence := t } }

@[simp] theorem engines_setFence (t : FenceTracker) :
    (s.setFence t).engines = s.engines := rfl

/-- The functions of `QueueChannel` that build a request and queue it. -/
def requestAsync (call : ControlCall) : Except NtStatus Unit × GpuChannel size :=
  match call.buffer env.alloc with
  | .error err => (.error err, s)
  | .ok b => (.ok (), s.push b)

def submitCommand (env : SubmitEnv) (s : GpuChannel size) (e : Engine) (f : ℕ) (cmd : Command)
    (allocations : Option (List ℕ)) : Except NtStatus Unit × GpuChannel size :=
  let s := s.submit env e f
  if cmd.id = .nop then (.ok (), s.notifyDmaCompleted e f)
  else match cmd.getDma with
    | none => (.error .unsuccessful, s)
    | some dma => match allocations with
      | some allocations =>
        s.requestAsync env (.submitCommand dma (.dmaCompletedWithAllocations e f allocations))
      | none => s.requestAsync env (.submitCommand dma (.dmaCompleted e f))

/-- The loop of `submit_command_batch`: every request gets a reference to the batch. -/
def pushBatched (env : SubmitEnv) (e : Engine) (f batch : ℕ) :
    List Command → GpuChannel size →
      Outcome (Except NtStatus Unit × GpuChannel size) SubmitPanic
  | [], s => .next (.ok (), s)
  | cmd :: cmds, s =>
    if cmd.id = .nop then .panic .nopInBatch
    else match cmd.getDma with
      | none => .panic .noDmaInBatch
      | some dma =>
        match (ControlCall.submitCommand dma (.dmaCompletedBatched e f batch)).buffer env.alloc with
        | .error err => .next (.error err, s)
        | .ok b => pushBatched env e f batch cmds
            ((s.setArc batch (s.control.arcs batch + 1)).push b)

/-- The end of `submit_command_batch`: the caller's reference goes, and if it was the last one,
`Arc::into_inner` hands out the batch and the fence is reported. -/
def releaseBatch (f batch : ℕ) : GpuChannel size :=
  let last := s.control.arcs batch = 1
  let s := s.setArc batch (s.control.arcs batch - 1)
  if last then s.notifyDmaCompleted e f else s

/-- The start of `submit_command_batch`: the allocations go into an `Arc` of the caller. -/
def startBatch (f : ℕ) : GpuChannel size :=
  { (s.submit env e f).setArc s.nextBatch 1 with nextBatch := s.nextBatch + 1 }

/-- `GpuChannel::submit_command_batch`; the allocations of the batch are known by its name. -/
def submitCommandBatch (f : ℕ) (cmds : List Command) :
    Outcome (Except NtStatus Unit × GpuChannel size) SubmitPanic :=
  if cmds.length ≤ 1 then .panic .batchTooShort
  else
    let batch := s.nextBatch
    (pushBatched env e f batch cmds (s.startBatch env e f)).bind fun
      | (.error err, s) => .next (.error err, s.setArc batch (s.control.arcs batch - 1))
      | (.ok _, s) => .next (.ok (), s.releaseBatch e f batch)

/-- `GpuChannel::submit_command_buffer`.  The header takes a virtio fence. -/
def submitCommandBuffer (env : SubmitEnv) (s : GpuChannel size) (e : Engine) (f ctx : ℕ)
    (ring : Option ℕ) (data : List UInt8) : Except NtStatus Unit × GpuChannel size :=
  let s := s.submit env e f
  let t := s.control.fence
  let header := submit3DHeader t (some ctx) ring data.length
  requestAsync env (s.setFence header.2) (.submitCommandBuffer
    ⟨header.1, length_submit3DHeader t (some ctx) ring data.length⟩ data (.dmaCompleted e f))

/-- `GpuData::handle_fence_submissions`: report what is ready, and start the clock of what has
timed out again. -/
def handleFenceSubmissions : GpuChannel size :=
  let ready := s.fenceSubmissions.filter (·.isReady s.control.fence)
  let waiting := s.fenceSubmissions.filter (! ·.isReady s.control.fence)
  let resubmit := (waiting.filter (·.isTimeout env)).map fun x =>
    FenceSubmission.new env x.engine x.dxgkFence x.virtioFence
  { s with
    notified := s.notified ++ ready.map fun x => (x.engine, x.dxgkFence)
    fenceSubmissions := waiting.filter (! ·.isTimeout env) ++ resubmit }

/-- `fence_submissions.push(x)`. -/
def addSubmission (x : FenceSubmission) : GpuChannel size :=
  { s with fenceSubmissions := s.fenceSubmissions ++ [x] }

def submitFence (f virtioFence : ℕ) : GpuChannel size :=
  let s := s.submit env e f
  if s.control.fence.query virtioFence then s.notifyDmaCompleted e f
  else handleFenceSubmissions env (s.addSubmission (.new env e f virtioFence))

end GpuChannel

/-! ### Who holds a fence -/

/-- A holder of a fence: a request of its own, a batch of requests or a fence submission. -/
inductive Carrier where
  | request (callback : Callback)
  | batch (batch : ℕ)
  | submission (x : FenceSubmission)

namespace Callback

/-- The callback belongs to a single request and holds fence `f` of engine `e`. -/
def isSingle (e : Engine) (f : ℕ) : Callback → Bool
  | dmaCompleted e' f' | dmaCompletedWithAllocations e' f' _ => e' == e && f' == f
  | _ => false

/-- The batch of a callback that holds fence `f` of engine `e`. -/
def batchOf (e : Engine) (f : ℕ) : Callback → Option ℕ
  | dmaCompletedBatched e' f' batch => if e' = e ∧ f' = f then some batch else Option.none
  | _ => Option.none

end Callback

/-- The holders among these callbacks and submissions; the requests of a batch count once. -/
def carriersOf (e : Engine) (f : ℕ) (callbacks : List Callback) (xs : List FenceSubmission) :
    List Carrier :=
  (callbacks.filter (·.isSingle e f)).map .request ++
    (callbacks.filterMap (·.batchOf e f)).dedup.map .batch ++
    (xs.filter (·.holds e f)).map .submission

/-- The effect is a call of `notify_dma_completed(e, f)`. -/
def Effect.isNotify {maxOut : ℕ} (e : Engine) (f : ℕ) : Effect maxOut → Bool
  | notifyDmaCompleted e' f' => e' == e && f' == f
  | _ => false

namespace GpuChannel

variable {size : ℕ}

/-- The callbacks of the requests in the channel and in the slots of the queue. -/
def callbacks (s : GpuChannel size) : List Callback :=
  s.control.chan.map Buffer.callback ++ (List.finRange size).map s.control.q.callbacks

/-- The holders of fence `f` of engine `e`. -/
def carriers (s : GpuChannel size) (e : Engine) (f : ℕ) : List Carrier :=
  carriersOf e f s.callbacks s.fenceSubmissions

/-- Nobody holds the fence, and it was reported once on the way from `s` to `s'`. -/
def Reported (s s' : GpuChannel size) (e : Engine) (f : ℕ) : Prop :=
  s'.notified.count (e, f) = s.notified.count (e, f) + 1 ∧ s'.carriers e f = []

/-- The number of calls `notify_dma_completed(e, f)` the handler thread has made. -/
def handled (q : QueueState size maxCommandSize maxResponseSize) (e : Engine) (f : ℕ) : ℕ :=
  q.effects.countP (·.isNotify e f)

/-- The callbacks are run one after the other, each on some output; what they call is recorded. -/
def runCallbacks (output : MaybeInlineBuffer maxResponseSize) (callbacks : List Callback)
    (q : QueueState size maxCommandSize maxResponseSize) :
    QueueState size maxCommandSize maxResponseSize :=
  callbacks.foldl (fun q callback => q.recordEffects output callback) q

/-- A holder passes the fence to `notify_dma_completed` once when it completes: a request when its
callback is run, a batch when all its callbacks are run, and a fence submission when the virtio
fence it waits for is found signalled. -/
def Completes (s : GpuChannel size) (e : Engine) (f : ℕ) : Carrier → Prop
  | .request callback => ∀ output,
      handled (runCallbacks output [callback] s.control) e f = handled s.control e f + 1
  | .batch batch => ∀ output,
      handled (runCallbacks output (s.callbacks.filter (·.batchOf e f == some batch)) s.control) e f
        = handled s.control e f + 1
  | .submission x => ∀ env (t : FenceTracker), t.query x.virtioFence = true →
      s.Reported (handleFenceSubmissions env (s.setFence t)) e f

/-- One holder has the fence, and it was not reported on the way from `s` to `s'`. -/
def Carried (s s' : GpuChannel size) (e : Engine) (f : ℕ) : Prop :=
  s'.notified.count (e, f) = s.notified.count (e, f) ∧
    ∃ c, s'.carriers e f = [c] ∧ s'.Completes e f c

/-- What the caller of a submission is told agrees with what became of its fence.  After a success
the fence has been reported or has one holder; after a failure nobody holds it and
`last_submitted_fence` is what it was. -/
def Accounted (s : GpuChannel size) (e : Engine) (f : ℕ)
    (r : Except NtStatus Unit × GpuChannel size) : Prop :=
  match r.1 with
  | .ok _ => s.Reported r.2 e f ∨ s.Carried r.2 e f
  | .error _ => r.2.carriers e f = [] ∧
      (r.2.engines e).lastSubmittedFence = (s.engines e).lastSubmittedFence

/-- The channel of an adapter that has just been started. -/
def init (h : 0 < size) : GpuChannel size where
  control := .init maxCommandSize maxResponseSize h true
  fenceSubmissions := []
  nextBatch := 0
  notified := []

/-! ### Lemmas on the holders -/

theorem carriers_init (h : 0 < size) (e : Engine) (f : ℕ) : (init h).carriers e f = [] := by
  simp [carriers, carriersOf, callbacks, init, QueueState.init, Queue.new, Callback.isSingle,
    Callback.batchOf]

variable {env : SubmitEnv} {s s' : GpuChannel size} {e : Engine} {f : ℕ} {xs : List FenceSubmission}
  {callback : Callback} {x : FenceSubmission}

theorem carriersOf_eq_nil {cbs : List Callback} :
    carriersOf e f cbs xs = [] ↔ cbs.filter (·.isSingle e f) = [] ∧
      cbs.filterMap (·.batchOf e f) = [] ∧ xs.filter (·.holds e f) = [] := by
  simp [carriersOf, List.dedup_eq_nil]

theorem carriersOf_insert {before new after : List Callback}
    (h : carriersOf e f (before ++ after) xs = []) :
    carriersOf e f (before ++ new ++ after) xs = carriersOf e f new [] := by
  obtain ⟨hsingle, hbatch, hsub⟩ := carriersOf_eq_nil.1 h
  rw [List.filter_append, List.append_eq_nil_iff] at hsingle
  rw [List.filterMap_append, List.append_eq_nil_iff] at hbatch
  simp only [carriersOf, List.filter_append, List.filterMap_append, hsingle, hbatch, hsub,
    List.nil_append, List.append_nil, List.filter_nil]

/-- Requests go into the control channel. -/
def pushAll (s : GpuChannel size) (bs : List (Buffer maxCommandSize maxResponseSize)) :
    GpuChannel size :=
  { s with control := { s.control with chan := s.control.chan ++ bs } }

theorem callbacks_pushAll (bs : List (Buffer maxCommandSize maxResponseSize)) :
    (s.pushAll bs).callbacks = s.control.chan.map Buffer.callback ++ bs.map Buffer.callback ++
      (List.finRange size).map s.control.q.callbacks := by
  simp [callbacks, pushAll]

theorem carriers_pushAll (h : s.carriers e f = [])
    (bs : List (Buffer maxCommandSize maxResponseSize)) :
    (s.pushAll bs).carriers e f = carriersOf e f (bs.map Buffer.callback) [] := by
  rw [carriers, callbacks_pushAll]
  exact carriersOf_insert h

/-! ### Completion -/

theorem completes_request (h : callback.isSingle e f = true) :
    s.Completes e f (.request callback) := by
  intro output
  cases callback <;>
    simp_all [Callback.isSingle, runCallbacks, QueueState.recordEffects, Callback.effects, handled,
      Effect.isNotify]

/-- The last of the callbacks of a batch reports the fence, and no other does. -/
theorem handled_runCallbacks_batch (output : MaybeInlineBuffer maxResponseSize) (batch n : ℕ)
    (q : QueueState size maxCommandSize maxResponseSize) (harcs : q.arcs batch = n + 1) :
    handled (runCallbacks output (List.replicate (n + 1) (.dmaCompletedBatched e f batch)) q) e f =
      handled q e f + 1 := by
  induction n generalizing q with
  | zero =>
    simp [runCallbacks, QueueState.recordEffects, Callback.effects, harcs, handled, Effect.isNotify]
  | succ n ih =>
    rw [List.replicate_succ, runCallbacks, List.foldl_cons, ← runCallbacks, ih]
    · simp [QueueState.recordEffects, Callback.effects, harcs, handled]
    · simp [QueueState.recordEffects, Callback.release, harcs]

theorem count_eq_length_filter (xs : List FenceSubmission) :
    (xs.map fun x => (x.engine, x.dxgkFence)).count (e, f) = (xs.filter (·.holds e f)).length := by
  rw [List.count, List.countP_map, ← List.countP_eq_length_filter]
  rfl

theorem filter_comm (p q : FenceSubmission → Bool) (xs : List FenceSubmission) :
    (xs.filter p).filter q = (xs.filter q).filter p := by
  simp only [List.filter_filter, Bool.and_comm]

theorem count_notified_handleFenceSubmissions (env : SubmitEnv) (s : GpuChannel size) :
    (s.handleFenceSubmissions env).notified.count (e, f) = s.notified.count (e, f) +
      ((s.fenceSubmissions.filter (·.holds e f)).filter (·.isReady s.control.fence)).length := by
  simp only [handleFenceSubmissions]
  rw [List.count_append, count_eq_length_filter, filter_comm]

theorem filter_handleFenceSubmissions (env : SubmitEnv) (s : GpuChannel size) :
    (s.handleFenceSubmissions env).fenceSubmissions.filter (·.holds e f) =
      let waiting := (s.fenceSubmissions.filter (·.holds e f)).filter (! ·.isReady s.control.fence)
      waiting.filter (! ·.isTimeout env) ++ (waiting.filter (·.isTimeout env)).map fun x =>
        FenceSubmission.new env x.engine x.dxgkFence x.virtioFence := by
  have hholds : (FenceSubmission.holds e f ∘ fun x : FenceSubmission =>
      FenceSubmission.new env x.engine x.dxgkFence x.virtioFence) = FenceSubmission.holds e f := rfl
  have hswap (p q : FenceSubmission → Bool) (xs : List FenceSubmission) :
      ((xs.filter p).filter q).filter (·.holds e f) =
        ((xs.filter (·.holds e f)).filter p).filter q := by
    rw [filter_comm q, filter_comm p]
  simp only [handleFenceSubmissions]
  rw [List.filter_append, List.filter_map, hholds, hswap, hswap]

theorem handleFenceSubmissions_ready (env : SubmitEnv)
    (h : s.fenceSubmissions.filter (·.holds e f) = [x]) (hx : x.isReady s.control.fence = true) :
    (s.handleFenceSubmissions env).notified.count (e, f) = s.notified.count (e, f) + 1 ∧
      (s.handleFenceSubmissions env).fenceSubmissions.filter (·.holds e f) = [] := by
  simp [count_notified_handleFenceSubmissions, filter_handleFenceSubmissions, h, hx]

theorem handleFenceSubmissions_waiting (env : SubmitEnv)
    (h : s.fenceSubmissions.filter (·.holds e f) = [x]) (hx : x.isReady s.control.fence = false) :
    (s.handleFenceSubmissions env).notified.count (e, f) = s.notified.count (e, f) ∧
      ∃ y, (s.handleFenceSubmissions env).fenceSubmissions.filter (·.holds e f) = [y] := by
  rw [count_notified_handleFenceSubmissions, filter_handleFenceSubmissions]
  cases htimeout : x.isTimeout env <;> simp [h, hx, htimeout]

theorem carriers_of_no_request (hxs : s.fenceSubmissions.filter (·.holds e f) = xs)
    (h : carriersOf e f s.callbacks [] = []) :
    s.carriers e f = xs.map .submission := by
  obtain ⟨hsingle, hbatch, -⟩ := carriersOf_eq_nil.1 h
  simp [carriers, carriersOf, hsingle, hbatch, hxs]

theorem completes_submission (hx : s.fenceSubmissions.filter (·.holds e f) = [x])
    (hcbs : carriersOf e f s.callbacks [] = []) : s.Completes e f (.submission x) := by
  intro env t hready
  obtain ⟨hcount, hnone⟩ := handleFenceSubmissions_ready (s := s.setFence t) env hx hready
  exact ⟨hcount, carriers_of_no_request hnone hcbs⟩

/-! ### What each function does with the fence -/

theorem reported_notifyDmaCompleted (h : s.carriers e f = []) :
    s.Reported (s.notifyDmaCompleted e f) e f :=
  ⟨by simp [notifyDmaCompleted], h⟩

theorem submitFence_accounts (env : SubmitEnv) (h : s.carriers e f = []) (virtioFence : ℕ) :
    s.Reported (s.submitFence env e f virtioFence) e f ∨
      s.Carried (s.submitFence env e f virtioFence) e f := by
  simp only [submitFence]
  split_ifs with hquery
  · exact .inl (reported_notifyDmaCompleted (s := s.submit env e f) h)
  · right
    obtain ⟨hsingle, hbatch, hsub⟩ := carriersOf_eq_nil.1 h
    have hcbs : carriersOf e f s.callbacks [] = [] := carriersOf_eq_nil.2 ⟨hsingle, hbatch, rfl⟩
    have hfilter : ((s.submit env e f).addSubmission
        (.new env e f virtioFence)).fenceSubmissions.filter (·.holds e f) =
          [.new env e f virtioFence] := by
      simpa [addSubmission, submit, List.filter_append] using hsub
    obtain ⟨hcount, y, hy⟩ :=
      handleFenceSubmissions_waiting env hfilter (Bool.eq_false_iff.2 hquery)
    exact ⟨hcount, .submission y, carriers_of_no_request hy hcbs, completes_submission hy hcbs⟩

theorem buffer_submitCommand (alloc : Allocs) (dma : Slice) (callback : Callback) :
    ∃ b, (ControlCall.submitCommand dma callback).buffer alloc = .ok b ∧ b.callback = callback ∧
      b.input = .dma dma :=
  ⟨_, rfl, rfl, rfl⟩

theorem buffer_submitCommandBuffer (alloc : Allocs) (hdr : Bytes cmdSubmit3DSize)
    (data : List UInt8) (callback : Callback) :
    if cmdSubmit3DSize + data.length ≤ pageSize then
      ∃ b, (ControlCall.submitCommandBuffer hdr data callback).buffer alloc = .ok b ∧
        b.callback = callback
    else (ControlCall.submitCommandBuffer hdr data callback).buffer alloc = .error .noMemory := by
  simp only [ControlCall.buffer, QueueChannel.requestHdrWithBody,
    MaybeInlineBuffer.tryFromHdrWithBody, MaybeInlineBuffer.tryFromBytes, List.length_append, hdr.2]
  split_ifs with hpage hinline hinline
  · exact ⟨_, rfl, rfl⟩
  · exact ⟨_, rfl, rfl⟩
  · exact absurd (hinline.trans (by decide)) hpage
  · rfl

theorem carriersOf_single (h : callback.isSingle e f = true) :
    carriersOf e f [callback] [] = [.request callback] := by
  cases callback <;> simp_all [Callback.isSingle, carriersOf, Callback.batchOf]

theorem carried_push (h : s.carriers e f = []) {b : Buffer maxCommandSize maxResponseSize}
    (hb : b.callback.isSingle e f = true) : s.Carried (s.push b) e f :=
  ⟨rfl, .request b.callback, (carriers_pushAll h [b]).trans (carriersOf_single hb),
    completes_request hb⟩

theorem isSingle_dmaCompleted : (Callback.dmaCompleted e f).isSingle e f = true := by
  simp [Callback.isSingle]

theorem isSingle_dmaCompletedWithAllocations (allocations : List ℕ) :
    (Callback.dmaCompletedWithAllocations e f allocations).isSingle e f = true := by
  simp [Callback.isSingle]

theorem requestAsync_of_ok {call : ControlCall} {b : Buffer maxCommandSize maxResponseSize}
    (h : call.buffer env.alloc = .ok b) : s.requestAsync env call = (.ok (), s.push b) := by
  simp [requestAsync, h]

theorem requestAsync_of_error {call : ControlCall} {err : NtStatus}
    (h : call.buffer env.alloc = .error err) : s.requestAsync env call = (.error err, s) := by
  simp [requestAsync, h]

theorem accounted_error_iff (h : s'.carriers e f = []) {err : NtStatus} :
    s.Accounted e f (.error err, s') ↔
      (s'.engines e).lastSubmittedFence = (s.engines e).lastSubmittedFence :=
  and_iff_right h

theorem requestAsync_submitCommand (env : SubmitEnv) (h : s.carriers e f = []) (dma : Slice)
    (hcallback : callback.isSingle e f = true) :
    s.Accounted e f (s.requestAsync env (.submitCommand dma callback)) := by
  obtain ⟨b, hb, rfl, -⟩ := buffer_submitCommand env.alloc dma callback
  rw [requestAsync_of_ok hb]
  exact .inr (carried_push h hcallback)

/-- `submit_command` fails after it has advanced `last_submitted_fence` if the command has no DMA
buffer; otherwise the fence is accounted for. -/
theorem submitCommand_accounted_iff (env : SubmitEnv) (h : s.carriers e f = []) (cmd : Command)
    (allocations : Option (List ℕ)) :
    s.Accounted e f (s.submitCommand env e f cmd allocations) ↔
      (cmd.id ≠ .nop → cmd.getDma = none → (s.engines e).lastSubmittedFence = f) := by
  simp only [submitCommand]
  split_ifs with hnop
  · simp only [hnop, ne_eq, not_true, false_imp_iff, iff_true]
    exact .inl (reported_notifyDmaCompleted (s := s.submit env e f) h)
  · cases hdma : cmd.getDma with
    | none =>
      rw [accounted_error_iff (show (s.submit env e f).carriers e f = [] from h)]
      simp [hnop, EngineState.submit, eq_comm]
    | some dma =>
      refine iff_of_true ?_ (by simp)
      cases allocations with
      | none =>
        exact requestAsync_submitCommand (s := s.submit env e f) env h dma isSingle_dmaCompleted
      | some allocations =>
        exact requestAsync_submitCommand (s := s.submit env e f) env h dma
          (isSingle_dmaCompletedWithAllocations allocations)

/-- The channel when `submit_command_buffer` has built the header. -/
def drawHeader (env : SubmitEnv) (s : GpuChannel size) (e : Engine) (f ctx : ℕ) (ring : Option ℕ)
    (data : List UInt8) : GpuChannel size :=
  (s.submit env e f).setFence (submit3DHeader s.control.fence (some ctx) ring data.length).2

theorem submitCommandBuffer_of_le (env : SubmitEnv) (s : GpuChannel size) (e : Engine) (f ctx : ℕ)
    (ring : Option ℕ) {data : List UInt8} (h : cmdSubmit3DSize + data.length ≤ pageSize) :
    ∃ b, s.submitCommandBuffer env e f ctx ring data =
        (.ok (), (s.drawHeader env e f ctx ring data).push b) ∧
      b.callback = .dmaCompleted e f := by
  have hbuffer := buffer_submitCommandBuffer env.alloc
    ⟨_, length_submit3DHeader s.control.fence (some ctx) ring data.length⟩ data (.dmaCompleted e f)
  rw [if_pos h] at hbuffer
  obtain ⟨b, hb, hcallback⟩ := hbuffer
  exact ⟨b, requestAsync_of_ok hb, hcallback⟩

theorem submitCommandBuffer_of_lt (env : SubmitEnv) (s : GpuChannel size) (e : Engine) (f ctx : ℕ)
    (ring : Option ℕ) {data : List UInt8} (h : pageSize < cmdSubmit3DSize + data.length) :
    s.submitCommandBuffer env e f ctx ring data =
      (.error .noMemory, s.drawHeader env e f ctx ring data) := by
  have hbuffer := buffer_submitCommandBuffer env.alloc
    ⟨_, length_submit3DHeader s.control.fence (some ctx) ring data.length⟩ data (.dmaCompleted e f)
  rw [if_neg (not_le.2 h)] at hbuffer
  exact requestAsync_of_error hbuffer

theorem submitCommandBuffer_accounted_iff (env : SubmitEnv) (h : s.carriers e f = []) (ctx : ℕ)
    (ring : Option ℕ) (data : List UInt8) :
    s.Accounted e f (s.submitCommandBuffer env e f ctx ring data) ↔
      (cmdSubmit3DSize + data.length ≤ pageSize ∨ (s.engines e).lastSubmittedFence = f) := by
  have hdrawn : (s.drawHeader env e f ctx ring data).carriers e f = [] := h
  by_cases hpage : cmdSubmit3DSize + data.length ≤ pageSize
  · obtain ⟨b, hr, hcallback⟩ := submitCommandBuffer_of_le env s e f ctx ring hpage
    rw [hr]
    refine iff_of_true (.inr ?_) (.inl hpage)
    exact carried_push hdrawn (hcallback ▸ isSingle_dmaCompleted)
  · rw [submitCommandBuffer_of_lt env s e f ctx ring (not_le.1 hpage), accounted_error_iff hdrawn,
      or_iff_right hpage]
    simp [drawHeader, EngineState.submit, eq_comm]

theorem pushBatched_eq_next {batch : ℕ} {cmds : List Command}
    {r : Except NtStatus Unit × GpuChannel size}
    (h : pushBatched env e f batch cmds s = .next r) :
    ∃ bs, bs.map Buffer.callback = List.replicate cmds.length (.dmaCompletedBatched e f batch) ∧
      bs.map Buffer.input = cmds.filterMap Command.input ∧
      r = (.ok (), (s.setArc batch (s.control.arcs batch + cmds.length)).pushAll bs) := by
  induction cmds generalizing s with
  | nil =>
    cases h
    exact ⟨[], rfl, rfl, by simp [pushAll, setArc]⟩
  | cons cmd cmds ih =>
    simp only [pushBatched] at h
    split_ifs at h
    cases hdma : cmd.getDma with
    | none => simp [hdma] at h
    | some dma =>
      obtain ⟨b, hb, hcallback, hinput⟩ :=
        buffer_submitCommand env.alloc dma (.dmaCompletedBatched e f batch)
      simp only [hdma, hb] at h
      obtain ⟨bs, hbs, hinputs, rfl⟩ := ih h
      refine ⟨b :: bs, by simp [hbs, hcallback, List.replicate_succ], ?_, ?_⟩
      · simp [hinputs, hinput, Command.input, hdma]
      simp [pushAll, setArc, push, add_assoc, add_comm 1]

theorem carriersOf_batch (batch n : ℕ) :
    carriersOf e f (List.replicate (n + 1) (.dmaCompletedBatched e f batch)) [] =
      [.batch batch] := by
  have hbatch : Callback.batchOf e f (.dmaCompletedBatched e f batch) = some batch := by
    simp [Callback.batchOf]
  simp only [carriersOf, List.filterMap_replicate, hbatch, List.replicate_dedup (n.succ_ne_zero)]
  simp [Callback.isSingle]

/-- The requests of a batch hold its fence together if the batch has one reference for each. -/
theorem carried_batch (h : s.carriers e f = []) {batch n : ℕ}
    {bs : List (Buffer maxCommandSize maxResponseSize)}
    (hbs : bs.map Buffer.callback = List.replicate (n + 1) (.dmaCompletedBatched e f batch))
    (harcs : s.control.arcs batch = n + 1) : s.Carried (s.pushAll bs) e f := by
  have hcarriers := carriers_pushAll h bs
  rw [hbs, carriersOf_batch] at hcarriers
  refine ⟨rfl, .batch batch, hcarriers, fun output => ?_⟩
  -- No callback but those of the new requests belongs to the batch.
  obtain ⟨-, hnone, -⟩ := carriersOf_eq_nil.1 h
  have hold : s.callbacks.filter (·.batchOf e f == some batch) = [] := by
    refine List.filter_eq_nil_iff.2 fun cb hcb => ?_
    simp [List.filterMap_eq_nil_iff.1 hnone cb hcb]
  rw [callbacks, List.filter_append, List.append_eq_nil_iff] at hold
  have hfilter : (s.pushAll bs).callbacks.filter (·.batchOf e f == some batch) =
      List.replicate (n + 1) (.dmaCompletedBatched e f batch) := by
    rw [callbacks_pushAll, hbs, List.filter_append, List.filter_append, hold.1, hold.2]
    simp [Callback.batchOf]
  rw [hfilter]
  exact handled_runCallbacks_batch output batch n _ harcs

theorem setArc_pushAll (batch count : ℕ) (bs : List (Buffer maxCommandSize maxResponseSize)) :
    (s.pushAll bs).setArc batch count = (s.setArc batch count).pushAll bs := rfl

theorem releaseBatch_of_shared {batch n : ℕ} (h : s.control.arcs batch = n + 2) :
    s.releaseBatch e f batch = s.setArc batch (n + 1) := by
  simp [releaseBatch, h]

/-- `submit_command_batch` leaves the fence with the batch, which has as many references as
requests. -/
theorem submitCommandBatch_accounted {cmds : List Command}
    {r : Except NtStatus Unit × GpuChannel size} (h : s.carriers e f = [])
    (hr : s.submitCommandBatch env e f cmds = .next r) : s.Accounted e f r := by
  simp only [submitCommandBatch] at hr
  split_ifs at hr with hlen
  obtain ⟨r₁, hloop, hr⟩ := Outcome.bind_eq_next.1 hr
  obtain ⟨bs, hbs, -, rfl⟩ := pushBatched_eq_next hloop
  obtain ⟨n, hn⟩ : ∃ n, cmds.length = n + 2 := ⟨cmds.length - 2, by omega⟩
  have harcs : (s.startBatch env e f).control.arcs s.nextBatch + cmds.length = n + 1 + 2 := by
    simp only [startBatch, setArc, Function.update_self]
    omega
  rw [harcs] at hr
  rw [hn] at hbs
  obtain rfl := Outcome.next.inj hr
  rw [releaseBatch_of_shared (n := n + 1) (by simp [pushAll, setArc]), setArc_pushAll]
  have hstart : (((s.startBatch env e f).setArc s.nextBatch (n + 1 + 2)).setArc s.nextBatch
      (n + 1 + 1)).carriers e f = [] := h
  obtain ⟨hcount, hheld⟩ := carried_batch hstart hbs (Function.update_self ..)
  exact .inr ⟨hcount, hheld⟩

end GpuChannel

end VirtioGpu
