import VirtioGpu.Queue.Submit

/-!
# The operations of `GpuChannel` and their fences

Most functions of `GpuChannel` build a header, fill in a command, allocate what the request needs
and put the request into a channel.  A fenced header draws its virtio fence from the tracker when it
is built (`new_header`), and everything after that can still fail: an input or output of more than a
page is refused, the heap may have no block for it, and there may be no memory for the
`BlockingBuffer` of a thread that is going to wait.  Only a few functions have checks in front of
the header.

`get_capset_infos` is a series of calls of `get_capset_info`, and `context_submit_3d` a header
without a fence before `submit_async`.

* `GpuOp.run` : the operations, as far as the tracker and the channels are concerned.
* `ControlCall.tryBuffer_isOk_iff` : a request is queued exactly if there is memory for it.
* `GpuOp.draws` : whether an operation gets to build a fenced header.
* `GpuOp.fence_run`, `GpuOp.queued_run` : the tracker has then one more fence, however the operation
  ends; and when the requests that carry fences are queued.
-/

namespace VirtioGpu

namespace FixedRequest

/-- The type in the header. -/
def hdrType : FixedRequest → ℕ
  | getDisplayInfo => 0x100
  | resourceCreate2d => 0x101
  | resourceUnref => 0x102
  | setScanout => 0x103
  | resourceFlush => 0x104
  | resourceTransferToHost2d => 0x105
  | resourceDetachBacking => 0x107
  | getCapsetInfo => 0x108
  | getEdid => 0x10a
  | resourceCreateBlob => 0x10c
  | setScanoutBlob => 0x10d
  | contextCreate => 0x200
  | contextDestroy => 0x201
  | contextAttachResource => 0x202
  | contextDetachResource => 0x203
  | resourceCreate3d => 0x204
  | resourceMapBlob => 0x208
  | resourceUnmapBlob => 0x209

/-- The header has a fence. -/
def fenced : FixedRequest → Bool
  | resourceFlush | setScanout | setScanoutBlob => false
  | _ => true

/-- There is a check before the header: an id or a part of the aperture must be free, and the name
of a context must not be too long. -/
def checksFirst : FixedRequest → Bool
  | contextCreate | resourceCreate2d | resourceCreate3d | resourceMapBlob => true
  | _ => false

/-- The callback of the request, for a thread that waits for `block` and a context or resource
`id`. -/
def callback (id block : ℕ) : FixedRequest → Callback
  | contextDestroy => .freeContextId id
  | resourceUnref => .freeResourceId id
  | resourceFlush | setScanout | setScanoutBlob => .none
  | _ => .setEvent block

end FixedRequest

/-- What an operation meets on its way. -/
structure OpEnv where
  /-- Where the heap puts the input and the output. -/
  allocs : Allocs
  /-- The heap has no block for the input. -/
  inputRefused : Bool
  /-- The heap has no block for the output. -/
  outputRefused : Bool
  /-- There is no memory for a `BlockingBuffer`. -/
  blockRefused : Bool
  /-- The error of a check before the header. -/
  refused : Option NtStatus
  /-- What a blocking operation returns when its request has been queued. -/
  answer : Except NtStatus Unit

/-- The bytes are in a heap block. -/
def MaybeInlineBuffer.isBoxed {maxInline : ℕ} : MaybeInlineBuffer maxInline → Bool
  | .boxed _ => true
  | _ => false

/-- A thread waits for the answer. -/
def Callback.isBlocking : Callback → Bool
  | .setEvent _ => true
  | _ => false

/-! ### Memory for a request -/

/-- There is room for `n` bytes: inline, or in a heap block of at most a page. -/
def RoomFor (maxInline n : ℕ) (refused : Bool) : Prop :=
  n ≤ maxInline ∨ (n ≤ pageSize ∧ refused = false)

/-- What a request needs memory for. -/
structure RequestNeeds where
  input : ℕ
  output : ℕ
  blocking : Bool

/-- There is memory for it. -/
@[mk_iff met_iff]
structure RequestNeeds.Met (needs : RequestNeeds) (env : OpEnv) : Prop where
  input : RoomFor maxCommandSize needs.input env.inputRefused
  output : RoomFor maxResponseSize needs.output env.outputRefused
  block : needs.blocking = true → env.blockRefused = false

theorem roomFor_iff (maxInline : ℕ) (alloc : PageAddr) (bytes : List UInt8) (refused : Bool) :
    RoomFor maxInline bytes.length refused ↔
      ∃ b : MaybeInlineBuffer maxInline, MaybeInlineBuffer.tryFromBytes alloc bytes = .ok b ∧
        (refused && b.isBoxed) = false := by
  unfold RoomFor MaybeInlineBuffer.tryFromBytes
  split_ifs with hinline hpage
  · simp [hinline, MaybeInlineBuffer.ofBytes, MaybeInlineBuffer.isBoxed]
  · simp [hinline, hpage, MaybeInlineBuffer.isBoxed]
  · simp [hinline, hpage]

/-- How much of the source has to be copied. -/
def InputSource.copied : InputSource → ℕ
  | bytes (n := n) _ => n
  | boxed _ | dma _ => 0

/-- The heap block of the input was there before. -/
def InputSource.isBoxed : InputSource → Bool
  | boxed _ => true
  | bytes _ | dma _ => false

theorem InputSource.exists_input_iff (alloc : PageAddr) (source : InputSource) (refused : Bool) :
    (∃ i : MaybeInlineBuffer maxCommandSize, source.input alloc = .ok i ∧
      (refused && (i.isBoxed && !source.isBoxed)) = false) ↔
        RoomFor maxCommandSize source.copied refused := by
  cases source with
  | bytes cmd =>
    have hcmd := roomFor_iff maxCommandSize alloc cmd refused
    rw [cmd.2] at hcmd
    simpa [input, copied, isBoxed] using hcmd.symm
  | boxed | dma => simp [input, copied, isBoxed, MaybeInlineBuffer.isBoxed, RoomFor]

namespace ControlCall

/-- The request that the call queues, if there is memory for it. -/
def tryBuffer (env : OpEnv) (call : ControlCall) :
    Except NtStatus (Buffer maxCommandSize maxResponseSize) :=
  match call.buffer env.allocs with
  | .error e => .error e
  | .ok b =>
    if env.outputRefused && b.output.isBoxed then .error .noMemory
    else if env.inputRefused && b.input.isBoxed && !call.source.isBoxed then .error .noMemory
    else if env.blockRefused && b.callback.isBlocking then .error .noMemory
    else .ok b

/-- What the request of the call needs.  For a DMA buffer, and for a block that is already there,
it needs nothing. -/
def needs (call : ControlCall) : RequestNeeds :=
  ⟨call.source.copied, call.responseSize, call.callback.isBlocking⟩

/-- **A request is queued exactly if there is memory for it.** -/
theorem tryBuffer_isOk_iff {env : OpEnv} {call : ControlCall} :
    (call.tryBuffer env).isOk = true ↔ call.needs.Met env := by
  have hok : (call.tryBuffer env).isOk = true ↔ ∃ b, call.buffer env.allocs = .ok b ∧
      (env.inputRefused && (b.input.isBoxed && !call.source.isBoxed)) = false ∧
      (env.outputRefused && b.output.isBoxed) = false ∧
      (env.blockRefused && b.callback.isBlocking) = false := by
    unfold tryBuffer
    cases call.buffer env.allocs with
    | error => simp [Except.isOk, Except.toBool]
    | ok b =>
      simp only [Except.ok.injEq, exists_eq_left']
      split_ifs <;> simp_all [Except.isOk, Except.toBool]
  have hin := call.source.exists_input_iff env.allocs.input env.inputRefused
  have hout := roomFor_iff maxResponseSize env.allocs.output
    (List.replicate call.responseSize 0) env.outputRefused
  have hblock : (call.callback.isBlocking = true → env.blockRefused = false) ↔
      (env.blockRefused && call.callback.isBlocking) = false := by
    cases call.callback.isBlocking <;> simp
  rw [List.length_replicate] at hout
  rw [hok, RequestNeeds.met_iff, needs, hout, ← hin, hblock]
  constructor
  · rintro ⟨b, hb, hinput, houtput, hcallback⟩
    obtain ⟨hi, ho, hc⟩ := buffer_eq_ok_iff.1 hb
    exact ⟨⟨b.input, hi, hinput⟩, ⟨b.output, ho, houtput⟩, hc ▸ hcallback⟩
  · rintro ⟨⟨i, hi, hinput⟩, ⟨o, ho, houtput⟩, hcallback⟩
    exact ⟨⟨i, o, call.callback⟩, buffer_eq_ok_iff.2 ⟨hi, ho, rfl⟩, hinput, houtput, hcallback⟩

end ControlCall

theorem CursorCall.buffer_isOk (alloc : Allocs) (c : CursorCall) : ∃ b, c.buffer alloc = .ok b := by
  obtain ⟨cmd⟩ := c
  obtain ⟨o, ho, -⟩ := (roomFor_iff cursorResponseSize alloc.output
    (List.replicate ctrlHeaderSize 0) false).1 (.inl (by decide))
  obtain ⟨i, hi, -⟩ := (roomFor_iff cursorCommandSize alloc.input cmd.1 false).1 (.inl cmd.2.le)
  exact ⟨⟨i, o, .none⟩, buffer_eq_ok_iff.2 ⟨hi, ho, rfl⟩⟩

/-- The functions of `GpuChannel` that can fail. -/
inductive GpuOp where
  /-- A function that sends one structure; `args` is what follows the header. -/
  | fixed (r : FixedRequest) (context : Option ℕ) (args : Bytes (r.size - ctrlHeaderSize))
      (id block : ℕ)
  | getCapset (args : Bytes 8) (infoSize block : ℕ)
  /-- `submit_async` of a block with a header. -/
  | submitAsync (hdr : Bytes cmdSubmit3DSize) (alloc : PageAddr) (data : List UInt8)
  | submitCommandSync (cmd : Command) (block : ℕ)
  | submitCommand (cmd : Command) (callback : Callback)
  | submitCommandBatch (cmds : List Command) (callback : Callback)
  /-- `submit_command_buffer` and `submit_command_buffer_with_fence` -/
  | submitCommandBuffer (context : ℕ) (ring : Option ℕ) (data : List UInt8) (callback : Callback)
  /-- `move_cursor` and `update_cursor` -/
  | cursor (move : Bool) (args : Bytes 32)

/-- What an operation has done. -/
structure OpResult where
  result : Except NtStatus Unit
  fence : FenceTracker
  /-- The number of requests it has put into a channel. -/
  queued : ℕ

namespace GpuOp

/-- Queue a request, with the tracker `t`. -/
def send (env : OpEnv) (t : FenceTracker) (call : ControlCall) : OpResult :=
  match call.tryBuffer env with
  | .error e => ⟨.error e, t, 0⟩
  | .ok b => ⟨if b.callback.isBlocking then env.answer else .ok (), t, 1⟩

/-- The loop of `submit_command_batch`, after `queued` requests. -/
def sendBatch (env : OpEnv) (t : FenceTracker) (callback : Callback) :
    List Command → ℕ → Outcome OpResult SubmitPanic
  | [], queued => .next ⟨.ok (), t, queued⟩
  | cmd :: cmds, queued =>
    if cmd.id = .nop then .panic .nopInBatch
    else match cmd.getDma with
      | none => .panic .noDmaInBatch
      | some dma =>
        match (ControlCall.submitCommand dma callback).tryBuffer env with
        | .error e => .next ⟨.error e, t, queued⟩
        | .ok _ => sendBatch env t callback cmds (queued + 1)

/-- The error of the check before the header. -/
def refusal (env : OpEnv) (r : FixedRequest) : Option NtStatus :=
  if r.checksFirst then env.refused else none

def run (env : OpEnv) (t : FenceTracker) : GpuOp → Outcome OpResult SubmitPanic
  | fixed r context args id block =>
    match refusal env r with
    | some e => .next ⟨.error e, t, 0⟩
    | none =>
      let header := newHeader t r.hdrType r.fenced context none
      .next (send env header.2 (.fixed r
        ⟨header.1 ++ args.1, by
          rw [List.length_append, DmaWriter.length_newHeader, args.2]
          exact Nat.add_sub_cancel' r.ctrlHeaderSize_le⟩ (r.callback id block)))
  | getCapset args infoSize block =>
    let header := newHeader t 0x109 true none none
    .next (send env header.2 (.getCapset
      ⟨header.1 ++ args.1, by rw [List.length_append, DmaWriter.length_newHeader, args.2]; rfl⟩
      infoSize block))
  | submitAsync hdr alloc data => .next (send env t (.contextSubmit3d hdr alloc data))
  | submitCommandSync cmd block =>
    if cmd.id = .nop then .panic .nopInBatch
    else match cmd.getDma with
      | none => .next ⟨.error .unsuccessful, t, 0⟩
      | some dma => .next (send env t (.submitCommandSync dma block))
  | submitCommand cmd callback =>
    if cmd.id = .nop then .next ⟨.ok (), t, 0⟩
    else match cmd.getDma with
      | none => .next ⟨.error .unsuccessful, t, 0⟩
      | some dma => .next (send env t (.submitCommand dma callback))
  | submitCommandBatch cmds callback =>
    if cmds.length ≤ 1 then .panic .batchTooShort else sendBatch env t callback cmds 0
  | submitCommandBuffer context ring data callback =>
    let header := submit3DHeader t (some context) ring data.length
    .next (send env header.2 (.submitCommandBuffer
      ⟨header.1, length_submit3DHeader t (some context) ring data.length⟩ data callback))
  | cursor move args =>
    let header := newHeader t (if move then 0x301 else 0x300) true none none
    match (CursorCall.updateCursor ⟨header.1 ++ args.1, by
        rw [List.length_append, DmaWriter.length_newHeader, args.2]; rfl⟩).buffer env.allocs with
    | .error e => .next ⟨.error e, header.2, 0⟩
    | .ok _ => .next ⟨.ok (), header.2, 1⟩

/-- The operation builds a header with a fence. -/
def draws (env : OpEnv) : GpuOp → Bool
  | fixed r .. => r.fenced && (refusal env r).isNone
  | getCapset .. | submitCommandBuffer .. | cursor .. => true
  | submitAsync .. | submitCommandSync .. | submitCommand .. | submitCommandBatch .. => false

variable {env : OpEnv} {t : FenceTracker} {r : OpResult}

theorem newHeader_tracker (t : FenceTracker) (hdrType : ℕ) (fence : Bool)
    (context ring : Option ℕ) :
    (newHeader t hdrType fence context ring).2 = if fence then t.issue.2 else t := by
  cases fence <;> rfl

theorem fence_send (env : OpEnv) (t : FenceTracker) (call : ControlCall) :
    (send env t call).fence = t := by
  unfold send
  split <;> rfl

theorem fence_sendBatch {callback : Callback} {cmds : List Command} {queued : ℕ}
    (h : sendBatch env t callback cmds queued = .next r) : r.fence = t := by
  induction cmds generalizing queued with
  | nil =>
    cases h
    rfl
  | cons cmd cmds ih =>
    unfold sendBatch at h
    split_ifs at h
    split at h
    · cases h
    · split at h
      · cases h
        rfl
      · exact ih h

/-- **The tracker after an operation**, whatever it returns. -/
theorem fence_run {op : GpuOp} (h : op.run env t = .next r) :
    r.fence = if op.draws env then t.issue.2 else t := by
  cases op with
  | fixed r' context args id block =>
    simp only [run] at h
    split at h
    · rename_i e he
      have hdraws : (fixed r' context args id block).draws env = false := by simp [draws, he]
      cases h
      rw [hdraws]
      rfl
    · rename_i he
      have hdraws : (fixed r' context args id block).draws env = r'.fenced := by simp [draws, he]
      cases h
      rw [fence_send, newHeader_tracker, hdraws]
  | getCapset =>
    cases h
    exact fence_send _ _ _
  | submitAsync =>
    cases h
    exact fence_send _ _ _
  | submitCommandSync =>
    simp only [run] at h
    split_ifs at h
    split at h <;> cases h
    · rfl
    · exact fence_send _ _ _
  | submitCommand =>
    simp only [run] at h
    split_ifs at h
    · cases h
      rfl
    · split at h <;> cases h
      · rfl
      · exact fence_send _ _ _
  | submitCommandBatch =>
    simp only [run] at h
    split_ifs at h
    exact fence_sendBatch h
  | submitCommandBuffer =>
    cases h
    exact fence_send _ _ _
  | cursor =>
    simp only [run] at h
    split at h <;> cases h <;> rfl

/-! ### What is queued -/

/-- What each request of the operation needs; those of the cursor always fit into their slot. -/
def needs : GpuOp → RequestNeeds
  | fixed r _ _ id block => ⟨r.size, r.responseSize, (r.callback id block).isBlocking⟩
  | getCapset _ infoSize _ => ⟨32, ctrlHeaderSize + infoSize, true⟩
  | submitAsync .. => ⟨0, ctrlHeaderSize, false⟩
  | submitCommandSync .. => ⟨0, ctrlHeaderSize, true⟩
  | submitCommand _ callback | submitCommandBatch _ callback =>
      ⟨0, ctrlHeaderSize, callback.isBlocking⟩
  | submitCommandBuffer _ _ data callback =>
      ⟨cmdSubmit3DSize + data.length, ctrlHeaderSize, callback.isBlocking⟩
  | cursor .. => ⟨0, 0, false⟩

/-- The commands in a DMA buffer that the operation is to submit. -/
def commands : GpuOp → List Command
  | submitCommandSync cmd _ => [cmd]
  | submitCommand cmd _ => if cmd.id = .nop then [] else [cmd]
  | submitCommandBatch cmds _ => cmds
  | fixed .. | getCapset .. | submitAsync .. | submitCommandBuffer .. | cursor .. => []

/-- Nothing keeps the commands from being queued: they are all patched, and there is memory for
their requests. -/
def Submits (env : OpEnv) (op : GpuOp) : Prop :=
  ∀ cmd ∈ op.commands, cmd.getDma.isSome = true ∧ op.needs.Met env

theorem queued_send (env : OpEnv) (t : FenceTracker) (call : ControlCall) :
    0 < (send env t call).queued ↔ call.needs.Met env := by
  rw [← ControlCall.tryBuffer_isOk_iff]
  unfold send
  cases call.tryBuffer env <;> simp [Except.isOk, Except.toBool]

/-- The one command of `submit_command_sync` or `submit_command`. -/
theorem queued_command {cmd : Command} {call : Slice → ControlCall} {needs : RequestNeeds}
    (hneeds : ∀ dma, (call dma).needs = needs)
    (h : (match cmd.getDma with
      | none => .next ⟨.error .unsuccessful, t, 0⟩
      | some dma => .next (send env t (call dma)) : Outcome OpResult SubmitPanic) = .next r) :
    [cmd].length ≤ r.queued ↔ ∀ c ∈ [cmd], c.getDma.isSome = true ∧ needs.Met env := by
  rw [List.forall_mem_singleton]
  cases hdma : cmd.getDma with
  | none =>
    simp only [hdma] at h
    cases h
    simp
  | some dma =>
    simp only [hdma] at h
    cases h
    rw [← hneeds dma, ← queued_send env t]
    simp [Nat.succ_le_iff]

theorem queued_sendBatch {callback : Callback} {cmds : List Command} {queued : ℕ}
    (h : sendBatch env t callback cmds queued = .next r) :
    queued + cmds.length ≤ r.queued ↔ ∀ cmd ∈ cmds, cmd.getDma.isSome = true ∧
      RequestNeeds.Met ⟨0, ctrlHeaderSize, callback.isBlocking⟩ env := by
  induction cmds generalizing queued with
  | nil =>
    cases h
    simp
  | cons cmd cmds ih =>
    unfold sendBatch at h
    split_ifs at h
    split at h
    · cases h
    · rename_i dma hdma
      have hmet : ((ControlCall.submitCommand dma callback).tryBuffer env).isOk = true ↔ _ :=
        ControlCall.tryBuffer_isOk_iff
      rw [List.forall_mem_cons, List.length_cons, Nat.add_comm cmds.length, ← Nat.add_assoc]
      split at h
      · rename_i e he
        cases h
        rw [he] at hmet
        refine iff_of_false (by dsimp only; omega) fun hall => ?_
        exact Bool.false_ne_true (hmet.2 hall.1.2)
      · rename_i b hb
        rw [hb] at hmet
        rw [ih h]
        exact (and_iff_right ⟨by rw [hdma]; rfl, hmet.1 rfl⟩).symm

/-- **What an operation has queued.**  The request with the fence of its header is queued exactly if
there is memory for it, and all its commands are exactly if nothing keeps them from it. -/
theorem queued_run {op : GpuOp} (h : op.run env t = .next r) :
    (op.draws env = true → (0 < r.queued ↔ op.needs.Met env)) ∧
      (op.commands.length ≤ r.queued ↔ op.Submits env) := by
  have hnone : ∀ {P : Prop}, 0 ≤ r.queued ↔ ∀ cmd ∈ ([] : List Command),
      cmd.getDma.isSome = true ∧ P := by simp
  unfold Submits
  cases op with
  | fixed =>
    refine ⟨fun hdraws => ?_, hnone⟩
    simp only [draws, Bool.and_eq_true, Option.isNone_iff_eq_none] at hdraws
    simp only [run, hdraws.2] at h
    cases h
    exact queued_send _ _ _
  | getCapset =>
    cases h
    exact ⟨fun _ => queued_send _ _ _, hnone⟩
  | submitAsync => exact ⟨nofun, hnone⟩
  | submitCommandSync =>
    refine ⟨nofun, ?_⟩
    simp only [run] at h
    split_ifs at h
    exact queued_command (fun _ => rfl) h
  | submitCommand =>
    refine ⟨nofun, ?_⟩
    simp only [run] at h
    simp only [commands]
    split_ifs at h ⊢
    · exact hnone
    · exact queued_command (fun _ => rfl) h
  | submitCommandBatch =>
    refine ⟨nofun, ?_⟩
    simp only [run] at h
    split_ifs at h
    have hbatch := queued_sendBatch h
    rwa [Nat.zero_add] at hbatch
  | submitCommandBuffer =>
    cases h
    exact ⟨fun _ => queued_send _ _ _, hnone⟩
  | cursor move args =>
    refine ⟨fun _ => ?_, hnone⟩
    simp only [run] at h
    split at h
    · rename_i e he
      obtain ⟨b, hb⟩ := CursorCall.buffer_isOk env.allocs _
      cases he.symm.trans hb
    · cases h
      simp [needs, RequestNeeds.met_iff, RoomFor]

end GpuOp

end VirtioGpu
