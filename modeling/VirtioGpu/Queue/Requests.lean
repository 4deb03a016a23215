import VirtioGpu.Machine.Basic
import VirtioGpu.Queue.Buffer

/-!
# The requests the driver makes

Everything that ends up in the control or the cursor channel is built by one of the functions of
`GpuChannel`.  This file lists them with the buffers they build: `ControlCall` and `CursorCall` name
the function and the data it is given, `buffer` is the request it queues (or the error it returns).

`push_to_device` asserts that neither buffer of a request crosses a page boundary, with the comment
"surely this is always true".  It is not: the command stream of a resource creation comes from user
mode with `CreateResource`, is copied into one heap block by `allocate_full` and queued by
`context_submit_3d` as it is, while every other request goes through a constructor that refuses
more than a page.

* `requests_sound_iff` : the assertions hold for every request except that one, and for that one
  exactly when the command and its header fit into a page.
-/

namespace VirtioGpu

def maxCommandSize : ℕ := 120

def maxResponseSize : ℕ := 56

def cursorCommandSize : ℕ := 56

def cursorResponseSize : ℕ := 24

/-- `size_of::<gpu::CtrlHeader>()`. -/
def ctrlHeaderSize : ℕ := 24

/-- `size_of::<gpu::CmdSubmit3D>()`. -/
def cmdSubmit3DSize : ℕ := 32

/-- `size_of::<gpu::UpdateCursor>()`. -/
def updateCursorSize : ℕ := 56

/-- The bytes of a value of a type that is `size` bytes long. -/
abbrev Bytes (size : ℕ) := { bytes : List UInt8 // bytes.length = size }

/-! ### Queueing a request

The functions of `QueueChannel`.  `alloc` is where the allocator puts the input and the output,
should they not fit inline. -/

/-- The addresses the allocator hands out during one call. -/
structure Allocs where
  input : PageAddr
  output : PageAddr

namespace QueueChannel

variable {maxIn maxOut : ℕ}

variable (alloc : Allocs)

/-- `request_async_into_buf`, and `request_blocking_into_buf` with a `SetEvent` callback. -/
def requestIntoBuf (req : List UInt8) (output : MaybeInlineBuffer maxOut) (callback : Callback) :
    Except NtStatus (Buffer maxIn maxOut) := do
  let input ← MaybeInlineBuffer.tryFromValue alloc.input req
  return ⟨input, output, callback⟩

/-- `request_async` and `request_blocking`: a value as input, zeroes as output. -/
def request (req : List UInt8) (rspSize : ℕ) (callback : Callback) :
    Except NtStatus (Buffer maxIn maxOut) := do
  let output ← MaybeInlineBuffer.tryNewZeroedSize alloc.output rspSize
  requestIntoBuf alloc req output callback

/-- `request_async_dma` and `request_async_dma_batched`. -/
def requestDma (dma : Slice) (rspSize : ℕ) (callback : Callback) :
    Except NtStatus (Buffer maxIn maxOut) := do
  let output ← MaybeInlineBuffer.tryNewZeroedSize alloc.output rspSize
  return ⟨.dma dma, output, callback⟩

/-- A header followed by a body as input. -/
def requestHdrWithBody (hdr body : List UInt8) (rspSize : ℕ) (callback : Callback) :
    Except NtStatus (Buffer maxIn maxOut) := do
  let input ← MaybeInlineBuffer.tryFromHdrWithBody alloc.input hdr body
  let output ← MaybeInlineBuffer.tryNewZeroedSize alloc.output rspSize
  return ⟨input, output, callback⟩

/-- A heap block as input, whatever its length. -/
def requestBoxed (box : AlignedBox) (rspSize : ℕ) (callback : Callback) :
    Except NtStatus (Buffer maxIn maxOut) := do
  let output ← MaybeInlineBuffer.tryNewZeroedSize alloc.output rspSize
  return ⟨.boxed box, output, callback⟩

end QueueChannel

/-! ### The callers -/

/-- The functions that send one command structure and expect one response structure. -/
inductive FixedRequest where
  | getCapsetInfo
  | getDisplayInfo
  | contextCreate
  | contextDestroy
  | resourceCreate2d
  | resourceCreate3d
  | contextAttachResource
  | contextDetachResource
  | resourceCreateBlob
  | resourceMapBlob
  | resourceUnmapBlob
  | resourceTransferToHost2d
  | resourceFlush
  | resourceDetachBacking
  | resourceUnref
  | getEdid
  | setScanout
  | setScanoutBlob

namespace FixedRequest

/-- The size of the command structure. -/
def size : FixedRequest → ℕ
  | getDisplayInfo | contextDestroy => 24
  | getCapsetInfo | contextAttachResource | contextDetachResource | resourceUnmapBlob
  | resourceDetachBacking | resourceUnref | getEdid => 32
  | resourceCreate2d | resourceMapBlob => 40
  | resourceFlush | setScanout => 48
  | resourceCreateBlob | resourceTransferToHost2d => 56
  | resourceCreate3d => 72
  | contextCreate | setScanoutBlob => 96

/-- The size of the response structure. -/
def responseSize : FixedRequest → ℕ
  | getCapsetInfo => 40
  | getDisplayInfo => 408
  | resourceMapBlob => 32
  | getEdid => 1056
  | _ => ctrlHeaderSize

theorem ctrlHeaderSize_le (r : FixedRequest) : ctrlHeaderSize ≤ r.size := by
  cases r <;> decide

end FixedRequest

/-- The heap block `allocate_full` builds for the command stream of a resource creation: room for
the header, then the stream. -/
def allocateFullCommand (alloc : PageAddr) (data : List UInt8) : AlignedBox :=
  ⟨alloc, List.replicate cmdSubmit3DSize 0 ++ data⟩

/-- The calls that queue a request on the control channel, with the data they are given. -/
inductive ControlCall where
  /-- A function that sends one structure. -/
  | fixed (r : FixedRequest) (cmd : Bytes r.size) (callback : Callback)
  /-- `get_capset`; the device has announced a capset of `infoSize` bytes. -/
  | getCapset (cmd : Bytes 32) (infoSize : ℕ) (block : ℕ)
  /-- `Device::context_submit_3d`, which writes its header over the room left for it and calls
  `submit_async`, on the block built from the user's command stream `data`. -/
  | contextSubmit3d (hdr : Bytes cmdSubmit3DSize) (alloc : PageAddr) (data : List UInt8)
  | submitCommandSync (dma : Slice) (block : ℕ)
  /-- `submit_command`, and each command of `submit_command_batch`. -/
  | submitCommand (dma : Slice) (callback : Callback)
  /-- `submit_command_buffer` and `submit_command_buffer_with_fence`. -/
  | submitCommandBuffer (hdr : Bytes cmdSubmit3DSize) (data : List UInt8) (callback : Callback)

/-- The calls that queue a request on the cursor channel. -/
inductive CursorCall where
  /-- `move_cursor` and `update_cursor`. -/
  | updateCursor (cmd : Bytes updateCursorSize)

namespace ControlCall

open QueueChannel

/-- The request the call queues. -/
def buffer (alloc : Allocs) :
    ControlCall → Except NtStatus (Buffer maxCommandSize maxResponseSize)
  | fixed r cmd callback => request alloc cmd r.responseSize callback
  | getCapset cmd infoSize block => do
      let output ← MaybeInlineBuffer.tryNewZeroedSize alloc.output (ctrlHeaderSize + infoSize)
      requestIntoBuf alloc cmd output (.setEvent block)
  | contextSubmit3d hdr addr data =>
      let box := allocateFullCommand addr data
      requestBoxed alloc { box with data := hdr.1 ++ box.data.drop hdr.1.length } ctrlHeaderSize
        .none
  | submitCommandSync dma block => requestDma alloc dma ctrlHeaderSize (.setEvent block)
  | submitCommand dma callback => requestDma alloc dma ctrlHeaderSize callback
  | submitCommandBuffer hdr data callback =>
      requestHdrWithBody alloc hdr data ctrlHeaderSize callback

/-- The request is not a resource creation whose command stream exceeds a page. -/
def Fits : ControlCall → Prop
  | contextSubmit3d _ _ data => cmdSubmit3DSize + data.length ≤ pageSize
  | _ => True

end ControlCall

/-- The request the call queues. -/
def CursorCall.buffer (alloc : Allocs) :
    CursorCall → Except NtStatus (Buffer cursorCommandSize cursorResponseSize)
  | updateCursor cmd => QueueChannel.request alloc cmd ctrlHeaderSize .none

/-! ### The parts of a request -/

/-- What the input of a request is made of. -/
inductive InputSource where
  /-- Bytes that are copied, inline or to the heap. -/
  | bytes {n : ℕ} (cmd : Bytes n)
  /-- A heap block that is there already. -/
  | boxed (box : AlignedBox)
  | dma (r : Slice)

/-- The input, if there is room for it. -/
def InputSource.input {maxInline : ℕ} (alloc : PageAddr) :
    InputSource → Except NtStatus (MaybeInlineBuffer maxInline)
  | bytes cmd => MaybeInlineBuffer.tryFromBytes alloc cmd
  | boxed box => .ok (.boxed box)
  | dma r => .ok (.dma r)

namespace ControlCall

open QueueChannel

/-- What the call sends. -/
def source : ControlCall → InputSource
  | fixed _ cmd _ => .bytes cmd
  | getCapset cmd _ _ => .bytes cmd
  | contextSubmit3d hdr addr data =>
      .boxed ⟨addr, hdr.1 ++ (allocateFullCommand addr data).data.drop hdr.1.length⟩
  | submitCommandSync dma _ | submitCommand dma _ => .dma dma
  | submitCommandBuffer hdr data _ =>
      .bytes (n := cmdSubmit3DSize + data.length)
        ⟨hdr.1 ++ data, by rw [List.length_append, hdr.2]⟩

/-- The size of the response. -/
def responseSize : ControlCall → ℕ
  | fixed r _ _ => r.responseSize
  | getCapset _ infoSize _ => ctrlHeaderSize + infoSize
  | _ => ctrlHeaderSize

/-- What is to be done with it. -/
def callback : ControlCall → Callback
  | fixed _ _ callback | submitCommand _ callback | submitCommandBuffer _ _ callback => callback
  | getCapset _ _ block | submitCommandSync _ block => .setEvent block
  | contextSubmit3d .. => .none

/-- Whatever the call and the order in which it builds them, the parts of the request are these. -/
theorem buffer_eq_ok_iff {alloc : Allocs} {c : ControlCall}
    {b : Buffer maxCommandSize maxResponseSize} : c.buffer alloc = .ok b ↔
      c.source.input alloc.input = .ok b.input ∧
        MaybeInlineBuffer.tryNewZeroedSize alloc.output c.responseSize = .ok b.output ∧
        c.callback = b.callback := by
  obtain ⟨input, output, callback⟩ := b
  cases c with
  | fixed | getCapset =>
    simp only [buffer, request, requestIntoBuf, MaybeInlineBuffer.tryFromValue, bind_eq_ok, pure,
      Except.pure, source, InputSource.input, responseSize, ControlCall.callback]
    grind
  | contextSubmit3d | submitCommandSync | submitCommand =>
    simp only [buffer, requestBoxed, requestDma, bind_eq_ok, pure, Except.pure, source,
      InputSource.input, responseSize, ControlCall.callback]
    grind [allocateFullCommand]
  | submitCommandBuffer =>
    simp only [buffer, requestHdrWithBody, MaybeInlineBuffer.tryFromHdrWithBody, bind_eq_ok, pure,
      Except.pure, source, InputSource.input, responseSize, ControlCall.callback]
    grind

end ControlCall

theorem CursorCall.buffer_eq_ok_iff {alloc : Allocs} {cmd : Bytes updateCursorSize}
    {b : Buffer cursorCommandSize cursorResponseSize} :
    (updateCursor cmd).buffer alloc = .ok b ↔
      (InputSource.bytes cmd).input alloc.input = .ok b.input ∧
        MaybeInlineBuffer.tryNewZeroedSize alloc.output ctrlHeaderSize = .ok b.output ∧
        .none = b.callback := by
  obtain ⟨input, output, callback⟩ := b
  simp only [buffer, QueueChannel.request, QueueChannel.requestIntoBuf,
    MaybeInlineBuffer.tryFromValue, bind_eq_ok, pure, Except.pure, InputSource.input]
  grind

/-! ### The assertions of `push_to_device` -/

/-- The two assertions of `push_to_device` on a request that has been moved into slot `i`. -/
def Buffer.Sound {maxIn maxOut : ℕ} (inputs : SlotArray maxIn) (outputs : SlotArray maxOut)
    (i : ℕ) (b : Buffer maxIn maxOut) : Prop :=
  b.input.Sound inputs i ∧ b.output.Sound outputs i
  deriving Decidable

/-- The source is not a heap block of more than a page. -/
def InputSource.Fits : InputSource → Prop
  | boxed box => box.data.length ≤ pageSize
  | bytes _ | dma _ => True

theorem InputSource.sound_iff_fits {maxInline : ℕ} (slots : SlotArray maxInline) (i : ℕ)
    {alloc : PageAddr} {source : InputSource} {b : MaybeInlineBuffer maxInline}
    (h : source.input alloc = .ok b) : b.Sound slots i ↔ source.Fits := by
  cases source with
  | bytes => exact iff_of_true (MaybeInlineBuffer.sound_of_tryFromBytes slots i h) trivial
  | boxed box =>
    cases h
    exact MaybeInlineBuffer.sound_boxed slots i box
  | dma r =>
    cases h
    exact iff_of_true (MaybeInlineBuffer.sound_dma slots i r) trivial

theorem ControlCall.sound_iff_fits (inputs : SlotArray maxCommandSize)
    (outputs : SlotArray maxResponseSize) (i : ℕ) {alloc : Allocs} {c : ControlCall}
    {b : Buffer maxCommandSize maxResponseSize} (h : c.buffer alloc = .ok b) :
    b.Sound inputs outputs i ↔ c.Fits := by
  obtain ⟨hin, hout, -⟩ := buffer_eq_ok_iff.1 h
  rw [Buffer.Sound, and_iff_left (MaybeInlineBuffer.sound_of_tryFromBytes outputs i hout),
    InputSource.sound_iff_fits inputs i hin]
  cases c with
  | contextSubmit3d hdr => simp [source, InputSource.Fits, Fits, allocateFullCommand, hdr.2]
  | _ => rfl

theorem CursorCall.sound (inputs : SlotArray cursorCommandSize)
    (outputs : SlotArray cursorResponseSize) (i : ℕ) {alloc : Allocs} {c : CursorCall}
    {b : Buffer cursorCommandSize cursorResponseSize} (h : c.buffer alloc = .ok b) :
    b.Sound inputs outputs i := by
  obtain ⟨cmd⟩ := c
  obtain ⟨hin, hout, -⟩ := buffer_eq_ok_iff.1 h
  exact ⟨MaybeInlineBuffer.sound_of_tryFromBytes inputs i hin,
    MaybeInlineBuffer.sound_of_tryFromBytes outputs i hout⟩

/-- **When the assertions of `push_to_device` hold**: always on the cursor queue, and on the control
queue exactly for the requests that are not a resource creation with a command stream of more than a
page (header included). -/
theorem requests_sound_iff (alloc : Allocs) (i : ℕ) :
    (∀ (inputs : SlotArray maxCommandSize) (outputs : SlotArray maxResponseSize) (c : ControlCall)
      (b : Buffer maxCommandSize maxResponseSize),
      c.buffer alloc = .ok b → (b.Sound inputs outputs i ↔ c.Fits)) ∧
    (∀ (inputs : SlotArray cursorCommandSize) (outputs : SlotArray cursorResponseSize)
      (c : CursorCall) (b : Buffer cursorCommandSize cursorResponseSize),
      c.buffer alloc = .ok b → b.Sound inputs outputs i) :=
  ⟨fun inputs outputs _ _ h => ControlCall.sound_iff_fits inputs outputs i h,
    fun inputs outputs _ _ h => CursorCall.sound inputs outputs i h⟩

/-- The layout of the control queue's input slots: 128 bytes, the data after an 8 byte head. -/
def controlInputs : SlotArray maxCommandSize where
  base := ⟨0, by decide⟩
  logSize := 7
  dataOffset := 8
  logSize_le := by decide
  fits := by decide

/-- The layout of the control queue's output slots: 64 bytes. -/
def controlOutputs : SlotArray maxResponseSize where
  base := ⟨0, by decide⟩
  logSize := 6
  dataOffset := 8
  logSize_le := by decide
  fits := by decide

/-- The layout of the cursor queue's input slots: 64 bytes. -/
def cursorInputs : SlotArray cursorCommandSize where
  base := ⟨0, by decide⟩
  logSize := 6
  dataOffset := 8
  logSize_le := by decide
  fits := by decide

/-- The layout of the cursor queue's output slots: 32 bytes. -/
def cursorOutputs : SlotArray cursorResponseSize where
  base := ⟨pageSize, by decide⟩
  logSize := 5
  dataOffset := 8
  logSize_le := by decide
  fits := by decide

/-- A resource creation with a command stream of `n` zeroes. -/
def zeroCreation (n : ℕ) : ControlCall :=
  .contextSubmit3d ⟨List.replicate 32 0, rfl⟩ ⟨pageSize, dvd_rfl⟩ (List.replicate n 0)

theorem fits_zeroCreation (n : ℕ) : (zeroCreation n).Fits ↔ 32 + n ≤ 4096 := by
  simp [zeroCreation, ControlCall.Fits, cmdSubmit3DSize, pageSize]

/-- A resource creation of exactly one page passes. -/
theorem requests_sound_iff_page :
    ∃ b, (zeroCreation 4064).buffer ⟨⟨0, by decide⟩, ⟨0, by decide⟩⟩ = .ok b ∧
      b.Sound controlInputs controlOutputs 3 := by
  obtain ⟨b, hb⟩ : ∃ b, (zeroCreation 4064).buffer ⟨⟨0, by decide⟩, ⟨0, by decide⟩⟩ = .ok b :=
    ⟨_, rfl⟩
  have hiff := (requests_sound_iff _ 3).1 controlInputs controlOutputs _ _ hb
  exact ⟨b, hb, hiff.2 ((fits_zeroCreation 4064).2 (by decide))⟩

/-- **The assertion can fail.**  A resource creation with a command stream of 4065 bytes needs one
byte more than a page. -/
theorem resourceCreation_not_sound :
    ∃ b, (zeroCreation 4065).buffer ⟨⟨0, by decide⟩, ⟨0, by decide⟩⟩ = .ok b ∧
      ¬ b.Sound controlInputs controlOutputs 0 := by
  obtain ⟨b, hb⟩ : ∃ b, (zeroCreation 4065).buffer ⟨⟨0, by decide⟩, ⟨0, by decide⟩⟩ = .ok b :=
    ⟨_, rfl⟩
  refine ⟨b, hb, fun hsound => ?_⟩
  rw [ControlCall.sound_iff_fits controlInputs controlOutputs 0 hb, fits_zeroCreation] at hsound
  omega

end VirtioGpu
