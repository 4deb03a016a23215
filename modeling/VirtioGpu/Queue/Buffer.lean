import VirtioGpu.Data.Memory
import VirtioGpu.Fence.Engine

/-!
# Request buffers

A request to the device is an input the device reads, an output it writes and a callback to run
when it is done (`Buffer`).  Input and output are `MaybeInlineBuffer`s: short ones are stored in the
slot of the queue that carries the request, longer ones in a page-aligned heap block, and DMA
buffers are only referred to.

The descriptors of the queue hold physical addresses, so a buffer must not cross a page boundary
unless it is a DMA buffer, which `dxgkrnl` provides physically contiguous.  The constructors refuse
anything longer than a page; `MaybeInlineBuffer.Sound` is the check that `push_to_device` makes
(`slice_in_one_page`).
-/

namespace VirtioGpu

/-- The status codes the modelled functions return. -/
inductive NtStatus where
  | unsuccessful
  | noMemory
  | invalidParameter
  | invalidHandle
  | invalidDeviceState
  | bufferTooSmall
  | reinitializationNeeded
  | graphicsInsufficientDmaBuffer
  | queueFull
  | alreadyCommitted
  | ioDeviceError
  | notImplemented
  | notSupported
  | insufficientResources
  /-- A status the operating system has chosen. -/
  | other (code : ℕ)
  deriving DecidableEq

/-- `AlignedBox<[u8]>`: a heap block at a page boundary. -/
structure AlignedBox where
  addr : PageAddr
  data : List UInt8

/-- `MaybeInlineBuffer<MAX_INLINE>`. -/
inductive MaybeInlineBuffer (maxInline : ℕ) where
  /-- The bytes are stored in the value itself; `len` of them (a `u16`) are in use. -/
  | inline (len : ℕ) (data : List UInt8) (length_data : data.length = maxInline)
      (len_le : len ≤ maxInline)
  | boxed (data : AlignedBox)
  | dma (data : Slice)

namespace MaybeInlineBuffer

variable {maxInline : ℕ}

/-- An inline buffer holding `bytes`, zero-filled up to `MAX_INLINE`; the length is cut to 16
bits. -/
def ofBytes (bytes : List UInt8) (h : bytes.length ≤ maxInline) : MaybeInlineBuffer maxInline :=
  .inline (bytes.length % 2 ^ 16) (bytes ++ List.replicate (maxInline - bytes.length) 0)
    (by simp [h]) ((Nat.mod_le _ _).trans h)

/-- The common shape of the constructors: inline if the bytes fit, in a heap block at `alloc` if
they fit into a page, `NO_MEMORY` otherwise. -/
def tryFromBytes (alloc : PageAddr) (bytes : List UInt8) :
    Except NtStatus (MaybeInlineBuffer maxInline) :=
  if h : bytes.length ≤ maxInline then .ok (ofBytes bytes h)
  else if bytes.length ≤ pageSize then .ok (.boxed ⟨alloc, bytes⟩)
  else .error .noMemory

/-- `try_new_zeroed_size`; `try_new_zeroed::<T>` is this at the size of `T`. -/
def tryNewZeroedSize (alloc : PageAddr) (size : ℕ) :
    Except NtStatus (MaybeInlineBuffer maxInline) :=
  tryFromBytes alloc (List.replicate size 0)

/-- `try_from_value`, on the bytes of the value. -/
def tryFromValue (alloc : PageAddr) (value : List UInt8) :
    Except NtStatus (MaybeInlineBuffer maxInline) :=
  tryFromBytes alloc value

def tryFromHdrWithBody (alloc : PageAddr) (hdr body : List UInt8) :
    Except NtStatus (MaybeInlineBuffer maxInline) :=
  tryFromBytes alloc (hdr ++ body)

def isDma : MaybeInlineBuffer maxInline → Bool
  | .dma _ => true
  | _ => false

/-- The number of bytes of `as_ref()`. -/
def length : MaybeInlineBuffer maxInline → ℕ
  | .inline len _ _ _ => len
  | .boxed box => box.data.length
  | .dma data => data.len

end MaybeInlineBuffer

/-- An array of slots for buffers, in a page-aligned block.  A slot is a power of two long (the
`IN_OK` and `OUT_OK` assertions) and at most a page; inline bytes are stored at `dataOffset`. -/
structure SlotArray (maxInline : ℕ) where
  base : PageAddr
  logSize : ℕ
  dataOffset : ℕ
  logSize_le : logSize ≤ 12
  fits : dataOffset + maxInline ≤ 2 ^ logSize

/-- Where the bytes of the buffer are once it has been moved into slot `i`. -/
def MaybeInlineBuffer.slice {maxInline : ℕ} (slots : SlotArray maxInline) (i : ℕ) :
    MaybeInlineBuffer maxInline → Slice
  | .inline len _ _ _ => ⟨slots.base + i * 2 ^ slots.logSize + slots.dataOffset, len⟩
  | .boxed box => ⟨box.addr, box.data.length⟩
  | .dma data => data

/-- The check `push_to_device` makes on a buffer: a DMA buffer, or one that does not cross a page
boundary (`slice_in_one_page`). -/
def MaybeInlineBuffer.Sound {maxInline : ℕ} (slots : SlotArray maxInline) (i : ℕ)
    (b : MaybeInlineBuffer maxInline) : Prop :=
  b.isDma = true ∨ (b.slice slots i).InOnePage
  deriving Decidable

namespace MaybeInlineBuffer

variable {maxInline : ℕ} (slots : SlotArray maxInline) (i : ℕ)

theorem sound_inline (len : ℕ) (data : List UInt8) (h : data.length = maxInline)
    (hle : len ≤ maxInline) : (inline len data h hle).Sound slots i := by
  refine .inr (Slice.inOnePage_of_slot slots.base.2 slots.logSize_le rfl ?_)
  have := slots.fits
  simp only [slice]
  omega

theorem sound_boxed (box : AlignedBox) :
    (boxed box : MaybeInlineBuffer maxInline).Sound slots i ↔ box.data.length ≤ pageSize := by
  simp only [Sound, isDma, slice, Bool.false_eq_true, false_or]
  exact Slice.inOnePage_of_aligned box.addr.2

theorem sound_dma (data : Slice) : (dma data : MaybeInlineBuffer maxInline).Sound slots i :=
  .inl rfl

/-- Whatever the constructors accept passes the check, in every slot. -/
theorem sound_of_tryFromBytes {alloc : PageAddr} {bytes : List UInt8}
    {b : MaybeInlineBuffer maxInline} (h : tryFromBytes alloc bytes = .ok b) :
    b.Sound slots i := by
  unfold tryFromBytes at h
  split_ifs at h with hinline hpage
  · cases h
    exact sound_inline slots i _ _ _ _
  · cases h
    exact (sound_boxed slots i _).2 hpage

end MaybeInlineBuffer

/-- What to do when the device has answered.  Batches of allocations, the `Arc` they share and the
`BlockingBuffer` of a waiting thread are referred to by number. -/
inductive Callback where
  | none
  | setEvent (block : ℕ)
  | freeResourceId (id : ℕ)
  | freeContextId (id : ℕ)
  | dmaCompleted (engine : Engine) (fence : ℕ)
  | dmaCompletedWithAllocations (engine : Engine) (fence : ℕ) (allocations : List ℕ)
  | dmaCompletedBatched (engine : Engine) (fence : ℕ) (batch : ℕ)
  deriving DecidableEq

/-- `Buffer<IN, OUT>`: a request. -/
structure Buffer (maxIn maxOut : ℕ) where
  input : MaybeInlineBuffer maxIn
  output : MaybeInlineBuffer maxOut
  callback : Callback

end VirtioGpu
