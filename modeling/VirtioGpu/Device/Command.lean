import VirtioGpu.Fence.Tracker
import VirtioGpu.Queue.Requests
import VirtioGpu.Uapi.Parse

/-!
# Commands in a DMA buffer

`Device::render` turns the commands of user mode into commands for the device, which it writes one
after the other into a DMA buffer (`Command::from_item`, `command.rs`).  A `Command` remembers where
its bytes are; the list of them goes into the private data of the DMA buffer, from where
`submit_command` takes it.
-/

namespace VirtioGpu

/-- `GpuChannel::new_header`: the bytes of the `gpu::CtrlHeader` and, for a fenced command, the
tracker after drawing a fence. -/
def newHeader (t : FenceTracker) (hdrType : ℕ) (fence : Bool) (context ring : Option ℕ) :
    List UInt8 × FenceTracker :=
  let drawn := if fence then t.issue else (0, t)
  let flags := (if fence then 1 else 0) + (if ring.isSome then 2 else 0)
  (leBytes 4 hdrType ++ leBytes 4 flags ++ leBytes 8 drawn.1 ++ leBytes 4 (context.getD 0) ++
    leBytes 1 (ring.getD 0) ++ [0, 0, 0], drawn.2)

/-- `gpu::Command::TRANSFER_TO_HOST_3D`. -/
def cmdTransferToHost3D : ℕ := 0x205

/-- `gpu::Command::TRANSFER_FROM_HOST_3D`. -/
def cmdTransferFromHost3D : ℕ := 0x206

/-- `gpu::Command::SUBMIT_3D`. -/
def cmdSubmit3D : ℕ := 0x207

/-- `size_of::<gpu::CmdTransferHost3D>()`. -/
def cmdTransferHost3DSize : ℕ := 72

/-- The bytes of a `gpu::CmdSubmit3D` for a stream of `size` bytes. -/
def submit3DHeader (t : FenceTracker) (context ring : Option ℕ) (size : ℕ) :
    List UInt8 × FenceTracker :=
  let (header, t) := newHeader t cmdSubmit3D true context ring
  (header ++ leBytes 4 size ++ leBytes 4 0, t)

theorem length_submit3DHeader (t : FenceTracker) (context ring : Option ℕ) (size : ℕ) :
    (submit3DHeader t context ring size).1.length = cmdSubmit3DSize := by
  simp [submit3DHeader, newHeader, cmdSubmit3DSize]

/-- `Command`; the bits of `flags` are `RING_IDX`, `SHADOW_VIRGL` and `NEEDS_PATCH`. -/
structure Command where
  id : CommandId
  flags : ℕ
  ring : ℕ
  dma : Option Slice
  deriving DecidableEq

namespace Command

def new (id : CommandId) (ring : Option ℕ) (flags : ℕ) (dma : Option Slice) : Command :=
  match ring with
  | some ring => ⟨id, flags ||| 1, ring, dma⟩
  | none => ⟨id, flags, 0, dma⟩

def nop : Command := new .nop none 0 none

def len (cmd : Command) : ℕ := match cmd.dma with
  | some r => r.len
  | none => 0

/-- `Command::dma`: nothing as long as the command needs patching. -/
def getDma (cmd : Command) : Option Slice := if cmd.flags.testBit 2 then none else cmd.dma

end Command

/-- `CommandDmaPrivate`; an allocation is given by its handle. -/
structure CommandDmaPrivate where
  commands : List Command
  allocations : List ℕ

inductive RenderStop where
  | status (e : NtStatus)
  /-- `context_internal(false).unwrap()` of a device without a context. -/
  | noContext
  /-- `unreachable!("CommandId::Fence cannot be submitted to host")` -/
  | fenceToHost
  /-- A slice index outside the DMA buffer. -/
  | sliceIndex
  /-- `assert_eq!(dma_written, needed)` -/
  | writtenNeeded
  /-- An exception, which `try_seh` catches; it has left the tracker like this. -/
  | fault (fence : FenceTracker)
  deriving DecidableEq

/-- `Command::body_dma_len`; a fence has none. -/
def bodyDmaLen : CommandBody → Option ℕ
  | .nop => some 0
  | .fence _ => none
  | .submit data => some (cmdSubmit3DSize + data.len)
  | .transferToHost _ count | .transferFromHost _ count => some (cmdTransferHost3DSize * count)

/-- The bytes of a `gpu::CmdTransferHost3D` for the `CommandTransfer` at `off`. -/
def transferBytes (b : UserBuffer) (header : List UInt8) (off : ℕ) : List UInt8 :=
  -- The packed fields of `CommandTransfer`: res_id, stride, offset, level, layer_stride, box.
  header ++ b.bytesAt (off + 24) 24 ++ b.bytesAt (off + 8) 8 ++ b.bytesAt off 4 ++
    b.bytesAt (off + 16) 4 ++ b.bytesAt (off + 4) 4 ++ b.bytesAt (off + 20) 4

/-- The DMA buffer while commands are written to it. -/
structure DmaWriter where
  dma : Slice
  /-- `dmabuf_offset`: the number of bytes written. -/
  offset : ℕ
  fence : FenceTracker
  /-- The bytes of each command. -/
  written : List (List UInt8)
  commands : List Command

namespace DmaWriter

/-- Write one command and remember where it is. -/
def push (w : DmaWriter) (id : CommandId) (ring : Option ℕ) (bytes : List UInt8)
    (fence : FenceTracker) : Except RenderStop DmaWriter :=
  if w.dma.len < w.offset + bytes.length then .error .sliceIndex
  else .ok { w with
    offset := w.offset + bytes.length
    fence := fence
    written := w.written ++ [bytes]
    commands := w.commands ++ [.new id ring 0 (some ⟨w.dma.addr + w.offset, bytes.length⟩)] }

/-- Read memory of user mode, when the tracker is `fence`. -/
def readUser (b : UserBuffer) (r : Slice) (fence : FenceTracker) : Reads RenderStop Unit := do
  Reads.read r
  if b.Readable r then pure () else Reads.throw (.fault fence)

/-- `Command::from_item` for a transfer in the direction of `id`.  The header has drawn its fence
when the transfer is read. -/
def fromTransfer (b : UserBuffer) (context ring : Option ℕ) (w : DmaWriter) (id : CommandId)
    (hdrType off : ℕ) : Reads RenderStop DmaWriter := do
  let header := newHeader w.fence hdrType true context ring
  readUser b ⟨off, commandTransferSize⟩ header.2
  Reads.ofExcept (w.push id ring (transferBytes b header.1 off) header.2)

/-- `Command::from_item`. -/
def fromItem (b : UserBuffer) (context ring : Option ℕ) (w : DmaWriter) :
    CommandBodyItem → Reads RenderStop DmaWriter
  | .submit data => do
      let header := submit3DHeader w.fence context ring data.len
      let w ← Reads.ofExcept
        (w.push .submit ring (header.1 ++ b.bytesAt data.addr data.len) header.2)
      readUser b data header.2
      pure w
  | .fence _ => Reads.throw .fenceToHost
  | .transferToHost off => w.fromTransfer b context ring .transferToHost cmdTransferToHost3D off
  | .transferFromHost off =>
      w.fromTransfer b context ring .transferFromHost cmdTransferFromHost3D off

/-- The loop of `render` over the items of a body. -/
def fromItems (b : UserBuffer) (context ring : Option ℕ) :
    List CommandBodyItem → DmaWriter → Reads RenderStop DmaWriter
  | [], w => pure w
  | item :: items, w => do
      let w ← w.fromItem b context ring item
      fromItems b context ring items w

end DmaWriter

/-! ### Room for a body -/

namespace CommandBodyItem

/-- `Command::item_dma_len`; a fence has none. -/
def dmaLen : CommandBodyItem → ℕ
  | fence _ => 0
  | submit data => cmdSubmit3DSize + data.len
  | transferToHost _ | transferFromHost _ => cmdTransferHost3DSize

/-- The part of the buffer the item refers to. -/
def slice : CommandBodyItem → Slice
  | fence _ => ⟨0, 0⟩
  | submit data => data
  | transferToHost off | transferFromHost off => ⟨off, commandTransferSize⟩

/-- The item may be sent to the device. -/
def Sendable (item : CommandBodyItem) : Prop := ∀ value, item ≠ fence value

end CommandBodyItem

variable {body : CommandBody}

theorem bodyDmaLen_eq {needed : ℕ} (h : bodyDmaLen body = some needed) :
    needed = (body.items.map CommandBodyItem.dmaLen).sum := by
  cases body with
  | fence => cases h
  | nop | submit =>
    cases h
    simp [CommandBody.items, CommandBodyItem.dmaLen]
  | transferToHost off count | transferFromHost off count =>
    cases h
    simp [CommandBody.items, CommandBodyItem.dmaLen, Function.comp_def, Nat.mul_comm]

theorem sendable_of_bodyDmaLen {needed : ℕ} (h : bodyDmaLen body = some needed) :
    ∀ item ∈ body.items, item.Sendable := by
  cases body with
  | fence => cases h
  | nop => simp [CommandBody.items]
  | submit | transferToHost off count | transferFromHost off count =>
    simp [CommandBody.items, CommandBodyItem.Sendable]

theorem sum_dmaLen_eq_zero {items : List CommandBodyItem}
    (h : ∀ item ∈ items, item.Sendable) :
    (items.map CommandBodyItem.dmaLen).sum = 0 ↔ items = [] := by
  cases items with
  | nil => simp
  | cons item items =>
    have hpos : 0 < item.dmaLen := by
      cases item with
      | fence value => exact absurd rfl (h _ List.mem_cons_self value)
      | submit data => exact Nat.add_pos_left (by decide) _
      | transferToHost | transferFromHost => exact Nat.succ_pos _
    simp [hpos.ne']

theorem items_within {n : ℕ} (h : body.slice.addr + body.slice.len ≤ n) :
    ∀ item ∈ body.items, item.slice.addr + item.slice.len ≤ n := by
  cases body with
  | nop => simp [CommandBody.items]
  | fence => simp [CommandBody.items, CommandBodyItem.slice]
  | submit => simpa [CommandBody.items, CommandBodyItem.slice, CommandBody.slice] using h
  | transferToHost off count | transferFromHost off count =>
    simp only [CommandBody.items, CommandBody.slice, List.forall_mem_map, List.mem_range,
      CommandBodyItem.slice] at h ⊢
    intro i hi
    have := Nat.mul_le_mul_right commandTransferSize hi
    rw [Nat.succ_mul] at this
    omega

theorem readable_mul {b : UserBuffer} {off count size : ℕ} :
    b.Readable ⟨off, count * size⟩ ↔ ∀ i < count, b.Readable ⟨off + i * size, size⟩ := by
  induction count with
  | zero => simp [UserBuffer.Readable]
  | succ count ih => rw [Nat.succ_mul, UserBuffer.readable_add, ih, Nat.forall_lt_succ_right]

theorem items_readable_iff {b : UserBuffer} :
    (∀ item ∈ body.items, b.Readable item.slice) ↔ b.Readable body.slice := by
  cases body with
  | nop => simp [CommandBody.items, CommandBody.slice, UserBuffer.Readable]
  | fence | submit => simp [CommandBody.items, CommandBodyItem.slice, CommandBody.slice]
  | transferToHost off count | transferFromHost off count =>
    simp only [CommandBody.items, CommandBody.slice, List.forall_mem_map, List.mem_range,
      CommandBodyItem.slice, readable_mul]

namespace DmaWriter

variable {b : UserBuffer} {context ring : Option ℕ} {w : DmaWriter} {n : ℕ} {r : Slice}

theorem length_transferBytes (b : UserBuffer) {header : List UInt8}
    (h : header.length = ctrlHeaderSize) (off : ℕ) :
    (transferBytes b header off).length = cmdTransferHost3DSize := by
  simp [transferBytes, UserBuffer.bytesAt, h, ctrlHeaderSize, cmdTransferHost3DSize]

theorem length_newHeader (t : FenceTracker) (hdrType : ℕ) (fence : Bool)
    (context ring : Option ℕ) :
    (newHeader t hdrType fence context ring).1.length = ctrlHeaderSize := by
  simp [newHeader, ctrlHeaderSize]

theorem within_readUser {fence : FenceTracker} :
    (readUser b r fence).Within n ↔ r.addr + r.len ≤ n := by
  unfold readUser
  rw [Reads.within_read_bind, and_iff_left]
  split_ifs <;> simp

theorem readUser_of_readable (fence : FenceTracker) (h : b.Readable r) :
    (readUser b r fence).result = .ok () := by
  rw [readUser, Reads.result_bind_of_ok (Reads.result_read _), if_pos h]
  rfl

theorem readUser_of_not_readable (fence : FenceTracker) (h : ¬ b.Readable r) :
    (readUser b r fence).result = .error (.fault fence) := by
  rw [readUser, Reads.result_bind_of_ok (Reads.result_read _), if_neg h]
  rfl

/-- What is read of an item is the item. -/
theorem within_fromItem {item : CommandBodyItem} (h : item.slice.addr + item.slice.len ≤ n) :
    (w.fromItem b context ring item).Within n := by
  cases item with
  | fence => exact Reads.within_throw _
  | transferToHost off | transferFromHost off =>
    exact Reads.within_bind.2 ⟨within_readUser.2 h, fun _ _ => Reads.within_ofExcept _⟩
  | submit =>
    exact Reads.within_bind.2 ⟨Reads.within_ofExcept _, fun _ _ =>
      Reads.within_bind.2 ⟨within_readUser.2 h, fun _ _ => Reads.within_pure⟩⟩

theorem within_fromItems {items : List CommandBodyItem}
    (h : ∀ item ∈ items, item.slice.addr + item.slice.len ≤ n) :
    (fromItems b context ring items w).Within n := by
  induction items generalizing w with
  | nil => exact Reads.within_pure
  | cons item items ih =>
    rw [List.forall_mem_cons] at h
    exact Reads.within_bind.2 ⟨within_fromItem h.1, fun _ _ => ih h.2⟩

/-- With enough room an item is written, if it can be read; if not, its fence has been drawn. -/
theorem fromItem_of_room (b : UserBuffer) (context ring : Option ℕ) {item : CommandBodyItem}
    (hsend : item.Sendable) (h : w.offset + item.dmaLen ≤ w.dma.len) :
    (b.Readable item.slice → ∃ w', (w.fromItem b context ring item).result = .ok w' ∧
      w'.offset = w.offset + item.dmaLen ∧ w'.dma = w.dma ∧ w'.fence = w.fence.issue.2) ∧
    (¬ b.Readable item.slice →
      (w.fromItem b context ring item).result = .error (.fault w.fence.issue.2)) := by
  have hpush : ∀ {id : CommandId} {bytes : List UInt8}, bytes.length = item.dmaLen →
      ∃ w', w.push id ring bytes w.fence.issue.2 = .ok w' ∧ w'.offset = w.offset + item.dmaLen ∧
        w'.dma = w.dma ∧ w'.fence = w.fence.issue.2 := by
    intro id bytes hlen
    unfold push
    rw [hlen, if_neg (not_lt.2 h)]
    exact ⟨_, rfl, rfl, rfl, rfl⟩
  cases item with
  | fence value => exact absurd rfl (hsend value)
  | transferToHost off | transferFromHost off =>
    refine ⟨fun hread => ?_, fun hread => ?_⟩
    · obtain ⟨w', hw', hspec⟩ := hpush
        (length_transferBytes b (length_newHeader w.fence _ true context ring) off)
      exact ⟨w', Reads.result_bind_eq_ok.2 ⟨(), readUser_of_readable _ hread, hw'⟩, hspec⟩
    · exact Reads.result_bind_of_error (readUser_of_not_readable _ hread)
  | submit data =>
    have hlen : ((submit3DHeader w.fence context ring data.len).1 ++
        b.bytesAt data.addr data.len).length = cmdSubmit3DSize + data.len := by
      rw [List.length_append, length_submit3DHeader, UserBuffer.length_bytesAt]
    obtain ⟨w', hw', hspec⟩ := hpush hlen
    unfold fromItem
    dsimp only
    rw [Reads.result_bind_of_ok hw']
    refine ⟨fun hread => ⟨w', ?_, hspec⟩, fun hread => ?_⟩
    · exact Reads.result_bind_eq_ok.2 ⟨(), readUser_of_readable _ hread, rfl⟩
    · exact Reads.result_bind_of_error (readUser_of_not_readable _ hread)

/-- With enough room all items are written, each with a fence of its own, if they can be read; if
not, at least one fence has been drawn. -/
theorem fromItems_of_room (b : UserBuffer) (context ring : Option ℕ)
    {items : List CommandBodyItem} (hsend : ∀ item ∈ items, item.Sendable)
    (h : w.offset + (items.map CommandBodyItem.dmaLen).sum ≤ w.dma.len) :
    ((∀ item ∈ items, b.Readable item.slice) →
      ∃ w', (fromItems b context ring items w).result = .ok w' ∧
        w'.offset = w.offset + (items.map CommandBodyItem.dmaLen).sum ∧ w'.dma = w.dma ∧
        ∃ l, w'.fence.unsignaled = w.fence.unsignaled ++ l ∧ l.length = items.length) ∧
    ((¬ ∀ item ∈ items, b.Readable item.slice) →
      ∃ t l, (fromItems b context ring items w).result = .error (.fault t) ∧
        t.unsignaled = w.fence.unsignaled ++ l ∧ l ≠ []) := by
  induction items generalizing w with
  | nil =>
    exact ⟨fun _ => ⟨w, rfl, by simp, rfl, [], by simp, rfl⟩, fun hno => absurd (by simp) hno⟩
  | cons item items ih =>
    rw [List.map_cons, List.sum_cons] at h ⊢
    rw [List.forall_mem_cons] at hsend ⊢
    obtain ⟨hread, hfault⟩ := fromItem_of_room (w := w) b context ring hsend.1 (by omega)
    by_cases hitem : b.Readable item.slice
    · obtain ⟨w₁, hres, hoff, hdma, hfence⟩ := hread hitem
      have hdrawn : w₁.fence.unsignaled = w.fence.unsignaled ++ [w.fence.nextFence] := by
        rw [hfence]
        rfl
      obtain ⟨hrest, hrest'⟩ := ih (w := w₁) hsend.2 (by rw [hoff, hdma]; omega)
      rw [and_iff_right hitem, fromItems, Reads.result_bind_of_ok hres]
      refine ⟨fun hall => ?_, fun hno => ?_⟩
      · obtain ⟨w', hw', hoff', hdma', l, hl, hlen⟩ := hrest hall
        exact ⟨w', hw', by omega, hdma'.trans hdma, w.fence.nextFence :: l,
          by rw [hl, hdrawn]; simp, by rw [List.length_cons, List.length_cons, hlen]⟩
      · obtain ⟨t, l, ht, hl, -⟩ := hrest' hno
        exact ⟨t, w.fence.nextFence :: l, ht, by rw [hl, hdrawn]; simp, by simp⟩
    · refine ⟨fun hall => absurd hall.1 hitem, fun _ => ?_⟩
      exact ⟨_, _, Reads.result_bind_of_error (hfault hitem), rfl, List.cons_ne_nil _ []⟩

end DmaWriter

end VirtioGpu
