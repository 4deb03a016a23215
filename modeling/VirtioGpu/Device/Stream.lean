import VirtioGpu.Device.Render

/-!
# The encoding of a command stream

What `Device::render` makes of a buffer of well-formed commands.  A command of the stream is a
header and a body of the size it says; a `Submit` stands for one element and a transfer command for
as many as its body holds, while a `Nop` stands for none.  `render` writes the elements one after
the other into the DMA buffer, each as the command the device understands, and lists where they are.

`StreamCommand` and `Element` say what the user's buffer and the DMA buffer mean, in terms of the
fields of the structures; they are what the code is compared with.

* `render_encodes` : for every list of commands whose encoding fits, the loop of `render` comes to
  its end, and the list of commands it leaves and the bytes in the DMA buffer are the `Encoding` of
  the elements, or a single `Nop` if there are no elements but a `Nop`.

The proof goes along the commands: `render_round` is one round of the loop, and `DmaWriter.addAll`
the writer after some elements, whatever rounds they came in.
-/

namespace VirtioGpu

/-! ### The user's commands -/

structure Box3D where
  x : UInt32
  y : UInt32
  z : UInt32
  width : UInt32
  height : UInt32
  depth : UInt32

structure CommandTransfer where
  resId : UInt32
  stride : UInt32
  offset : UInt64
  level : UInt32
  layerStride : UInt32
  box : Box3D

/-- The bytes of a `u32`. -/
def bytes32 (x : UInt32) : List UInt8 := leBytes 4 x.toNat

/-- The bytes of a `Box3D` and of the `GpuBox` it is turned into. -/
def Box3D.bytes (b : Box3D) : List UInt8 :=
  bytes32 b.x ++ bytes32 b.y ++ bytes32 b.z ++ bytes32 b.width ++ bytes32 b.height ++
    bytes32 b.depth

/-- The bytes of a `CommandTransfer`, which is packed. -/
def CommandTransfer.bytes (t : CommandTransfer) : List UInt8 :=
  bytes32 t.resId ++ bytes32 t.stride ++ leBytes 8 t.offset.toNat ++ bytes32 t.level ++
    bytes32 t.layerStride ++ t.box.bytes

/-- What a command of the stream asks for. -/
inductive Payload where
  /-- Nothing; the body is skipped. -/
  | nop (body : List UInt8)
  | submit (data : List UInt8)
  | transferToHost (ts : List CommandTransfer)
  | transferFromHost (ts : List CommandTransfer)

namespace Payload

def id : Payload → CommandId
  | nop _ => .nop
  | submit _ => .submit
  | transferToHost _ => .transferToHost
  | transferFromHost _ => .transferFromHost

/-- The number of the command in a header. -/
def rawId : Payload → ℕ
  | nop _ => 0
  | submit _ => 1
  | transferToHost _ => 2
  | transferFromHost _ => 3

def body : Payload → List UInt8
  | nop body => body
  | submit data => data
  | transferToHost ts | transferFromHost ts => ts.flatMap CommandTransfer.bytes

end Payload

/-- A well-formed command: a header with a valid id and valid flags, and a body of the size it
says. -/
structure StreamCommand where
  ringIdx : Bool
  shadowVirgl : Bool
  ring : UInt8
  payload : Payload

namespace StreamCommand

/-- The bits of the flags. -/
def flags (c : StreamCommand) : ℕ := c.ringIdx.toNat + 2 * c.shadowVirgl.toNat

def header (c : StreamCommand) : CommandHeader :=
  ⟨c.payload.id, c.flags, c.ring.toNat, c.payload.body.length⟩

/-- The bytes of the command in the user's buffer. -/
def bytes (c : StreamCommand) : List UInt8 :=
  CommandHeaderRaw.bytes ⟨c.payload.rawId, c.flags, c.ring.toNat, c.payload.body.length⟩ ++
    c.payload.body

/-- `CommandHeader::ring` of the header. -/
def ringIndex (c : StreamCommand) : Option ℕ := if c.ringIdx then some c.ring.toNat else none

end StreamCommand

/-! ### The device's commands -/

/-- The work of one command for the device. -/
inductive Work3D where
  | submit (data : List UInt8)
  | transferToHost (transfer : CommandTransfer)
  | transferFromHost (transfer : CommandTransfer)

/-- One command for the device, of the context and the ring of the command it comes from. -/
structure Element where
  context : ℕ
  ring : Option ℕ
  work : Work3D

namespace Element

def id (e : Element) : CommandId :=
  match e.work with
  | .submit _ => .submit
  | .transferToHost _ => .transferToHost
  | .transferFromHost _ => .transferFromHost

/-- A `gpu::CmdTransferHost3D` after its header. -/
def transferFields (t : CommandTransfer) : List UInt8 :=
  t.box.bytes ++ leBytes 8 t.offset.toNat ++ bytes32 t.resId ++ bytes32 t.level ++
    bytes32 t.stride ++ bytes32 t.layerStride

/-- The encoding of the element: a `gpu::CmdSubmit3D` with the size of the data and the data after
it, or a `gpu::CmdTransferHost3D`; and the tracker, from which the header has drawn a fence. -/
def wire (t : FenceTracker) (e : Element) : List UInt8 × FenceTracker :=
  match e.work with
  | .submit data =>
    let header := submit3DHeader t (some e.context) e.ring data.length
    (header.1 ++ data, header.2)
  | .transferToHost transfer =>
    let header := newHeader t cmdTransferToHost3D true (some e.context) e.ring
    (header.1 ++ transferFields transfer, header.2)
  | .transferFromHost transfer =>
    let header := newHeader t cmdTransferFromHost3D true (some e.context) e.ring
    (header.1 ++ transferFields transfer, header.2)

/-- The length of the encoding. -/
def dmaLen (e : Element) : ℕ :=
  match e.work with
  | .submit data => cmdSubmit3DSize + data.length
  | .transferToHost _ | .transferFromHost _ => cmdTransferHost3DSize

/-- The encodings of the elements, with fences drawn in order. -/
def wires : FenceTracker → List Element → List (List UInt8)
  | _, [] => []
  | t, e :: es => (e.wire t).1 :: wires (e.wire t).2 es

end Element

/-- The work a command stands for. -/
def Payload.works : Payload → List Work3D
  | .nop _ => []
  | .submit data => [.submit data]
  | .transferToHost ts => ts.map .transferToHost
  | .transferFromHost ts => ts.map .transferFromHost

/-- The elements of a command, for contexts given by whether it is for the shadow context. -/
def StreamCommand.elements (context : Bool → ℕ) (c : StreamCommand) : List Element :=
  c.payload.works.map (Element.mk (context c.shadowVirgl) c.ringIndex)

/-- Slices of the given lengths, one after the other from `addr` on. -/
def Slice.layout : ℕ → List ℕ → List Slice
  | _, [] => []
  | addr, n :: lens => ⟨addr, n⟩ :: layout (addr + n) lens

/-- The entries of the command list for elements that start at `addr`. -/
def Element.entries (addr : ℕ) (es : List Element) : List Command :=
  es.zipWith (fun e r => .new e.id e.ring 0 (some r)) (Slice.layout addr (es.map Element.dmaLen))

/-- The command list and the first bytes of the DMA buffer are the encoding of the elements. -/
structure Encoding (dma : Slice) (fence : FenceTracker) (es : List Element)
    (commands : List Command) (bytes : List UInt8) : Prop where
  /-- One entry per element, in order, for the slices of the layout. -/
  listed : commands = Element.entries dma.addr es
  noNop : ∀ cmd ∈ commands, cmd.id ≠ .nop
  /-- The slices have no byte in common. -/
  apart : (Slice.layout dma.addr (es.map Element.dmaLen)).Pairwise
    fun r r' => r.addr + r.len ≤ r'.addr
  /-- They lie in the DMA buffer. -/
  within : ∀ r ∈ Slice.layout dma.addr (es.map Element.dmaLen),
    dma.addr ≤ r.addr ∧ r.addr + r.len ≤ dma.addr + dma.len
  /-- Each holds the encoding of its element. -/
  holds : List.Forall₂ (fun r wire => (bytes.drop (r.addr - dma.addr)).take r.len = wire)
    (Slice.layout dma.addr (es.map Element.dmaLen)) (Element.wires fence es)

/-! ### Reading the stream -/

theorem CommandTransfer.length_bytes (t : CommandTransfer) :
    t.bytes.length = commandTransferSize := by
  simp [CommandTransfer.bytes, Box3D.bytes, bytes32, commandTransferSize]

theorem length_flatMap_bytes (ts : List CommandTransfer) :
    (ts.flatMap CommandTransfer.bytes).length = commandTransferSize * ts.length := by
  induction ts with
  | nil => rfl
  | cons t ts ih =>
    rw [List.flatMap_cons, List.length_append, ih, t.length_bytes, List.length_cons, Nat.mul_succ,
      Nat.add_comm]

/-- What `command_slice` finds at `off`. -/
def Payload.commandBody (off : ℕ) : Payload → CommandBody
  | .nop _ => .nop
  | .submit data => .submit ⟨off, data.length⟩
  | .transferToHost ts => .transferToHost off ts.length
  | .transferFromHost ts => .transferFromHost off ts.length

namespace StreamCommand

variable {b : UserBuffer} {off : ℕ} {c : StreamCommand}

theorem flags_lt (c : StreamCommand) : c.flags < 4 := by
  unfold flags
  cases c.ringIdx <;> cases c.shadowVirgl <;> decide

theorem length_bytes (c : StreamCommand) :
    c.bytes.length = commandHeaderSize + c.header.size := by
  simp [bytes, header]

theorem rawHeader_of_holds (h : b.Holds off c.bytes) (hsize : c.header.size < 2 ^ 32) :
    (b.rawHeader off).tryAsHdr = .ok c.header ∧ b.Readable ⟨off, commandHeaderSize⟩ ∧
      b.Holds (off + commandHeaderSize) c.payload.body := by
  rw [bytes, UserBuffer.holds_append, CommandHeaderRaw.length_bytes] at h
  have hid : c.payload.rawId < 256 ^ 2 := by cases c.payload <;> simp [Payload.rawId]
  have hflags : c.flags < 256 ^ 1 := c.flags_lt.trans (by decide)
  have hraw := UserBuffer.rawHeader_of_hasBytes h.1.1 ⟨hid, hflags, c.ring.toNat_lt, hsize⟩
  have hread := h.1.2
  rw [CommandHeaderRaw.length_bytes] at hread
  refine ⟨?_, hread, h.2⟩
  have hid : CommandId.tryFrom c.payload.rawId = .ok c.payload.id := by cases c.payload <;> rfl
  rw [hraw]
  simp only [CommandHeaderRaw.tryAsHdr, hid, c.flags_lt, if_true]
  rfl

theorem ringIndex_header (c : StreamCommand) : c.header.ringIndex = c.ringIndex := by
  cases hring : c.ringIdx <;> cases hshadow : c.shadowVirgl <;>
    simp [header, CommandHeader.ringIndex, ringIndex, flags, hring, hshadow]

theorem shadowVirgl_header (c : StreamCommand) : c.header.shadowVirgl = c.shadowVirgl := by
  cases hring : c.ringIdx <;> cases hshadow : c.shadowVirgl <;>
    simp [header, CommandHeader.shadowVirgl, flags, hring, hshadow] <;> decide

theorem commandSlice_header (b : UserBuffer) (off : ℕ) (c : StreamCommand) :
    (b.commandSlice c.header off).result = .ok (c.payload.commandBody off) := by
  have htransfer : ∀ ts : List CommandTransfer, c.payload.body = ts.flatMap CommandTransfer.bytes →
      b.tryCommandsFromBody c.header off commandTransferSize 1 = .ok ts.length := by
    intro ts hbody
    have hsize : c.header.size = commandTransferSize * ts.length := by
      rw [header, hbody, length_flatMap_bytes]
    refine UserBuffer.tryCommandsFromBody_eq_ok.2 ⟨Nat.mod_one _, ?_, ?_⟩
    · rw [hsize, Nat.mul_mod_right]
    · rw [hsize, Nat.mul_div_cancel_left _ (by decide)]
  cases hp : c.payload with
  | nop =>
    have hid : c.header.id = .nop := by rw [header, hp]; rfl
    simp [UserBuffer.commandSlice, hid, Payload.commandBody]
  | submit =>
    have hid : c.header.id = .submit := by rw [header, hp]; rfl
    rw [UserBuffer.commandSlice_of_submit b off hid, header, hp]
    rfl
  | transferToHost ts =>
    have hid : c.header.id = .transferToHost := by rw [header, hp]; rfl
    simp only [UserBuffer.commandSlice, hid]
    exact Reads.result_bind_eq_ok.2 ⟨ts.length, htransfer ts (by rw [hp]; rfl), rfl⟩
  | transferFromHost ts =>
    have hid : c.header.id = .transferFromHost := by rw [header, hp]; rfl
    simp only [UserBuffer.commandSlice, hid]
    exact Reads.result_bind_eq_ok.2 ⟨ts.length, htransfer ts (by rw [hp]; rfl), rfl⟩

/-- **`body_dma_len` is what the elements take.** -/
theorem bodyDmaLen_elements (context : Bool → ℕ) (off : ℕ) (c : StreamCommand) :
    bodyDmaLen (c.payload.commandBody off) =
      some ((c.elements context).map Element.dmaLen).sum := by
  unfold elements
  cases c.payload with
  | nop => simp [Payload.works, Payload.commandBody, bodyDmaLen]
  | submit => simp [Payload.works, Payload.commandBody, bodyDmaLen, Element.dmaLen]
  | transferToHost ts | transferFromHost ts =>
    simp [Payload.works, Payload.commandBody, bodyDmaLen, Element.dmaLen, Function.comp_def,
      Nat.mul_comm]

end StreamCommand

/-! ### Writing the elements -/

namespace Slice

theorem layout_append (addr : ℕ) (l m : List ℕ) :
    layout addr (l ++ m) = layout addr l ++ layout (addr + l.sum) m := by
  induction l generalizing addr with
  | nil => rfl
  | cons n l ih => rw [List.cons_append, layout, layout, ih, List.sum_cons, Nat.add_assoc]; rfl

theorem length_layout (addr : ℕ) (l : List ℕ) : (layout addr l).length = l.length := by
  induction l generalizing addr with
  | nil => rfl
  | cons n l ih => rw [layout, List.length_cons, List.length_cons, ih]

theorem mem_layout {addr : ℕ} {l : List ℕ} {r : Slice} (h : r ∈ layout addr l) :
    addr ≤ r.addr ∧ r.addr + r.len ≤ addr + l.sum := by
  induction l generalizing addr with
  | nil => cases h
  | cons n l ih =>
    rw [List.sum_cons]
    rcases List.mem_cons.1 h with rfl | h
    · exact ⟨le_rfl, by simp⟩
    · have := ih h
      omega

theorem layout_pairwise (addr : ℕ) (l : List ℕ) :
    (layout addr l).Pairwise fun r r' => r.addr + r.len ≤ r'.addr := by
  induction l generalizing addr with
  | nil => exact .nil
  | cons n l ih => exact .cons (fun r hr => (mem_layout hr).1) (ih _)

end Slice

namespace Element

theorem length_wire (t : FenceTracker) (e : Element) : (e.wire t).1.length = e.dmaLen := by
  have htransfer : ∀ tr : CommandTransfer, (transferFields tr).length = 48 := fun tr => by
    simp [transferFields, Box3D.bytes, bytes32]
  unfold wire dmaLen
  cases e.work with
  | submit => simp [length_submit3DHeader]
  | transferToHost tr | transferFromHost tr =>
    simp [DmaWriter.length_newHeader, htransfer, ctrlHeaderSize, cmdTransferHost3DSize]

/-- The tracker after the elements have drawn their fences. -/
def after : FenceTracker → List Element → FenceTracker
  | t, [] => t
  | t, e :: es => after (e.wire t).2 es

theorem after_append (t : FenceTracker) (es es' : List Element) :
    after t (es ++ es') = after (after t es) es' := by
  induction es generalizing t with
  | nil => rfl
  | cons e es ih => exact ih _

theorem wires_append (t : FenceTracker) (es es' : List Element) :
    wires t (es ++ es') = wires t es ++ wires (after t es) es' := by
  induction es generalizing t with
  | nil => rfl
  | cons e es ih => rw [List.cons_append, wires, ih]; rfl

theorem entries_append (addr : ℕ) (es es' : List Element) :
    entries addr (es ++ es') =
      entries addr es ++ entries (addr + (es.map dmaLen).sum) es' := by
  unfold entries
  rw [List.map_append, Slice.layout_append, List.zipWith_append]
  rw [Slice.length_layout, List.length_map]

theorem id_new (id : CommandId) (ring : Option ℕ) (flags : ℕ) (dma : Option Slice) :
    (Command.new id ring flags dma).id = id := by
  cases ring <;> rfl

theorem entries_eq_nil {addr : ℕ} {es : List Element} : entries addr es = [] ↔ es = [] := by
  cases es with
  | nil => simp [entries]
  | cons => simp [entries, Slice.layout]

theorem noNop_entries (addr : ℕ) (es : List Element) :
    ∀ cmd ∈ entries addr es, cmd.id ≠ .nop := by
  induction es generalizing addr with
  | nil => simp [entries]
  | cons e es ih =>
    refine List.forall_mem_cons.2 ⟨?_, ih _⟩
    rw [id_new, id]
    cases e.work <;> simp

end Element

namespace DmaWriter

variable {b : UserBuffer} {w : DmaWriter} {e : Element} {es : List Element} {off : ℕ}

/-- The writer after the elements have been written. -/
def addAll (w : DmaWriter) (es : List Element) : DmaWriter :=
  { w with
    offset := w.offset + (es.map Element.dmaLen).sum
    fence := Element.after w.fence es
    written := w.written ++ Element.wires w.fence es
    commands := w.commands ++ Element.entries (w.dma.addr + w.offset) es }

theorem addAll_nil (w : DmaWriter) : w.addAll [] = w := by
  simp [addAll, Element.after, Element.wires, Element.entries]

theorem addAll_append (w : DmaWriter) (es es' : List Element) :
    w.addAll (es ++ es') = (w.addAll es).addAll es' := by
  simp only [addAll, List.map_append, List.sum_append, Element.after_append, Element.wires_append,
    Element.entries_append, List.append_assoc, Nat.add_assoc]

theorem push_element (e : Element) (h : w.offset + e.dmaLen ≤ w.dma.len) :
    w.push e.id e.ring (e.wire w.fence).1 (e.wire w.fence).2 = .ok (w.addAll [e]) := by
  unfold push
  rw [Element.length_wire, if_neg (not_lt.2 h)]
  simp [addAll, Element.after, Element.wires, Element.entries, Slice.layout]

/-- An item whose bytes in the buffer are those of the element. -/
inductive Item (b : UserBuffer) : CommandBodyItem → Work3D → Prop
  | submit {off : ℕ} {data : List UInt8} (h : b.Holds off data) :
      Item b (.submit ⟨off, data.length⟩) (.submit data)
  | transferToHost {off : ℕ} {t : CommandTransfer} (h : b.Holds off t.bytes) :
      Item b (.transferToHost off) (.transferToHost t)
  | transferFromHost {off : ℕ} {t : CommandTransfer} (h : b.Holds off t.bytes) :
      Item b (.transferFromHost off) (.transferFromHost t)

theorem transferBytes_of_hasBytes {t : CommandTransfer} (h : b.HasBytes off t.bytes)
    (header : List UInt8) : transferBytes b header off = header ++ Element.transferFields t := by
  have hbox : t.box.bytes.length = 24 := by simp [Box3D.bytes, bytes32]
  unfold CommandTransfer.bytes at h
  simp only [UserBuffer.hasBytes_append, bytes32, length_leBytes, List.length_append] at h
  simp only [UserBuffer.HasBytes, length_leBytes, hbox] at h
  obtain ⟨⟨⟨⟨⟨hres, hstride⟩, hoffset⟩, hlevel⟩, hlayer⟩, hbytes⟩ := h
  simp only [transferBytes, Element.transferFields, bytes32, hres, hstride, hoffset, hlevel, hlayer,
    hbytes, List.append_assoc]

theorem fromItem_of_item {item : CommandBodyItem} (hitem : Item b item e.work)
    (h : w.offset + e.dmaLen ≤ w.dma.len) :
    (w.fromItem b (some e.context) e.ring item).result = .ok (w.addAll [e]) := by
  have hpush := push_element e h
  obtain ⟨context, ring, work⟩ := e
  cases hitem with
  | submit hdata =>
    refine Reads.result_bind_eq_ok.2 ⟨w.addAll [⟨context, ring, .submit _⟩], ?_,
      Reads.result_bind_eq_ok.2 ⟨(), readUser_of_readable _ hdata.2, rfl⟩⟩
    have hbytes := hdata.1
    unfold UserBuffer.HasBytes at hbytes
    rw [Reads.result_ofExcept, hbytes]
    exact hpush
  | transferToHost ht | transferFromHost ht =>
    have hread := ht.2
    rw [CommandTransfer.length_bytes] at hread
    refine Reads.result_bind_eq_ok.2 ⟨(), readUser_of_readable _ hread, ?_⟩
    rw [Reads.result_ofExcept, transferBytes_of_hasBytes ht.1]
    exact hpush

theorem fromItems_of_items {context : ℕ} {ring : Option ℕ} {items : List CommandBodyItem}
    {works : List Work3D} (hitems : List.Forall₂ (Item b) items works)
    (h : w.offset + ((works.map (Element.mk context ring)).map Element.dmaLen).sum ≤ w.dma.len) :
    (fromItems b (some context) ring items w).result =
      .ok (w.addAll (works.map (Element.mk context ring))) := by
  induction hitems generalizing w with
  | nil => rw [fromItems, List.map_nil, addAll_nil]; rfl
  | cons hitem _ ih =>
    rw [List.map_cons, List.map_cons, List.sum_cons] at h
    refine Reads.result_bind_eq_ok.2
      ⟨_, fromItem_of_item (e := ⟨context, ring, _⟩) hitem (by omega), ?_⟩
    rw [ih, List.map_cons, ← addAll_append]
    · rfl
    · simp only [addAll, List.map_cons, List.map_nil, List.sum_singleton]
      omega

end DmaWriter

theorem forall₂_items {b : UserBuffer} {mk : ℕ → CommandBodyItem} {work : CommandTransfer → Work3D}
    (hmk : ∀ {off t}, b.Holds off t.bytes → DmaWriter.Item b (mk off) (work t))
    {ts : List CommandTransfer} {off : ℕ} (h : b.Holds off (ts.flatMap CommandTransfer.bytes)) :
    List.Forall₂ (DmaWriter.Item b)
      ((List.range ts.length).map fun i => mk (off + i * commandTransferSize)) (ts.map work) := by
  induction ts generalizing off with
  | nil => exact .nil
  | cons t ts ih =>
    rw [List.flatMap_cons, UserBuffer.holds_append, t.length_bytes] at h
    have hnext : ∀ i, off + (i + 1) * commandTransferSize =
        off + commandTransferSize + i * commandTransferSize := fun i => by ring
    rw [List.length_cons, List.range_succ_eq_map, List.map_cons, List.map_map]
    refine .cons ?_ ?_
    · rw [Nat.zero_mul]
      exact hmk h.1
    · simp only [Function.comp_def, hnext]
      exact ih h.2

theorem StreamCommand.items_of_holds {b : UserBuffer} {off : ℕ} {c : StreamCommand}
    (h : b.Holds off c.payload.body) :
    List.Forall₂ (DmaWriter.Item b) (c.payload.commandBody off).items c.payload.works := by
  cases hp : c.payload with
  | nop => exact .nil
  | submit =>
    rw [hp] at h
    exact .cons (.submit h) .nil
  | transferToHost =>
    rw [hp] at h
    exact forall₂_items (fun h => .transferToHost h) h
  | transferFromHost =>
    rw [hp] at h
    exact forall₂_items (fun h => .transferFromHost h) h

/-! ### The loop -/

/-- The bytes of a list of commands. -/
def stream (cmds : List StreamCommand) : List UInt8 := cmds.flatMap StreamCommand.bytes

theorem stream_cons (c : StreamCommand) (cmds : List StreamCommand) :
    stream (c :: cmds) = c.bytes ++ stream cmds := rfl

theorem length_le_stream (cmds : List StreamCommand) : cmds.length ≤ (stream cmds).length := by
  induction cmds with
  | nil => rfl
  | cons c cmds ih =>
    rw [stream_cons, List.length_append, c.length_bytes, List.length_cons, commandHeaderSize]
    omega

def StreamCommand.isNop (c : StreamCommand) : Bool := c.payload.id = .nop

namespace RenderEnv

variable {env : RenderEnv} {b : UserBuffer} {st : RenderState} {c : StreamCommand}
  {context : Bool → ℕ} {cmds : List StreamCommand}

/-- The device has the contexts that the commands are for, with the given ids. -/
structure HasContexts (env : RenderEnv) (context : Bool → ℕ) (cmds : List StreamCommand) :
    Prop where
  main : env.mainContext = some (context false)
  blit : ∀ c ∈ cmds, c.shadowVirgl = true → env.blitContext = some (context true)

theorem HasContexts.of_mem (h : env.HasContexts context cmds) (hc : c ∈ cmds) :
    env.contextInternal c.shadowVirgl = some (context c.shadowVirgl) := by
  unfold contextInternal
  cases hshadow : c.shadowVirgl with
  | false => exact h.main
  | true => exact h.blit c hc hshadow

theorem id_commandBody (p : Payload) (off : ℕ) : (p.commandBody off).id = p.id := by
  cases p <;> rfl

theorem encode_command (hctx : env.contextInternal c.shadowVirgl = some (context c.shadowVirgl))
    (hmain : env.mainContext ≠ none) {off : ℕ} (hbody : b.Holds off c.payload.body)
    (hoff : RoomInv st) :
    (env.encode b st c.header (c.payload.commandBody off)).result =
      if st.writer.offset + ((c.elements context).map Element.dmaLen).sum ≤ st.writer.dma.len then
        .ok ⟨st.commandOffset + commandHeaderSize + c.header.size, st.nop || c.isNop,
          st.writer.addAll (c.elements context)⟩
      else .error (.status .graphicsInsufficientDmaBuffer) := by
  have hfence : (c.payload.commandBody off).id ≠ .fence := by
    cases c.payload <;> simp [Payload.commandBody, CommandBody.id]
  rw [encode_eq hfence (fun h => hmain h.2) (by rwa [c.shadowVirgl_header])
    (c.bodyDmaLen_elements context off) hoff, c.ringIndex_header, id_commandBody]
  refine if_ctx_congr Iff.rfl (fun hroom => ?_) fun _ => rfl
  rw [DmaWriter.fromItems_of_items (StreamCommand.items_of_holds hbody) hroom]
  rfl

theorem render_round (context : Bool → ℕ)
    (hctx : env.contextInternal c.shadowVirgl = some (context c.shadowVirgl))
    (hmain : env.mainContext ≠ none) (hbytes : b.Holds st.commandOffset c.bytes)
    (hend : st.commandOffset + c.bytes.length ≤ b.len) (hoff : RoomInv st) :
    (env.step b st).result =
      if st.writer.offset + ((c.elements context).map Element.dmaLen).sum ≤ st.writer.dma.len then
        .ok ⟨st.commandOffset + c.bytes.length, st.nop || c.isNop,
          st.writer.addAll (c.elements context)⟩
      else .error (.status .graphicsInsufficientDmaBuffer) := by
  have hlen := b.len_lt
  rw [c.length_bytes] at hend ⊢
  obtain ⟨hhdr, hread, hbody⟩ := StreamCommand.rawHeader_of_holds hbytes (by omega)
  unfold step
  rw [if_neg (by omega), ← Nat.add_assoc,
    Reads.result_bind_of_ok (DmaWriter.readUser_of_readable _ hread),
    Reads.result_bind_of_ok (a := c.header) (by rw [Reads.result_ofExcept, mapError_eq_ok, hhdr]),
    Reads.result_bind_of_ok (Reads.result_mapErr_eq_ok.2 (c.commandSlice_header b _))]
  exact encode_command hctx hmain hbody hoff

/-- **The loop** comes to its end, or to the first command that there is no room for. -/
theorem render_loop (st : RenderState) (hctx : env.HasContexts context cmds)
    (hbytes : b.Holds st.commandOffset (stream cmds))
    (hend : st.commandOffset + (stream cmds).length = b.len) (hoff : RoomInv st)
    {fuel : ℕ} (hfuel : cmds.length ≤ fuel) :
    (Reads.whileLoop (more b) (env.step b) fuel st).result =
      if st.writer.offset + ((cmds.flatMap (StreamCommand.elements context)).map
          Element.dmaLen).sum ≤ st.writer.dma.len then
        .ok ⟨b.len, st.nop || cmds.any StreamCommand.isNop,
          st.writer.addAll (cmds.flatMap (StreamCommand.elements context))⟩
      else .error (.status .graphicsInsufficientDmaBuffer) := by
  induction cmds generalizing st fuel with
  | nil =>
    have hlast : st.commandOffset = b.len := by simpa [stream] using hend
    have hmore : more b st = false := by simp [more, hlast]
    have hst : st = ⟨b.len, st.nop || [].any StreamCommand.isNop, st.writer.addAll []⟩ := by
      rw [DmaWriter.addAll_nil, ← hlast, List.any_nil, Bool.or_false]
    refine Eq.trans ?_ (if_pos hoff).symm
    cases fuel with
    | zero => exact congrArg Except.ok hst
    | succ =>
      rw [Reads.whileLoop, hmore]
      exact congrArg Except.ok hst
  | cons c cmds ih =>
    obtain ⟨fuel, rfl⟩ : ∃ n, fuel = n + 1 := Nat.exists_eq_succ_of_ne_zero (by
      rw [List.length_cons] at hfuel
      omega)
    have hpos : 0 < c.bytes.length := by rw [c.length_bytes, commandHeaderSize]; omega
    rw [stream_cons] at hbytes hend
    rw [List.length_append, ← Nat.add_assoc] at hend
    rw [List.flatMap_cons, List.map_append, List.sum_append, ← Nat.add_assoc]
    obtain ⟨hhead, htail⟩ := UserBuffer.holds_append.1 hbytes
    have hmore : more b st = true := by
      rw [more, decide_eq_true_eq]
      omega
    have hround := render_round context (hctx.of_mem List.mem_cons_self) (by simp [hctx.main])
      hhead (by omega) hoff
    rw [Reads.whileLoop, hmore, if_pos rfl]
    by_cases hfit : st.writer.offset + ((c.elements context).map Element.dmaLen).sum ≤
        st.writer.dma.len
    · have hnext : ∀ d ∈ cmds, d.shadowVirgl = true → env.blitContext = some (context true) :=
        fun d hd => hctx.blit d (List.mem_cons_of_mem c hd)
      rw [Reads.result_bind_of_ok (hround.trans (if_pos hfit))]
      refine (ih ⟨_, _, st.writer.addAll _⟩ ⟨hctx.main, hnext⟩ htail hend hfit
        (Nat.le_of_succ_le_succ hfuel)).trans ?_
      rw [List.any_cons, DmaWriter.addAll_append, Bool.or_assoc]
      rfl
    · rw [Reads.result_bind_of_error (hround.trans (if_neg hfit)), if_neg (by omega)]

end RenderEnv

theorem Element.holds_layout (base : ℕ) (start : List UInt8) (t : FenceTracker)
    (es : List Element) :
    List.Forall₂
      (fun r wire => ((start ++ (wires t es).flatten).drop (r.addr - base)).take r.len = wire)
      (Slice.layout (base + start.length) (es.map dmaLen)) (wires t es) := by
  induction es generalizing start t with
  | nil => exact .nil
  | cons e es ih =>
    have hrest := ih (start ++ (e.wire t).1) (e.wire t).2
    rw [List.length_append, length_wire, ← Nat.add_assoc, List.append_assoc] at hrest
    refine .cons ?_ hrest
    rw [Nat.add_sub_cancel_left, List.drop_left, wires, List.flatten_cons, ← length_wire t e]
    exact List.take_left

theorem encoding_wires {dma : Slice} (fence : FenceTracker) {es : List Element}
    (hfit : (es.map Element.dmaLen).sum ≤ dma.len) :
    Encoding dma fence es (Element.entries dma.addr es) (Element.wires fence es).flatten where
  listed := rfl
  noNop := Element.noNop_entries _ _
  apart := Slice.layout_pairwise _ _
  within r hr := by
    have := Slice.mem_layout hr
    omega
  holds := Element.holds_layout dma.addr [] fence es

/-- **`render` encodes the command stream.**  The loop comes to its end, and so does `render` if
there is room for its private data.  The command list is a single `Nop` if there is no other
element; otherwise it has an entry for each, with slices one after the other from the start of the
DMA buffer on that hold the encodings.  `body_dma_len` is the length of what is written. -/
theorem render_encodes (env : RenderEnv) (fence : FenceTracker) (context : Bool → ℕ)
    (cmds : List StreamCommand) (b : UserBuffer) (hlen : b.len = (stream cmds).length)
    (hbytes : b.Holds 0 (stream cmds)) (halloc : env.allocations.any Option.isNone = false)
    (hctx : env.HasContexts context cmds)
    (hfit : ((cmds.flatMap (StreamCommand.elements context)).map Element.dmaLen).sum ≤
      env.dma.len) :
    ∃ st, (Reads.whileLoop (RenderEnv.more b) (env.step b) b.len (env.start fence)).result =
        .ok st ∧
      (commandDmaPrivateSize ≤ env.privateDataSize → env.hasPrivateData = true →
        (env.render fence b).result =
          .ok (⟨RenderEnv.finish st, env.allocations.filterMap id⟩, st.writer)) ∧
      ((∃ c ∈ cmds, c.payload.id = .nop) ∧ (∀ c ∈ cmds, c.payload.works = []) →
        RenderEnv.finish st = [.nop]) ∧
      (¬ ((∃ c ∈ cmds, c.payload.id = .nop) ∧ ∀ c ∈ cmds, c.payload.works = []) →
        Encoding env.dma fence (cmds.flatMap (StreamCommand.elements context))
          (RenderEnv.finish st) st.writer.written.flatten) ∧
      ∀ c ∈ cmds, ∀ off body, (b.commandSlice c.header off).result = .ok body →
        bodyDmaLen body = some ((c.elements context).map Element.dmaLen).sum := by
  have hloop := (RenderEnv.render_loop (env.start fence) hctx hbytes
    (by simp [RenderEnv.start, hlen]) (Nat.zero_le _) (hlen ▸ length_le_stream cmds)).trans
      (if_pos (by simpa [RenderEnv.start] using hfit))
  have hnop : (cmds.any StreamCommand.isNop = true) ↔ ∃ c ∈ cmds, c.payload.id = .nop := by
    simp [StreamCommand.isNop]
  have hnone : cmds.flatMap (StreamCommand.elements context) = [] ↔
      ∀ c ∈ cmds, c.payload.works = [] := by
    simp [StreamCommand.elements]
  generalize hes : cmds.flatMap (StreamCommand.elements context) = es at hloop hfit hnone ⊢
  have hcommands : ((env.start fence).writer.addAll es).commands =
      Element.entries env.dma.addr es :=
    List.nil_append _
  have hwritten : ((env.start fence).writer.addAll es).written = Element.wires fence es :=
    List.nil_append _
  refine ⟨_, hloop, fun hsize hpriv => ?_, fun h => ?_, fun h => ?_, fun c _ off body hbody => ?_⟩
  · unfold RenderEnv.render
    rw [if_neg (by simp [halloc])]
    refine Reads.result_bind_eq_ok.2 ⟨_, Reads.result_mapErr_eq_ok.2 hloop, ?_⟩
    rw [if_neg (not_lt.2 hsize), if_neg (by simp [hpriv])]
    rfl
  · refine if_pos ⟨hnop.2 h.1, ?_⟩
    rw [hcommands, Element.entries_eq_nil, hnone]
    exact h.2
  · have hfinish : RenderEnv.finish ⟨b.len, (env.start fence).nop || cmds.any StreamCommand.isNop,
        (env.start fence).writer.addAll es⟩ = Element.entries env.dma.addr es := by
      refine (if_neg ?_).trans hcommands
      rintro ⟨hany, hempty⟩
      rw [hcommands, Element.entries_eq_nil, hnone] at hempty
      exact h ⟨hnop.1 hany, hempty⟩
    rw [hfinish, hwritten]
    exact encoding_wires fence hfit
  · rw [c.commandSlice_header] at hbody
    cases hbody
    exact c.bodyDmaLen_elements context off

/-- A `Nop`, a submission to ring 3 and a transfer for the shadow context. -/
def threeCommands : List StreamCommand :=
  [⟨false, false, 0, .nop []⟩, ⟨true, false, 3, .submit [1, 2, 3, 4]⟩,
    ⟨false, true, 0, .transferToHost [⟨5, 0, 0, 0, 0, ⟨0, 0, 0, 8, 8, 1⟩⟩]⟩]

/-- A device with both contexts and a DMA buffer of 108 bytes. -/
def twoContexts : RenderEnv := ⟨some 1, some 2, ⟨0x1000, 108⟩, [some 7], true, 112⟩

theorem render_encodes_threeCommands :
    ∃ st, (Reads.whileLoop (RenderEnv.more (userBuffer (stream threeCommands) (by decide)))
        (twoContexts.step (userBuffer (stream threeCommands) (by decide)))
        (stream threeCommands).length (twoContexts.start ⟨0, []⟩)).result = .ok st ∧
      (RenderEnv.finish st).map Command.dma = [some ⟨0x1000, 36⟩, some ⟨0x1024, 72⟩] ∧
      Encoding ⟨0x1000, 108⟩ ⟨0, []⟩
        [⟨1, some 3, .submit [1, 2, 3, 4]⟩,
          ⟨2, none, .transferToHost ⟨5, 0, 0, 0, 0, ⟨0, 0, 0, 8, 8, 1⟩⟩⟩]
        (RenderEnv.finish st) st.writer.written.flatten := by
  obtain ⟨st, hloop, -, -, hencoding, -⟩ := render_encodes twoContexts ⟨0, []⟩
    (fun shadow => if shadow then 2 else 1) threeCommands
    (userBuffer (stream threeCommands) (by decide)) rfl ⟨rfl, fun _ _ => rfl⟩ rfl
    ⟨rfl, fun _ _ _ => rfl⟩ (by decide)
  have h := hencoding (by decide)
  exact ⟨st, hloop, by rw [h.listed]; rfl, h⟩

end VirtioGpu
