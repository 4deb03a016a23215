import VirtioGpu.Device.Command
import VirtioGpu.Uapi.Parse

/-!
# `Device::render`

`render` goes through the commands of a user buffer and encodes them into the DMA buffer.  For every
header it checks that 8 bytes are left in the user buffer; it never checks that the body ends inside
it.  The size in the header is added to the offset, and if that leads beyond the end the loop simply
stops, after the body has been read.

Memory of user mode may also not be there.  `try_seh` turns the exception into an error, but what
has been done before it stays done.

* `RenderEnv.visits` : where the headers lead, from one command to the next, as long as each can be
  encoded.
* `RenderEnv.stepCase` : what a round does, by the header it finds.
* `RenderEnv.within_render` : what `render` reads lies inside the user buffer exactly if every
  command does that the headers lead to and whose body is read.
* `RenderEnv.loop_ok_iff` : the loop comes to its end exactly if every command that the headers lead
  to can be encoded.
* `parsers_within_iff` : the same for `render` and the three parsers for a single command.
* `parsers_overrun` : a short buffer for each of them that is overrun.
-/

namespace VirtioGpu

/-- The device, its contexts and the arguments of a call of `render`. -/
structure RenderEnv where
  /-- The id of `main_context`. -/
  mainContext : Option ℕ
  /-- The id of `virgl_blit_context`. -/
  blitContext : Option ℕ
  /-- `pDmaBuffer` and `DmaSize`. -/
  dma : Slice
  /-- The allocation list; `none` is a handle that is not valid (any more). -/
  allocations : List (Option ℕ)
  /-- `pDmaBufferPrivateData` is not null. -/
  hasPrivateData : Bool
  /-- `DmaBufferPrivateDataSize`. -/
  privateDataSize : ℕ

/-- The tracker after a round that has stopped; `fence` was the one before. -/
def RenderStop.tracker (stop : RenderStop) (fence : FenceTracker) : FenceTracker := match stop with
  | .fault fence => fence
  | _ => fence

/-- The variables of the loop of `render`. -/
structure RenderState where
  commandOffset : ℕ
  nop : Bool
  writer : DmaWriter

namespace RenderEnv

variable (env : RenderEnv)

def contextInternal (shadowVirgl : Bool) : Option ℕ :=
  if shadowVirgl then env.blitContext else env.mainContext

/-- One round of the loop, from the match on the body on. -/
def encode (b : UserBuffer) (st : RenderState) (hdr : CommandHeader) (body : CommandBody) :
    Reads RenderStop RenderState :=
  if body.id = .fence then Reads.throw (.status .invalidHandle)
  else if body.id = .submit ∧ env.mainContext = none then Reads.throw .noContext
  else match env.contextInternal hdr.shadowVirgl, bodyDmaLen body with
    | none, _ => Reads.throw (.status .reinitializationNeeded)
    | some _, none => Reads.throw .fenceToHost
    | some context, some needed =>
      if st.writer.dma.len < st.writer.offset then Reads.throw .sliceIndex
      else do
        -- The slice is read by the commands, or by the message that there is no room for them.
        Reads.read body.slice
        if st.writer.dma.len - st.writer.offset < needed then
          Reads.throw (.status .graphicsInsufficientDmaBuffer)
        else do
          let writer ← DmaWriter.fromItems b (some context) hdr.ringIndex body.items st.writer
          let nop := st.nop || body.id = .nop
          if !nop ∧ writer.offset - st.writer.offset ≠ needed then Reads.throw .writtenNeeded
          else pure ⟨st.commandOffset + commandHeaderSize + hdr.size, nop, writer⟩

/-- One round of the loop.  An exception at the value of a fence, or in the message about the room,
is not told from the error that follows. -/
def step (b : UserBuffer) (st : RenderState) : Reads RenderStop RenderState :=
  if b.len - st.commandOffset < commandHeaderSize then Reads.throw (.status .invalidParameter)
  else do
    DmaWriter.readUser b ⟨st.commandOffset, commandHeaderSize⟩ st.writer.fence
    let hdr ← Reads.ofExcept
      ((b.rawHeader st.commandOffset).tryAsHdr.mapError fun _ => .status .invalidParameter)
    let body ← (b.commandSlice hdr (st.commandOffset + commandHeaderSize)).mapErr
      fun _ => .status .invalidParameter
    env.encode b st hdr body

/-- `while command_offset < command.len()`. -/
def more (b : UserBuffer) (st : RenderState) : Bool := st.commandOffset < b.len

def start (fence : FenceTracker) : RenderState :=
  ⟨0, false, ⟨env.dma, 0, fence, [], []⟩⟩

/-- The commands are replaced by a single nop if they were all nops. -/
def finish (st : RenderState) : List Command :=
  if st.nop ∧ st.writer.commands = [] then [.nop] else st.writer.commands

/-- `Device::render`: the private data it writes, and the DMA buffer as it leaves it. -/
def render (fence : FenceTracker) (b : UserBuffer) :
    Reads RenderStop (CommandDmaPrivate × DmaWriter) :=
  -- Every error inside the exception handler, and every exception, becomes the same status.
  if env.allocations.any Option.isNone then Reads.throw (.status .invalidParameter)
  else do
    let st ← (Reads.whileLoop (more b) (env.step b) b.len (env.start fence)).mapErr fun
      | .status _ | .fault _ => .status .invalidParameter
      | stop => stop
    if env.privateDataSize < commandDmaPrivateSize then
      Reads.throw (.status .graphicsInsufficientDmaBuffer)
    else if !env.hasPrivateData then Reads.throw (.status .invalidParameter)
    else pure (⟨finish st, env.allocations.filterMap id⟩, st.writer)

end RenderEnv

/-! ### Where the headers lead -/

/-- The header at `off`, if it lies in the buffer, can be read and is valid. -/
def UserBuffer.headerAt (b : UserBuffer) (off : ℕ) : Option CommandHeader :=
  if off + commandHeaderSize ≤ b.len ∧ b.Readable ⟨off, commandHeaderSize⟩ then
    (b.rawHeader off).tryAsHdr.toOption
  else none

theorem UserBuffer.headerAt_eq_some_iff {b : UserBuffer} {off : ℕ} {hdr : CommandHeader} :
    b.headerAt off = some hdr ↔ off + commandHeaderSize ≤ b.len ∧
      b.Readable ⟨off, commandHeaderSize⟩ ∧ (b.rawHeader off).tryAsHdr = .ok hdr := by
  unfold headerAt
  split_ifs with h
  · rw [and_iff_right h.1, and_iff_right h.2]
    cases (b.rawHeader off).tryAsHdr <;> simp [Except.toOption]
  · exact iff_of_false nofun fun hsome => h ⟨hsome.1, hsome.2.1⟩

/-- What a command takes of the DMA buffer. -/
def CommandHeader.dmaLen (hdr : CommandHeader) : ℕ := match hdr.id with
  | .submit => cmdSubmit3DSize + hdr.size
  | .transferToHost | .transferFromHost =>
      cmdTransferHost3DSize * (hdr.size / commandTransferSize)
  | .nop | .fence | .mapAperture | .unmapAperture => 0

namespace RenderEnv

variable (env : RenderEnv)

/-- The command is of a kind that can be encoded, and the device has the contexts for it. -/
def Encodable (hdr : CommandHeader) : Prop :=
  (match hdr.id with
    | .nop => True
    | .submit => env.mainContext.isSome = true
    | .transferToHost | .transferFromHost => hdr.size % commandTransferSize = 0
    | .fence | .mapAperture | .unmapAperture => False) ∧
  (env.contextInternal hdr.shadowVirgl).isSome = true

instance (env : RenderEnv) (hdr : CommandHeader) : Decidable (env.Encodable hdr) := by
  unfold Encodable
  cases hdr.id <;> infer_instance

/-- The command draws a fence, when `used` bytes of the DMA buffer are taken. -/
def Draws (used : ℕ) (hdr : CommandHeader) : Prop :=
  env.Encodable hdr ∧ used + hdr.dmaLen ≤ env.dma.len ∧ hdr.dmaLen ≠ 0
  deriving Decidable

/-- The command at `off` is encoded, when `used` bytes of the DMA buffer are taken: there is room
for it, and its body can be read. -/
def Accepts (b : UserBuffer) (off used : ℕ) (hdr : CommandHeader) : Prop :=
  env.Encodable hdr ∧ used + hdr.dmaLen ≤ env.dma.len ∧
    (hdr.id ≠ .nop → b.Readable ⟨off + commandHeaderSize, hdr.size⟩)
  deriving Decidable

/-- The places where `render` looks for a command, from `off` on, each with the number of bytes that
the commands before it take of the DMA buffer: from a command that is encoded to the next one, by
the size in its header. -/
def visits (env : RenderEnv) (b : UserBuffer) : ℕ → ℕ → ℕ → List (ℕ × ℕ)
  | 0, _, _ => []
  | fuel + 1, off, used =>
    if off < b.len then
      (off, used) :: match b.headerAt off with
        | none => []
        | some hdr =>
          if env.Accepts b off used hdr then
            visits env b fuel (off + commandHeaderSize + hdr.size) (used + hdr.dmaLen)
          else []
    else []

/-- All commands of the buffer are encoded. -/
def AcceptsAll (b : UserBuffer) : Prop :=
  ∀ p ∈ env.visits b b.len 0 0, ∃ hdr ∈ b.headerAt p.1, env.Accepts b p.1 p.2 hdr

/-- The handles are valid, and all commands of the buffer are encoded. -/
def Encodes (b : UserBuffer) : Prop :=
  env.allocations.any Option.isNone = false ∧ env.AcceptsAll b

def RoomForPrivate : Prop :=
  commandDmaPrivateSize ≤ env.privateDataSize ∧ env.hasPrivateData = true

/-! ### One round -/

/-- `render` reads the body of a command with the header `hdr`, which is at `body`. -/
def ReadsBody (b : UserBuffer) (hdr : CommandHeader) (body : ℕ) : Prop :=
  match hdr.id with
  | .submit => env.mainContext.isSome ∧ (env.contextInternal hdr.shadowVirgl).isSome
  | .transferToHost | .transferFromHost =>
      hdr.size % commandTransferSize = 0 ∧ (env.contextInternal hdr.shadowVirgl).isSome
  | .fence => b.FenceRead hdr body
  | .nop | .mapAperture | .unmapAperture => False

variable {env} {b : UserBuffer} {st st' : RenderState} {hdr : CommandHeader} {body : CommandBody}
  {n : ℕ}

/-- There is room for all commands written so far. -/
def RoomInv (st : RenderState) : Prop := st.writer.offset ≤ st.writer.dma.len

theorem bodyDmaLen_of_ne_fence (h : body.id ≠ .fence) :
    ∃ needed, bodyDmaLen body = some needed := by
  cases body with
  | fence => exact absurd rfl h
  | nop | submit | transferToHost | transferFromHost => exact ⟨_, rfl⟩

theorem within_encode (hroom : RoomInv st) (hid : body.id ≠ .fence) :
    (env.encode b st hdr body).Within n ↔
      (¬ (body.id = .submit ∧ env.mainContext = none) →
        (env.contextInternal hdr.shadowVirgl).isSome → body.slice.addr + body.slice.len ≤ n) := by
  obtain ⟨needed, hneeded⟩ := bodyDmaLen_of_ne_fence hid
  unfold encode
  rw [if_neg hid]
  by_cases hmain : body.id = .submit ∧ env.mainContext = none
  · simp [hmain]
  rw [if_neg hmain]
  cases hctx : env.contextInternal hdr.shadowVirgl with
  | none => simp
  | some =>
    simp only [hneeded, Option.isSome_some, forall_const, hmain, not_false_eq_true]
    rw [if_neg (not_lt.2 hroom), Reads.within_read_bind]
    refine and_iff_left_of_imp fun hbody => ?_
    split_ifs
    · exact Reads.within_throw _
    · refine Reads.within_bind.2 ⟨DmaWriter.within_fromItems (items_within hbody), fun _ _ => ?_⟩
      split_ifs <;> simp

theorem within_body (hroom : RoomInv st) {off : ℕ} :
    ((b.commandSlice hdr off).Within n ∧ ∀ body, (b.commandSlice hdr off).result = .ok body →
      (env.encode b st hdr body).Within n) ↔ (env.ReadsBody b hdr off → off + hdr.size ≤ n) := by
  have hencode : ∀ body, (b.commandSlice hdr off).result = .ok body → hdr.id ≠ .fence →
      hdr.id ≠ .nop → ((env.encode b st hdr body).Within n ↔
        (¬ (hdr.id = .submit ∧ env.mainContext = none) →
          (env.contextInternal hdr.shadowVirgl).isSome → off + hdr.size ≤ n)) := by
    intro body hbody hfence hnop
    have hid := UserBuffer.id_of_commandSlice hbody
    have hslice : body.slice = ⟨off, hdr.size⟩ := by
      refine UserBuffer.slice_of_commandSlice hbody ?_
      cases body with
      | nop => exact absurd hid.symm hnop
      | fence => exact absurd hid.symm hfence
      | submit | transferToHost | transferFromHost => simp [CommandBody.id]
    rw [within_encode hroom (hid ▸ hfence), hid, hslice]
  rw [UserBuffer.within_commandSlice]
  unfold ReadsBody
  cases hid : hdr.id with
  | fence =>
    refine ⟨fun h hread => by rw [hread.2.1]; exact h.1 hread, fun h => ⟨fun hread => ?_, ?_⟩⟩
    · have := h hread
      rwa [hread.2.1] at this
    · intro body hbody
      have hfence : body.id = .fence := (UserBuffer.id_of_commandSlice hbody).trans hid
      rw [encode, if_pos hfence]
      exact Reads.within_throw _
  | nop =>
    refine ⟨fun _ => False.elim, fun _ => ⟨?_, ?_⟩⟩
    · simp [UserBuffer.FenceRead, hid]
    · intro body hbody
      have hnop : body.id = .nop := (UserBuffer.id_of_commandSlice hbody).trans hid
      cases body <;> cases hnop
      rw [within_encode hroom (by simp [CommandBody.id])]
      simp [CommandBody.slice]
  | submit =>
    have hbody := UserBuffer.commandSlice_of_submit b off hid
    refine ⟨fun h hread => ?_, fun h => ⟨by simp [UserBuffer.FenceRead, hid], fun body hok => ?_⟩⟩
    · refine (hencode _ hbody (by simp [hid]) (by simp [hid])).1 (h.2 _ hbody) ?_ hread.2
      rintro ⟨-, hnone⟩
      simp [hnone] at hread
    · rw [hencode body hok (by simp [hid]) (by simp [hid])]
      intro hmain hctx
      refine h ⟨Option.isSome_iff_ne_none.2 fun hnone => hmain ⟨hid, hnone⟩, hctx⟩
  | transferToHost | transferFromHost =>
    have hiff := UserBuffer.commandSlice_of_transfer b off (by simp [hid] : hdr.id = _ ∨ hdr.id = _)
    refine ⟨fun h hread => ?_, fun h => ⟨by simp [UserBuffer.FenceRead, hid], fun body hok => ?_⟩⟩
    · obtain ⟨body, hok⟩ := hiff.2 hread.1
      exact (hencode body hok (by simp [hid]) (by simp [hid])).1 (h.2 body hok) (by simp [hid])
        hread.2
    · rw [hencode body hok (by simp [hid]) (by simp [hid])]
      exact fun _ hctx => h ⟨hiff.1 ⟨body, hok⟩, hctx⟩
  | mapAperture | unmapAperture =>
    refine ⟨fun _ => False.elim, fun _ => ⟨by simp [UserBuffer.FenceRead, hid], fun body hok => ?_⟩⟩
    simp [UserBuffer.commandSlice, hid] at hok

theorem within_step (hroom : RoomInv st) :
    (env.step b st).Within b.len ↔ ∀ hdr ∈ b.headerAt st.commandOffset,
      env.ReadsBody b hdr (st.commandOffset + 8) → st.commandOffset + 8 + hdr.size ≤ b.len := by
  unfold step UserBuffer.headerAt commandHeaderSize
  by_cases hlen : b.len - st.commandOffset < 8
  · rw [if_pos hlen, if_neg (by omega)]
    simp
  · have hle : st.commandOffset + 8 ≤ b.len := by omega
    rw [if_neg hlen, Reads.within_bind, DmaWriter.within_readUser, and_iff_right hle]
    by_cases hread : b.Readable ⟨st.commandOffset, 8⟩
    · rw [if_pos ⟨hle, hread⟩, DmaWriter.readUser_of_readable _ hread]
      simp only [forall_const, Reads.within_bind, Reads.within_ofExcept, Reads.result_ofExcept,
        Reads.within_mapErr, Reads.result_mapErr_eq_ok, within_body hroom, true_and]
      cases (b.rawHeader st.commandOffset).tryAsHdr <;> simp [Except.toOption, Except.mapError]
    · rw [if_neg fun h => hread h.2, DmaWriter.readUser_of_not_readable _ hread]
      simp

/-! ### What a round does -/

theorem encodable_of_body {off : ℕ} (hbody : (b.commandSlice hdr off).result = .ok body)
    (hfence : body.id ≠ .fence) (hmain : ¬ (body.id = .submit ∧ env.mainContext = none))
    {context : ℕ} (hctx : env.contextInternal hdr.shadowVirgl = some context) :
    env.Encodable hdr := by
  rw [UserBuffer.id_of_commandSlice hbody] at hfence hmain
  refine ⟨?_, by rw [hctx]; rfl⟩
  cases hid : hdr.id with
  | nop => trivial
  | submit => exact Option.isSome_iff_ne_none.2 fun hnone => hmain ⟨hid, hnone⟩
  | transferToHost | transferFromHost =>
    exact (UserBuffer.commandSlice_of_transfer b off (by simp [hid])).1 ⟨body, hbody⟩
  | fence => exact absurd hid hfence
  | mapAperture | unmapAperture => simp [UserBuffer.commandSlice, hid] at hbody

theorem commandSlice_of_encodable (b : UserBuffer) (off : ℕ) (h : env.Encodable hdr) :
    ∃ body, (b.commandSlice hdr off).result = .ok body ∧ body.id ≠ .fence := by
  have hbody : ∃ body, (b.commandSlice hdr off).result = .ok body := by
    have hkind := h.1
    cases hid : hdr.id with
    | nop => exact ⟨.nop, by simp [UserBuffer.commandSlice, hid]⟩
    | submit => exact ⟨_, UserBuffer.commandSlice_of_submit b off hid⟩
    | transferToHost | transferFromHost =>
      simp only [hid] at hkind
      exact (UserBuffer.commandSlice_of_transfer b off (by simp [hid])).2 hkind
    | fence | mapAperture | unmapAperture => simp [hid] at hkind
  obtain ⟨body, hbody⟩ := hbody
  refine ⟨body, hbody, fun hfence => ?_⟩
  have hkind := h.1
  rw [UserBuffer.id_of_commandSlice hbody] at hfence
  simp [hfence] at hkind

theorem body_spec {off : ℕ} (hbody : (b.commandSlice hdr off).result = .ok body)
    (hfence : body.id ≠ .fence) :
    bodyDmaLen body = some hdr.dmaLen ∧
      (b.Readable body.slice ↔ (hdr.id ≠ .nop → b.Readable ⟨off, hdr.size⟩)) := by
  have hid := UserBuffer.id_of_commandSlice hbody
  have hslice := UserBuffer.slice_of_commandSlice hbody
  unfold CommandHeader.dmaLen
  rw [← hid]
  cases body with
  | nop => simp [bodyDmaLen, CommandBody.id, CommandBody.slice, UserBuffer.Readable]
  | fence => exact absurd rfl hfence
  | submit =>
    rw [hslice (by simp [CommandBody.id])]
    cases hslice (by simp [CommandBody.id])
    simp [bodyDmaLen, CommandBody.id]
  | transferToHost off count | transferFromHost off count =>
    rw [hslice (by simp [CommandBody.id])]
    have hlen : count * commandTransferSize = hdr.size :=
      congrArg Slice.len (hslice (by simp [CommandBody.id]))
    have hcount : hdr.size / commandTransferSize = count := by
      rw [← hlen, Nat.mul_div_cancel _ (by decide)]
    simp [bodyDmaLen, CommandBody.id, hcount]

/-- What a round does, by the header it finds; `l` are the fences it draws. -/
inductive StepCase (env : RenderEnv) (b : UserBuffer) (st : RenderState) :
    Except RenderStop RenderState → Prop
  | next (hdr : CommandHeader) (st' : RenderState) (l : List ℕ)
      (hhdr : b.headerAt st.commandOffset = some hdr)
      (haccepts : env.Accepts b st.commandOffset st.writer.offset hdr)
      (hoff : st'.commandOffset = st.commandOffset + commandHeaderSize + hdr.size)
      (hused : st'.writer.offset = st.writer.offset + hdr.dmaLen)
      (hdma : st'.writer.dma = st.writer.dma)
      (hfence : st'.writer.fence.unsignaled = st.writer.fence.unsignaled ++ l)
      (hl : l = [] ↔ hdr.dmaLen = 0) : StepCase env b st (.ok st')
  | stop (stop : RenderStop) (l : List ℕ)
      (h : ∀ hdr ∈ b.headerAt st.commandOffset,
        ¬ env.Accepts b st.commandOffset st.writer.offset hdr)
      (hfence : (stop.tracker st.writer.fence).unsignaled = st.writer.fence.unsignaled ++ l)
      (hl : l = [] ↔ ∀ hdr ∈ b.headerAt st.commandOffset,
        ¬ env.Draws st.writer.offset hdr) : StepCase env b st (.error stop)

/-- A round stops before it draws a fence. -/
theorem StepCase.of_not_draws {stop : RenderStop}
    (h : ∀ hdr ∈ b.headerAt st.commandOffset, ¬ (env.Encodable hdr ∧
      st.writer.offset + hdr.dmaLen ≤ env.dma.len))
    (hfence : stop.tracker st.writer.fence = st.writer.fence) :
    StepCase env b st (.error stop) := by
  refine .stop stop [] (fun hdr hhdr hacc => h hdr hhdr ⟨hacc.1, hacc.2.1⟩) ?_ ?_
  · rw [hfence, List.append_nil]
  · simp only [true_iff]
    exact fun hdr hhdr hdraws => h hdr hhdr ⟨hdraws.1, hdraws.2.1⟩

theorem encode_eq_ok (h : (env.encode b st hdr body).result = .ok st') :
    ∃ context w, (DmaWriter.fromItems b (some context) hdr.ringIndex body.items st.writer).result =
        .ok w ∧
      st' = ⟨st.commandOffset + commandHeaderSize + hdr.size, st.nop || body.id = .nop, w⟩ := by
  unfold encode at h
  by_cases hfence : body.id = .fence
  · rw [if_pos hfence] at h
    cases h
  by_cases hmain : body.id = .submit ∧ env.mainContext = none
  · rw [if_neg hfence, if_pos hmain] at h
    cases h
  rw [if_neg hfence, if_neg hmain] at h
  split at h
  · cases h
  · cases h
  · rename_i context needed _ _
    by_cases hoff : st.writer.dma.len < st.writer.offset
    · rw [if_pos hoff] at h
      cases h
    rw [if_neg hoff, Reads.result_bind_of_ok (Reads.result_read _)] at h
    split_ifs at h
    · cases h
    obtain ⟨w, hw, h⟩ := Reads.result_bind_eq_ok.1 h
    simp only at h
    split_ifs at h
    · cases h
    · cases h
      exact ⟨context, w, hw, rfl⟩

theorem encode_of_round (h : Reads.Round (more b) (env.step b) st st') :
    ∃ hdr body, (env.encode b st hdr body).result = .ok st' := by
  obtain ⟨-, h⟩ := h
  unfold step at h
  split_ifs at h
  · cases h
  · obtain ⟨-, -, h⟩ := Reads.result_bind_eq_ok.1 h
    obtain ⟨hdr, -, h⟩ := Reads.result_bind_eq_ok.1 h
    obtain ⟨body, -, h⟩ := Reads.result_bind_eq_ok.1 h
    exact ⟨hdr, body, h⟩

theorem encode_eq (hfence : body.id ≠ .fence)
    (hmain : ¬ (body.id = .submit ∧ env.mainContext = none)) {context needed : ℕ}
    (hctx : env.contextInternal hdr.shadowVirgl = some context)
    (hneeded : bodyDmaLen body = some needed) (hroom : RoomInv st) :
    (env.encode b st hdr body).result =
      if st.writer.offset + needed ≤ st.writer.dma.len then
        (DmaWriter.fromItems b (some context) hdr.ringIndex body.items st.writer).result.map
          (⟨st.commandOffset + commandHeaderSize + hdr.size, st.nop || body.id = .nop, ·⟩)
      else .error (.status .graphicsInsufficientDmaBuffer) := by
  unfold RoomInv at hroom
  unfold encode
  rw [if_neg hfence, if_neg hmain]
  simp only [hctx, hneeded]
  rw [if_neg (by omega), Reads.result_bind_of_ok (Reads.result_read _)]
  by_cases hfit : st.writer.offset + needed ≤ st.writer.dma.len
  case neg =>
    rw [if_pos (by omega), if_neg hfit]
    rfl
  rw [if_neg (by omega), if_pos hfit]
  have hsum := bodyDmaLen_eq hneeded
  have hitems := DmaWriter.fromItems_of_room (w := st.writer) b (some context) hdr.ringIndex
    (sendable_of_bodyDmaLen hneeded) (by omega)
  cases hres : (DmaWriter.fromItems b (some context) hdr.ringIndex body.items st.writer).result with
  | error => exact Reads.result_bind_of_error hres
  | ok w =>
    have hread : ∀ item ∈ body.items, b.Readable item.slice := by
      by_contra hno
      obtain ⟨t, l, hfault, -⟩ := hitems.2 hno
      cases hres.symm.trans hfault
    obtain ⟨w', hw', hoff, -⟩ := hitems.1 hread
    cases hres.symm.trans hw'
    rw [Reads.result_bind_of_ok hres, if_neg fun h => h.2 (by omega)]
    rfl

/-- A command that can be encoded, and that there is room for: what is left is to read its body. -/
theorem itemsCase (hhdr : b.headerAt st.commandOffset = some hdr)
    (hbody : (b.commandSlice hdr (st.commandOffset + commandHeaderSize)).result = .ok body)
    (hfence : body.id ≠ .fence) (hmain : ¬ (body.id = .submit ∧ env.mainContext = none))
    {context : ℕ} (hctx : env.contextInternal hdr.shadowVirgl = some context)
    (hdma : st.writer.dma = env.dma) (hfit : st.writer.offset + hdr.dmaLen ≤ env.dma.len) :
    StepCase env b st (env.encode b st hdr body).result := by
  rw [← hdma] at hfit
  have hroom : RoomInv st := (Nat.le_add_right _ _).trans hfit
  have henc := encodable_of_body hbody hfence hmain hctx
  obtain ⟨hneeded, hslice⟩ := body_spec hbody hfence
  have hsend := sendable_of_bodyDmaLen hneeded
  have hsum := bodyDmaLen_eq hneeded
  obtain ⟨hok, hfault⟩ := DmaWriter.fromItems_of_room (w := st.writer) b (some context)
    hdr.ringIndex hsend (by omega)
  rw [encode_eq hfence hmain hctx hneeded hroom, if_pos hfit]
  rw [items_readable_iff, hslice] at hok hfault
  rw [hdma] at hfit
  by_cases hread : hdr.id ≠ .nop → b.Readable ⟨st.commandOffset + commandHeaderSize, hdr.size⟩
  · obtain ⟨w, hw, hoff, hwdma, l, hl, hlen⟩ := hok hread
    rw [hw]
    refine .next hdr _ l hhdr ⟨henc, hfit, hread⟩ rfl (by rw [hsum]; exact hoff) hwdma hl ?_
    rw [← List.length_eq_zero_iff, hlen, hsum, List.length_eq_zero_iff, sum_dmaLen_eq_zero hsend]
  · obtain ⟨t, l, ht, hl, hne⟩ := hfault hread
    rw [ht]
    refine .stop _ l (fun hdr' hhdr' haccepts => ?_) hl (iff_of_false hne fun hall => ?_)
    · cases hhdr.symm.trans hhdr'
      exact hread haccepts.2.2
    -- There is an item that cannot be read, and so there is something to encode.
    refine hall hdr hhdr ⟨henc, hfit, fun hzero => hread ?_⟩
    rw [hsum, sum_dmaLen_eq_zero hsend] at hzero
    rw [← hslice, ← items_readable_iff, hzero]
    simp

theorem encodeCase (hroom : RoomInv st) (hdma : st.writer.dma = env.dma)
    (hhdr : b.headerAt st.commandOffset = some hdr)
    (hbody : (b.commandSlice hdr (st.commandOffset + commandHeaderSize)).result = .ok body) :
    StepCase env b st (env.encode b st hdr body).result := by
  have hnot : ∀ {stop}, ¬ env.Encodable hdr → RenderStop.tracker stop st.writer.fence =
      st.writer.fence → StepCase env b st (.error stop) := fun henc htracker =>
    .of_not_draws (by simp [hhdr, henc]) htracker
  by_cases hfence : body.id = .fence
  · rw [encode, if_pos hfence]
    refine hnot (fun henc => ?_) rfl
    obtain ⟨body', hok, hne⟩ := commandSlice_of_encodable b _ henc
    cases hbody.symm.trans hok
    exact hne hfence
  by_cases hmain : body.id = .submit ∧ env.mainContext = none
  · rw [encode, if_neg hfence, if_pos hmain]
    refine hnot (fun henc => ?_) rfl
    have hkind := henc.1
    simp [← UserBuffer.id_of_commandSlice hbody, hmain.1, hmain.2] at hkind
  cases hctx : env.contextInternal hdr.shadowVirgl with
  | none =>
    rw [encode, if_neg hfence, if_neg hmain]
    simp only [hctx]
    refine hnot (fun henc => ?_) rfl
    have := henc.2
    simp [hctx] at this
  | some context =>
    by_cases hfit : st.writer.offset + hdr.dmaLen ≤ env.dma.len
    · exact itemsCase hhdr hbody hfence hmain hctx hdma hfit
    · rw [encode_eq hfence hmain hctx (body_spec hbody hfence).1 hroom, if_neg (by rwa [hdma])]
      refine .of_not_draws (fun hdr' hhdr' hdraws => hfit ?_) rfl
      cases hhdr.symm.trans hhdr'
      exact hdraws.2

/-- **One round.** -/
theorem stepCase (env : RenderEnv) (b : UserBuffer) (hroom : RoomInv st)
    (hdma : st.writer.dma = env.dma) : StepCase env b st (env.step b st).result := by
  unfold step
  by_cases hlen : b.len - st.commandOffset < commandHeaderSize
  · have hnone : b.headerAt st.commandOffset = none := if_neg fun h => by
      have := h.1
      unfold commandHeaderSize at *
      omega
    rw [if_pos hlen]
    exact .of_not_draws (by simp [hnone]) rfl
  rw [if_neg hlen]
  by_cases hread : b.Readable ⟨st.commandOffset, commandHeaderSize⟩
  case neg =>
    have hnone : b.headerAt st.commandOffset = none := if_neg fun h => hread h.2
    rw [Reads.result_bind_of_error (DmaWriter.readUser_of_not_readable _ hread)]
    exact .of_not_draws (by simp [hnone]) rfl
  have hat : b.headerAt st.commandOffset = (b.rawHeader st.commandOffset).tryAsHdr.toOption :=
    if_pos ⟨by unfold commandHeaderSize at *; omega, hread⟩
  rw [Reads.result_bind_of_ok (DmaWriter.readUser_of_readable _ hread)]
  cases hhdr : (b.rawHeader st.commandOffset).tryAsHdr with
  | error =>
    rw [hhdr] at hat
    exact .of_not_draws (by simp [hat, Except.toOption]) rfl
  | ok hdr =>
    rw [hhdr] at hat
    rw [Reads.result_bind_of_ok (a := hdr) rfl]
    cases hbody : (b.commandSlice hdr (st.commandOffset + commandHeaderSize)).result with
    | error e =>
      rw [Reads.result_bind_of_error (e := .status .invalidParameter)
        (by simp only [Reads.mapErr, hbody, Except.mapError])]
      refine .of_not_draws (fun hdr' hhdr' hdraws => ?_) rfl
      cases hat.symm.trans hhdr'
      obtain ⟨body, hok, -⟩ := commandSlice_of_encodable b _ hdraws.1
      cases hbody.symm.trans hok
    | ok =>
      rw [Reads.result_bind_of_ok (Reads.result_mapErr_eq_ok.2 hbody)]
      exact encodeCase hroom hdma hat hbody

/-! ### The whole loop -/

theorem visits_of_more {fuel off used : ℕ} (h : off < b.len) :
    env.visits b (fuel + 1) off used = (off, used) :: match b.headerAt off with
      | none => []
      | some hdr =>
        if env.Accepts b off used hdr then
          env.visits b fuel (off + commandHeaderSize + hdr.size) (used + hdr.dmaLen)
        else [] := if_pos h

theorem room_of_round (hroom : RoomInv st) (hdma : st.writer.dma = env.dma)
    (h : Reads.Round (more b) (env.step b) st st') :
    RoomInv st' ∧ st'.writer.dma = env.dma := by
  have hcase := env.stepCase b hroom hdma
  rw [h.2] at hcase
  cases hcase with
  | next hdr st' l hhdr haccepts hoff hused hdma' =>
    unfold RoomInv
    rw [hused, hdma', hdma]
    exact ⟨haccepts.2.1, rfl⟩

/-- The loop is not cut short by the bound on its rounds: it ends at the end of the buffer, or
beyond. -/
theorem loop_done {fence : FenceTracker} (h : (Reads.whileLoop (more b) (env.step b) b.len
    (env.start fence)).result = .ok st) : b.len ≤ st.commandOffset := by
  have hround : ∀ st st', Reads.Round (more b) (env.step b) st st' →
      st.commandOffset < st'.commandOffset := by
    intro st st' h
    obtain ⟨hdr, body, h⟩ := encode_of_round h
    obtain ⟨context, w, -, rfl⟩ := encode_eq_ok h
    exact Nat.lt_add_right _ (Nat.lt_add_of_pos_right (by decide))
  have hdone := Reads.whileLoop_done hround (fun st hmore => by simpa [more] using hmore) b.len _
    (Nat.le_add_right _ _) h
  simpa [more] using hdone

/-- A property of the loop that is one of its rounds.  Let `P` say something about the loop from a
state on, and let it be so of the loop from `st` on exactly if `Q` is of the round, and `P` of the
rest of the loop.  Then it is so exactly if `Q` is, everywhere the headers lead to. -/
theorem forall_visits_iff {P : ℕ → RenderState → Prop} {Q : ℕ × ℕ → Prop}
    (hzero : ∀ st, P 0 st) (hdone : ∀ fuel st, more b st = false → P (fuel + 1) st)
    (hnext : ∀ fuel st st', more b st = true → RoomInv st → st.writer.dma = env.dma →
      (env.step b st).result = .ok st' →
      (P (fuel + 1) st ↔ Q (st.commandOffset, st.writer.offset) ∧ P fuel st'))
    (hstop : ∀ fuel st stop, more b st = true → RoomInv st → st.writer.dma = env.dma →
      (env.step b st).result = .error stop →
      (P (fuel + 1) st ↔ Q (st.commandOffset, st.writer.offset)))
    (fuel : ℕ) (st : RenderState) (hroom : RoomInv st) (hdma : st.writer.dma = env.dma) :
    P fuel st ↔ ∀ p ∈ env.visits b fuel st.commandOffset st.writer.offset, Q p := by
  induction fuel generalizing st with
  | zero => simp [visits, hzero]
  | succ fuel ih =>
    by_cases hmore : st.commandOffset < b.len
    case neg =>
      rw [visits, if_neg hmore]
      simp [hdone fuel st (by simpa [more] using hmore)]
    have hmore' : more b st = true := by simpa [more] using hmore
    rw [visits_of_more hmore, List.forall_mem_cons]
    have hcase := env.stepCase b hroom hdma
    generalize hres : (env.step b st).result = r at hcase
    cases hcase with
    | next hdr st' l hhdr haccepts hoff hused hdma' =>
      have hroom' := (room_of_round hroom hdma ⟨hmore', hres⟩).1
      rw [hnext fuel st st' hmore' hroom hdma hres, ih st' hroom' (hdma'.trans hdma), hoff, hused,
        hhdr]
      simp only [haccepts, if_true]
    | stop stop l h =>
      rw [hstop fuel st stop hmore' hroom hdma hres]
      refine (and_iff_left ?_).symm
      cases hhdr : b.headerAt st.commandOffset with
      | none => simp
      | some hdr => simp [h hdr hhdr]

/-- Every command that the headers lead to, and whose body is read, ends inside the buffer. -/
def CommandsFit (env : RenderEnv) (b : UserBuffer) : Prop :=
  ∀ p ∈ env.visits b b.len 0 0, ∀ hdr ∈ b.headerAt p.1,
    env.ReadsBody b hdr (p.1 + 8) → p.1 + 8 + hdr.size ≤ b.len

theorem within_loop (env : RenderEnv) (b : UserBuffer) (fence : FenceTracker) :
    (Reads.whileLoop (more b) (env.step b) b.len (env.start fence)).Within b.len ↔
      env.CommandsFit b := by
  refine forall_visits_iff (P := fun fuel st =>
    (Reads.whileLoop (more b) (env.step b) fuel st).Within b.len) (fun st => Reads.within_pure)
    (fun fuel st hmore => ?_) (fun fuel st st' hmore hroom _ hres => ?_)
    (fun fuel st stop hmore hroom _ hres => ?_) b.len (env.start fence) (Nat.zero_le _) rfl
  · rw [Reads.whileLoop, hmore]
    exact Reads.within_pure
  · rw [Reads.whileLoop, if_pos hmore, Reads.within_bind, within_step hroom, hres]
    simp
  · rw [Reads.whileLoop, if_pos hmore, Reads.within_bind, within_step hroom, hres]
    simp

/-- The loop comes to its end exactly if every command that the headers lead to can be encoded. -/
theorem loop_ok_iff (env : RenderEnv) (b : UserBuffer) (fence : FenceTracker) :
    (∃ st, (Reads.whileLoop (more b) (env.step b) b.len (env.start fence)).result = .ok st) ↔
      env.AcceptsAll b := by
  have haccepts : ∀ {st r}, RoomInv st → st.writer.dma = env.dma → (env.step b st).result = r →
      ((∃ st', r = .ok st') ↔ ∃ hdr ∈ b.headerAt st.commandOffset,
        env.Accepts b st.commandOffset st.writer.offset hdr) := by
    intro st r hroom hdma hres
    have hcase := env.stepCase b hroom hdma
    rw [hres] at hcase
    cases hcase with
    | next hdr st' l hhdr hacc => exact iff_of_true ⟨_, rfl⟩ ⟨hdr, hhdr, hacc⟩
    | stop stop l h =>
      refine iff_of_false (by simp) ?_
      rintro ⟨hdr, hhdr, hacc⟩
      exact h hdr hhdr hacc
  refine forall_visits_iff (P := fun fuel st => ∃ st',
    (Reads.whileLoop (more b) (env.step b) fuel st).result = .ok st') (fun st => ⟨st, rfl⟩)
    (fun fuel st hmore => ?_) (fun fuel st st' hmore hroom hdma hres => ?_)
    (fun fuel st stop hmore hroom hdma hres => ?_) b.len (env.start fence) (Nat.zero_le _) rfl
  · rw [Reads.whileLoop, hmore]
    exact ⟨st, rfl⟩
  · rw [Reads.whileLoop, if_pos hmore, Reads.result_bind_of_ok hres,
      ← haccepts hroom hdma hres]
    simp
  · rw [Reads.whileLoop, if_pos hmore, Reads.result_bind_of_error hres,
      ← haccepts hroom hdma hres]

/-- **When `render` succeeds.** -/
theorem render_ok_iff (env : RenderEnv) (fence : FenceTracker) (b : UserBuffer) :
    (∃ x, (env.render fence b).result = .ok x) ↔ env.Encodes b ∧ env.RoomForPrivate := by
  unfold Encodes RoomForPrivate render
  rw [← loop_ok_iff env b fence]
  by_cases halloc : env.allocations.any Option.isNone = true
  · rw [if_pos halloc]
    simp [halloc]
  rw [if_neg halloc, and_iff_right (eq_false_of_ne_true halloc)]
  cases hloop : (Reads.whileLoop (more b) (env.step b) b.len (env.start fence)).result with
  | error =>
    refine iff_of_false ?_ (by simp)
    rintro ⟨x, hx⟩
    obtain ⟨st, hst, -⟩ := Reads.result_bind_eq_ok.1 hx
    cases hloop.symm.trans (Reads.result_mapErr_eq_ok.1 hst)
  | ok st =>
    rw [Reads.result_bind_of_ok (Reads.result_mapErr_eq_ok.2 hloop)]
    split_ifs with hsize hpriv
    · simp [hsize]
    · simp_all
    · simp_all

theorem within_render (env : RenderEnv) (fence : FenceTracker) (b : UserBuffer) :
    (env.render fence b).Within b.len ↔
      (env.allocations.any Option.isNone = false → env.CommandsFit b) := by
  unfold render
  by_cases halloc : env.allocations.any Option.isNone = true
  · rw [if_pos halloc]
    simp [halloc]
  · rw [if_neg halloc, Reads.within_bind, Reads.within_mapErr, within_loop,
      forall_prop_of_true (eq_false_of_ne_true halloc)]
    refine and_iff_left fun st _ => ?_
    split_ifs <;> simp

end RenderEnv

/-- **When the parsers stay inside the buffer**, whatever is in and behind it.  `render`: exactly if
every command that the headers lead to and whose body is read ends inside it.
`submit_command_virtual`: exactly if the buffer holds the tag, or what has the tag of a
`CommandDmaPrivate`, and does not stop before the value of a fence.  The others: exactly if it does
not stop before that. -/
theorem parsers_within_iff (b : UserBuffer) :
    (∀ (env : RenderEnv) (fence : FenceTracker), (env.render fence b).Within b.len ↔
      (env.allocations.any Option.isNone = false → env.CommandsFit b)) ∧
    (∀ ctx, (b.privateData ctx).Within b.len ↔
      8 ≤ b.len ∧ (b.tag = commandDmaPrivateTag → commandDmaPrivateSize ≤ b.len) ∧
        (b.tag = submitCommandVirtualTag → 16 ≤ b.len → b.FenceAt 8 → 24 ≤ b.len)) ∧
    (∀ ctx, (b.execBuffer ctx).Within b.len ↔ (24 ≤ b.len → b.FenceAt 16 → 32 ≤ b.len)) ∧
    (b.createResource.Within b.len ↔
      (b.tag = createResourceTag → 16 ≤ b.len → b.FenceAt 8 → 24 ≤ b.len)) :=
  ⟨fun env fence => env.within_render fence b, UserBuffer.within_privateData,
    UserBuffer.within_execBuffer, UserBuffer.within_createResource⟩

/-- A page-aligned buffer of the given bytes, with zeroes behind it. -/
def userBuffer (bytes : List UInt8) (h : bytes.length < 2 ^ 32) : UserBuffer :=
  ⟨0, bytes.length, fun k => bytes.getD k 0, fun _ => true, h⟩

/-- A device with a context and a DMA buffer of 64 bytes. -/
def oneContext : RenderEnv := ⟨some 1, none, ⟨0, 64⟩, [], true, 128⟩

/-- **The parsers overrun their buffers.**  `render` copies four bytes behind the buffer.
`submit_command_virtual` reads the tag of an empty one, a `CommandDmaPrivate` of which user mode
gave the tag only, a header behind four bytes, and, as the others do, the value of a fence behind a
header. -/
theorem parsers_overrun :
    ¬ (oneContext.render ⟨0, []⟩ (userBuffer [1, 0, 0, 0, 4, 0, 0, 0] (by decide))).Within 8 ∧
    ¬ ((userBuffer [] (by decide)).privateData none).Within 0 ∧
    ¬ ((userBuffer commandDmaPrivateTag (by decide)).privateData none).Within 8 ∧
    ¬ (UserBuffer.privateData
      ⟨0, 4, fun k => submitCommandVirtualTag.getD k 0, fun _ => true, by decide⟩ none).Within 4 ∧
    ¬ ((userBuffer (submitCommandVirtualTag ++ [4, 0, 0, 0, 8, 0, 0, 0]) (by decide)).privateData
      none).Within 16 ∧
    ¬ ((userBuffer (List.replicate 16 0 ++ [4, 0, 0, 0, 8, 0, 0, 0]) (by decide)).execBuffer
      none).Within 24 ∧
    ¬ (userBuffer (createResourceTag ++ [4, 0, 0, 0, 8, 0, 0, 0]) (by decide)).createResource.Within
      16 := by
  decide

end VirtioGpu
