import VirtioGpu.Adapter.Paging
import VirtioGpu.Device.Present

/-!
# Buffers that are too small

`dxgkrnl` answers `GRAPHICS_INSUFFICIENT_DMA_BUFFER` with a bigger buffer and the same call once
more.  The status is right if it is returned exactly when the commands of a request are longer than
the DMA buffer, or the private data has no room for a `CommandDmaPrivate` (`TellsRoom`).

* `render` finds out that a command does not fit, but the status gets lost: every error of its loop
  becomes `INVALID_PARAMETER`.
* `present` gets it right.
* The operations of a paging buffer reject a DMA buffer that is just large enough.

`room_told_iff` says this for every well-formed request, and `room_not_told` has one for each of the
two errors.
-/

namespace VirtioGpu

/-- The status asks for a bigger buffer exactly if it is needed: `insufficient` says whether it
does, `needed` is the length of the commands, and the buffers have `dmaSize` and `privateSize`
bytes. -/
def TellsRoom (insufficient : Prop) (needed dmaSize privateSize : ℕ) : Prop :=
  insufficient ↔ dmaSize < needed ∨ privateSize < commandDmaPrivateSize

/-! ### `render` -/

namespace RenderEnv

variable {env : RenderEnv} {b : UserBuffer} {context : Bool → ℕ} {cmds : List StreamCommand}

/-- The length of what the commands are encoded to. -/
def streamLen (context : Bool → ℕ) (cmds : List StreamCommand) : ℕ :=
  ((cmds.flatMap (StreamCommand.elements context)).map Element.dmaLen).sum

/-- A well-formed request: the buffer is made of well-formed commands, the handles of the
allocations are valid, and the device has the contexts. -/
structure WellFormed (env : RenderEnv) (context : Bool → ℕ) (cmds : List StreamCommand)
    (b : UserBuffer) : Prop where
  len : b.len = (stream cmds).length
  bytes : b.Holds 0 (stream cmds)
  handles : env.allocations.any Option.isNone = false
  contexts : env.HasContexts context cmds

theorem loop_eq (fence : FenceTracker) (h : env.WellFormed context cmds b) :
    (Reads.whileLoop (more b) (env.step b) b.len (env.start fence)).result =
      if streamLen context cmds ≤ env.dma.len then
        .ok ⟨b.len, false || cmds.any StreamCommand.isNop,
          (env.start fence).writer.addAll (cmds.flatMap (StreamCommand.elements context))⟩
      else .error (.status .graphicsInsufficientDmaBuffer) := by
  rw [render_loop (env.start fence) h.contexts h.bytes (by simp [start, h.len]) (Nat.zero_le _)
    (h.len ▸ length_le_stream cmds)]
  simp [start, streamLen]

theorem tellsRoom_render {fence : FenceTracker} (h : env.WellFormed context cmds b) :
    TellsRoom ((env.render fence b).result = .error (.status .graphicsInsufficientDmaBuffer))
        (streamLen context cmds) env.dma.len env.privateDataSize ↔
      streamLen context cmds ≤ env.dma.len := by
  have hloop := loop_eq fence h
  unfold TellsRoom render
  rw [if_neg (by simp [h.handles])]
  by_cases hroom : streamLen context cmds ≤ env.dma.len
  · rw [if_pos hroom] at hloop
    rw [Reads.result_bind_of_ok (Reads.result_mapErr_eq_ok.2 hloop)]
    split_ifs with hsize hpriv <;> simp [hsize, hroom]
  · -- The status of the loop is replaced.
    rw [if_neg hroom] at hloop
    rw [Reads.result_bind_of_error (e := .status .invalidParameter)
      (by simp only [Reads.mapErr, hloop, Except.mapError])]
    simp [hroom, not_le.1 hroom]

end RenderEnv

/-! ### `present` -/

namespace PresentArgs

variable {args : PresentArgs} {context : ℕ} {src dst : PresentAlloc}

/-- The length of what `present` encodes. -/
def encodedLen (args : PresentArgs) (context : ℕ) (src dst : PresentAlloc) : ℕ :=
  totalLen (args.steps context src dst)

theorem insufficient_encode {fence : FenceTracker} {requests : List ℕ} :
    (args.encode fence requests context src dst).result =
        .error (.status .graphicsInsufficientDmaBuffer) ↔
      args.dma.len < args.encodedLen context src dst ∨
        args.privateDataSize < commandDmaPrivateSize := by
  rw [result_encode, encodedLen]
  split_ifs with hsize hpriv <;> simp [hsize]

theorem insufficient_present {fence : FenceTracker} (h : args.WellFormed context src dst) :
    (args.present fence).result = .error (.status .graphicsInsufficientDmaBuffer) ↔
      (args.dma.len < args.encodedLen context src dst ∨
        args.privateDataSize < commandDmaPrivateSize) ∨ args.patchSlots < 2 := by
  rcases present_of_wellFormed fence h with
    ⟨hslots, hresult⟩ | ⟨hslots, t, requests, hpresent⟩
  · rw [hresult]
    simp [hslots]
  · rw [hpresent, insufficient_encode, or_iff_left (not_lt.2 hslots)]

end PresentArgs

/-! ### `build_paging_buffer` -/

namespace PagingOp

/-- The length of the command of an operation, if it has one. -/
def commandLen : PagingOp → Option ℕ
  | .mapApertureSegment (.alloc true) _ _ numberOfPages => some (attachBackingDmaLen numberOfPages)
  | .unmapApertureSegment (.alloc true) => some detachBackingDmaLen
  | .updatePageTable (.alloc true) true (.complete entries _) => some (attachBackingDmaLen entries)
  | _ => none

/-- The pages of the MDL are those of the operation. -/
def MdlFits : PagingOp → Prop
  | .mapApertureSegment _ mdlPages mdlOffset numberOfPages =>
    mdlOffset ≤ mdlPages ∧ mdlPages ≤ mdlOffset + numberOfPages
  | _ => True

theorem encode_eq {op : PagingOp} (hmdl : op.MdlFits) (dmaSize : ℕ) :
    (∃ id needed, op.commandLen = some needed ∧
      op.encode dmaSize = .next (encodeBacking id needed dmaSize)) ∨
    (op.commandLen = none ∧ ∃ status, status ≠ .error .graphicsInsufficientDmaBuffer ∧
      (op.encode dmaSize = .next (.stop status) ∨ op.encode dmaSize = .next (.none status))) := by
  cases op with
  | mapApertureSegment handle mdlPages mdlOffset numberOfPages =>
    obtain ⟨hle, hpages⟩ := hmdl
    cases handle with
    | null => exact .inr ⟨rfl, .ok (), by simp, .inl rfl⟩
    | invalid => exact .inr ⟨rfl, .error .invalidParameter, by simp, .inl rfl⟩
    | alloc canAttach =>
      cases canAttach with
      | false => exact .inr ⟨rfl, .ok (), by simp, .inl rfl⟩
      | true =>
        refine .inl ⟨.mapAperture, _, rfl, ?_⟩
        simp only [encode, PagingHandle.check, encodeBacking]
        by_cases hroom : dmaSize ≤ attachBackingDmaLen numberOfPages
        · simp [hroom]
        · simp [hroom, not_lt.2 hle, not_lt.2 hpages]
  | unmapApertureSegment handle =>
    cases handle with
    | null => exact .inr ⟨rfl, .ok (), by simp, .inl rfl⟩
    | invalid => exact .inr ⟨rfl, .error .invalidParameter, by simp, .inl rfl⟩
    | alloc canAttach =>
      cases canAttach with
      | false => exact .inr ⟨rfl, .ok (), by simp, .inl rfl⟩
      | true => exact .inl ⟨.unmapAperture, _, rfl, rfl⟩
  | updatePageTable handle missing attachPages =>
    cases handle with
    | null => exact .inr ⟨rfl, .ok (), by simp, .inl rfl⟩
    | invalid => exact .inr ⟨rfl, .error .invalidParameter, by simp, .inl rfl⟩
    | alloc canAttach =>
      cases canAttach with
      | false => exact .inr ⟨rfl, .ok (), by simp, .inr rfl⟩
      | true =>
        cases missing with
        | false => exact .inr ⟨rfl, .ok (), by simp, .inr rfl⟩
        | true =>
          cases attachPages with
          | incomplete => exact .inr ⟨rfl, .ok (), by simp, .inr rfl⟩
          | complete => exact .inl ⟨.mapAperture, _, rfl, rfl⟩
  | fill handle | discardContent handle | transfer handle | virtualTransfer handle
  | virtualFill handle =>
    cases handle with
    | null => exact .inr ⟨rfl, .ok (), by simp, .inl rfl⟩
    | invalid => exact .inr ⟨rfl, .error .invalidParameter, by simp, .inl rfl⟩
    | alloc => exact .inr ⟨rfl, .ok (), by simp, .inr rfl⟩
  | flushTlb | copyPageTableEntries | notifyResidency =>
    exact .inr ⟨rfl, .ok (), by simp, .inr rfl⟩
  | unknown => exact .inr ⟨rfl, .error .notSupported, by simp, .inr rfl⟩

end PagingOp

namespace PagingState

variable {call : PagingCall}

theorem status_eq (s : PagingState) (hnull : call.dmaNull = false) (hmdl : call.op.MdlFits) :
    ∃ status s', s.buildPagingBuffer call = .next (status, s') ∧
      (status = .error .graphicsInsufficientDmaBuffer ↔
        call.privateSize < commandDmaPrivateSize ∨
          ∃ needed, call.op.commandLen = some needed ∧ call.dmaSize ≤ needed) := by
  unfold buildPagingBuffer
  rw [if_neg (by simp [hnull])]
  by_cases hsize : call.privateSize < commandDmaPrivateSize
  · rw [if_pos hsize]
    exact ⟨_, _, rfl, by simp [hsize]⟩
  rw [if_neg hsize]
  rcases PagingOp.encode_eq hmdl call.dmaSize with
    ⟨id, needed, hlen, henc⟩ | ⟨hlen, status, hstatus, henc | henc⟩
  · rw [henc, hlen]
    unfold encodeBacking
    by_cases hroom : call.dmaSize ≤ needed
    · rw [if_pos hroom]
      exact ⟨_, _, rfl, by simp [hroom]⟩
    · rw [if_neg hroom]
      exact ⟨_, _, rfl, by simp [hsize, hroom]⟩
  all_goals
    rw [henc, hlen]
    exact ⟨_, _, rfl, by simp [hsize, hstatus]⟩

theorem tellsRoom_paging (s : PagingState) (hnull : call.dmaNull = false)
    (hmdl : call.op.MdlFits) :
    ∃ status s', s.buildPagingBuffer call = .next (status, s') ∧
      (TellsRoom (status = .error .graphicsInsufficientDmaBuffer) (call.op.commandLen.getD 0)
          call.dmaSize call.privateSize ↔
        (call.op.commandLen = some call.dmaSize → call.privateSize < commandDmaPrivateSize)) := by
  obtain ⟨status, s', hbuild, hstatus⟩ := s.status_eq hnull hmdl
  refine ⟨status, s', hbuild, ?_⟩
  unfold TellsRoom
  rw [hstatus]
  cases call.op.commandLen with
  | none => simp
  | some needed =>
    simp only [Option.some.injEq, exists_eq_left', Option.getD_some]
    omega

end PagingState

/-- **When the status tells that there is too little room.**  `render` does so provided that the
commands fit; `present` always, where it also asks for two patch slots; and an operation of
`build_paging_buffer` unless it has a command that fills the DMA buffer and there is room for the
private data. -/
theorem room_told_iff (fence : FenceTracker) :
    (∀ (env : RenderEnv) (context : Bool → ℕ) (cmds : List StreamCommand) (b : UserBuffer),
      env.WellFormed context cmds b →
      (TellsRoom ((env.render fence b).result = .error (.status .graphicsInsufficientDmaBuffer))
          (RenderEnv.streamLen context cmds) env.dma.len env.privateDataSize ↔
        RenderEnv.streamLen context cmds ≤ env.dma.len)) ∧
    (∀ (args : PresentArgs) (context : ℕ) (src dst : PresentAlloc),
      args.WellFormed context src dst →
      ((args.present fence).result = .error (.status .graphicsInsufficientDmaBuffer) ↔
        (args.dma.len < args.encodedLen context src dst ∨
          args.privateDataSize < commandDmaPrivateSize) ∨ args.patchSlots < 2)) ∧
    (∀ (s : PagingState) (call : PagingCall), call.dmaNull = false → call.op.MdlFits →
      ∃ status s', s.buildPagingBuffer call = .next (status, s') ∧
        (TellsRoom (status = .error .graphicsInsufficientDmaBuffer) (call.op.commandLen.getD 0)
            call.dmaSize call.privateSize ↔
          (call.op.commandLen = some call.dmaSize →
            call.privateSize < commandDmaPrivateSize))) :=
  ⟨fun _ _ _ _ h => RenderEnv.tellsRoom_render h,
    fun _ _ _ _ h => PresentArgs.insufficient_present h,
    fun s _ hnull hmdl => s.tellsRoom_paging hnull hmdl⟩

/-- Buffers of just the right size for `render` and `present`, and an operation with one byte more
than its command needs. -/
theorem room_told_iff_exact :
    TellsRoom ((twoContexts.render ⟨0, []⟩
          (userBuffer (stream threeCommands) (by decide))).result =
        .error (.status .graphicsInsufficientDmaBuffer)) 108 108 112 ∧
      (smallBlit.present ⟨0, []⟩).result ≠ .error (.status .graphicsInsufficientDmaBuffer) ∧
      ∃ status s', PagingState.buildPagingBuffer (.start 0 fun _ => none)
          ⟨.unmapApertureSegment (.alloc true), false, 33, 112⟩ = .next (status, s') ∧
        TellsRoom (status = .error .graphicsInsufficientDmaBuffer) 32 33 112 := by
  obtain ⟨hrender, hpresent, hpaging⟩ := room_told_iff ⟨0, []⟩
  refine ⟨?_, ?_, ?_⟩
  · exact (hrender twoContexts (fun shadow => if shadow then 2 else 1) threeCommands
      (userBuffer (stream threeCommands) (by decide))
      ⟨rfl, ⟨rfl, fun _ _ => rfl⟩, rfl, ⟨rfl, fun _ _ _ => rfl⟩⟩).2 (by decide)
  · rw [Ne, hpresent smallBlit 2 _ _ ⟨rfl, rfl, rfl, rfl, rfl, rfl, rfl⟩]
    decide
  · obtain ⟨status, s', hbuild, h⟩ := hpaging (.start 0 fun _ => none)
      ⟨.unmapApertureSegment (.alloc true), false, 33, 112⟩ rfl trivial
    exact ⟨status, s', hbuild, h.2 (by decide)⟩

/-- **A request that is refused with the wrong status.**  A `Submit` without data takes 32 bytes: in
a DMA buffer of 16 bytes `render` calls the request invalid instead of asking for more room.  The
command of an unmap operation takes 32 bytes as well: in a DMA buffer of 32 bytes it is refused. -/
theorem room_not_told :
    RenderEnv.streamLen (fun _ => 1) [⟨false, false, 0, .submit []⟩] = 32 ∧
      (RenderEnv.render ⟨some 1, none, ⟨0, 16⟩, [], true, commandDmaPrivateSize⟩ ⟨0, []⟩
        (userBuffer (stream [⟨false, false, 0, .submit []⟩]) (by decide))).result.isOk = false ∧
      (RenderEnv.render ⟨some 1, none, ⟨0, 16⟩, [], true, commandDmaPrivateSize⟩ ⟨0, []⟩
        (userBuffer (stream [⟨false, false, 0, .submit []⟩]) (by decide))).result ≠
          .error (.status .graphicsInsufficientDmaBuffer) ∧
      (PagingOp.unmapApertureSegment (.alloc true)).commandLen = some 32 ∧
      ∃ s', PagingState.buildPagingBuffer (.start 0 fun _ => none)
        ⟨.unmapApertureSegment (.alloc true), false, 32, commandDmaPrivateSize⟩ =
          .next (.error .graphicsInsufficientDmaBuffer, s') := by
  have hrender : (RenderEnv.render ⟨some 1, none, ⟨0, 16⟩, [], true, commandDmaPrivateSize⟩
      ⟨0, []⟩ (userBuffer (stream [⟨false, false, 0, .submit []⟩]) (by decide))).result =
        .error (.status .invalidParameter) := rfl
  refine ⟨rfl, ?_, ?_, rfl, _, rfl⟩
  · rw [hrender]
    rfl
  · rw [hrender]
    simp

end VirtioGpu
