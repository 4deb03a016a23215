import VirtioGpu.Device.Stream

/-!
# `Device::present`

`present` copies a part of one allocation to another.  It encodes up to five commands for the
blit context into the DMA buffer: the type of the source and of the destination, if they are blobs,
a transfer of the source to the host, the copy itself and a transfer of the destination from the
host.  Before each of them it checks that the command has room in what is left of the DMA buffer.

The type of a blob is not set if nobody has told it to the driver: then there has to be room for a
command that is not written.  Both types are those of the source.

* `PresentArgs.present` : the function, with the DMA buffer and the tracker of fences it leaves.
* `encodeSteps_of_room`, `encodeSteps_of_no_room` : the commands of a list of steps are written if
  they fit, and otherwise some check fails, as long as no step without a command asks for more than
  the steps after it write.
-/

namespace VirtioGpu

/-! ### Rectangles -/

structure Rect where
  left : Int32
  top : Int32
  right : Int32
  bottom : Int32

namespace Rect

/-- `RECT::bitor_assign`: the smallest rectangle around both. -/
def union (r s : Rect) : Rect :=
  ⟨min r.left s.left, min r.top s.top, max r.right s.right, max r.bottom s.bottom⟩

/-- `RECT::top_left`, without the third coordinate, which is 0. -/
def topLeft (r : Rect) : UInt32 × UInt32 := (r.left.toUInt32, r.top.toUInt32)

/-- `RECT::dimensions`, without the third one, which is 1. -/
def dimensions (r : Rect) : UInt32 × UInt32 :=
  ((r.right - r.left).toUInt32, (r.bottom - r.top).toUInt32)

/-- `RECT::add`. -/
def shift (r : Rect) (delta : Int32 × Int32) : Rect :=
  ⟨r.left + delta.1, r.top + delta.2, r.right + delta.1, r.bottom + delta.2⟩

end Rect

/-! ### The commands -/

/-- `BlobInfo`, as far as `VirglResourceSetType::from_blob_info` reads it: only the first plane. -/
structure BlobInfo where
  width : UInt32
  height : UInt32
  format : UInt32
  bind : UInt32
  modifier : UInt64
  stride : UInt32
  offset : UInt32
  deriving DecidableEq

/-- `size_of::<VirglResourceSetType>()`. -/
def virglResourceSetTypeSize : ℕ := 44

/-- `size_of::<VirglResourceCopyRegion>()`. -/
def virglResourceCopyRegionSize : ℕ := 56

/-- `VirglResourceSetType::from_blob_info`. -/
def virglResourceSetType (id : UInt32) (info : BlobInfo) : List UInt32 :=
  -- command 49 with 10 words after the header
  [0x000A0031, id, info.format, info.bind, info.width, info.height, 0,
    info.modifier.toUInt32, (info.modifier >>> 32).toUInt32, info.stride, info.offset]

/-- `VirglResourceCopyRegion::new`, for the first level of both resources. -/
def virglResourceCopyRegion (dst : UInt32) (dstPoint : UInt32 × UInt32) (src : UInt32)
    (srcPoint dim : UInt32 × UInt32) : List UInt32 :=
  -- command 17 with 13 words after the header
  [0x000D0011, dst, 0, dstPoint.1, dstPoint.2, 0, src, 0, srcPoint.1, srcPoint.2, 0,
    dim.1, dim.2, 1]

/-- The bytes of an array of `u32`. -/
def wordBytes (ws : List UInt32) : List UInt8 := ws.flatMap bytes32

/-- `Command::virgl_set_type_dma_len`. -/
def virglSetTypeDmaLen : ℕ := cmdSubmit3DSize + virglResourceSetTypeSize

/-- `Command::virgl_set_type`. -/
def virglSetType (context : ℕ) (id : UInt32) (info : BlobInfo) : Element :=
  ⟨context, none, .submit (wordBytes (virglResourceSetType id info))⟩

/-- `Command::virgl_blit_dma_len`. -/
def virglBlitDmaLen (rects : List Rect) : ℕ :=
  cmdSubmit3DSize + virglResourceCopyRegionSize * rects.length

/-- `Command::virgl_blit`. -/
def virglBlit (context : ℕ) (src dst : UInt32) (delta : Int32 × Int32) (rects : List Rect) :
    Element :=
  ⟨context, none, .submit (rects.flatMap fun rect =>
    wordBytes (virglResourceCopyRegion dst rect.topLeft src (rect.shift delta).topLeft
      rect.dimensions))⟩

/-- The `CommandTransfer` for a part of a resource. -/
def rectTransfer (id : UInt32) (topLeft dim : UInt32 × UInt32) : CommandTransfer :=
  ⟨id, 0, 0, 0, 0, ⟨topLeft.1, topLeft.2, 0, dim.1, dim.2, 1⟩⟩

/-! ### The arguments -/

/-- `VirtioResource`, as far as `present` looks at it. -/
inductive PresentResource where
  /-- A 3D resource, with `MAP_COHERENT` of its flags. -/
  | texture (mapCoherent : Bool)
  /-- A blob, with `GUEST` of its memory and the type it has been given. -/
  | blob (guest : Bool) (info : Option BlobInfo)

/-- What becomes of a call of `ensure_virgl_attached`. -/
inductive VirglAttach where
  | attached
  /-- The request to attach it could not be queued. -/
  | unqueued (e : NtStatus)
  /-- The request was queued; this came of it. -/
  | answered (r : Except NtStatus Unit)

namespace VirglAttach

def result : VirglAttach → Except NtStatus Unit
  | attached => .ok ()
  | unqueued e => .error e
  | answered r => r

/-- The tracker after the call; the header of the request draws a fence. -/
def tracker (t : FenceTracker) : VirglAttach → FenceTracker
  | attached => t
  | unqueued _ | answered _ => t.issue.2

/-- The fences of the requests that were queued. -/
def requests (t : FenceTracker) : VirglAttach → List ℕ
  | attached | unqueued _ => []
  | answered _ => [t.issue.1]

end VirglAttach

/-- An allocation that is opened on the device. -/
structure PresentAlloc where
  /-- The handle of the `DeviceSpecificAllocation`. -/
  handle : ℕ
  id : UInt32
  resource : PresentResource
  /-- What becomes of `ensure_virgl_attached`. -/
  virgl : VirglAttach

namespace PresentAlloc

/-- `Allocation::is_blob`. -/
def isBlob (a : PresentAlloc) : Bool := match a.resource with
  | .texture _ => false
  | .blob _ _ => true

/-- `Allocation::needs_transfer`. -/
def needsTransfer (a : PresentAlloc) : Bool := match a.resource with
  | .texture mapCoherent => mapCoherent
  | .blob guest _ => guest

/-- The type of a blob. -/
def blobInfo (a : PresentAlloc) : Option BlobInfo := match a.resource with
  | .texture _ => none
  | .blob _ info => info

end PresentAlloc

/-- An entry of the allocation list. -/
inductive PresentHandle where
  /-- Not the handle of a `DeviceSpecificAllocation`. -/
  | invalid
  /-- The `Allocation` no longer exists. -/
  | gone
  | alive (alloc : PresentAlloc)

/-- The device and the arguments of a call of `present`. -/
structure PresentArgs where
  src : PresentHandle
  dst : PresentHandle
  blt : Bool
  /-- `pDmaBuffer` is null. -/
  dmaNull : Bool
  /-- `pDmaBuffer` and `DmaSize`. -/
  dma : Slice
  /-- `PatchLocationListOutSize` -/
  patchSlots : ℕ
  srcRect : Rect
  dstRect : Rect
  /-- `pDstSubRects`, of `SubRectCnt` rectangles. -/
  subRects : List Rect
  /-- The id of `context_virgl()`. -/
  contextVirgl : Option ℕ
  /-- `pDmaBufferPrivateData` is not null. -/
  hasPrivateData : Bool
  /-- `DmaBufferPrivateDataSize` -/
  privateDataSize : ℕ

/-! ### The function -/

/-- A command of `present`: the room it asks for, and what it writes, if it does. -/
structure PresentStep where
  needed : ℕ
  element : Option Element

/-- The check for room and the command of each step.  The second component is the writer as it is
when the steps are done, or stop with an error. -/
def encodeSteps : List PresentStep → DmaWriter → Except RenderStop Unit × DmaWriter
  | [], w => (.ok (), w)
  | step :: steps, w =>
    if w.dma.len < w.offset then (.error .sliceIndex, w)
    else if w.dma.len - w.offset < step.needed then
      (.error (.status .graphicsInsufficientDmaBuffer), w)
    else match step.element with
      | none => encodeSteps steps w
      | some e =>
        match w.push e.id e.ring (e.wire w.fence).1 (e.wire w.fence).2 with
        | .ok w' => encodeSteps steps w'
        | .error stop => (.error stop, w)

/-- What `present` leaves behind. -/
structure PresentOutcome where
  /-- The private data, if any was written. -/
  result : Except RenderStop (Option CommandDmaPrivate)
  /-- The DMA buffer, and the tracker. -/
  writer : DmaWriter
  /-- The fences of the requests that were put into the control channel. -/
  requests : List ℕ

namespace PresentArgs

variable (args : PresentArgs) (fence : FenceTracker) (context : ℕ)

def dstSubrects : List Rect :=
  if 1 ≤ args.subRects.length then args.subRects else [args.dstRect]

def coverRect : Rect :=
  args.dstSubrects.foldl Rect.union (args.dstSubrects.headD args.dstRect)

/-- `(dx, dy)`. -/
def delta : Int32 × Int32 :=
  (args.srcRect.left - args.dstRect.left, args.srcRect.top - args.dstRect.top)

/-- The type of a blob is set if it is known. -/
def setTypeSteps (a : PresentAlloc) (info : Option BlobInfo) : List PresentStep :=
  if a.isBlob then [⟨virglSetTypeDmaLen, info.map (virglSetType context a.id)⟩] else []

/-- A transfer of a part of the allocation. -/
def transferSteps (a : PresentAlloc) (work : CommandTransfer → Work3D) (r cover : Rect) :
    List PresentStep :=
  if a.needsTransfer then
    [⟨cmdTransferHost3DSize,
      some ⟨context, none, work (rectTransfer a.id r.topLeft cover.dimensions)⟩⟩]
  else []

def blitStep (src dst : PresentAlloc) : PresentStep :=
  ⟨virglBlitDmaLen args.dstSubrects,
    some (virglBlit context src.id dst.id args.delta args.dstSubrects)⟩

def steps (src dst : PresentAlloc) : List PresentStep :=
  setTypeSteps context src src.blobInfo ++
  -- the destination gets the type of the source as well
  setTypeSteps context dst src.blobInfo ++
  transferSteps context src .transferToHost (args.coverRect.shift args.delta) args.coverRect ++
  [args.blitStep context src dst] ++
  transferSteps context dst .transferFromHost args.coverRect args.coverRect

/-- The DMA buffer before anything is written to it. -/
def emptyWriter : DmaWriter :=
  ⟨args.dma, 0, fence, [], []⟩

/-- The commands and the end of `present`, for allocations that are attached to the context;
`requests` are the requests that were made for that. -/
def encode (requests : List ℕ) (context : ℕ) (src dst : PresentAlloc) : PresentOutcome :=
  match encodeSteps (args.steps context src dst) (args.emptyWriter fence) with
  | (.error stop, w) => ⟨.error stop, w, requests⟩
  | (.ok (), w) =>
    if args.privateDataSize < commandDmaPrivateSize then
      ⟨.error (.status .graphicsInsufficientDmaBuffer), w, requests⟩
    else if !args.hasPrivateData then ⟨.error (.status .invalidParameter), w, requests⟩
    else ⟨.ok (some ⟨w.commands, [src.handle, dst.handle]⟩), w, requests⟩

/-- The part of `present` that follows the checks of its arguments. -/
def attachAndEncode (src dst : PresentAlloc) : PresentOutcome :=
  let t := src.virgl.tracker fence
  let requests := src.virgl.requests fence
  match src.virgl.result with
  | .error e => ⟨.error (.status e), args.emptyWriter t, requests⟩
  | .ok () =>
    let t' := dst.virgl.tracker t
    let requests' := requests ++ dst.virgl.requests t
    match dst.virgl.result with
    | .error e => ⟨.error (.status e), args.emptyWriter t', requests'⟩
    | .ok () => args.encode t' requests' context src dst

/-- The checks of `present`: what it returns at once, or the context and the allocations. -/
def check : Except (Except NtStatus Unit) (ℕ × PresentAlloc × PresentAlloc) :=
  match args.src, args.dst with
  | .invalid, _ | _, .invalid => .error (.ok ())
  | src, dst =>
    if !args.blt then .error (.ok ())
    else if args.dmaNull then .error (.ok ())
    else match src, dst with
      | .alive src, .alive dst =>
        if args.patchSlots < 2 then .error (.error .graphicsInsufficientDmaBuffer)
        else match args.contextVirgl with
          | none => .error (.error .reinitializationNeeded)
          | some context => .ok (context, src, dst)
      | _, _ => .error (.error .invalidHandle)

/-- `Device::present`. -/
def present : PresentOutcome :=
  match args.check with
  | .ok (context, src, dst) => args.attachAndEncode fence context src dst
  | .error (.ok ()) => ⟨.ok none, args.emptyWriter fence, []⟩
  | .error (.error e) => ⟨.error (.status e), args.emptyWriter fence, []⟩

end PresentArgs

/-! ### What the steps write -/

/-- What the steps write. -/
def elementsOf (steps : List PresentStep) : List Element := steps.filterMap PresentStep.element

/-- The length of what the steps write. -/
def totalLen (steps : List PresentStep) : ℕ := ((elementsOf steps).map Element.dmaLen).sum

/-- The step asks for what it writes. -/
def PresentStep.Sized (step : PresentStep) : Prop :=
  ∀ e, step.element = some e → e.dmaLen = step.needed

/-- A step without a command asks for no more than what the steps after it write. -/
def Covered : List PresentStep → Prop
  | [] => True
  | step :: steps => (step.element = none → step.needed ≤ totalLen steps) ∧ Covered steps

section Steps

variable {steps : List PresentStep} {step : PresentStep} {w : DmaWriter} {e : Element}

theorem elementsOf_cons_none (h : step.element = none) :
    elementsOf (step :: steps) = elementsOf steps := List.filterMap_cons_none h

theorem elementsOf_cons_some (h : step.element = some e) :
    elementsOf (step :: steps) = e :: elementsOf steps := List.filterMap_cons_some h

theorem totalLen_cons_none (h : step.element = none) :
    totalLen (step :: steps) = totalLen steps := by
  rw [totalLen, elementsOf_cons_none h, totalLen]

theorem totalLen_cons_some (h : step.element = some e) :
    totalLen (step :: steps) = e.dmaLen + totalLen steps := by
  rw [totalLen, elementsOf_cons_some h, List.map_cons, List.sum_cons, totalLen]

theorem totalLen_append (steps steps' : List PresentStep) :
    totalLen (steps ++ steps') = totalLen steps + totalLen steps' := by
  simp [totalLen, elementsOf]

theorem encodeSteps_cons (hroom : w.offset + step.needed ≤ w.dma.len) (hsized : step.Sized) :
    encodeSteps (step :: steps) w = encodeSteps steps (w.addAll step.element.toList) := by
  rw [encodeSteps, if_neg (by omega), if_neg (by omega)]
  cases he : step.element with
  | none => simp [DmaWriter.addAll_nil]
  | some e =>
    have hpush := DmaWriter.push_element (w := w) e (by rw [hsized e he]; exact hroom)
    simp only [hpush, Option.toList_some]

/-- What every `push` preserves, the steps preserve. -/
theorem encodeSteps_invariant {P : DmaWriter → Prop} (hw : P w)
    (hpush : ∀ (e : Element) (w w' : DmaWriter), P w →
      w.push e.id e.ring (e.wire w.fence).1 (e.wire w.fence).2 = .ok w' → P w') :
    P (encodeSteps steps w).2 := by
  induction steps generalizing w with
  | nil => exact hw
  | cons step steps ih =>
    unfold encodeSteps
    split_ifs
    · exact hw
    · exact hw
    · cases step.element with
      | none => exact ih hw
      | some e =>
        cases h : w.push e.id e.ring (e.wire w.fence).1 (e.wire w.fence).2 with
        | ok w' => simpa only [h] using ih (hpush e w w' hw h)
        | error => simpa only [h] using hw

/-- **The commands are written if they fit.** -/
theorem encodeSteps_of_room (hsized : ∀ step ∈ steps, step.Sized) (hcovered : Covered steps)
    (hroom : w.offset + totalLen steps ≤ w.dma.len) :
    encodeSteps steps w = (.ok (), w.addAll (elementsOf steps)) := by
  induction steps generalizing w with
  | nil => rw [encodeSteps, elementsOf, List.filterMap_nil, DmaWriter.addAll_nil]
  | cons step steps ih =>
    have hhead := hsized step List.mem_cons_self
    have htail : ∀ s ∈ steps, s.Sized := fun s hs => hsized s (List.mem_cons_of_mem step hs)
    cases he : step.element with
    | none =>
      rw [totalLen_cons_none he] at hroom
      have hneeded := hcovered.1 he
      rw [encodeSteps_cons (by omega) hhead, he, Option.toList_none, DmaWriter.addAll_nil,
        ih htail hcovered.2 hroom, elementsOf_cons_none he]
    | some e =>
      rw [totalLen_cons_some he, hhead e he] at hroom
      rw [encodeSteps_cons (by omega) hhead, he, Option.toList_some, ih htail hcovered.2,
        ← DmaWriter.addAll_append, elementsOf_cons_some he]
      · rfl
      · simp only [DmaWriter.addAll, List.map_cons, List.map_nil, List.sum_singleton, hhead e he]
        omega

/-- **If the commands do not fit, a check fails.** -/
theorem encodeSteps_of_no_room (hsized : ∀ step ∈ steps, step.Sized) (hoff : w.offset ≤ w.dma.len)
    (hroom : w.dma.len < w.offset + totalLen steps) :
    (encodeSteps steps w).1 = .error (.status .graphicsInsufficientDmaBuffer) := by
  induction steps generalizing w with
  | nil =>
    simp only [totalLen, elementsOf, List.filterMap_nil, List.map_nil, List.sum_nil] at hroom
    omega
  | cons step steps ih =>
    have hhead := hsized step List.mem_cons_self
    have htail : ∀ s ∈ steps, s.Sized := fun s hs => hsized s (List.mem_cons_of_mem step hs)
    by_cases hneeded : w.dma.len - w.offset < step.needed
    · rw [encodeSteps, if_neg (by omega), if_pos hneeded]
    rw [encodeSteps_cons (by omega) hhead]
    cases he : step.element with
    | none =>
      rw [totalLen_cons_none he] at hroom
      rw [Option.toList_none, DmaWriter.addAll_nil]
      exact ih htail hoff hroom
    | some e =>
      rw [totalLen_cons_some he, hhead e he] at hroom
      refine ih htail ?_ ?_ <;>
        simp only [DmaWriter.addAll, Option.toList_some, List.map_cons, List.map_nil,
          List.sum_singleton, hhead e he] <;> omega

end Steps

/-! ### The steps of `present` -/

theorem length_wordBytes (ws : List UInt32) : (wordBytes ws).length = 4 * ws.length := by
  simp [wordBytes, bytes32, List.length_flatMap, Nat.mul_comm]

theorem dmaLen_virglSetType (context : ℕ) (id : UInt32) (info : BlobInfo) :
    (virglSetType context id info).dmaLen = virglSetTypeDmaLen := by
  simp only [Element.dmaLen, virglSetType, length_wordBytes]
  rfl

theorem dmaLen_virglBlit (context : ℕ) (src dst : UInt32) (delta : Int32 × Int32)
    (rects : List Rect) :
    (virglBlit context src dst delta rects).dmaLen = virglBlitDmaLen rects := by
  have hregion : ∀ r : Rect, (wordBytes (virglResourceCopyRegion dst r.topLeft src
      (r.shift delta).topLeft r.dimensions)).length = virglResourceCopyRegionSize := fun r => by
    rw [length_wordBytes]
    rfl
  simp only [Element.dmaLen, virglBlit, virglBlitDmaLen, List.length_flatMap, hregion,
    List.map_const', List.sum_replicate_nat, Nat.mul_comm]

namespace PresentArgs

variable {args : PresentArgs} {context : ℕ} {src dst a : PresentAlloc} {info : Option BlobInfo}

theorem sized_setTypeSteps : ∀ step ∈ setTypeSteps context a info, step.Sized := by
  unfold setTypeSteps
  split_ifs with hblob
  · refine List.forall_mem_singleton.2 fun e he => ?_
    obtain ⟨i, -, rfl⟩ := Option.map_eq_some_iff.1 he
    exact dmaLen_virglSetType _ _ _
  · exact fun _ h => absurd h List.not_mem_nil

theorem sized_transferSteps {work : CommandTransfer → Work3D} {r cover : Rect}
    (hwork : ∀ t, (Element.mk context none (work t)).dmaLen = cmdTransferHost3DSize) :
    ∀ step ∈ transferSteps context a work r cover, step.Sized := by
  unfold transferSteps
  split_ifs with htransfer
  · refine List.forall_mem_singleton.2 fun e he => ?_
    cases he
    exact hwork _
  · exact fun _ h => absurd h List.not_mem_nil

theorem sized_steps (args : PresentArgs) (context : ℕ) (src dst : PresentAlloc) :
    ∀ step ∈ args.steps context src dst, step.Sized := by
  unfold steps
  simp only [List.forall_mem_append]
  refine ⟨⟨⟨⟨sized_setTypeSteps, sized_setTypeSteps⟩, sized_transferSteps fun _ => rfl⟩, ?_⟩,
    sized_transferSteps fun _ => rfl⟩
  refine List.forall_mem_singleton.2 fun e he => ?_
  cases he
  exact dmaLen_virglBlit _ _ _ _ _

theorem covered_setTypeSteps {steps : List PresentStep} (hcovered : Covered steps)
    (hlen : virglSetTypeDmaLen ≤ totalLen steps) :
    Covered (setTypeSteps context a info ++ steps) := by
  unfold setTypeSteps
  split_ifs with hblob
  · exact ⟨fun _ => hlen, hcovered⟩
  · exact hcovered

theorem covered_transferSteps {work : CommandTransfer → Work3D} {r cover : Rect}
    {steps : List PresentStep} (hcovered : Covered steps) :
    Covered (transferSteps context a work r cover ++ steps) := by
  unfold transferSteps
  split_ifs with htransfer
  · exact ⟨fun h => absurd h (Option.some_ne_none _), hcovered⟩
  · exact hcovered

theorem length_dstSubrects (args : PresentArgs) : 1 ≤ args.dstSubrects.length := by
  unfold dstSubrects
  split_ifs with hlen
  · exact hlen
  · exact le_rfl

/-- The copy is longer than a type, so the room for a type that is not set is there if the rest
fits. -/
theorem virglSetTypeDmaLen_le (steps : List PresentStep) :
    virglSetTypeDmaLen ≤ totalLen (args.blitStep context src dst :: steps) := by
  have := args.length_dstSubrects
  rw [totalLen_cons_some rfl, dmaLen_virglBlit]
  simp only [virglSetTypeDmaLen, virglBlitDmaLen, virglResourceSetTypeSize,
    virglResourceCopyRegionSize]
  omega

theorem covered_steps : Covered (args.steps context src dst) := by
  have hlast : Covered (transferSteps context dst .transferFromHost args.coverRect
      args.coverRect ++ []) := covered_transferSteps trivial
  rw [List.append_nil] at hlast
  have hcopy : Covered (args.blitStep context src dst ::
      transferSteps context dst .transferFromHost args.coverRect args.coverRect) :=
    ⟨fun h => absurd h (Option.some_ne_none _), hlast⟩
  unfold steps
  simp only [List.append_assoc, List.singleton_append]
  refine covered_setTypeSteps (covered_setTypeSteps (covered_transferSteps hcopy) ?_) ?_
  · rw [totalLen_append]
    exact (virglSetTypeDmaLen_le _).trans (Nat.le_add_left _ _)
  · rw [totalLen_append, totalLen_append]
    exact (virglSetTypeDmaLen_le _).trans ((Nat.le_add_left _ _).trans (Nat.le_add_left _ _))

section Encode

variable (args : PresentArgs) (fence : FenceTracker) (requests : List ℕ) (context : ℕ)
  (src dst : PresentAlloc)

theorem encode_frame : (args.encode fence requests context src dst).requests = requests ∧
    (args.encode fence requests context src dst).writer =
      (encodeSteps (args.steps context src dst) (args.emptyWriter fence)).2 := by
  unfold encode
  generalize encodeSteps (args.steps context src dst) (args.emptyWriter fence) = r
  obtain ⟨r, w⟩ := r
  cases r with
  | error => exact ⟨rfl, rfl⟩
  | ok =>
    dsimp only
    split_ifs <;> exact ⟨rfl, rfl⟩

theorem result_encode : (args.encode fence requests context src dst).result =
    if args.dma.len < totalLen (args.steps context src dst) ∨
        args.privateDataSize < commandDmaPrivateSize then
      .error (.status .graphicsInsufficientDmaBuffer)
    else if !args.hasPrivateData then .error (.status .invalidParameter)
    else .ok (some ⟨((args.emptyWriter fence).addAll
      (elementsOf (args.steps context src dst))).commands, [src.handle, dst.handle]⟩) := by
  have hsized := args.sized_steps context src dst
  unfold encode
  by_cases hroom : args.dma.len < totalLen (args.steps context src dst)
  · have herr := encodeSteps_of_no_room (w := args.emptyWriter fence) hsized (Nat.zero_le _)
      (by simpa [emptyWriter] using hroom)
    generalize encodeSteps (args.steps context src dst) (args.emptyWriter fence) = r at herr
    obtain ⟨r, w⟩ := r
    cases herr
    rw [if_pos (.inl hroom)]
  · rw [encodeSteps_of_room (w := args.emptyWriter fence) hsized covered_steps
      (by simpa [emptyWriter] using hroom)]
    simp only [hroom, false_or]
    split_ifs <;> rfl

end Encode

/-- The device has a context for the blit, both allocations are there and attached to it. -/
structure WellFormed (args : PresentArgs) (context : ℕ) (src dst : PresentAlloc) : Prop where
  srcAlive : args.src = .alive src
  dstAlive : args.dst = .alive dst
  blt : args.blt = true
  dma : args.dmaNull = false
  hasContext : args.contextVirgl = some context
  srcAttached : src.virgl.result = .ok ()
  dstAttached : dst.virgl.result = .ok ()

theorem check_of_wellFormed (h : args.WellFormed context src dst) :
    args.check = if args.patchSlots < 2 then .error (.error .graphicsInsufficientDmaBuffer)
      else .ok (context, src, dst) := by
  unfold check
  simp only [h.srcAlive, h.dstAlive, h.blt, h.dma, h.hasContext]
  rfl

theorem present_of_wellFormed (fence : FenceTracker) (h : args.WellFormed context src dst) :
    (args.patchSlots < 2 ∧
      (args.present fence).result = .error (.status .graphicsInsufficientDmaBuffer)) ∨
    (2 ≤ args.patchSlots ∧ ∃ t requests,
      args.present fence = args.encode t requests context src dst) := by
  unfold present
  rw [check_of_wellFormed h]
  rcases Nat.lt_or_ge args.patchSlots 2 with hslots | hslots
  · rw [if_pos hslots]
    exact .inl ⟨hslots, rfl⟩
  · rw [if_neg (not_lt.2 hslots)]
    refine .inr ⟨hslots, dst.virgl.tracker (src.virgl.tracker fence),
      src.virgl.requests fence ++ dst.virgl.requests (src.virgl.tracker fence), ?_⟩
    simp only [attachAndEncode, h.srcAttached, h.dstAttached]

end PresentArgs

/-- A copy of a rectangle between two textures, with a DMA buffer that is just large enough. -/
def smallBlit : PresentArgs where
  src := .alive ⟨1, 5, .texture false, .attached⟩
  dst := .alive ⟨2, 6, .texture false, .attached⟩
  blt := true
  dmaNull := false
  dma := ⟨0x1000, 88⟩
  patchSlots := 2
  srcRect := ⟨0, 0, 8, 8⟩
  dstRect := ⟨0, 0, 8, 8⟩
  subRects := []
  contextVirgl := some 2
  hasPrivateData := true
  privateDataSize := commandDmaPrivateSize

end VirtioGpu
