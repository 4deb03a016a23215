import VirtioGpu.Data.Fields
import VirtioGpu.Device.Present
import Mathlib.Order.Interval.Basic

/-!
# What a present blit copies

`Device::present` is told a source and a destination rectangle and a list of rectangles of the
destination to update; the part of the source that belongs to a rectangle is found by moving it.
The commands are read here the way the host reads them: a `SUBMIT_3D` for the blit is a header and
an array of copy regions, a transfer has a box, and the type of a blob is a record of its own.

A rectangle of pixels is a pair of intervals (`box`), ordered by inclusion, so the smallest
rectangle around others is their least upper bound.

* `present_blit` : the regions, the boxes of the two transfers and the places of all commands, for
  every list of rectangles.
* `setTypes_iff` : the types that are set are those of the blobs they are set for exactly if the
  destination is no blob or has the type of the source.
* `foreign_type` : a blit between two blobs with different types.
-/

namespace VirtioGpu

/-! ### Reading the commands -/

/-- A rectangle of pixels. -/
abbrev Box := NonemptyInterval ℤ × NonemptyInterval ℤ

/-- The rectangle of the given size at a point. -/
def box (origin : ℤ × ℤ) (size : ℕ × ℕ) : Box :=
  (⟨(origin.1, origin.1 + size.1), Int.le_add_of_nonneg_right (Int.natCast_nonneg _)⟩,
    ⟨(origin.2, origin.2 + size.2), Int.le_add_of_nonneg_right (Int.natCast_nonneg _)⟩)

/-- `VirglResourceCopyRegion`, by the names its words are printed with. -/
structure CopyRegion where
  header : ℕ
  dstId : ℕ
  dst : ℕ × ℕ
  srcId : ℕ
  src : ℕ × ℕ
  size : ℕ × ℕ

namespace CopyRegion

/-- The pixels that are read. -/
def srcBox (r : CopyRegion) : Box := box (r.src.1, r.src.2) r.size

/-- The pixels that are written. -/
def dstBox (r : CopyRegion) : Box := box (r.dst.1, r.dst.2) r.size

end CopyRegion

/-- The copy regions after a `gpu::CmdSubmit3D`. -/
def copyRegions (bytes : List UInt8) : List CopyRegion :=
  (List.range (numberAt bytes 24 4 / virglResourceCopyRegionSize)).map fun i =>
    let word k := numberAt bytes (cmdSubmit3DSize + (i * virglResourceCopyRegionSize + k * 4)) 4
    ⟨word 0, word 1, (word 3, word 4), word 6, (word 8, word 9), (word 11, word 12)⟩

/-- The box of a `gpu::CmdTransferHost3D`. -/
def transferBox (bytes : List UInt8) : Box :=
  box (numberAt bytes 24 4, numberAt bytes 28 4) (numberAt bytes 36 4, numberAt bytes 40 4)

/-- The resource of a `gpu::CmdTransferHost3D`. -/
def transferResource (bytes : List UInt8) : ℕ := numberAt bytes 56 4

/-- A word of the data after a `gpu::CmdSubmit3D`. -/
def submitWord (bytes : List UInt8) (k : ℕ) : ℕ := numberAt bytes (cmdSubmit3DSize + k * 4) 4

/-- The resource and the type of a `VirglResourceSetType` after a `gpu::CmdSubmit3D`. -/
def setTypeOf (bytes : List UInt8) : Option (UInt32 × BlobInfo) :=
  -- `VIRGL_CCMD_PIPE_RESOURCE_SET_TYPE` with 10 words
  if numberAt bytes 0 4 = cmdSubmit3D ∧ submitWord bytes 0 = 49 + 10 * 2 ^ 16 then
    some (.ofNat (submitWord bytes 1), {
      format := .ofNat (submitWord bytes 2)
      bind := .ofNat (submitWord bytes 3)
      width := .ofNat (submitWord bytes 4)
      height := .ofNat (submitWord bytes 5)
      modifier := .ofNat (submitWord bytes 7 + 2 ^ 32 * submitWord bytes 8)
      stride := .ofNat (submitWord bytes 9)
      offset := .ofNat (submitWord bytes 10) })
  else none

/-! ### The rectangles -/

namespace Rect

/-- Left is left of right and top above bottom, and no coordinate is negative. -/
structure WellFormed (r : Rect) : Prop where
  left : 0 ≤ r.left.toInt
  top : 0 ≤ r.top.toInt
  width : r.left.toInt ≤ r.right.toInt
  height : r.top.toInt ≤ r.bottom.toInt

/-- The coordinates of the moved rectangle are coordinates. -/
structure Moved (r : Rect) (d : ℤ × ℤ) : Prop where
  left : 0 ≤ r.left.toInt + d.1
  top : 0 ≤ r.top.toInt + d.2
  right : r.right.toInt + d.1 < 2 ^ 31
  bottom : r.bottom.toInt + d.2 < 2 ^ 31

/-- The rectangle moved by `d`, as a rectangle of pixels. -/
def boxAt (r : Rect) (d : ℤ × ℤ) : Box :=
  box (r.left.toInt + d.1, r.top.toInt + d.2)
    ((r.right.toInt - r.left.toInt).toNat, (r.bottom.toInt - r.top.toInt).toNat)

/-- Every coordinate of `c` is the outermost one in the list. -/
structure Covers (c : Rect) (rs : List Rect) : Prop where
  left : IsLeast {x | ∃ r ∈ rs, r.left.toInt = x} c.left.toInt
  top : IsLeast {x | ∃ r ∈ rs, r.top.toInt = x} c.top.toInt
  right : IsGreatest {x | ∃ r ∈ rs, r.right.toInt = x} c.right.toInt
  bottom : IsGreatest {x | ∃ r ∈ rs, r.bottom.toInt = x} c.bottom.toInt

end Rect

namespace PresentArgs

/-- The offset from the destination to the source. -/
def offset (args : PresentArgs) : ℤ × ℤ :=
  (args.srcRect.left.toInt - args.dstRect.left.toInt,
    args.srcRect.top.toInt - args.dstRect.top.toInt)

/-- All coordinates are coordinates: those of the rectangles, and those of the parts of the source
they belong to. -/
structure InRange (args : PresentArgs) : Prop where
  srcLeft : 0 ≤ args.srcRect.left.toInt
  srcTop : 0 ≤ args.srcRect.top.toInt
  dstLeft : 0 ≤ args.dstRect.left.toInt
  dstTop : 0 ≤ args.dstRect.top.toInt
  rects : ∀ r ∈ args.dstSubrects, r.WellFormed ∧ r.Moved args.offset

/-- The arguments are well formed, and there is room for the commands and their private data. -/
structure Ready (args : PresentArgs) (context : ℕ) (src dst : PresentAlloc) : Prop extends
    args.WellFormed context src dst where
  patchSlots : 2 ≤ args.patchSlots
  room : totalLen (args.steps context src dst) ≤ args.dma.len
  /-- `DmaSize` is a `UINT`. -/
  dmaSize : args.dma.len < 2 ^ 32
  privateData : args.hasPrivateData = true
  privateRoom : commandDmaPrivateSize ≤ args.privateDataSize

/-- The region copies the part of the source that belongs to the rectangle. -/
structure Copies (args : PresentArgs) (src dst : PresentAlloc) (rect : Rect) (r : CopyRegion) :
    Prop where
  /-- `VIRGL_CCMD_RESOURCE_COPY_REGION` with 13 words. -/
  header : r.header = 17 + 13 * 2 ^ 16
  dstId : r.dstId = dst.id.toNat
  srcId : r.srcId = src.id.toNat
  dst : ((r.dst.1 : ℤ), (r.dst.2 : ℤ)) = (rect.left.toInt, rect.top.toInt)
  src : ((r.src.1 : ℤ), (r.src.2 : ℤ)) =
    (rect.left.toInt + args.offset.1, rect.top.toInt + args.offset.2)
  size : ((r.size.1 : ℤ), (r.size.2 : ℤ)) =
    (rect.right.toInt - rect.left.toInt, rect.bottom.toInt - rect.top.toInt)

/-- There is one transfer of the resource, of the smallest rectangle around `boxes`, if the
allocation needs it. -/
structure Transfers (a : PresentAlloc) (id : CommandId) (boxes : Set Box) (es : List Element) :
    Prop where
  unneeded : a.needsTransfer = false → es = []
  needed : a.needsTransfer = true → ∃ e, es = [e] ∧ e.id = id ∧
    ∀ t, transferResource (e.wire t).1 = a.id.toNat ∧ IsLUB boxes (transferBox (e.wire t).1)

/-- The commands of a blit, after those that set types. -/
structure Blits (args : PresentArgs) (src dst : PresentAlloc) (toHost : List Element)
    (copy : Element) (fromHost : List Element) : Prop where
  copyId : copy.id = .submit
  /-- One region per rectangle, in order. -/
  copies : ∀ t, List.Forall₂ (args.Copies src dst) args.dstSubrects (copyRegions (copy.wire t).1)
  toHost : ∀ t, Transfers src .transferToHost
    {b | ∃ r ∈ copyRegions (copy.wire t).1, r.srcBox = b} toHost
  fromHost : ∀ t, Transfers dst .transferFromHost
    {b | ∃ r ∈ copyRegions (copy.wire t).1, r.dstBox = b} fromHost

end PresentArgs

/-! ### How far `pDmaBuffer` is moved -/

/-- How far the steps move `pDmaBuffer`: over what is written, or over the command that has no room
as well. -/
def advanceSteps : List PresentStep → DmaWriter → ℕ
  | [], w => w.offset
  | step :: steps, w =>
    if w.dma.len - w.offset < step.needed then w.offset + step.needed
    else match step.element with
      | none => advanceSteps steps w
      | some e =>
        match w.push e.id e.ring (e.wire w.fence).1 (e.wire w.fence).2 with
        | .ok w' => advanceSteps steps w'
        | .error _ => 0

/-- How far `present` moves `pDmaBuffer`. -/
def PresentArgs.advance (args : PresentArgs) (fence : FenceTracker) : ℕ :=
  match args.check with
  | .ok (context, src, dst) =>
    match src.virgl.result, dst.virgl.result with
    | .ok (), .ok () => advanceSteps (args.steps context src dst)
        (args.emptyWriter (dst.virgl.tracker (src.virgl.tracker fence)))
    | _, _ => 0
  | .error _ => 0

section Steps

variable {steps : List PresentStep} {w w' : DmaWriter}

theorem encodeSteps_of_ok (hsized : ∀ step ∈ steps, step.Sized)
    (h : encodeSteps steps w = (.ok (), w')) :
    w' = w.addAll (elementsOf steps) ∧ advanceSteps steps w = w'.offset := by
  induction steps generalizing w with
  | nil =>
    cases h
    exact ⟨(DmaWriter.addAll_nil _).symm, rfl⟩
  | cons step steps ih =>
    have htail : ∀ s ∈ steps, s.Sized := fun s hs => hsized s (List.mem_cons_of_mem step hs)
    rw [encodeSteps] at h
    rw [advanceSteps]
    split_ifs at h with hoffset hroom
    · cases h
    · cases h
    · rw [if_neg hroom]
      cases he : step.element with
      | none =>
        rw [he] at h
        rw [elementsOf_cons_none he]
        exact ih htail h
      | some e =>
        have hfit : w.offset + e.dmaLen ≤ w.dma.len := by
          rw [hsized step List.mem_cons_self e he]
          omega
        rw [he] at h
        simp only [DmaWriter.push_element e hfit] at h ⊢
        obtain ⟨hwritten, hadvance⟩ := ih htail h
        refine ⟨?_, hadvance⟩
        rw [hwritten, elementsOf_cons_some he, ← DmaWriter.addAll_append]
        rfl

end Steps

/-! ### Coordinates -/

section Coordinates

theorem toNat_toUInt32 {x : Int32} (h : 0 ≤ x.toInt) : (x.toUInt32.toNat : ℤ) = x.toInt := by
  have hx : x.toInt = (x.toUInt32.toNat : ℤ).bmod (2 ^ 32) :=
    BitVec.toInt_eq_toNat_bmod x.toUInt32.toBitVec
  have hlt := x.toUInt32.toNat_lt
  rw [hx, Int.bmod_def] at h ⊢
  omega

theorem toInt_add_of_range {x y : Int32} (h : 0 ≤ x.toInt + y.toInt)
    (h' : x.toInt + y.toInt < 2 ^ 31) : (x + y).toInt = x.toInt + y.toInt := by
  rw [Int32.toInt_add, Int.bmod_def]
  omega

theorem toInt_sub_of_nonneg {x y : Int32} (hx : 0 ≤ x.toInt) (hy : 0 ≤ y.toInt) :
    (x - y).toInt = x.toInt - y.toInt := by
  have hx' := x.toInt_lt
  have hy' := y.toInt_lt
  rw [Int32.toInt_sub, Int.bmod_def]
  omega

theorem toInt_min (x y : Int32) : (min x y).toInt = min x.toInt y.toInt := by
  change (if x ≤ y then x else y).toInt = _
  by_cases h : x ≤ y
  · rw [if_pos h, min_eq_left (Int32.le_iff_toInt_le.1 h)]
  · rw [if_neg h, min_eq_right (not_le.1 (mt Int32.le_iff_toInt_le.2 h)).le]

theorem toInt_max (x y : Int32) : (max x y).toInt = max x.toInt y.toInt := by
  change (if x ≤ y then y else x).toInt = _
  by_cases h : x ≤ y
  · rw [if_pos h, max_eq_right (Int32.le_iff_toInt_le.1 h)]
  · rw [if_neg h, max_eq_left (not_le.1 (mt Int32.le_iff_toInt_le.2 h)).le]

end Coordinates

/-! ### The cover -/

namespace Rect

variable {c r : Rect} {rs rs' : List Rect} {d : ℤ × ℤ}

theorem covers_singleton (r : Rect) : r.Covers [r] := by
  constructor <;> simp

theorem Covers.congr (h : c.Covers rs) (hmem : ∀ r, r ∈ rs ↔ r ∈ rs') : c.Covers rs' := by
  obtain ⟨hleft, htop, hright, hbottom⟩ := h
  simp only [hmem] at hleft htop hright hbottom
  exact ⟨hleft, htop, hright, hbottom⟩

theorem Covers.union (h : c.Covers rs) (r : Rect) : (c.union r).Covers (rs ++ [r]) := by
  have hinsert : ∀ f : Rect → ℤ, {x | ∃ r' ∈ rs ++ [r], f r' = x} =
      insert (f r) {x | ∃ r' ∈ rs, f r' = x} := by
    intro f
    ext x
    simp only [List.mem_append, List.mem_singleton, Set.mem_ofPred_eq, Set.mem_insert_iff]
    constructor
    · rintro ⟨r', hr' | rfl, rfl⟩
      · exact .inr ⟨r', hr', rfl⟩
      · exact .inl rfl
    · rintro (rfl | ⟨r', hr', rfl⟩)
      · exact ⟨r, .inr rfl, rfl⟩
      · exact ⟨r', .inl hr', rfl⟩
  constructor
  · rw [hinsert, Rect.union, toInt_min, min_comm]
    exact h.left.insert _
  · rw [hinsert, Rect.union, toInt_min, min_comm]
    exact h.top.insert _
  · rw [hinsert, Rect.union, toInt_max, max_comm]
    exact h.right.insert _
  · rw [hinsert, Rect.union, toInt_max, max_comm]
    exact h.bottom.insert _

theorem Covers.foldl (h : c.Covers rs) (rs' : List Rect) :
    (rs'.foldl Rect.union c).Covers (rs ++ rs') := by
  induction rs' generalizing c rs with
  | nil => rwa [List.append_nil]
  | cons r rs' ih =>
    have hfold := ih (h.union r)
    rwa [List.append_assoc] at hfold

theorem Covers.wellFormed (h : c.Covers rs) (hrs : ∀ r ∈ rs, r.WellFormed) : c.WellFormed := by
  obtain ⟨r, hr, hleft⟩ := h.left.1
  obtain ⟨r', hr', htop⟩ := h.top.1
  have hright := h.right.2 ⟨r, hr, rfl⟩
  have hbottom := h.bottom.2 ⟨r', hr', rfl⟩
  have hwf := hrs r hr
  have hwf' := hrs r' hr'
  exact ⟨hleft ▸ hwf.left, htop ▸ hwf'.top, hleft ▸ hwf.width.trans hright,
    htop ▸ hwf'.height.trans hbottom⟩

theorem Covers.moved (h : c.Covers rs) (hrs : ∀ r ∈ rs, r.Moved d) : c.Moved d := by
  obtain ⟨r₁, hr₁, hleft⟩ := h.left.1
  obtain ⟨r₂, hr₂, htop⟩ := h.top.1
  obtain ⟨r₃, hr₃, hright⟩ := h.right.1
  obtain ⟨r₄, hr₄, hbottom⟩ := h.bottom.1
  exact ⟨hleft ▸ (hrs r₁ hr₁).left, htop ▸ (hrs r₂ hr₂).top, hright ▸ (hrs r₃ hr₃).right,
    hbottom ▸ (hrs r₄ hr₄).bottom⟩

theorem boxAt_le_iff (h : r.WellFormed) {b : Box} :
    r.boxAt d ≤ b ↔ (b.1.fst ≤ r.left.toInt + d.1 ∧ r.right.toInt + d.1 ≤ b.1.snd) ∧
      (b.2.fst ≤ r.top.toInt + d.2 ∧ r.bottom.toInt + d.2 ≤ b.2.snd) := by
  have hwidth := h.width
  have hheight := h.height
  have hright : r.left.toInt + d.1 + ((r.right.toInt - r.left.toInt).toNat : ℤ) =
      r.right.toInt + d.1 := by omega
  have hbottom : r.top.toInt + d.2 + ((r.bottom.toInt - r.top.toInt).toNat : ℤ) =
      r.bottom.toInt + d.2 := by omega
  rw [Prod.le_def, NonemptyInterval.le_def, NonemptyInterval.le_def]
  simp only [boxAt, box, hright, hbottom]

/-- The rectangle with the outermost coordinates is the smallest one around the others. -/
theorem Covers.isLUB (h : c.Covers rs) (hrs : ∀ r ∈ rs, r.WellFormed) (d : ℤ × ℤ) :
    IsLUB {b | ∃ r ∈ rs, r.boxAt d = b} (c.boxAt d) := by
  have hc := h.wellFormed hrs
  constructor
  · rintro _ ⟨r, hr, rfl⟩
    have hleft := h.left.2 ⟨r, hr, rfl⟩
    have htop := h.top.2 ⟨r, hr, rfl⟩
    have hright := h.right.2 ⟨r, hr, rfl⟩
    have hbottom := h.bottom.2 ⟨r, hr, rfl⟩
    obtain ⟨⟨hl, hw⟩, ht, hh⟩ := (boxAt_le_iff (d := d) hc).1 le_rfl
    rw [boxAt_le_iff (hrs r hr)]
    omega
  · intro b hb
    have hle : ∀ r ∈ rs, _ := fun r hr => (boxAt_le_iff (hrs r hr)).1 (hb ⟨r, hr, rfl⟩)
    obtain ⟨r₁, hr₁, hleft⟩ := h.left.1
    obtain ⟨r₂, hr₂, htop⟩ := h.top.1
    obtain ⟨r₃, hr₃, hright⟩ := h.right.1
    obtain ⟨r₄, hr₄, hbottom⟩ := h.bottom.1
    rw [boxAt_le_iff hc, ← hleft, ← htop, ← hright, ← hbottom]
    exact ⟨⟨(hle r₁ hr₁).1.1, (hle r₃ hr₃).1.2⟩, (hle r₂ hr₂).2.1, (hle r₄ hr₄).2.2⟩

end Rect

/-! ### What the host reads -/

section Decode

variable {l m : List UInt8} {start k : ℕ} {ws : List UInt32} {w : UInt32}

theorem numberAt_wordBytes (hoff : l.length = start) (hw : ws[k]? = some w) (m : List UInt8) :
    numberAt (l ++ (wordBytes ws ++ m)) (start + k * 4) 4 = w.toNat := by
  have hlen : ∀ x : UInt32, (bytes32 x).length = 4 := fun x => length_leBytes 4 _
  have hword : numberAt (l ++ (wordBytes ws ++ m)) (start + (k * 4 + 0)) 4 =
      numberAt (bytes32 w) 0 4 := numberAt_record hlen hoff hw le_rfl m
  have hfield : numberAt ([] ++ (bytes32 w ++ [])) 0 4 = w.toNat :=
    numberAt_field rfl w.toNat_lt []
  rw [List.nil_append, List.append_nil] at hfield
  exact hword.trans hfield

theorem numberAt_newHeader (t : FenceTracker) {hdrType : ℕ} (htype : hdrType < 2 ^ 32)
    (fence : Bool) (context ring : Option ℕ) (rest : List UInt8) :
    numberAt ((newHeader t hdrType fence context ring).1 ++ rest) 0 4 = hdrType := by
  simp only [newHeader, List.append_assoc]
  exact numberAt_field List.length_nil htype _

theorem wire_submit (context : ℕ) {data : List UInt8} (hlen : data.length < 2 ^ 32)
    (t : FenceTracker) : ∃ header : List UInt8, header.length = cmdSubmit3DSize ∧
      (∀ rest, numberAt (header ++ rest) 0 4 = cmdSubmit3D) ∧
      (∀ rest, numberAt (header ++ rest) 24 4 = data.length) ∧
      ((Element.mk context none (.submit data)).wire t).1 = header ++ (data ++ []) := by
  refine ⟨_, length_submit3DHeader t (some context) none data.length, fun rest => ?_,
    fun rest => ?_, by rw [List.append_nil]; rfl⟩
  · rw [submit3DHeader, List.append_assoc, List.append_assoc]
    exact numberAt_newHeader t (by decide) _ _ _ _
  · rw [submit3DHeader, List.append_assoc, List.append_assoc]
    exact numberAt_field (DmaWriter.length_newHeader _ _ _ _ _) hlen _

end Decode

/-- The region for a rectangle. -/
def Rect.region (src dst : UInt32) (delta : Int32 × Int32) (r : Rect) : CopyRegion where
  header := 0x000D0011
  dstId := dst.toNat
  dst := (r.topLeft.1.toNat, r.topLeft.2.toNat)
  srcId := src.toNat
  src := ((r.shift delta).topLeft.1.toNat, (r.shift delta).topLeft.2.toNat)
  size := (r.dimensions.1.toNat, r.dimensions.2.toNat)

theorem copyRegions_virglBlit (context : ℕ) (src dst : UInt32) (delta : Int32 × Int32)
    {rects : List Rect} (hlen : virglBlitDmaLen rects < 2 ^ 32) (t : FenceTracker) :
    copyRegions ((virglBlit context src dst delta rects).wire t).1 =
      rects.map (Rect.region src dst delta) := by
  set record : Rect → List UInt8 := fun rect =>
    wordBytes (virglResourceCopyRegion dst rect.topLeft src (rect.shift delta).topLeft
      rect.dimensions) with hrecord
  have hsize : ∀ rect, (record rect).length = virglResourceCopyRegionSize := fun rect => by
    rw [hrecord, length_wordBytes]
    rfl
  have hdata := length_flatMap_const hsize rects
  have hfit : (rects.flatMap record).length < 2 ^ 32 := by
    rw [virglBlitDmaLen, Nat.mul_comm] at hlen
    omega
  obtain ⟨header, hheader, -, hcount, hbytes⟩ := wire_submit context hfit t
  have hregions : (rects.length * virglResourceCopyRegionSize) / virglResourceCopyRegionSize =
      rects.length := Nat.mul_div_cancel _ (by decide)
  rw [virglBlit, hbytes, copyRegions, hcount, hdata, hregions]
  refine List.ext_getElem (by simp) fun i hi hi' => ?_
  rw [List.getElem_map, List.getElem_map, List.getElem_range]
  rw [List.length_map] at hi'
  have hrect : rects[i]? = some rects[i] := List.getElem?_eq_getElem hi'
  have hword : ∀ k w, k * 4 + 4 ≤ virglResourceCopyRegionSize →
      (virglResourceCopyRegion dst rects[i].topLeft src (rects[i].shift delta).topLeft
        rects[i].dimensions)[k]? = some w →
      numberAt (header ++ (rects.flatMap record ++ []))
        (cmdSubmit3DSize + (i * virglResourceCopyRegionSize + k * 4)) 4 = w.toNat := by
    intro k w hk hw
    have hread := numberAt_wordBytes List.length_nil hw []
    rw [List.nil_append, List.append_nil, Nat.zero_add] at hread
    rw [numberAt_record hsize hheader hrect hk, ← hread]
  simp only [hword 0 _ (by decide) rfl, hword 1 _ (by decide) rfl, hword 3 _ (by decide) rfl,
    hword 4 _ (by decide) rfl, hword 6 _ (by decide) rfl, hword 8 _ (by decide) rfl,
    hword 9 _ (by decide) rfl, hword 11 _ (by decide) rfl, hword 12 _ (by decide) rfl]
  rfl

theorem setTypeOf_virglSetType (context : ℕ) (id : UInt32) (info : BlobInfo) (t : FenceTracker) :
    setTypeOf ((virglSetType context id info).wire t).1 = some (id, info) := by
  have hlen : (wordBytes (virglResourceSetType id info)).length < 2 ^ 32 := by
    rw [length_wordBytes]
    change 4 * 11 < 2 ^ 32
    decide
  obtain ⟨header, hheader, htype, -, hbytes⟩ := wire_submit context hlen t
  have hword : ∀ {k w}, (virglResourceSetType id info)[k]? = some w →
      submitWord (header ++ (wordBytes (virglResourceSetType id info) ++ [])) k = w.toNat :=
    fun hw => numberAt_wordBytes hheader hw []
  have hmodifier : info.modifier.toUInt32.toNat + 2 ^ 32 * (info.modifier >>> 32).toUInt32.toNat =
      info.modifier.toNat := by
    have hlt := info.modifier.toNat_lt
    rw [UInt64.toNat_toUInt32, UInt64.toNat_toUInt32, UInt64.toNat_shiftRight]
    change _ + 2 ^ 32 * (info.modifier.toNat >>> 32 % 2 ^ 32) = _
    rw [Nat.shiftRight_eq_div_pow]
    omega
  have hsubmit : numberAt (header ++ (wordBytes (virglResourceSetType id info) ++ [])) 0 4 =
      cmdSubmit3D ∧ submitWord (header ++ (wordBytes (virglResourceSetType id info) ++ [])) 0 =
        49 + 10 * 2 ^ 16 := ⟨htype _, hword (k := 0) rfl⟩
  rw [virglSetType, hbytes, setTypeOf, if_pos hsubmit, hword (k := 1) rfl,
    hword (k := 2) rfl, hword (k := 3) rfl, hword (k := 4) rfl, hword (k := 5) rfl,
    hword (k := 7) rfl, hword (k := 8) rfl, hword (k := 9) rfl, hword (k := 10) rfl, hmodifier]
  simp only [UInt32.ofNat_toNat, UInt64.ofNat_toNat]

theorem setTypeOf_virglBlit (context : ℕ) (src dst : UInt32) (delta : Int32 × Int32)
    {rects : List Rect} (hrects : 1 ≤ rects.length) (t : FenceTracker) :
    setTypeOf ((virglBlit context src dst delta rects).wire t).1 = none := by
  obtain ⟨r, rs, rfl⟩ := List.exists_cons_of_length_pos hrects
  have hword : submitWord ((virglBlit context src dst delta (r :: rs)).wire t).1 0 =
      0x000D0011 := by
    rw [submitWord, virglBlit, Element.wire, List.flatMap_cons]
    exact numberAt_wordBytes (k := 0) (w := 0x000D0011) (length_submit3DHeader _ _ _ _) rfl _
  rw [setTypeOf, hword, if_neg]
  rintro ⟨-, h⟩
  exact absurd h (by decide)

theorem setTypeOf_newHeader (t : FenceTracker) {hdrType : ℕ} (htype : hdrType < 2 ^ 32)
    (hne : hdrType ≠ cmdSubmit3D) (context : ℕ) (rest : List UInt8) :
    setTypeOf ((newHeader t hdrType true (some context) none).1 ++ rest) = none := by
  refine if_neg fun h => hne ?_
  rw [← h.1, numberAt_newHeader t htype]

theorem transfer_rectTransfer (header : List UInt8) (hheader : header.length = ctrlHeaderSize)
    (id : UInt32) (topLeft dim : UInt32 × UInt32) :
    transferResource (header ++ Element.transferFields (rectTransfer id topLeft dim)) = id.toNat ∧
      transferBox (header ++ Element.transferFields (rectTransfer id topLeft dim)) =
        box (topLeft.1.toNat, topLeft.2.toNat) (dim.1.toNat, dim.2.toNat) := by
  have hbox : ∀ b : Box3D, b.bytes =
      wordBytes [b.x, b.y, b.z, b.width, b.height, b.depth] := fun b => by
    simp [Box3D.bytes, wordBytes]
  rw [Element.transferFields, hbox]
  simp only [List.append_assoc]
  constructor
  · rw [← List.append_assoc, ← List.append_assoc]
    refine numberAt_field ?_ id.toNat_lt _
    simp [hheader, length_wordBytes, ctrlHeaderSize]
  · generalize leBytes 8 (rectTransfer id topLeft dim).offset.toNat ++ _ = rest
    have hword : ∀ {k w}, [topLeft.1, topLeft.2, 0, dim.1, dim.2, 1][k]? = some w →
        numberAt (header ++ (wordBytes [topLeft.1, topLeft.2, 0, dim.1, dim.2, 1] ++ rest))
          (ctrlHeaderSize + k * 4) 4 = w.toNat :=
      fun hw => numberAt_wordBytes hheader hw rest
    have hx := hword (k := 0) rfl
    have hy := hword (k := 1) rfl
    have hwidth := hword (k := 3) rfl
    have hheight := hword (k := 4) rfl
    exact congrArg₂ box (congrArg₂ Prod.mk (congrArg Nat.cast hx) (congrArg Nat.cast hy))
      (congrArg₂ Prod.mk hwidth hheight)

/-! ### The regions are the rectangles -/

section Region

variable {c r : Rect} {rs : List Rect} {d : ℤ × ℤ} {src dst : UInt32} {delta : Int32 × Int32}

namespace Rect

section

variable (h : r.WellFormed)
include h

theorem dst_region :
    (((r.region src dst delta).dst.1 : ℤ), ((r.region src dst delta).dst.2 : ℤ)) =
      (r.left.toInt, r.top.toInt) :=
  congrArg₂ Prod.mk (toNat_toUInt32 h.left) (toNat_toUInt32 h.top)

theorem src_region (hm : r.Moved d) (hdelta : (delta.1.toInt, delta.2.toInt) = d) :
    (((r.region src dst delta).src.1 : ℤ), ((r.region src dst delta).src.2 : ℤ)) =
      (r.left.toInt + d.1, r.top.toInt + d.2) := by
  subst hdelta
  have hleft : (r.left + delta.1).toInt = r.left.toInt + delta.1.toInt :=
    toInt_add_of_range hm.left (lt_of_le_of_lt (Int.add_le_add_right h.width _) hm.right)
  have htop : (r.top + delta.2).toInt = r.top.toInt + delta.2.toInt :=
    toInt_add_of_range hm.top (lt_of_le_of_lt (Int.add_le_add_right h.height _) hm.bottom)
  refine congrArg₂ Prod.mk ?_ ?_
  · rw [← hleft]
    exact toNat_toUInt32 (hleft ▸ hm.left)
  · rw [← htop]
    exact toNat_toUInt32 (htop ▸ hm.top)

theorem size_region :
    (((r.region src dst delta).size.1 : ℤ), ((r.region src dst delta).size.2 : ℤ)) =
      (r.right.toInt - r.left.toInt, r.bottom.toInt - r.top.toInt) := by
  have hwidth := toInt_sub_of_nonneg (h.left.trans h.width) h.left
  have hheight := toInt_sub_of_nonneg (h.top.trans h.height) h.top
  refine congrArg₂ Prod.mk ?_ ?_
  · rw [← hwidth]
    exact toNat_toUInt32 (hwidth ▸ Int.sub_nonneg.2 h.width)
  · rw [← hheight]
    exact toNat_toUInt32 (hheight ▸ Int.sub_nonneg.2 h.height)

theorem size_region_eq : (r.region src dst delta).size =
    ((r.right.toInt - r.left.toInt).toNat, (r.bottom.toInt - r.top.toInt).toNat) := by
  have hsize : (((r.region src dst delta).size.1 : ℤ), ((r.region src dst delta).size.2 : ℤ)) = _ :=
    size_region h
  obtain ⟨hwidth, hheight⟩ := Prod.mk.inj hsize
  rw [← hwidth, ← hheight, Int.toNat_natCast, Int.toNat_natCast]

theorem dstBox_region : (r.region src dst delta).dstBox = r.boxAt (0, 0) := by
  rw [CopyRegion.dstBox, dst_region h, size_region_eq h, boxAt, Int.add_zero, Int.add_zero]

theorem srcBox_region (hm : r.Moved d) (hdelta : (delta.1.toInt, delta.2.toInt) = d) :
    (r.region src dst delta).srcBox = r.boxAt d := by
  rw [CopyRegion.srcBox, src_region h hm hdelta, size_region_eq h, boxAt]

end

theorem Covers.isLUB_region (h : c.Covers rs) (hrs : ∀ r ∈ rs, r.WellFormed)
    (f : CopyRegion → Box) (hc : f (c.region src dst delta) = c.boxAt d)
    (hf : ∀ r ∈ rs, f (r.region src dst delta) = r.boxAt d) :
    IsLUB {b | ∃ r ∈ rs.map (region src dst delta), f r = b} (f (c.region src dst delta)) := by
  have hboxes : {b | ∃ r ∈ rs.map (region src dst delta), f r = b} =
      {b | ∃ r ∈ rs, r.boxAt d = b} := by
    ext b
    simp only [List.mem_map, exists_exists_and_eq_and]
    refine exists_congr fun r => and_congr_right fun hr => ?_
    rw [hf r hr]
  rw [hboxes, hc]
  exact h.isLUB hrs d

end Rect

end Region

namespace PresentArgs

variable {args : PresentArgs} {context : ℕ} {src dst a : PresentAlloc} {fence : FenceTracker}

theorem covers_coverRect (args : PresentArgs) : args.coverRect.Covers args.dstSubrects := by
  obtain ⟨r, rs, hrects⟩ := List.exists_cons_of_length_pos args.length_dstSubrects
  rw [coverRect, hrects, List.headD_cons]
  refine ((Rect.covers_singleton r).foldl (r :: rs)).congr fun r' => ?_
  simp

theorem toInt_delta (h : args.InRange) :
    (args.delta.1.toInt, args.delta.2.toInt) = args.offset :=
  congrArg₂ Prod.mk (toInt_sub_of_nonneg h.srcLeft h.dstLeft)
    (toInt_sub_of_nonneg h.srcTop h.dstTop)

theorem transfers_transferSteps {work : CommandTransfer → Work3D} {id : CommandId} {r cover : Rect}
    {boxes : Set Box} (hid : ∀ transfer, (Element.mk context none (work transfer)).id = id)
    (hwire : ∀ transfer t, ∃ header, header.length = ctrlHeaderSize ∧
      ((Element.mk context none (work transfer)).wire t).1 =
        header ++ Element.transferFields transfer)
    (hboxes : IsLUB boxes (box (r.topLeft.1.toNat, r.topLeft.2.toNat)
      (cover.dimensions.1.toNat, cover.dimensions.2.toNat))) :
    Transfers a id boxes (elementsOf (transferSteps context a work r cover)) := by
  unfold transferSteps
  constructor
  · intro hneeds
    rw [hneeds]
    rfl
  · intro hneeds
    rw [hneeds]
    refine ⟨_, rfl, hid _, fun t => ?_⟩
    obtain ⟨header, hheader, hbytes⟩ := hwire (rectTransfer a.id r.topLeft cover.dimensions) t
    obtain ⟨hresource, hbox⟩ := transfer_rectTransfer header hheader a.id r.topLeft cover.dimensions
    rw [hbytes]
    exact ⟨hresource, hbox ▸ hboxes⟩

theorem blits_steps (h : args.InRange)
    (hlen : virglBlitDmaLen args.dstSubrects < 2 ^ 32) :
    args.Blits src dst
      (elementsOf (transferSteps context src .transferToHost (args.coverRect.shift args.delta)
        args.coverRect))
      (virglBlit context src.id dst.id args.delta args.dstSubrects)
      (elementsOf (transferSteps context dst .transferFromHost args.coverRect args.coverRect)) := by
  have hcover := args.covers_coverRect
  have hwf : ∀ r ∈ args.dstSubrects, r.WellFormed := fun r hr => (h.rects r hr).1
  have hmoved : ∀ r ∈ args.dstSubrects, r.Moved args.offset := fun r hr => (h.rects r hr).2
  have hdelta := toInt_delta h
  refine ⟨rfl, fun t => ?_, fun t => ?_, fun t => ?_⟩
  · rw [copyRegions_virglBlit _ _ _ _ hlen, List.forall₂_map_right_iff, List.forall₂_same]
    exact fun r hr => ⟨rfl, rfl, rfl, Rect.dst_region (hwf r hr),
      Rect.src_region (hwf r hr) (hmoved r hr) hdelta, Rect.size_region (hwf r hr)⟩
  · rw [copyRegions_virglBlit _ _ _ _ hlen]
    refine transfers_transferSteps (fun _ => rfl)
      (fun _ _ => ⟨_, DmaWriter.length_newHeader _ _ _ _ _, rfl⟩) ?_
    exact hcover.isLUB_region hwf CopyRegion.srcBox
      (Rect.srcBox_region (hcover.wellFormed hwf) (hcover.moved hmoved) hdelta)
      (fun r hr => Rect.srcBox_region (hwf r hr) (hmoved r hr) hdelta)
  · rw [copyRegions_virglBlit _ _ _ _ hlen]
    refine transfers_transferSteps (fun _ => rfl)
      (fun _ _ => ⟨_, DmaWriter.length_newHeader _ _ _ _ _, rfl⟩) ?_
    exact hcover.isLUB_region hwf CopyRegion.dstBox
      (Rect.dstBox_region (hcover.wellFormed hwf)) (fun r hr => Rect.dstBox_region (hwf r hr))

/-! ### The whole function -/

theorem elementsOf_append (steps steps' : List PresentStep) :
    elementsOf (steps ++ steps') = elementsOf steps ++ elementsOf steps' := List.filterMap_append

theorem elementsOf_steps (args : PresentArgs) (context : ℕ) (src dst : PresentAlloc) :
    elementsOf (args.steps context src dst) =
      elementsOf (setTypeSteps context src src.blobInfo ++ setTypeSteps context dst src.blobInfo) ++
      elementsOf (transferSteps context src .transferToHost (args.coverRect.shift args.delta)
        args.coverRect) ++
      virglBlit context src.id dst.id args.delta args.dstSubrects ::
      elementsOf (transferSteps context dst .transferFromHost args.coverRect args.coverRect) := by
  simp only [elementsOf, steps, List.filterMap_append, List.append_assoc]
  rfl

theorem isSome_setTypeSteps {info : Option BlobInfo} {e : Element}
    (he : e ∈ elementsOf (setTypeSteps context a info)) (t : FenceTracker) :
    (setTypeOf (e.wire t).1).isSome := by
  obtain ⟨step, hstep, he⟩ := List.mem_filterMap.1 he
  unfold setTypeSteps at hstep
  split_ifs at hstep with hblob
  · rw [List.mem_singleton.1 hstep] at he
    obtain ⟨i, -, rfl⟩ := Option.map_eq_some_iff.1 he
    rw [setTypeOf_virglSetType]
    rfl
  · cases hstep

theorem present_of_ready (h : args.Ready context src dst) (fence : FenceTracker) :
    ∃ t requests, args.present fence = ⟨.ok (some ⟨((args.emptyWriter t).addAll
        (elementsOf (args.steps context src dst))).commands, [src.handle, dst.handle]⟩),
      (args.emptyWriter t).addAll (elementsOf (args.steps context src dst)), requests⟩ ∧
      args.advance fence = totalLen (args.steps context src dst) := by
  set t := dst.virgl.tracker (src.virgl.tracker fence) with ht
  have hsteps : encodeSteps (args.steps context src dst) (args.emptyWriter t) =
      (.ok (), (args.emptyWriter t).addAll (elementsOf (args.steps context src dst))) :=
    encodeSteps_of_room (args.sized_steps context src dst) covered_steps
      ((Nat.zero_add _).le.trans h.room)
  have hadvance := (encodeSteps_of_ok (args.sized_steps context src dst) hsteps).2
  have hcheck : args.check = .ok (context, src, dst) := by
    rw [check_of_wellFormed h.toWellFormed, if_neg (Nat.not_lt.2 h.patchSlots)]
  refine ⟨t, src.virgl.requests fence ++ dst.virgl.requests (src.virgl.tracker fence), ?_, ?_⟩
  · simp only [present, hcheck, attachAndEncode, h.srcAttached, h.dstAttached, encode, ← ht, hsteps,
      if_neg (Nat.not_lt.2 h.privateRoom), h.privateData]
    rfl
  · simp only [advance, hcheck, h.srcAttached, h.dstAttached, ← ht, hadvance]
    exact Nat.zero_add _

/-- **What a blit copies.**  The commands are some that set types, a transfer of the source if it
needs one, the copy with a region for each rectangle, and a transfer of the destination if it needs
one; the box of a transfer is the smallest one around all that is read or written.  They stand one
after the other, and `pDmaBuffer` is moved behind them. -/
theorem present_blit (args : PresentArgs) (fence : FenceTracker) (context : ℕ)
    (src dst : PresentAlloc) (hready : args.Ready context src dst) (hrange : args.InRange) :
    ∃ p t types toHost copy fromHost,
      (args.present fence).result = .ok (some p) ∧
      Encoding args.dma t (types ++ toHost ++ copy :: fromHost) p.commands
        (args.present fence).writer.written.flatten ∧
      args.advance fence =
        ((types ++ toHost ++ copy :: fromHost).map Element.dmaLen).sum ∧
      (∀ e ∈ types, ∀ t, (setTypeOf (e.wire t).1).isSome) ∧
      args.Blits src dst toHost copy fromHost := by
  obtain ⟨t, requests, hpresent, hadvance⟩ := present_of_ready hready fence
  have hlen : virglBlitDmaLen args.dstSubrects < 2 ^ 32 := by
    refine lt_of_le_of_lt ?_ (lt_of_le_of_lt hready.room hready.dmaSize)
    rw [totalLen, elementsOf_steps, List.map_append, List.sum_append, List.map_cons, List.sum_cons,
      dmaLen_virglBlit]
    omega
  have hfit := hready.room
  rw [totalLen, elementsOf_steps] at hfit
  refine ⟨_, t, elementsOf (setTypeSteps context src src.blobInfo ++
      setTypeSteps context dst src.blobInfo), _,
    virglBlit context src.id dst.id args.delta args.dstSubrects, _, by rw [hpresent], ?_, ?_, ?_,
    blits_steps hrange hlen⟩
  · rw [hpresent, elementsOf_steps]
    exact encoding_wires t hfit
  · rw [hadvance, totalLen, elementsOf_steps]
  · intro e he
    rw [elementsOf_append] at he
    exact (List.mem_append.1 he).elim isSome_setTypeSteps isSome_setTypeSteps

/-- The type of a small picture. -/
def smallType : BlobInfo := ⟨8, 8, 1, 2, 0, 32, 0⟩

/-- The same with longer rows. -/
def wideType : BlobInfo := ⟨8, 8, 1, 2, 0, 64, 0⟩

/-- A blob in the memory of the guest. -/
def blobAlloc (handle : ℕ) (id : UInt32) (info : BlobInfo) : PresentAlloc :=
  ⟨handle, id, .blob true (some info), .attached⟩

/-- A copy of two rectangles between blobs with the given types, with a DMA buffer that is just
large enough. -/
def blobBlit (info info' : BlobInfo) : PresentArgs :=
  { smallBlit with
    src := .alive (blobAlloc 1 5 info)
    dst := .alive (blobAlloc 2 6 info')
    dma := ⟨0x1000, 440⟩
    srcRect := ⟨10, 20, 18, 28⟩
    subRects := [⟨0, 0, 4, 4⟩, ⟨2, 2, 8, 6⟩] }

theorem blobBlit_ready (info info' : BlobInfo) :
    (blobBlit info info').Ready 2 (blobAlloc 1 5 info) (blobAlloc 2 6 info') := by
  have hlen : (blobBlit info info').dma.len < 2 ^ 32 := Nat.lt_of_lt_of_eq (by decide : 440 < _) rfl
  refine ⟨⟨rfl, rfl, rfl, rfl, rfl, rfl, rfl⟩, le_rfl, ?_, hlen, rfl, le_rfl⟩
  change (virglSetType _ _ _).dmaLen + ((virglSetType _ _ _).dmaLen + (cmdTransferHost3DSize +
    ((virglBlit _ _ _ _ _).dmaLen + (cmdTransferHost3DSize + 0)))) ≤ 440
  rw [dmaLen_virglSetType, dmaLen_virglSetType, dmaLen_virglBlit]
  exact le_rfl

theorem present_blit_blobBlit :
    ∃ p t types toHost copy fromHost,
      ((blobBlit smallType smallType).present ⟨0, []⟩).result = .ok (some p) ∧
      Encoding (blobBlit smallType smallType).dma t (types ++ toHost ++ copy :: fromHost)
        p.commands ((blobBlit smallType smallType).present ⟨0, []⟩).writer.written.flatten ∧
      (blobBlit smallType smallType).advance ⟨0, []⟩ =
        ((types ++ toHost ++ copy :: fromHost).map Element.dmaLen).sum ∧
      (∀ e ∈ types, ∀ t, (setTypeOf (e.wire t).1).isSome) ∧
      (blobBlit smallType smallType).Blits (blobAlloc 1 5 smallType) (blobAlloc 2 6 smallType)
        toHost copy fromHost := by
  refine present_blit _ _ 2 _ _ (blobBlit_ready smallType smallType)
    ⟨by decide, by decide, by decide, by decide, fun r hr => ?_⟩
  obtain rfl | rfl : r = ⟨0, 0, 4, 4⟩ ∨ r = ⟨2, 2, 8, 6⟩ := by
    simpa [dstSubrects, blobBlit] using hr
  · exact ⟨⟨by decide, by decide, by decide, by decide⟩,
      ⟨by decide, by decide, by decide, by decide⟩⟩
  · exact ⟨⟨by decide, by decide, by decide, by decide⟩,
      ⟨by decide, by decide, by decide, by decide⟩⟩

end PresentArgs

/-! ### The types that are set -/

namespace PresentAlloc

/-- The type that the allocation itself has, if it is known. -/
def ownType (a : PresentAlloc) : List (UInt32 × BlobInfo) := a.blobInfo.toList.map (a.id, ·)

end PresentAlloc

namespace PresentArgs

variable {args : PresentArgs} {context : ℕ} {src dst a : PresentAlloc} {t : FenceTracker}

theorem filterMap_setTypeSteps (context : ℕ) (a : PresentAlloc) (info : Option BlobInfo)
    (t : FenceTracker) :
    (Element.wires t (elementsOf (setTypeSteps context a info))).filterMap setTypeOf =
      if a.isBlob then info.toList.map (a.id, ·) else [] := by
  unfold setTypeSteps
  split_ifs with hblob
  · cases info with
    | none => rfl
    | some i =>
      exact List.filterMap_cons_some (setTypeOf_virglSetType context a.id i t)
  · rfl

theorem filterMap_transferSteps {work : CommandTransfer → Work3D} {r cover : Rect}
    (hwork : ∀ transfer t, setTypeOf ((Element.mk context none (work transfer)).wire t).1 = none) :
    (Element.wires t (elementsOf (transferSteps context a work r cover))).filterMap setTypeOf =
      [] := by
  unfold transferSteps
  split_ifs with hneeds
  · exact List.filterMap_cons_none (hwork _ t)
  · rfl

theorem filterMap_steps (args : PresentArgs) (context : ℕ) (src dst : PresentAlloc)
    (t : FenceTracker) :
    (Element.wires t (elementsOf (args.steps context src dst))).filterMap setTypeOf =
      src.ownType ++ if dst.isBlob then src.blobInfo.toList.map (dst.id, ·) else [] := by
  have hsrc : (if src.isBlob then src.blobInfo.toList.map (src.id, ·) else []) = src.ownType := by
    unfold PresentAlloc.ownType PresentAlloc.isBlob PresentAlloc.blobInfo
    cases src.resource <;> rfl
  have htoHost : ∀ transfer t,
      setTypeOf ((Element.mk context none (.transferToHost transfer)).wire t).1 = none :=
    fun _ t => setTypeOf_newHeader t (by decide) (by decide) context _
  have hfromHost : ∀ transfer t,
      setTypeOf ((Element.mk context none (.transferFromHost transfer)).wire t).1 = none :=
    fun _ t => setTypeOf_newHeader t (by decide) (by decide) context _
  rw [elementsOf_steps]
  simp only [elementsOf_append, Element.wires_append, Element.wires, List.filterMap_append,
    List.filterMap_cons_none (setTypeOf_virglBlit _ _ _ _ args.length_dstSubrects _),
    filterMap_setTypeSteps, filterMap_transferSteps htoHost, filterMap_transferSteps hfromHost,
    hsrc, List.append_nil]

theorem check_alive (h : args.check = .ok (context, src, dst)) :
    args.src = .alive src ∧ args.dst = .alive dst := by
  unfold check at h
  split at h
  · cases h
  · cases h
  · split_ifs at h with hslots
    · split at h <;> cases h
    · split at h
      · rename_i src' dst' hsrc hdst
        split at h
        · cases h
        · cases h
          exact ⟨hsrc, hdst⟩
      · cases h

theorem present_of_ok {fence : FenceTracker} {p : CommandDmaPrivate}
    (h : (args.present fence).result = .ok (some p)) :
    ∃ context src dst t, args.src = .alive src ∧ args.dst = .alive dst ∧
      (args.present fence).writer =
        (args.emptyWriter t).addAll (elementsOf (args.steps context src dst)) := by
  unfold present at h ⊢
  rcases hcheck : args.check with (_ | _) | ⟨context, src, dst⟩
  · rw [hcheck] at h
    cases h
  · rw [hcheck] at h
    cases h
  · obtain ⟨hsrc, hdst⟩ := check_alive hcheck
    rw [hcheck] at h
    simp only [attachAndEncode] at h ⊢
    cases hs : src.virgl.result with
    | error =>
      rw [hs] at h
      cases h
    | ok _ =>
      cases hd : dst.virgl.result with
      | error =>
        rw [hs, hd] at h
        cases h
      | ok _ =>
        rw [hs, hd] at h
        refine ⟨context, src, dst, dst.virgl.tracker (src.virgl.tracker fence), hsrc, hdst, ?_⟩
        simp only [encode] at h ⊢
        rcases hsteps : encodeSteps (args.steps context src dst)
          (args.emptyWriter (dst.virgl.tracker (src.virgl.tracker fence))) with ⟨_ | _, w⟩
        · rw [hsteps] at h
          cases h
        · rw [← (encodeSteps_of_ok (args.sized_steps context src dst) hsteps).1]
          simp only
          split_ifs <;> rfl

/-- **The types that are set.**  Let `present` succeed for two allocations.  The types that its
commands set are those that the allocations have themselves exactly if the destination is no blob,
or is known to have the type that the source is known to have. -/
theorem setTypes_iff (args : PresentArgs) (fence : FenceTracker) (src dst : PresentAlloc)
    (p : CommandDmaPrivate) (hsrc : args.src = .alive src) (hdst : args.dst = .alive dst)
    (h : (args.present fence).result = .ok (some p)) :
    (args.present fence).writer.written.filterMap setTypeOf = src.ownType ++ dst.ownType ↔
      (dst.isBlob = true → dst.blobInfo = src.blobInfo) := by
  obtain ⟨context, src', dst', t, hsrc', hdst', hwriter⟩ := present_of_ok h
  obtain rfl : src' = src := PresentHandle.alive.inj (hsrc'.symm.trans hsrc)
  obtain rfl : dst' = dst := PresentHandle.alive.inj (hdst'.symm.trans hdst)
  have hwritten : (args.present fence).writer.written =
      Element.wires t (elementsOf (args.steps context src' dst')) := by
    rw [hwriter]
    rfl
  rw [hwritten, filterMap_steps, List.append_cancel_left_eq]
  unfold PresentAlloc.ownType
  have hpair : Function.Injective (Prod.mk dst'.id : BlobInfo → UInt32 × BlobInfo) :=
    Prod.mk_right_injective _
  cases hblob : dst'.isBlob with
  | false =>
    have hinfo : dst'.blobInfo = none := by
      unfold PresentAlloc.isBlob at hblob
      unfold PresentAlloc.blobInfo
      split at hblob
      · rfl
      · cases hblob
    simp [hinfo]
  | true =>
    have hlist : src'.blobInfo.toList = dst'.blobInfo.toList ↔ dst'.blobInfo = src'.blobInfo := by
      cases src'.blobInfo <;> cases dst'.blobInfo <;> simp [eq_comm]
    rw [if_pos rfl, (List.map_injective_iff.2 hpair).eq_iff, hlist]
    exact ⟨fun h _ => h, fun h => h rfl⟩

theorem setTypes_iff_blobBlit :
    ((blobBlit smallType smallType).present ⟨0, []⟩).writer.written.filterMap setTypeOf =
      [(5, smallType), (6, smallType)] := by
  obtain ⟨t, requests, hpresent, -⟩ := present_of_ready (blobBlit_ready smallType smallType) ⟨0, []⟩
  have hiff := setTypes_iff (blobBlit smallType smallType) ⟨0, []⟩ (blobAlloc 1 5 smallType)
    (blobAlloc 2 6 smallType) _ rfl rfl (by rw [hpresent])
  exact hiff.2 fun _ => rfl

/-- The rows of the destination are twice as long as those of the source, and its type is set to
that of the source. -/
theorem foreign_type :
    (∃ p, ((blobBlit smallType wideType).present ⟨0, []⟩).result = .ok (some p)) ∧
      ((blobBlit smallType wideType).present ⟨0, []⟩).writer.written.filterMap setTypeOf =
        [(5, smallType), (6, smallType)] ∧
      (blobAlloc 2 6 wideType).ownType = [(6, wideType)] ∧ wideType ≠ smallType := by
  obtain ⟨t, requests, hpresent, -⟩ := present_of_ready (blobBlit_ready smallType wideType) ⟨0, []⟩
  refine ⟨⟨_, by rw [hpresent]⟩, ?_, rfl, by decide⟩
  rw [hpresent]
  exact filterMap_steps _ _ _ _ t

end PresentArgs

end VirtioGpu
