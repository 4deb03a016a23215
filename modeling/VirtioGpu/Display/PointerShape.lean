import VirtioGpu.Display.Commit
import VirtioGpu.Display.CursorPasses

/-!
# What remains of an earlier pointer

The framebuffer of a cursor is kept when the shape changes.  For monochrome and masked colour shapes
it is cleared first.  A colour shape only overwrites what it covers: any one that is smaller leaves
pixels of the shape before it around itself.

* `PointerShape.write_independent_iff` : the shapes for which the image does not depend on what was
  in the framebuffer; `olderPointerShows` is one for which it does.
-/

namespace VirtioGpu

/-- A pointer shape, with the bytes that `Adapter::update_cursor` takes from `pPixels`. -/
structure PointerShape where
  format : PointerFormat
  xHot : UInt32
  yHot : UInt32
  height : ℕ
  pitch : ℕ
  pixels : List UInt8
  length_pixels : pixels.length = if format = .monochrome then height * pitch * 2
    else height * pitch

namespace PointerShape

open Cursor

/-- The shape has at most 64 rows of at most 64 pixels. -/
def Fits (shape : PointerShape) : Prop :=
  shape.height ≤ 64 ∧ if shape.format = .monochrome then shape.pitch * 8 ≤ 64
    else shape.pitch ≤ 64 * 4

/-- The pixels that a shape is written to. -/
def write (shape : PointerShape) (pixels : Framebuffer) : Option Framebuffer :=
  match shape.format with
  | .color => writeBgra pixels shape.pixels shape.pitch
  | .monochrome => writeMono pixels shape.pixels shape.pitch
  | .maskedColor => writeMaskedColor pixels shape.pixels shape.pitch
  | .unsupported => some pixels

end PointerShape

/-- A framebuffer with an older picture. -/
def Framebuffer.ones (width height : ℕ) : Framebuffer :=
  ⟨width, height, .replicate (width * height * 4) 1, List.length_replicate⟩

namespace Cursor

theorem mem_row_iff {row size stride i : ℕ} (hfit : stride ≤ size) :
    (row * size ≤ i ∧ i < row * size + stride) ↔ i / size = row ∧ i % size < stride := by
  have hsplit : size * (i / size) + i % size = i := Nat.div_add_mod i size
  constructor
  · rintro ⟨hfrom, hto⟩
    have hdiv : i / size = row := by
      refine Nat.div_eq_of_lt_le hfrom ?_
      rw [Nat.succ_mul]
      omega
    rw [hdiv, Nat.mul_comm] at hsplit
    exact ⟨hdiv, by omega⟩
  · rintro ⟨rfl, hmod⟩
    rw [Nat.mul_comm]
    omega

/-- `fb'` has the first rows of a colour shape, and around them what `fb` has. -/
structure RowsCopied (fb : Framebuffer) (src : List UInt8) (stride W H rows : ℕ)
    (fb' : Framebuffer) : Prop where
  width : fb'.width = W
  height : fb'.height = H
  bytes : ∀ i, fb'.pixels[i]? =
    if i / (W * 4) < rows ∧ i % (W * 4) < stride then src[i / (W * 4) * stride + i % (W * 4)]?
    else fb.pixels[i]?

theorem length_row {src : List UInt8} {stride h row : ℕ} (hrow : row < h)
    (hsrc : src.length = h * stride) : (fieldAt src (row * stride) stride).length = stride := by
  have hrows : (row + 1) * stride ≤ h * stride := Nat.mul_le_mul_right _ hrow
  rw [Nat.succ_mul] at hrows
  rw [fieldAt, List.length_take, List.length_drop]
  omega

theorem RowsCopied.copy {fb fb₁ : Framebuffer} {src : List UInt8} {stride h W H row : ℕ}
    (hrows : RowsCopied fb src stride W H row fb₁) (hrow : row < h) (hfit : stride ≤ W * 4)
    (hh : h ≤ H) (hsrc : src.length = h * stride) :
    ∃ fb', fb₁.copy (row * (W * 4)) (fieldAt src (row * stride) stride) = some fb' ∧
      RowsCopied fb src stride W H (row + 1) fb' := by
  have hlen := length_row hrow hsrc
  have hroom : row * (W * 4) + (fieldAt src (row * stride) stride).length ≤ fb₁.pixels.length := by
    have hbound : (row + 1) * (W * 4) ≤ H * (W * 4) := Nat.mul_le_mul_right _ (by omega)
    rw [Nat.succ_mul] at hbound
    rw [hlen, fb₁.length_pixels, hrows.width, hrows.height, Nat.mul_comm W H, Nat.mul_assoc]
    omega
  obtain ⟨fb', hcopy, hwidth, hheight, hpixels⟩ := Framebuffer.copy_eq_some hroom
  refine ⟨fb', hcopy, hwidth.trans hrows.width, hheight.trans hrows.height, fun i => ?_⟩
  rw [hpixels, getElem?_writeAt hroom, hlen, hrows.bytes i]
  by_cases hin : row * (W * 4) ≤ i ∧ i < row * (W * 4) + stride
  · obtain ⟨hdiv, hmod⟩ := (mem_row_iff hfit).1 hin
    have hsplit := Nat.div_add_mod i (W * 4)
    rw [hdiv, Nat.mul_comm] at hsplit
    rw [if_pos hin, getElem?_fieldAt, if_pos (by omega), if_pos ⟨by omega, hmod⟩, hdiv]
    congr 2
    omega
  · have hother : ¬ (i / (W * 4) = row ∧ i % (W * 4) < stride) :=
      fun h => hin ((mem_row_iff hfit).2 h)
    rw [if_neg hin]
    refine if_congr ?_ rfl rfl
    omega

theorem writeBgra_bytes (fb : Framebuffer) (src : List UInt8) {stride h W H : ℕ}
    (hwidth : fb.width = W) (hheight : fb.height = H) (hstride : 0 < stride)
    (hfit : stride ≤ W * 4) (hh : h ≤ H) (hsrc : src.length = h * stride) :
    ∃ fb', writeBgra fb src stride = some fb' ∧ RowsCopied fb src stride W H h fb' := by
  have hdiv : checkedDiv src.length stride = some h := by
    rw [hsrc, Nat.mul_comm]
    exact checkedDiv_mul hstride h
  have hnone : RowsCopied fb src stride W H 0 fb := ⟨hwidth, hheight, by simp⟩
  simp only [writeBgra, hdiv, hwidth, Option.bind_eq_bind, Option.bind_some]
  exact forRange_spec (RowsCopied fb src stride W H) hnone
    fun row fb₁ hrow hrows => hrows.copy hrow hfit hh hsrc

/-- A colour shape decides about all bytes only if it covers them all. -/
theorem writeBgra_independent_iff {src : List UInt8} {stride h : ℕ} (hstride : 0 < stride)
    (hfit : stride ≤ 64 * 4) (hh : h ≤ 64) (hsrc : src.length = h * stride) :
    (∀ fb fb' : Framebuffer, fb.width = 64 → fb.height = 64 → fb'.width = 64 → fb'.height = 64 →
      writeBgra fb src stride = writeBgra fb' src stride) ↔ stride = 64 * 4 ∧ h = 64 := by
  constructor
  · intro hsame
    by_contra hpart
    -- A byte that the shape does not cover: beside it or below it.
    obtain ⟨i, hi, hfree⟩ :
        ∃ i, i < 64 * 64 * 4 ∧ ¬ (i / (64 * 4) < h ∧ i % (64 * 4) < stride) := by
      by_cases hbeside : stride < 64 * 4
      · exact ⟨stride, by omega, by omega⟩
      · exact ⟨h * (64 * 4), by omega, by omega⟩
    obtain ⟨fb₀, hwrite₀, -, -, hbytes₀⟩ :=
      writeBgra_bytes (.zeroed 64 64) src (W := 64) (H := 64) rfl rfl hstride hfit hh hsrc
    obtain ⟨fb₁, hwrite₁, -, -, hbytes₁⟩ :=
      writeBgra_bytes (.ones 64 64) src (W := 64) (H := 64) rfl rfl hstride hfit hh hsrc
    have hfb : fb₀ = fb₁ := by
      have h := hsame (.zeroed 64 64) (.ones 64 64) rfl rfl rfl rfl
      rw [hwrite₀, hwrite₁] at h
      exact Option.some.inj h
    have hbyte := hbytes₀ i
    rw [hfb, hbytes₁ i, if_neg hfree, if_neg hfree] at hbyte
    simp only [Framebuffer.ones, Framebuffer.zeroed, List.getElem?_replicate, if_pos hi] at hbyte
    exact absurd hbyte (by decide)
  · rintro ⟨rfl, rfl⟩ fb fb' hwidth hheight hwidth' hheight'
    obtain ⟨fb₁, hwrite, hwidth₁, hheight₁, hbytes⟩ :=
      writeBgra_bytes fb src hwidth hheight hstride hfit hh hsrc
    obtain ⟨fb₂, hwrite', hwidth₂, hheight₂, hbytes'⟩ :=
      writeBgra_bytes fb' src hwidth' hheight' hstride hfit hh hsrc
    rw [hwrite, hwrite']
    refine congrArg some (Framebuffer.ext (by rw [hwidth₁, hwidth₂]) (by rw [hheight₁, hheight₂])
      (List.ext_getElem? fun i => ?_))
    rw [hbytes i, hbytes' i]
    refine ite_congr rfl (fun _ => rfl) fun hout => ?_
    -- What is not covered is not in the framebuffer.
    have hend : ∀ fb : Framebuffer, fb.width = 64 → fb.height = 64 → fb.pixels[i]? = none := by
      intro fb hwidth hheight
      refine List.getElem?_eq_none ?_
      rw [fb.length_pixels, hwidth, hheight]
      omega
    rw [hend fb hwidth hheight, hend fb' hwidth' hheight']

end Cursor

/-- **A small colour shape leaves the pointer before it around itself.**  What is shown depends on
the shape alone exactly if it is not a colour shape, or covers the framebuffer, or has rows of no
bytes, for which the driver panics. -/
theorem PointerShape.write_independent_iff (shape : PointerShape) (hfit : shape.Fits)
    (hformat : shape.format ≠ .unsupported) :
    (∀ fb fb' : Framebuffer, fb.width = 64 → fb.height = 64 → fb'.width = 64 → fb'.height = 64 →
      shape.write fb = shape.write fb') ↔
    (shape.format = .color → shape.pitch = 0 ∨ (shape.pitch = 64 * 4 ∧ shape.height = 64)) := by
  obtain ⟨hheight, hpitch⟩ := hfit
  have hlen := shape.length_pixels
  unfold PointerShape.write
  cases hf : shape.format with
  | color =>
    simp only [hf, reduceCtorEq, if_false] at hpitch hlen
    rw [imp_iff_right rfl]
    by_cases hzero : shape.pitch = 0
    · refine iff_of_true (fun fb fb' _ _ _ _ => ?_) (.inl hzero)
      simp only [Cursor.writeBgra, hzero, Cursor.checkedDiv, if_pos, Option.bind_eq_bind,
        Option.bind_none]
    · rw [Cursor.writeBgra_independent_iff (by omega) hpitch hheight hlen]
      exact (or_iff_right hzero).symm
  | monochrome =>
    refine iff_of_true (fun fb fb' hw hh hw' hh' => ?_) fun hcolor => by cases hcolor
    simp only [Cursor.writeMono, Framebuffer.fill, hw, hh, hw', hh']
  | maskedColor =>
    refine iff_of_true (fun fb fb' hw hh hw' hh' => ?_) fun hcolor => by cases hcolor
    simp only [Cursor.writeMaskedColor, Framebuffer.fill, hw, hh, hw', hh']
  | unsupported => exact absurd hf hformat

/-- A monochrome shape of one row. -/
def PointerShape.oneRow : PointerShape := ⟨.monochrome, 0, 0, 1, 1, [0xFF, 0x80], rfl⟩

theorem PointerShape.oneRow_independent :
    PointerShape.oneRow.write (.zeroed 64 64) = PointerShape.oneRow.write (.ones 64 64) :=
  (PointerShape.write_independent_iff .oneRow ⟨by decide, by decide⟩ (by decide)).2
    (fun h => absurd h (by decide)) (.zeroed 64 64) (.ones 64 64) rfl rfl rfl rfl

/-- A colour shape of one pixel. -/
def PointerShape.onePixel (xHot yHot : UInt32) : PointerShape :=
  ⟨.color, xHot, yHot, 1, 4, [5, 6, 7, 0xFF], rfl⟩

theorem PointerShape.onePixel_write (xHot yHot : UInt32) (fb : Framebuffer) (hw : fb.width = 64)
    (hh : fb.height = 64) :
    ∃ fb', (onePixel xHot yHot).write fb = some fb' ∧ fb'.width = 64 ∧ fb'.height = 64 ∧
      fb'.pixels[4]? = fb.pixels[4]? := by
  obtain ⟨fb', hwrite, hw', hh', hbytes⟩ := Cursor.writeBgra_bytes fb [5, 6, 7, 0xFF] (h := 1)
    hw hh (Nat.zero_lt_succ 3) (by decide) (by decide) rfl
  exact ⟨fb', hwrite, hw', hh', (hbytes 4).trans (if_neg (by decide))⟩

/-- What comes after the pixel is the picture that was there. -/
theorem olderPointerShows :
    ∃ fb₀ fb₁, (PointerShape.onePixel 0 0).write (.zeroed 64 64) = some fb₀ ∧
      (PointerShape.onePixel 0 0).write (.ones 64 64) = some fb₁ ∧
      fb₀.pixels[4]? = some 0 ∧ fb₁.pixels[4]? = some 1 := by
  obtain ⟨fb₀, hwrite₀, -, -, hbyte₀⟩ := PointerShape.onePixel_write 0 0 (.zeroed 64 64) rfl rfl
  obtain ⟨fb₁, hwrite₁, -, -, hbyte₁⟩ := PointerShape.onePixel_write 0 0 (.ones 64 64) rfl rfl
  refine ⟨fb₀, fb₁, hwrite₀, hwrite₁, hbyte₀.trans ?_, hbyte₁.trans ?_⟩
  · exact List.getElem?_replicate.trans (if_pos (by decide))
  · exact List.getElem?_replicate.trans (if_pos (by decide))

end VirtioGpu
