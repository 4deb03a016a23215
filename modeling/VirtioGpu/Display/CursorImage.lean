import Mathlib.Data.Nat.Bitwise
import VirtioGpu.Display.CursorPasses

/-!
# The images of monochrome and masked colour shapes

What `write_mono` and `write_masked_color` leave in the framebuffer, pixel by pixel.

* `writeMono_image` : the image that the masks describe.
* `writeMaskedColor_bytes_iff` : green and red are swapped, so the bytes are right exactly for
  shapes in which they are equal; `greenAndRedSwapped` is one in which they are not.
-/

namespace VirtioGpu

namespace Cursor

/-! ### Monochrome shapes, as the masks describe them -/

section Mono

open Framebuffer

/-- The bit of a mask for the pixel in column `x` and row `y`: the first one is the highest. -/
def maskBit (mask : List UInt8) (stride x y : ℕ) : Bool :=
  (mask[y * stride + x / 8]?.getD 0).toNat.testBit (7 - x % 8)

/-- The bit that the loop has got to. -/
def IsBitOf (x : ℕ) (bit : UInt8) : Prop := bit.toNat = 2 ^ (7 - x % 8)

theorem IsBitOf.and_ne_zero {x : ℕ} {bit : UInt8} (hbit : IsBitOf x bit) (byte : UInt8) :
    (byte &&& bit != 0) = byte.toNat.testBit (7 - x % 8) := by
  have hand : (byte &&& bit).toNat = (byte.toNat.testBit (7 - x % 8)).toNat * 2 ^ (7 - x % 8) := by
    rw [UInt8.toNat_and, hbit, Nat.and_two_pow]
  have hpos : 2 ^ (7 - x % 8) ≠ 0 := (Nat.two_pow_pos _).ne'
  rw [Bool.eq_iff_iff, bne_iff_ne, ne_eq, ← UInt8.toNat_inj, hand]
  cases byte.toNat.testBit (7 - x % 8) <;> simp

/-- The bit moves on, and comes back to the highest after the lowest. -/
theorem IsBitOf.next {x : ℕ} {bit : UInt8} (hbit : IsBitOf x bit) :
    IsBitOf (x + 1) (if bit >>> 1 = 0 then 0x80 else bit >>> 1) := by
  have hhalf : (bit >>> 1).toNat = 2 ^ (7 - x % 8) / 2 := by
    rw [UInt8.toNat_shiftRight, hbit]
    rfl
  unfold IsBitOf
  by_cases hlast : x % 8 = 7
  · have hzero : bit >>> 1 = 0 := by
      rw [← UInt8.toNat_inj, hhalf, hlast]
      rfl
    rw [if_pos hzero, show (x + 1) % 8 = 0 by omega]
    rfl
  · have hexp : 7 - x % 8 = 7 - (x + 1) % 8 + 1 := by omega
    rw [hexp, Nat.pow_succ, Nat.mul_div_cancel _ Nat.zero_lt_two] at hhalf
    have hne : bit >>> 1 ≠ 0 := by
      rw [ne_eq, ← UInt8.toNat_inj, hhalf]
      exact (Nat.two_pow_pos _).ne'
    rw [if_neg hne, hhalf]

theorem monoPix_eq_inverted (and xor : Bool) :
    BGRA.ofU32 (monoPix and xor) = .ofU32 inverted ↔ (and && xor) = true := by
  cases and <;> cases xor <;> decide

/-- What the first pass leaves in a pixel. -/
def monoMarks (andMask xorMask : List UInt8) (stride x y : ℕ) : BGRA :=
  .ofU32 (monoPix (maskBit andMask stride x y) (maskBit xorMask stride x y))

variable {W H h stride x y : ℕ} {fb : Framebuffer} {andMask xorMask : List UInt8}
  {g : ℕ → ℕ → BGRA}

theorem Marked.monoPixel {s : MonoScan} (hm : Marked W H s.pixels s.hasInverted g)
    (hbit : IsBitOf x s.bit) (hx : x < W) (hy : y < H)
    (hand : y * stride + x / 8 < andMask.length) (hxor : y * stride + x / 8 < xorMask.length) :
    ∃ s', monoPixel andMask xorMask stride W y s x = some s' ∧
      Marked W H s'.pixels s'.hasInverted (setCell g x y (monoMarks andMask xorMask stride x y)) ∧
      IsBitOf (x + 1) s'.bit := by
  have handByte := List.getElem?_eq_getElem hand
  have hxorByte := List.getElem?_eq_getElem hxor
  have handBit : (andMask[y * stride + x / 8] &&& s.bit != 0) = maskBit andMask stride x y := by
    rw [hbit.and_ne_zero, maskBit, handByte, Option.getD_some]
  have hxorBit : (xorMask[y * stride + x / 8] &&& s.bit != 0) = maskBit xorMask stride x y := by
    rw [hbit.and_ne_zero, maskBit, hxorByte, Option.getD_some]
  obtain ⟨fb', hwrite, hm'⟩ := hm.write hx hy _
    (monoPix_eq_inverted (maskBit andMask stride x y) (maskBit xorMask stride x y)).1
  refine ⟨⟨fb', s.hasInverted || (maskBit andMask stride x y && maskBit xorMask stride x y),
    if s.bit >>> 1 = 0 then 0x80 else s.bit >>> 1⟩, ?_, hm', hbit.next⟩
  simp only [Cursor.monoPixel, handByte, hxorByte, Option.bind_eq_bind, Option.bind_some, handBit,
    hxorBit, hwrite]

/-- **The first pass over the masks.** -/
theorem Marked.monoScan (hm : Marked W H fb false g) (hw : stride * 8 ≤ W) (hh : h ≤ H)
    (hand : h * stride ≤ andMask.length) (hxor : h * stride ≤ xorMask.length) :
    ∃ scan, forRange h (fun s y => forRange (stride * 8)
          (Cursor.monoPixel andMask xorMask stride W y) { s with bit := 0x80 }) ⟨fb, false, 0x80⟩ =
        some scan ∧
      Marked W H scan.pixels scan.hasInverted
        (inArea (stride * 8) h (monoMarks andMask xorMask stride) g) := by
  rw [← swept_end]
  refine forRange_spec (fun y (s : MonoScan) => Marked W H s.pixels s.hasInverted
    (swept (stride * 8) 0 y (monoMarks andMask xorMask stride) g))
    (by rw [swept_zero]; exact hm) fun y s hy hrow => ?_
  rw [← swept_row]
  -- Within a row the bit of the masks goes along with the column.
  have hinner : ∃ t, forRange (stride * 8) (Cursor.monoPixel andMask xorMask stride W y)
        { s with bit := 0x80 } = some t ∧
      (Marked W H t.pixels t.hasInverted
        (swept (stride * 8) (stride * 8) y (monoMarks andMask xorMask stride) g) ∧
        IsBitOf (stride * 8) t.bit) := by
    refine forRange_spec (fun x (s : MonoScan) => Marked W H s.pixels s.hasInverted
      (swept (stride * 8) x y (monoMarks andMask xorMask stride) g) ∧ IsBitOf x s.bit)
      ⟨hrow, rfl⟩ fun x s hx hs => ?_
    have hidx : y * stride + x / 8 < h * stride := by
      have hrows : (y + 1) * stride ≤ h * stride := Nat.mul_le_mul_right _ hy
      rw [Nat.succ_mul] at hrows
      omega
    rw [swept_succ hx]
    exact hs.1.monoPixel hs.2 (by omega) (by omega) (by omega) (by omega)
  obtain ⟨t, ht, hmarked, -⟩ := hinner
  exact ⟨t, ht, hmarked⟩

/-- The image that the masks of a monochrome shape describe, as bytes: the first half of the masks
is the AND mask and the second half the XOR mask. -/
def monoImage (mask : List UInt8) (stride h x y : ℕ) : List UInt8 :=
  let and := maskBit (mask.take (stride * h)) stride
  let xor := maskBit (mask.drop (stride * h)) stride
  let white := [0xFF, 0xFF, 0xFF, 0xFF]
  let black := [0x00, 0x00, 0x00, 0xFF]
  let clear := [0x00, 0x00, 0x00, 0x00]
  if x < 8 * stride ∧ y < h then
    match and x y, xor x y with
    | false, true => white
    | false, false => black
    | true, true => white
    | true, false =>
      if HasNeighbor (fun x y => and x y = true ∧ xor x y = true) (8 * stride) h x y then black
      else clear
  else clear

theorem replaced_outlined_monoMarks (mask : List UInt8) (hx : x < 8 * stride) (hy : y < h) :
    (replaced (opaqueBits ||| foreground) (outlined (8 * stride) h (inArea (8 * stride) h
      (monoMarks (mask.take (stride * h)) (mask.drop (stride * h)) stride)
      fun _ _ => .ofU32 transparent)) x y).toBytes = monoImage mask stride h x y := by
  have hmarks : ∀ x' y', x' < 8 * stride → y' < h → (inArea (8 * stride) h
      (monoMarks (mask.take (stride * h)) (mask.drop (stride * h)) stride)
      (fun _ _ => .ofU32 transparent) x' y' = .ofU32 inverted ↔
        maskBit (mask.take (stride * h)) stride x' y' = true ∧
          maskBit (mask.drop (stride * h)) stride x' y' = true) := by
    intro x' y' hx' hy'
    rw [inArea_of_lt hx' hy', monoMarks, monoPix_eq_inverted, Bool.and_eq_true]
  unfold monoImage replaced outlined
  simp only [HasNeighbor.congr hx hy hmarks, inArea_of_lt hx hy, hx, hy, and_self, if_true,
    monoMarks]
  generalize maskBit (mask.take (stride * h)) stride x y = and
  generalize maskBit (mask.drop (stride * h)) stride x y = xor
  by_cases hnear : HasNeighbor (fun x y => maskBit (mask.take (stride * h)) stride x y = true ∧
    maskBit (mask.drop (stride * h)) stride x y = true) (8 * stride) h x y
  all_goals
    simp only [hnear, and_true, and_false, if_true, if_false]
    cases and <;> cases xor <;> decide

/-- **Monochrome shapes are shown as their masks describe them**, and no index is out of bounds. -/
theorem writeMono_image (fb : Framebuffer) (mask : List UInt8) (s h : ℕ) (hwidth : fb.width = 64)
    (hheight : fb.height = 64) (hs : 1 ≤ s) (hw : 8 * s ≤ 64) (hh : h ≤ 64)
    (hmask : mask.length = 2 * s * h) :
    ∃ fb', writeMono fb mask s = some fb' ∧
      ∀ x y, x < 64 → y < 64 → fb'.bytesAt x y = monoImage mask s h x y := by
  have hdiv : checkedDiv mask.length (s * 2) = some h := by
    rw [hmask, Nat.mul_comm 2 s]
    exact checkedDiv_mul (by omega) h
  have hhalf : mask.length / 2 = s * h := by
    rw [hmask, Nat.mul_assoc, Nat.mul_div_cancel_left _ Nat.zero_lt_two]
  have hand : h * s ≤ (mask.take (s * h)).length := by
    rw [List.length_take, hmask, Nat.mul_comm h s, Nat.mul_assoc]
    omega
  have hxor : h * s ≤ (mask.drop (s * h)).length := by
    rw [List.length_drop, hmask, Nat.mul_comm h s, Nat.mul_assoc]
    omega
  rw [Nat.mul_comm] at hw
  obtain ⟨scan, hscan, hm⟩ := (Marked.fill hwidth hheight).monoScan hw hh hand hxor
  obtain ⟨fb', hfinish, hbytes⟩ := hm.finish rfl hw hh (opaqueBits ||| foreground)
  refine ⟨fb', ?_, fun x y hx hy => ?_⟩
  · simp only [writeMono, hwidth, hdiv, hhalf, hscan, Option.bind_eq_bind, Option.bind_some]
    exact hfinish
  · rw [hbytes x y hx hy, Nat.mul_comm s 8]
    split
    · next harea => exact replaced_outlined_monoMarks mask harea.1 harea.2
    · next harea =>
      rw [inArea_of_not harea, monoImage]
      simp only [if_neg harea]
      rfl

/-- One inverting pixel at the left of a row of pixels that show the screen. -/
theorem writeMono_one_inverting :
    ∃ fb', writeMono (.zeroed 64 64) [0xFF, 0x80] 1 = some fb' ∧
      fb'.bytesAt 0 0 = [0xFF, 0xFF, 0xFF, 0xFF] ∧ fb'.bytesAt 1 0 = [0, 0, 0, 0xFF] ∧
      fb'.bytesAt 2 0 = [0, 0, 0, 0] ∧ fb'.bytesAt 0 1 = [0, 0, 0, 0] := by
  obtain ⟨fb', hwrite, hbytes⟩ := writeMono_image (.zeroed 64 64) [0xFF, 0x80] 1 1 rfl rfl
    (by decide) (by decide) (by decide) (by decide)
  refine ⟨fb', hwrite, ?_, ?_, ?_, ?_⟩
  · exact (hbytes 0 0 (by decide) (by decide)).trans (by decide)
  · exact (hbytes 1 0 (by decide) (by decide)).trans (by decide)
  · exact (hbytes 2 0 (by decide) (by decide)).trans (by decide)
  · exact (hbytes 0 1 (by decide) (by decide)).trans (by decide)

end Mono

/-! ### Masked colour shapes, byte by byte -/

section MaskedColor

open Framebuffer

/-- Byte `k` of the pixel of a shape in column `x` and row `y`. -/
def shapeByte (shape : List UInt8) (stride x y k : ℕ) : UInt8 :=
  shape[y * stride + x * 4 + k]?.getD 0

/-- What the first pass leaves in a pixel. -/
def maskedMarks (shape : List UInt8) (stride x y : ℕ) : BGRA :=
  if shapeByte shape stride x y 3 = 0 then
    { b := shapeByte shape stride x y 0
      g := shapeByte shape stride x y 1
      r := shapeByte shape stride x y 2
      a := 0xFF }
  else .ofU32 inverted

theorem ofU32_opaque (b g r : UInt8) :
    BGRA.ofU32 (opaqueBits ||| ((r.toUInt32 <<< (8 * 2)) ||| (g.toUInt32 <<< (8 * 1)) |||
      (b.toUInt32 <<< (8 * 0)))) = { b := b, g := g, r := r, a := 0xFF } := by
  have halpha : opaqueBits = (0xFF : UInt8).toUInt32 <<< (8 * 3) := by decide
  rw [← UInt32.or_assoc, ← UInt32.or_assoc, halpha]
  exact BGRA.ofU32_toU32 { b := b, g := g, r := r, a := 0xFF }

variable {W H w h stride x y : ℕ} {fb : Framebuffer} {shape : List UInt8} {g : ℕ → ℕ → BGRA}

theorem maskedMarks_eq_inverted :
    maskedMarks shape stride x y = .ofU32 inverted ↔ shapeByte shape stride x y 3 ≠ 0 := by
  unfold maskedMarks
  split
  · next hmask =>
    have halpha : (0xFF : UInt8) ≠ (BGRA.ofU32 inverted).a := by decide
    exact iff_of_false (fun h => halpha (congrArg BGRA.a h)) (not_not_intro hmask)
  · next hmask => exact iff_of_true rfl hmask

/-- The first pass leaves nothing transparent, so there is nothing to outline. -/
theorem maskedMarks_ne_transparent : maskedMarks shape stride x y ≠ .ofU32 transparent := by
  unfold maskedMarks
  split
  · have halpha : (0xFF : UInt8) ≠ (BGRA.ofU32 transparent).a := by decide
    exact fun h => halpha (congrArg BGRA.a h)
  · decide

theorem Marked.maskedColorPixel {s : Framebuffer × Bool} (hm : Marked W H s.1 s.2 g) (hx : x < W)
    (hy : y < H) (hidx : y * stride + x * 4 + 3 < shape.length) :
    ∃ s', maskedColorPixel shape stride W s x y = some s' ∧
      Marked W H s'.1 s'.2 (setCell g x y (maskedMarks shape stride x y)) := by
  have hbyte : ∀ k, k ≤ 3 →
      shape[y * stride + x * 4 + k]? = some (shapeByte shape stride x y k) := by
    intro k hk
    have hlt : y * stride + x * 4 + k < shape.length := by omega
    rw [shapeByte, List.getElem?_eq_getElem hlt, Option.getD_some]
  have hpix : BGRA.ofU32 (if shapeByte shape stride x y 3 = 0 then
      opaqueBits ||| (((shapeByte shape stride x y 2).toUInt32 <<< (8 * 2)) |||
        ((shapeByte shape stride x y 1).toUInt32 <<< (8 * 1)) |||
        ((shapeByte shape stride x y 0).toUInt32 <<< (8 * 0)))
      else inverted) = maskedMarks shape stride x y := by
    unfold maskedMarks
    split
    · exact ofU32_opaque _ _ _
    · rfl
  obtain ⟨fb', hwrite, hm'⟩ := hm.write hx hy (shapeByte shape stride x y 3 != 0)
    fun h => bne_iff_ne.2 (maskedMarks_eq_inverted.1 (hpix.symm.trans h))
  rw [hpix] at hm'
  refine ⟨(fb', s.2 || shapeByte shape stride x y 3 != 0), ?_, hm'⟩
  simp only [Cursor.maskedColorPixel, hbyte 0 (by omega), hbyte 1 (by omega), hbyte 2 (by omega),
    hbyte 3 (by omega), Option.bind_eq_bind, Option.bind_some, hwrite]

theorem Marked.maskedScan (shape : List UInt8) (hwidth : fb.width = W) (hheight : fb.height = H)
    (hw : w ≤ W) (hh : h ≤ H) (hshape : shape.length = 4 * w * h) :
    ∃ s, forRaster h w (Cursor.maskedColorPixel shape (4 * w) W) (fb.fill, false) = some s ∧
      Marked W H s.1 s.2
        (inArea w h (maskedMarks shape (4 * w)) fun _ _ => .ofU32 transparent) := by
  refine forRaster_sweep (fun s : Framebuffer × Bool => Marked W H s.1 s.2)
    (Marked.fill hwidth hheight) fun s x y hx hy hm => hm.maskedColorPixel (by omega) (by omega) ?_
  have hrows : 4 * w * (y + 1) ≤ 4 * w * h := Nat.mul_le_mul_left _ hy
  rw [Nat.mul_succ] at hrows
  rw [hshape, Nat.mul_comm y]
  omega

theorem writeMaskedColor_bytes (fb : Framebuffer) (shape : List UInt8) (hwidth : fb.width = W)
    (hheight : fb.height = H) (hw0 : 1 ≤ w) (hw : w ≤ W) (hh : h ≤ H)
    (hshape : shape.length = 4 * w * h) :
    ∃ fb', writeMaskedColor fb shape (4 * w) = some fb' ∧
      ∀ x y, x < W → y < H → fb'.bytesAt x y =
        if x < w ∧ y < h ∧ shapeByte shape (4 * w) x y 3 = 0 then
          [shapeByte shape (4 * w) x y 0, shapeByte shape (4 * w) x y 2,
            shapeByte shape (4 * w) x y 1, 0xFF]
        else [0, 0, 0, 0] := by
  have hdiv : checkedDiv shape.length (4 * w) = some h := by
    rw [hshape]
    exact checkedDiv_mul (by omega) h
  have hcols : 4 * w / 4 = w := Nat.mul_div_cancel_left w (by decide)
  obtain ⟨s, hscan, hm⟩ := Marked.maskedScan shape hwidth hheight hw hh hshape
  have houtline : outlineMaskedPixel w h W = outlinePixel w h W := by
    funext pixels x y
    exact outlineMaskedPixel_eq w h W pixels x y
  obtain ⟨fb', hfinish, hbytes⟩ := hm.finish houtline hw hh transparent
  refine ⟨fb', ?_, fun x y hx hy => ?_⟩
  · simp only [writeMaskedColor, hwidth, hcols, hdiv, hscan, Option.bind_eq_bind,
      Option.bind_some]
    exact hfinish
  · rw [hbytes x y hx hy]
    by_cases harea : x < w ∧ y < h
    · -- No mark is transparent, so the outline goes nowhere.
      have hmarks := inArea_of_lt harea.1 harea.2 (maskedMarks shape (4 * w))
        fun _ _ => .ofU32 transparent
      have hsame := outlined_of_ne (w := w) (h := h) (hmarks.trans_ne maskedMarks_ne_transparent)
      rw [if_pos harea, replaced, hsame, hmarks]
      by_cases hmask : shapeByte shape (4 * w) x y 3 = 0
      · rw [if_neg (fun hinv => maskedMarks_eq_inverted.1 hinv hmask), maskedMarks, if_pos hmask,
          if_pos ⟨harea.1, harea.2, hmask⟩]
        rfl
      · rw [if_pos (maskedMarks_eq_inverted.2 hmask), if_neg fun hall => hmask hall.2.2]
        rfl
    · rw [if_neg harea, inArea_of_not harea, if_neg fun hall => harea ⟨hall.1, hall.2.1⟩]
      rfl

/-- **Green and red are swapped.**  The bytes of every pixel are what the host is to read exactly
if green and red are equal in every pixel of the shape that is shown. -/
theorem writeMaskedColor_bytes_iff (fb : Framebuffer) (shape : List UInt8) (w h : ℕ)
    (hwidth : fb.width = 64) (hheight : fb.height = 64) (hw0 : 1 ≤ w) (hw : w ≤ 64) (hh : h ≤ 64)
    (hshape : shape.length = 4 * w * h) :
    ∃ fb', writeMaskedColor fb shape (4 * w) = some fb' ∧
      ((∀ x y, x < 64 → y < 64 → fb'.bytesAt x y =
          if x < w ∧ y < h ∧ shapeByte shape (4 * w) x y 3 = 0 then
            [shapeByte shape (4 * w) x y 0, shapeByte shape (4 * w) x y 1,
              shapeByte shape (4 * w) x y 2, 0xFF]
          else [0, 0, 0, 0]) ↔
        ∀ x y, x < w → y < h → shapeByte shape (4 * w) x y 3 = 0 →
          shapeByte shape (4 * w) x y 1 = shapeByte shape (4 * w) x y 2) := by
  obtain ⟨fb', hwrite, hbytes⟩ := writeMaskedColor_bytes fb shape hwidth hheight hw0 hw hh hshape
  refine ⟨fb', hwrite, fun hright x y hx hy hmask => ?_, fun hequal x y hx hy => ?_⟩
  · have hboth := (hright x y (by omega) (by omega)).symm.trans
      (hbytes x y (by omega) (by omega))
    rw [if_pos ⟨hx, hy, hmask⟩, if_pos ⟨hx, hy, hmask⟩] at hboth
    exact (List.cons.inj (List.cons.inj hboth).2).1
  · rw [hbytes x y hx hy]
    split
    · next hshown => rw [hequal x y hshown.1 hshown.2.1 hshown.2.2]
    · rfl

/-- A grey pixel. -/
theorem writeMaskedColor_grey :
    ∃ fb', writeMaskedColor (.zeroed 64 64) [10, 20, 20, 0] 4 = some fb' ∧
      fb'.bytesAt 0 0 = [10, 20, 20, 0xFF] := by
  obtain ⟨fb', hwrite, hiff⟩ := writeMaskedColor_bytes_iff (.zeroed 64 64) [10, 20, 20, 0] 1 1 rfl
    rfl (by decide) (by decide) (by decide) (by decide)
  refine ⟨fb', hwrite, (hiff.2 ?_ 0 0 (by decide) (by decide)).trans (by decide)⟩
  intro x y hx hy _
  obtain rfl : x = 0 := by omega
  obtain rfl : y = 0 := by omega
  decide

/-- A pixel with green 20 and red 30 is shown with green 30 and red 20. -/
theorem greenAndRedSwapped :
    ∃ fb', writeMaskedColor (.zeroed 64 64) [10, 20, 30, 0] 4 = some fb' ∧
      fb'.bytesAt 0 0 = [10, 30, 20, 0xFF] := by
  obtain ⟨fb', hwrite, hbytes⟩ := writeMaskedColor_bytes (.zeroed 64 64) [10, 20, 30, 0]
    (w := 1) (h := 1) rfl rfl (by decide) (by decide) (by decide) (by decide)
  exact ⟨fb', hwrite, (hbytes 0 0 (by decide) (by decide)).trans (by decide)⟩

end MaskedColor

end Cursor

end VirtioGpu
