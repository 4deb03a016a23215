import VirtioGpu.Data.Fields
import VirtioGpu.Data.Raster

/-!
# The framebuffer of a cursor

A `Framebuffer` is an array of bytes, four for a pixel, that the host reads as a B8G8R8A8 resource:
blue, green, red and alpha.  The driver reads and writes it through the structure `BGRA`, which goes
to and from a 32-bit colour.

The fields of the structure are declared as `b`, `r`, `g`, `a`, and they lie in memory in this
order.  A pixel that is read back is the one that was written (`BGRA.ofU32_toU32`), so the driver
does not notice; the host gets green and red the wrong way round.

`Framebuffer.Shows` says which picture is in the bytes.  After `readU32_of_shows` and
`write_of_shows` no proof looks at the bytes again.
-/

namespace VirtioGpu

/-! ### Pixels -/

/-- `BGRA`, with the fields in the order of the declaration. -/
structure BGRA where
  b : UInt8
  r : UInt8
  g : UInt8
  a : UInt8
  deriving DecidableEq

namespace BGRA

/-- `From<u32>` -/
def ofU32 (pix : UInt32) : BGRA where
  b := ((pix >>> (8 * 0)) &&& 0xFF).toUInt8
  g := ((pix >>> (8 * 1)) &&& 0xFF).toUInt8
  r := ((pix >>> (8 * 2)) &&& 0xFF).toUInt8
  a := ((pix >>> (8 * 3)) &&& 0xFF).toUInt8

/-- `Into<u32>` -/
def toU32 (p : BGRA) : UInt32 :=
  (p.a.toUInt32 <<< (8 * 3)) ||| (p.r.toUInt32 <<< (8 * 2)) ||| (p.g.toUInt32 <<< (8 * 1)) |||
    (p.b.toUInt32 <<< (8 * 0))

/-- The bytes that `write_to_prefix` writes. -/
def toBytes (p : BGRA) : List UInt8 := [p.b, p.r, p.g, p.a]

def readFromPrefix : List UInt8 → Option BGRA
  | b :: r :: g :: a :: _ => some ⟨b, r, g, a⟩
  | _ => none

theorem toUInt8_and_255 (x : UInt32) : (x &&& 0xFF).toUInt8 = x.toUInt8 := by
  apply UInt8.toBitVec_inj.1
  simp only [UInt32.toBitVec_toUInt8, UInt32.toBitVec_and, BitVec.setWidth_and]
  exact BitVec.and_allOnes

theorem ofU32_toU32 (p : BGRA) : ofU32 p.toU32 = p := by
  have hext : ∀ q : BGRA, q.b = p.b → q.r = p.r → q.g = p.g → q.a = p.a → q = p := by
    rintro ⟨⟩ rfl rfl rfl rfl
    rfl
  refine hext _ ?_ ?_ ?_ ?_
  all_goals
    simp only [ofU32, toU32, toUInt8_and_255]
    apply UInt8.toBitVec_inj.1
    ext i hi
    simp <;> grind

theorem toU32_eq_iff {p : BGRA} {pix : UInt32} (hpix : (ofU32 pix).toU32 = pix) :
    p.toU32 = pix ↔ p = ofU32 pix := by
  constructor
  · intro h
    rw [← h, ofU32_toU32]
  · intro h
    rw [h, hpix]

end BGRA

/-! ### Framebuffers -/

/-- `Framebuffer`, whose format has four bytes for a pixel. -/
@[ext] structure Framebuffer where
  width : ℕ
  height : ℕ
  pixels : List UInt8
  length_pixels : pixels.length = width * height * 4

namespace Framebuffer

/-- What `Framebuffer::try_new` makes. -/
def zeroed (width height : ℕ) : Framebuffer :=
  ⟨width, height, .replicate (width * height * 4) 0, List.length_replicate⟩

variable (fb : Framebuffer)

/-- `pixels.fill(0)` -/
def fill : Framebuffer := zeroed fb.width fb.height

/-- A slice of the bytes is copied to; nothing if it ends after them. -/
def copy (off : ℕ) (new : List UInt8) : Option Framebuffer :=
  if h : off + new.length ≤ fb.pixels.length then
    some { fb with
      pixels := writeAt fb.pixels off new
      length_pixels := (length_writeAt h).trans fb.length_pixels }
  else none

/-- `BGRA::read_from_prefix(&pixels[idx * 4..]).unwrap()` -/
def read (idx : ℕ) : Option BGRA :=
  BGRA.readFromPrefix (fb.pixels.drop (idx * 4))

/-- `BGRA::read_from_prefix_into_u32(&pixels[idx * 4..])` -/
def readU32 (idx : ℕ) : Option UInt32 := (fb.read idx).map BGRA.toU32

/-- `BGRA::from(pix).write_to_prefix(&mut pixels[idx * 4..]).unwrap()` -/
def write (idx : ℕ) (pix : UInt32) : Option Framebuffer :=
  fb.copy (idx * 4) (BGRA.ofU32 pix).toBytes

/-- The bytes of the pixel in column `x` and row `y`, as the host reads them. -/
def bytesAt (x y : ℕ) : List UInt8 :=
  fieldAt fb.pixels ((y * fb.width + x) * 4) 4

theorem copy_eq_some {fb : Framebuffer} {off : ℕ} {new : List UInt8}
    (h : off + new.length ≤ fb.pixels.length) :
    ∃ fb', fb.copy off new = some fb' ∧ fb'.width = fb.width ∧ fb'.height = fb.height ∧
      fb'.pixels = writeAt fb.pixels off new :=
  ⟨_, dif_pos h, rfl, rfl, rfl⟩

/-- A framebuffer of `W` columns and `H` rows that holds the picture `g`. -/
structure Shows (W H : ℕ) (fb : Framebuffer) (g : ℕ → ℕ → BGRA) : Prop where
  width : fb.width = W
  height : fb.height = H
  bytes : ∀ x y, x < W → y < H → fb.bytesAt x y = (g x y).toBytes

theorem index_lt {x y W H : ℕ} (hx : x < W) (hy : y < H) : y * W + x < W * H :=
  calc y * W + x < y * W + W := Nat.add_lt_add_left hx _
    _ = (y + 1) * W := (Nat.succ_mul y W).symm
    _ ≤ H * W := Nat.mul_le_mul_right W hy
    _ = W * H := Nat.mul_comm H W

theorem index_inj {x y x' y' W : ℕ} (hx : x < W) (hx' : x' < W)
    (h : y * W + x = y' * W + x') : x = x' ∧ y = y' := by
  have hmod := congrArg (· % W) h
  simp only [Nat.mul_add_mod_self_right, Nat.mod_eq_of_lt hx, Nat.mod_eq_of_lt hx'] at hmod
  subst hmod
  exact ⟨rfl, Nat.eq_of_mul_eq_mul_right (Nat.zero_lt_of_lt hx) (Nat.add_right_cancel h)⟩

theorem readFromPrefix_drop {l : List UInt8} {off : ℕ} {p : BGRA}
    (h : fieldAt l off 4 = p.toBytes) : BGRA.readFromPrefix (l.drop off) = some p := by
  have hsplit := List.take_append_drop 4 (l.drop off)
  rw [show (l.drop off).take 4 = p.toBytes from h] at hsplit
  rw [← hsplit]
  rfl

section Shows

variable {W H x y : ℕ} {fb} {g : ℕ → ℕ → BGRA}

theorem Shows.length (hs : Shows W H fb g) : fb.pixels.length = W * H * 4 := by
  rw [fb.length_pixels, hs.width, hs.height]

theorem shows_zeroed (W H : ℕ) : Shows W H (zeroed W H) fun _ _ => .ofU32 0 where
  width := rfl
  height := rfl
  bytes x y hx hy := by
    have hlt := index_lt hx hy
    have hroom : 4 ≤ W * H * 4 - (y * W + x) * 4 := by omega
    rw [bytesAt, fieldAt]
    simp only [zeroed, List.drop_replicate, List.take_replicate, Nat.min_eq_left hroom]
    rfl

theorem readU32_of_shows (hs : Shows W H fb g) (hx : x < W) (hy : y < H) :
    fb.readU32 (y * W + x) = some (g x y).toU32 := by
  have hbytes := hs.bytes x y hx hy
  rw [bytesAt, hs.width] at hbytes
  rw [readU32, read, readFromPrefix_drop hbytes, Option.map_some]

theorem write_of_shows (hs : Shows W H fb g) (hx : x < W) (hy : y < H) (pix : UInt32) :
    ∃ fb', fb.write (y * W + x) pix = some fb' ∧
      Shows W H fb' (setCell g x y (.ofU32 pix)) := by
  have hlt := index_lt hx hy
  have hroom : (y * W + x) * 4 + (BGRA.ofU32 pix).toBytes.length ≤ fb.pixels.length := by
    rw [hs.length, show (BGRA.ofU32 pix).toBytes.length = 4 from rfl]
    omega
  obtain ⟨fb', hcopy, hwidth, hheight, hpixels⟩ := copy_eq_some hroom
  refine ⟨fb', hcopy, hwidth.trans hs.width, hheight.trans hs.height, fun x' y' hx' hy' => ?_⟩
  have hold := hs.bytes x' y' hx' hy'
  rw [bytesAt, hs.width] at hold
  rw [bytesAt, hwidth, hs.width, hpixels]
  unfold setCell
  by_cases h : x' = x ∧ y' = y
  · obtain ⟨rfl, rfl⟩ := h
    rw [if_pos ⟨rfl, rfl⟩]
    exact fieldAt_writeAt_self hroom
  · rw [if_neg h, ← hold]
    have hne : y' * W + x' ≠ y * W + x := fun he => h (index_inj hx' hx he)
    refine fieldAt_writeAt_of_disjoint hroom ?_
    rw [show (BGRA.ofU32 pix).toBytes.length = 4 from rfl]
    omega

end Shows

end Framebuffer

end VirtioGpu
