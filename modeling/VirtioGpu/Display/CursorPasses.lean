import VirtioGpu.Display.Framebuffer

/-!
# How a pointer shape becomes an image

A pointer shape comes in one of three formats, and the driver makes pixels of it in the framebuffer
of the cursor:

* `writeBgra` copies the rows of a colour shape;
* `writeMono` combines an AND mask and an XOR mask.  A pixel that is to invert the screen cannot be
  shown; it becomes white, with a black outline around it;
* `writeMaskedColor` drops the pixels that are to be combined with the screen.

The last two go over the framebuffer up to three times, in place, and mark what they are to come
back to by a pixel value of its own.  `Marked` is what the first pass leaves, and `Marked.finish`
what the passes after it make of it; for these the two functions differ in nothing that counts
(`outlineMaskedPixel_eq`).
-/

namespace VirtioGpu

namespace Cursor

def background : UInt32 := 0x00000000
def foreground : UInt32 := 0x00FFFFFF
def transparent : UInt32 := 0x00000000
/-- `OPAQUE` -/
def opaqueBits : UInt32 := 0xFF000000
def inverted : UInt32 := 0x80000000

/-- A division, which panics if the divisor is zero. -/
def checkedDiv (a b : ℕ) : Option ℕ := if b = 0 then none else some (a / b)

theorem checkedDiv_mul {b : ℕ} (hb : 0 < b) (a : ℕ) : checkedDiv (b * a) b = some a := by
  rw [checkedDiv, if_neg (by omega), Nat.mul_div_cancel_left a hb]

/-! ### Colour shapes -/

variable (pixels : Framebuffer)

def writeBgra (src : List UInt8) (srcStride : ℕ) : Option Framebuffer := do
  let dstStride := pixels.width * 4
  let rows ← checkedDiv src.length srcStride
  forRange rows
    (fun pixels row => pixels.copy (row * dstStride) (fieldAt src (row * srcStride) srcStride))
    pixels

/-! ### The passes over the pixels of a mask -/

/-- Whether a pixel is marked as inverting. -/
def isInverted (idx : ℕ) : Option Bool :=
  (pixels.readU32 idx).map fun pix => pix == inverted

/-- `(c && read) || rest`, where what is not needed is not read. -/
def andThenOr (c : Bool) (read rest : Option Bool) : Option Bool :=
  if c then read.bind fun found => if found then some true else rest else rest

def hasInvertedNeighbor (w h dstW : ℕ) (pixels : Framebuffer) (x y : ℕ) : Option Bool :=
  let idx := y * dstW + x
  andThenOr (x > 0) (isInverted pixels (idx - 1)) <|
  andThenOr (x + 1 < w) (isInverted pixels (idx + 1)) <|
  andThenOr (y > 0) (isInverted pixels (idx - dstW)) <|
  andThenOr (y + 1 < h) (isInverted pixels (idx + dstW)) <|
  some false

/-- The second pass, at one pixel: a transparent one next to an inverting one becomes black. -/
def outlinePixel (w h dstW : ℕ) (pixels : Framebuffer) (x y : ℕ) : Option Framebuffer := do
  let idx := y * dstW + x
  let pix ← pixels.readU32 idx
  if pix ≠ transparent then some pixels
  else
    let found ← hasInvertedNeighbor w h dstW pixels x y
    if found then pixels.write idx (opaqueBits ||| background) else some pixels

/-- The third pass, at one pixel: an inverting one becomes `pix`. -/
def replacePixel (dstW : ℕ) (pix : UInt32) (pixels : Framebuffer) (x y : ℕ) :
    Option Framebuffer := do
  let idx := y * dstW + x
  let found ← isInverted pixels idx
  if found then pixels.write idx pix else some pixels

/-! ### Monochrome shapes -/

/-- The first pass over the masks. -/
structure MonoScan where
  pixels : Framebuffer
  hasInverted : Bool
  /-- The bit of the masks that is next. -/
  bit : UInt8

/-- What the first pass writes for the bits of the two masks. -/
def monoPix (and xor : Bool) : UInt32 :=
  if and then
    if xor then inverted else transparent
  else
    if xor then opaqueBits ||| foreground else opaqueBits ||| background

/-- The first pass, at one pixel. -/
def monoPixel (andMask xorMask : List UInt8) (maskStride dstW y : ℕ) (s : MonoScan) (x : ℕ) :
    Option MonoScan := do
  let byteIdx := y * maskStride + x / 8
  let andByte ← andMask[byteIdx]?
  let xorByte ← xorMask[byteIdx]?
  let and := andByte &&& s.bit != 0
  let xor := xorByte &&& s.bit != 0
  let pixels ← s.pixels.write (y * dstW + x) (monoPix and xor)
  let bit := s.bit >>> 1
  some ⟨pixels, s.hasInverted || (and && xor), if bit = 0 then 0x80 else bit⟩

def writeMono (mask : List UInt8) (maskStride : ℕ) :
    Option Framebuffer := do
  let dstW := pixels.width
  let w := maskStride * 8
  let h ← checkedDiv mask.length (maskStride * 2)
  let andMask := mask.take (mask.length / 2)
  let xorMask := mask.drop (mask.length / 2)
  let scan ← forRange h
    (fun s y => forRange w (monoPixel andMask xorMask maskStride dstW y) { s with bit := 0x80 })
    ⟨pixels.fill, false, 0x80⟩
  if scan.hasInverted then
    let pixels ← forRaster h w (outlinePixel w h dstW) scan.pixels
    forRaster h w (replacePixel dstW (opaqueBits ||| foreground)) pixels
  else some scan.pixels

/-! ### Masked colour shapes -/

/-- The first pass, at one pixel. -/
def maskedColorPixel (maskedColor : List UInt8) (maskStride dstW : ℕ) (s : Framebuffer × Bool)
    (x y : ℕ) : Option (Framebuffer × Bool) := do
  let b ← maskedColor[y * maskStride + x * 4 + 0]?
  let g ← maskedColor[y * maskStride + x * 4 + 1]?
  let r ← maskedColor[y * maskStride + x * 4 + 2]?
  let mask ← maskedColor[y * maskStride + x * 4 + 3]?
  let pix :=
    if mask = 0 then
      opaqueBits ||| ((r.toUInt32 <<< (8 * 2)) ||| (g.toUInt32 <<< (8 * 1)) |||
        (b.toUInt32 <<< (8 * 0)))
    else inverted
  let pixels ← s.1.write (y * dstW + x) pix
  some (pixels, s.2 || mask != 0)

/-- The second pass, which here looks twice whether the pixel is transparent. -/
def outlineMaskedPixel (w h dstW : ℕ) (pixels : Framebuffer) (x y : ℕ) : Option Framebuffer := do
  let pix ← pixels.readU32 (y * dstW + x)
  if pix ≠ transparent then some pixels else outlinePixel w h dstW pixels x y

def writeMaskedColor (maskedColor : List UInt8) (maskStride : ℕ) :
    Option Framebuffer := do
  let dstW := pixels.width
  let w := maskStride / 4
  let h ← checkedDiv maskedColor.length maskStride
  let (pixels, hasInverted) ←
    forRaster h w (maskedColorPixel maskedColor maskStride dstW) (pixels.fill, false)
  if hasInverted then
    let pixels ← forRaster h w (outlineMaskedPixel w h dstW) pixels
    forRaster h w (replacePixel dstW transparent) pixels
  else some pixels

/-! ### What the passes do to a picture -/

section Passes

open Framebuffer

/-- A cell next to `(x, y)` within `w` columns and `h` rows has the property `p`. -/
def HasNeighbor (p : ℕ → ℕ → Prop) (w h x y : ℕ) : Prop :=
  (0 < x ∧ p (x - 1) y) ∨ (x + 1 < w ∧ p (x + 1) y) ∨
    (0 < y ∧ p x (y - 1)) ∨ (y + 1 < h ∧ p x (y + 1))

instance (p : ℕ → ℕ → Prop) [∀ x y, Decidable (p x y)] (w h x y : ℕ) :
    Decidable (HasNeighbor p w h x y) :=
  inferInstanceAs (Decidable (_ ∨ _ ∨ _ ∨ _))

theorem HasNeighbor.congr {p q : ℕ → ℕ → Prop} {w h x y : ℕ} (hx : x < w) (hy : y < h)
    (hpq : ∀ x' y', x' < w → y' < h → (p x' y' ↔ q x' y')) :
    HasNeighbor p w h x y ↔ HasNeighbor q w h x y := by
  unfold HasNeighbor
  refine or_congr ?_ (or_congr ?_ (or_congr ?_ ?_))
  · exact and_congr_right fun _ => hpq _ _ (by omega) hy
  · exact and_congr_right fun h => hpq _ _ h hy
  · exact and_congr_right fun _ => hpq _ _ hx (by omega)
  · exact and_congr_right fun h => hpq _ _ hx h

/-- The second pass, as a function of the picture. -/
def outlined (w h : ℕ) (g : ℕ → ℕ → BGRA) (x y : ℕ) : BGRA :=
  if g x y = .ofU32 transparent ∧ HasNeighbor (fun x y => g x y = .ofU32 inverted) w h x y then
    .ofU32 (opaqueBits ||| background)
  else g x y

/-- The third pass, as a function of the picture. -/
def replaced (pix : UInt32) (g : ℕ → ℕ → BGRA) (x y : ℕ) : BGRA :=
  if g x y = .ofU32 inverted then .ofU32 pix else g x y

theorem toU32_eq_inverted {p : BGRA} : p.toU32 = inverted ↔ p = .ofU32 inverted :=
  BGRA.toU32_eq_iff (by decide)

theorem toU32_eq_transparent {p : BGRA} : p.toU32 = transparent ↔ p = .ofU32 transparent :=
  BGRA.toU32_eq_iff (by decide)

/-- The outline neither adds nor removes a mark. -/
theorem outlined_eq_inverted {w h x y : ℕ} {g : ℕ → ℕ → BGRA} :
    outlined w h g x y = .ofU32 inverted ↔ g x y = .ofU32 inverted := by
  unfold outlined
  split
  · next hcell =>
    rw [hcell.1]
    decide
  · exact Iff.rfl

theorem outlined_of_ne {w h x y : ℕ} {g : ℕ → ℕ → BGRA} (hne : g x y ≠ .ofU32 transparent) :
    outlined w h g x y = g x y :=
  if_neg fun hboth => hne hboth.1

variable {W H w h x y : ℕ} {fb : Framebuffer} {g : ℕ → ℕ → BGRA}

theorem isInverted_of_shows (hs : Shows W H fb g) (hx : x < W) (hy : y < H) :
    isInverted fb (y * W + x) = some (decide (g x y = .ofU32 inverted)) := by
  rw [isInverted, readU32_of_shows hs hx hy, Option.map_some]
  exact congrArg some (decide_eq_decide.2 toU32_eq_inverted)

theorem andThenOr_eq {c p q : Prop} [Decidable c] [Decidable p] [Decidable q]
    {read rest : Option Bool} (hread : c → read = some (decide p))
    (hrest : rest = some (decide q)) :
    andThenOr (decide c) read rest = some (decide ((c ∧ p) ∨ q)) := by
  rw [andThenOr, hrest]
  by_cases hc : c
  · rw [hread hc]
    by_cases hp : p <;> simp [hc, hp]
  · simp [hc]

theorem hasInvertedNeighbor_of_shows (hs : Shows W H fb g) (hw : w ≤ W) (hh : h ≤ H)
    (hx : x < w) (hy : y < h) :
    hasInvertedNeighbor w h W fb x y =
      some (decide (HasNeighbor (fun x y => g x y = .ofU32 inverted) w h x y)) := by
  have hat : ∀ {idx x' y'}, idx = y' * W + x' → x' < w → y' < h →
      isInverted fb idx = some (decide (g x' y' = .ofU32 inverted)) := by
    rintro idx x' y' rfl hx' hy'
    exact isInverted_of_shows hs (by omega) (by omega)
  -- The index of each neighbour is that of a pixel of the area.
  have hleft : x > 0 → y * W + x - 1 = y * W + (x - 1) := by omega
  have hup : y > 0 → y * W + x - W = (y - 1) * W + x := by
    intro hy
    obtain ⟨y, rfl⟩ := Nat.exists_eq_succ_of_ne_zero (by omega : y ≠ 0)
    rw [Nat.succ_mul, Nat.succ_sub_one]
    omega
  have hdown : y * W + x + W = (y + 1) * W + x := by
    rw [Nat.succ_mul]
    omega
  have hlast : andThenOr (y + 1 < h) (isInverted fb (y * W + x + W)) (some false) =
      some (decide (y + 1 < h ∧ g x (y + 1) = .ofU32 inverted)) := by
    have hnone : some false = some (decide False) := rfl
    rw [hnone, andThenOr_eq (fun hc => hat hdown hx hc) rfl]
    simp only [or_false]
  exact andThenOr_eq (fun hc => hat (hleft hc) (by omega) hy)
    (andThenOr_eq (fun hc => hat (Nat.add_assoc _ _ _) hc hy)
      (andThenOr_eq (fun hc => hat (hup hc) hx (by omega)) hlast))

theorem outlinePixel_of_shows (hs : Shows W H fb g) (hw : w ≤ W) (hh : h ≤ H)
    (hx : x < w) (hy : y < h) :
    ∃ fb', outlinePixel w h W fb x y = some fb' ∧
      Shows W H fb' (setCell g x y (outlined w h g x y)) := by
  have hxW : x < W := by omega
  have hyH : y < H := by omega
  have hread := readU32_of_shows hs hxW hyH
  have hfound := hasInvertedNeighbor_of_shows hs hw hh hx hy
  unfold outlinePixel outlined
  simp only [hread, Option.bind_eq_bind, Option.bind_some, ne_eq, toU32_eq_transparent]
  by_cases hclear : g x y = .ofU32 transparent
  · rw [if_neg (not_not_intro hclear), hfound, Option.bind_some]
    by_cases hnear : HasNeighbor (fun x y => g x y = .ofU32 inverted) w h x y
    · rw [if_pos (decide_eq_true hnear), if_pos ⟨hclear, hnear⟩]
      exact write_of_shows hs hxW hyH _
    · rw [if_neg (by simpa using hnear), if_neg (fun hboth => hnear hboth.2), setCell_self]
      exact ⟨fb, rfl, hs⟩
  · rw [if_pos hclear, if_neg (fun hboth => hclear hboth.1), setCell_self]
    exact ⟨fb, rfl, hs⟩

/-- Looking twice makes no difference. -/
theorem outlineMaskedPixel_eq (w h dstW : ℕ) (pixels : Framebuffer) (x y : ℕ) :
    outlineMaskedPixel w h dstW pixels x y = outlinePixel w h dstW pixels x y := by
  unfold outlineMaskedPixel outlinePixel
  cases hread : pixels.readU32 (y * dstW + x) with
  | none => simp [hread]
  | some pix => by_cases hpix : pix = transparent <;> simp [hread, hpix]

/-- **The second pass.**  The pixels behind the sweep have their outline already, but this changes
no mark, and marks are all that a step looks for in other pixels. -/
theorem outline_of_shows (hs : Shows W H fb g) (hw : w ≤ W) (hh : h ≤ H) :
    ∃ fb', forRaster h w (outlinePixel w h W) fb = some fb' ∧
      Shows W H fb' (inArea w h (outlined w h g) g) := by
  refine forRaster_sweep (Shows W H) hs fun fb x y hx hy hs => ?_
  obtain ⟨fb', hstep, hs'⟩ := outlinePixel_of_shows hs hw hh hx hy
  refine ⟨fb', hstep, ?_⟩
  have hsame : outlined w h (swept w x y (outlined w h g) g) x y = outlined w h g x y := by
    unfold outlined
    rw [swept_self]
    refine if_congr (and_congr_right fun _ => HasNeighbor.congr hx hy fun x' y' _ _ => ?_) rfl rfl
    exact swept_congr (p := fun c => c = BGRA.ofU32 inverted) outlined_eq_inverted
  rwa [hsame] at hs'

/-- **The third pass.** -/
theorem replace_of_shows (hs : Shows W H fb g) (hw : w ≤ W) (hh : h ≤ H) (pix : UInt32) :
    ∃ fb', forRaster h w (replacePixel W pix) fb = some fb' ∧
      Shows W H fb' (inArea w h (replaced pix g) g) := by
  refine forRaster_sweep (Shows W H) hs fun fb x y hx hy hs => ?_
  have hxW : x < W := by omega
  have hyH : y < H := by omega
  have hread := isInverted_of_shows hs hxW hyH
  rw [swept_self] at hread
  unfold replacePixel replaced
  simp only [hread, Option.bind_eq_bind, Option.bind_some, decide_eq_true_eq]
  by_cases hmark : g x y = .ofU32 inverted
  · rw [if_pos hmark, if_pos hmark]
    exact write_of_shows hs hxW hyH pix
  · rw [if_neg hmark, if_neg hmark]
    refine ⟨fb, rfl, ?_⟩
    have hsame := setCell_self (swept w x y (replaced pix g) g) x y
    rw [swept_self] at hsame
    unfold replaced at hsame
    rw [hsame]
    exact hs

/-- What the first pass leaves: a picture, and a note whether there are marks on it. -/
structure Marked (W H : ℕ) (fb : Framebuffer) (hasInverted : Bool) (g : ℕ → ℕ → BGRA) : Prop where
  picture : Shows W H fb g
  noted : ∀ x y, x < W → y < H → g x y = .ofU32 inverted → hasInverted = true

theorem Marked.write {hasInverted : Bool} {pix : UInt32} (hm : Marked W H fb hasInverted g)
    (hx : x < W) (hy : y < H) (mark : Bool)
    (hmark : BGRA.ofU32 pix = .ofU32 inverted → mark = true) :
    ∃ fb', fb.write (y * W + x) pix = some fb' ∧
      Marked W H fb' (hasInverted || mark) (setCell g x y (.ofU32 pix)) := by
  obtain ⟨fb', hwrite, hs⟩ := write_of_shows hm.picture hx hy pix
  refine ⟨fb', hwrite, hs, fun x' y' hx' hy' hinv => ?_⟩
  rw [Bool.or_eq_true]
  unfold setCell at hinv
  split at hinv
  · exact .inr (hmark hinv)
  · exact .inl (hm.noted x' y' hx' hy' hinv)

theorem Marked.fill (hwidth : fb.width = W) (hheight : fb.height = H) :
    Marked W H fb.fill false fun _ _ => .ofU32 transparent where
  picture := by
    rw [Framebuffer.fill, hwidth, hheight]
    exact shows_zeroed W H
  noted := by
    intro _ _ _ _ hinv
    exact absurd hinv (by decide)

/-- **The passes after the first.**  They are left out if there is nothing they would do. -/
theorem Marked.finish {outline : Framebuffer → ℕ → ℕ → Option Framebuffer}
    (houtline : outline = outlinePixel w h W) {hasInverted : Bool}
    (hm : Marked W H fb hasInverted g) (hw : w ≤ W) (hh : h ≤ H) (pix : UInt32) :
    ∃ fb', (if hasInverted then
        (forRaster h w outline fb).bind (forRaster h w (replacePixel W pix))
      else some fb) = some fb' ∧
      ∀ x y, x < W → y < H → fb'.bytesAt x y =
        (if x < w ∧ y < h then replaced pix (outlined w h g) x y else g x y).toBytes := by
  subst houtline
  cases hasInverted with
  | false =>
    refine ⟨fb, rfl, fun x y hx hy => ?_⟩
    have hunmarked : ∀ x y, x < W → y < H → g x y ≠ .ofU32 inverted := by
      intro x y hx hy hinv
      exact Bool.false_ne_true (hm.noted x y hx hy hinv)
    rw [hm.picture.bytes x y hx hy]
    congr 1
    split
    · next harea =>
      have hnone : ¬ HasNeighbor (fun x y => g x y = .ofU32 inverted) w h x y := by
        rw [HasNeighbor.congr (q := fun _ _ => False) harea.1 harea.2 fun x' y' hx' hy' =>
          iff_false_intro (hunmarked x' y' (by omega) (by omega))]
        simp [HasNeighbor]
      have hsame : outlined w h g x y = g x y := if_neg fun hboth => hnone hboth.2
      rw [replaced, hsame, if_neg (hunmarked x y hx hy)]
    · rfl
  | true =>
    obtain ⟨fb₁, houtlined, hs₁⟩ := outline_of_shows hm.picture hw hh
    obtain ⟨fb₂, hreplaced, hs₂⟩ := replace_of_shows hs₁ hw hh pix
    refine ⟨fb₂, by rw [if_pos rfl, houtlined, Option.bind_some, hreplaced], fun x y hx hy => ?_⟩
    rw [hs₂.bytes x y hx hy]
    congr 1
    split
    · next harea =>
      rw [inArea_of_lt harea.1 harea.2, replaced, replaced, inArea_of_lt harea.1 harea.2]
    · next harea => rw [inArea_of_not harea, inArea_of_not harea]

end Passes

end Cursor

end VirtioGpu
