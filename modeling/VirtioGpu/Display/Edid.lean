import VirtioGpu.Data.Except
import VirtioGpu.Display.Sources
import Mathlib.Data.List.Sort

/-!
# What is in an EDID

The host describes a display by an EDID, 1024 bytes of which the first 128 are the base block
(`edid.rs`).  It has one detailed timing, the preferred mode, and eight slots for standard timings,
two bytes each; the driver makes the modes of an output from them (`VidPnOutput.new`).

`Display` is what such a block is meant to say, and `Edid.Describes` how it says it: a width and a
height of twelve bits, split over two bytes, a standard timing as a width in steps of eight pixels
and the ratio of the sides.

* `edid_modes` : what a block describes is what the output gets, whatever is in the other bytes.
* `edid_bounded` : what *any* 1024 bytes can make the driver read; nothing panics.
* `descriptor_read` : `dxgkrnl` gets the bytes that the modes are from, in blocks of any lengths.
-/

namespace VirtioGpu

/-! ### The parser -/

inductive AspectRatio where
  | ratio16x10
  | ratio4x3
  | ratio5x4
  | ratio16x9
  deriving DecidableEq

inductive EdidPanic where
  | unreachable
  /-- A slice is out of range. -/
  | range

namespace AspectRatio

def fromBits (bits : UInt8) : Except EdidPanic AspectRatio :=
  if bits = 0 then .ok .ratio16x10
  else if bits = 1 then .ok .ratio4x3
  else if bits = 2 then .ok .ratio5x4
  else if bits = 3 then .ok .ratio16x9
  else .error .unreachable

def vPixels (ratio : AspectRatio) (hPixels : UInt32) : UInt32 :=
  match ratio with
  | .ratio16x10 => hPixels * 10 / 16
  | .ratio4x3 => hPixels * 3 / 4
  | .ratio5x4 => hPixels * 4 / 5
  | .ratio16x9 => hPixels * 9 / 16

end AspectRatio

/-- `StandardTiming::parse`; the timing as a mode. -/
def StandardTiming.parse (bytes : UInt8 × UInt8) : Except EdidPanic (Option MonitorMode) :=
  if bytes = (1, 1) then .ok none
  else do
    let hPixels := (bytes.1.toUInt32 + 31) * 8
    let aspect ← AspectRatio.fromBits ((bytes.2 >>> 6) &&& 0x03)
    return some ⟨hPixels, aspect.vPixels hPixels⟩

structure DetailedTiming where
  hActive : UInt32
  hBlank : UInt32
  vActive : UInt32
  vBlank : UInt32
  pixelClockHz : UInt32

variable (low mixed : UInt8)

/-- The lower 8 bits are in one byte, the upper 4 bits in the high nibble of another. -/
def highNibble : UInt32 := low.toUInt32 ||| ((mixed.toUInt32 &&& 0xF0) <<< 4)

/-- The lower 8 bits are in one byte, the upper 4 bits in the low nibble of another. -/
def lowNibble : UInt32 := low.toUInt32 ||| ((mixed.toUInt32 &&& 0x0F) <<< 8)

def DetailedTiming.parse (bytes : Fin 18 → UInt8) : Option DetailedTiming :=
  let pixelClock10khz := (bytes 0).toUInt32 ||| ((bytes 1).toUInt32 <<< 8)
  if pixelClock10khz = 0 then none
  else
    let hActive := highNibble (bytes 2) (bytes 4)
    let hBlank := lowNibble (bytes 3) (bytes 4)
    let vActive := highNibble (bytes 5) (bytes 7)
    let vBlank := lowNibble (bytes 6) (bytes 7)
    if hActive = 0 ∨ vActive = 0 then none
    else some ⟨hActive, hBlank, vActive, vBlank, pixelClock10khz * 10000⟩

structure Edid where
  data : Fin 1024 → UInt8
  size : UInt32

def numStandardTimings : ℕ := 8

def dtd1Offset : ℕ := 0x36

def standardTimingsOffset : ℕ := 38

/-- The number of pixels, by which modes are sorted. -/
def MonitorMode.pixels (m : MonitorMode) : ℕ := m.width.toNat * m.height.toNat

namespace Edid

variable (e : Edid)

def hasBaseBlock : Bool := e.size ≥ 128

def firstDetailedTiming : Option DetailedTiming :=
  if e.hasBaseBlock then
    DetailedTiming.parse fun i => e.data ⟨dtd1Offset + i, by rw [dtd1Offset]; omega⟩
  else none

def standardTiming (index : ℕ) : Except EdidPanic (Option MonitorMode) :=
  let offset := standardTimingsOffset + index * 2
  if h : offset + 2 ≤ 1024 then
    StandardTiming.parse (e.data ⟨offset, by omega⟩, e.data ⟨offset + 1, by omega⟩)
  else .error .range

def preferredResolution : Option MonitorMode :=
  e.firstDetailedTiming.map fun t => ⟨t.hActive, t.vActive⟩

def standardTimings : Except EdidPanic (List MonitorMode) :=
  if e.hasBaseBlock then do
    let timings ← (List.range numStandardTimings).mapM e.standardTiming
    return (timings.filterMap id).mergeSort fun a b => b.pixels ≤ a.pixels
  else .ok []

/-- What `VidPnOutput::new` gets from an EDID. -/
def modes : Except EdidPanic EdidModes := do
  return ⟨e.preferredResolution, ← e.standardTimings⟩

end Edid

/-! ### Bits -/

theorem toNat_or_eq {low : UInt8} {x : UInt32} {high : ℕ} (hx : x.toNat = high <<< 8) :
    (low.toUInt32 ||| x).toNat = low.toNat + 256 * high := by
  rw [UInt32.toNat_or, UInt8.toNat_toUInt32, hx, Nat.or_comm, Nat.shiftLeft_eq, Nat.mul_comm,
    ← Nat.two_pow_add_eq_or_of_lt low.toNat_lt, Nat.add_comm]

theorem toNat_highNibble : (highNibble low mixed).toNat = low.toNat + 256 * (mixed.toNat / 16) := by
  have hmixed := mixed.toNat_lt
  have hmask : mixed.toNat &&& 0xF0 = (mixed.toNat / 16) <<< 4 :=
    (by decide +kernel : ∀ n < 256, n &&& 0xF0 = (n / 16) <<< 4) _ hmixed
  refine toNat_or_eq ?_
  rw [UInt32.toNat_shiftLeft, UInt32.toNat_and, UInt8.toNat_toUInt32]
  change (mixed.toNat &&& 0xF0) <<< 4 % 2 ^ 32 = _
  rw [hmask, Nat.shiftLeft_eq, Nat.shiftLeft_eq, Nat.shiftLeft_eq]
  omega

theorem toNat_lowNibble : (lowNibble low mixed).toNat = low.toNat + 256 * (mixed.toNat % 16) := by
  refine toNat_or_eq ?_
  rw [UInt32.toNat_shiftLeft, UInt32.toNat_and, UInt8.toNat_toUInt32]
  change (mixed.toNat &&& 2 ^ 4 - 1) <<< 8 % 2 ^ 32 = _
  rw [Nat.and_two_pow_sub_one_eq_mod, Nat.shiftLeft_eq]
  omega

theorem toNat_word (low high : UInt8) :
    (low.toUInt32 ||| high.toUInt32 <<< 8).toNat = low.toNat + 256 * high.toNat := by
  have hhigh := high.toNat_lt
  refine toNat_or_eq ?_
  rw [UInt32.toNat_shiftLeft, UInt8.toNat_toUInt32]
  change high.toNat <<< 8 % 2 ^ 32 = _
  rw [Nat.shiftLeft_eq]
  omega

/-! ### What a block says -/

namespace AspectRatio

/-- The two bits for a ratio. -/
def code : AspectRatio → ℕ
  | .ratio16x10 => 0
  | .ratio4x3 => 1
  | .ratio5x4 => 2
  | .ratio16x9 => 3

/-- The height for a width. -/
def height (ratio : AspectRatio) (width : ℕ) : ℕ :=
  match ratio with
  | .ratio16x10 => width * 10 / 16
  | .ratio4x3 => width * 3 / 4
  | .ratio5x4 => width * 4 / 5
  | .ratio16x9 => width * 9 / 16

end AspectRatio

/-- A mode of so many pixels. -/
def MonitorMode.ofNat (width height : ℕ) : MonitorMode := ⟨.ofNat width, .ofNat height⟩

/-- A standard timing. -/
structure TimingSlot where
  width : ℕ
  ratio : AspectRatio
  refresh : ℕ
  deriving DecidableEq

namespace TimingSlot

/-- The timing can be written down: a width in steps of eight pixels and a rate, but not the one
whose bytes say that the slot is not used. -/
structure Valid (s : TimingSlot) : Prop where
  dvd : 8 ∣ s.width
  width : 256 ≤ s.width ∧ s.width ≤ 2288
  refresh : 60 ≤ s.refresh ∧ s.refresh ≤ 123
  used : s ≠ ⟨256, .ratio16x10, 61⟩

def mode (s : TimingSlot) : MonitorMode := .ofNat s.width (s.ratio.height s.width)

/-- The two bytes of a slot. -/
def bytes (s : TimingSlot) : UInt8 × UInt8 :=
  (.ofNat (s.width / 8 - 31), .ofNat (s.ratio.code * 64 + (s.refresh - 60)))

end TimingSlot

/-- The two bytes of a slot that is not used. -/
def unusedTiming : UInt8 × UInt8 := (1, 1)

namespace DetailedTiming

/-- The timing can be written down. -/
structure Valid (t : DetailedTiming) : Prop where
  hActive : 0 < t.hActive.toNat ∧ t.hActive.toNat < 2 ^ 12
  hBlank : t.hBlank.toNat < 2 ^ 12
  vActive : 0 < t.vActive.toNat ∧ t.vActive.toNat < 2 ^ 12
  vBlank : t.vBlank.toNat < 2 ^ 12
  clock : ∃ c, 0 < c ∧ c < 2 ^ 16 ∧ t.pixelClockHz.toNat = c * 10000

/-- The first eight bytes of the descriptor. -/
def bytes (t : DetailedTiming) : Fin 8 → ℕ
  | 0 => t.pixelClockHz.toNat / 10000 % 256
  | 1 => t.pixelClockHz.toNat / 10000 / 256
  | 2 => t.hActive.toNat % 256
  | 3 => t.hBlank.toNat % 256
  | 4 => t.hActive.toNat / 256 * 16 + t.hBlank.toNat / 256
  | 5 => t.vActive.toNat % 256
  | 6 => t.vBlank.toNat % 256
  | 7 => t.vActive.toNat / 256 * 16 + t.vBlank.toNat / 256

end DetailedTiming

/-- A display: its preferred timing, and what is in the eight slots. -/
structure Display where
  preferred : DetailedTiming
  slots : Fin 8 → Option TimingSlot

/-- The block says what the display is. -/
structure Edid.Describes (e : Edid) (d : Display) : Prop where
  base : 128 ≤ e.size.toNat
  preferred : d.preferred.Valid
  slots : ∀ i s, d.slots i = some s → s.Valid
  detailed : ∀ i : Fin 8, (e.data ⟨0x36 + i, by omega⟩).toNat = d.preferred.bytes i
  standard : ∀ i : Fin 8,
    (e.data ⟨38 + i * 2, by omega⟩, e.data ⟨38 + i * 2 + 1, by omega⟩) =
      ((d.slots i).map TimingSlot.bytes).getD unusedTiming

/-! ### What is read -/

namespace AspectRatio

theorem fromBits_code {bits : UInt8} {ratio : AspectRatio} (h : bits.toNat = ratio.code) :
    fromBits bits = .ok ratio := by
  have hbits : bits = .ofNat ratio.code := by
    rw [← h]
    exact UInt8.ofNat_toNat.symm
  rw [hbits]
  cases ratio <;> rfl

theorem exists_code {n : ℕ} (h : n < 4) : ∃ ratio : AspectRatio, n = ratio.code := by
  obtain rfl | rfl | rfl | rfl : n = 0 ∨ n = 1 ∨ n = 2 ∨ n = 3 := by omega
  · exact ⟨.ratio16x10, rfl⟩
  · exact ⟨.ratio4x3, rfl⟩
  · exact ⟨.ratio5x4, rfl⟩
  · exact ⟨.ratio16x9, rfl⟩

theorem code_lt (ratio : AspectRatio) : ratio.code < 4 := by
  cases ratio <;> decide

theorem toNat_vPixels (ratio : AspectRatio) {w : UInt32} (h : w.toNat ≤ 2288) :
    (ratio.vPixels w).toNat = ratio.height w.toNat := by
  have hmul : ∀ n : ℕ, n ≤ 10 → w.toNat * n % 2 ^ 32 = w.toNat * n := fun n hn =>
    Nat.mod_eq_of_lt ((Nat.mul_le_mul h hn).trans_lt (by decide))
  cases ratio with
  | ratio16x10 => exact congrArg (· / 16) (hmul 10 (by decide))
  | ratio4x3 => exact congrArg (· / 4) (hmul 3 (by decide))
  | ratio5x4 => exact congrArg (· / 5) (hmul 4 (by decide))
  | ratio16x9 => exact congrArg (· / 16) (hmul 9 (by decide))

theorem height_bounds (ratio : AspectRatio) {w : ℕ} (h : 248 ≤ w ∧ w ≤ 2288) :
    139 ≤ ratio.height w ∧ ratio.height w ≤ 1830 := by
  cases ratio <;> simp only [height] <;> omega

end AspectRatio

theorem StandardTiming.parse_eq {bytes : UInt8 × UInt8} (h : bytes ≠ (1, 1)) :
    ∃ ratio : AspectRatio, ratio.code = bytes.2.toNat / 64 ∧
      StandardTiming.parse bytes = .ok (some (.ofNat ((bytes.1.toNat + 31) * 8)
        (ratio.height ((bytes.1.toNat + 31) * 8)))) := by
  have h1 := bytes.1.toNat_lt
  have h2 := bytes.2.toNat_lt
  have hcode : ((bytes.2 >>> 6) &&& 0x03).toNat = bytes.2.toNat / 64 := by
    rw [UInt8.toNat_and, UInt8.toNat_shiftRight]
    change bytes.2.toNat >>> 6 &&& 2 ^ 2 - 1 = _
    rw [Nat.and_two_pow_sub_one_eq_mod, Nat.shiftRight_eq_div_pow]
    omega
  obtain ⟨ratio, hratio⟩ := AspectRatio.exists_code (n := bytes.2.toNat / 64) (by omega)
  refine ⟨ratio, hratio.symm, ?_⟩
  have hw : ((bytes.1.toUInt32 + 31) * 8).toNat = (bytes.1.toNat + 31) * 8 := by
    rw [UInt32.toNat_mul, UInt32.toNat_add, UInt8.toNat_toUInt32]
    change (bytes.1.toNat + 31) % 2 ^ 32 * 8 % 2 ^ 32 = _
    omega
  have hh := ratio.toNat_vPixels (w := (bytes.1.toUInt32 + 31) * 8) (by omega)
  rw [StandardTiming.parse, if_neg h, AspectRatio.fromBits_code (hcode.trans hratio)]
  simp only [ok_bind, pure_eq_ok, MonitorMode.ofNat]
  rw [hw] at hh
  congr 3
  · rw [← hw, UInt32.ofNat_toNat]
  · rw [← hh, UInt32.ofNat_toNat]

/-- **A standard timing is read as it was written.** -/
theorem TimingSlot.parse_bytes {s : TimingSlot} (h : s.Valid) :
    StandardTiming.parse s.bytes = .ok (some s.mode) := by
  obtain ⟨w, hw⟩ := h.dvd
  have hwidth := h.width
  have hrefresh := h.refresh
  have hcode := s.ratio.code_lt
  have h1 : s.bytes.1.toNat = s.width / 8 - 31 :=
    UInt8.toNat_ofNat_of_lt' (by change _ < 256; omega)
  have h2 : s.bytes.2.toNat = s.ratio.code * 64 + (s.refresh - 60) :=
    UInt8.toNat_ofNat_of_lt' (by change _ < 256; omega)
  have hne : s.bytes ≠ (1, 1) := by
    intro heq
    rw [heq] at h1 h2
    change 1 = s.width / 8 - 31 at h1
    change 1 = s.ratio.code * 64 + (s.refresh - 60) at h2
    refine h.used ?_
    have hratio : s.ratio.code = 0 := by omega
    obtain ⟨width, ratio, refresh⟩ := s
    dsimp only at *
    obtain rfl : ratio = .ratio16x10 := by cases ratio <;> first | rfl | cases hratio
    congr 1 <;> omega
  obtain ⟨ratio, hratio, hparse⟩ := StandardTiming.parse_eq hne
  have hsame : ratio = s.ratio := by
    have hc : ratio.code = s.ratio.code := by omega
    revert hc
    cases ratio <;> cases s.ratio <;> decide
  rw [hparse, h1, hsame, show (s.width / 8 - 31 + 31) * 8 = s.width by omega]
  rfl

/-- **A detailed timing is read as it was written.** -/
theorem DetailedTiming.parse_bytes {t : DetailedTiming} (h : t.Valid) {bytes : Fin 18 → UInt8}
    (hbytes : ∀ i : Fin 8, (bytes (i.castLE (by decide))).toNat = t.bytes i) :
    DetailedTiming.parse bytes = some t := by
  obtain ⟨c, hc, hc', hclock⟩ := h.clock
  have hha := h.hActive
  have hhb := h.hBlank
  have hva := h.vActive
  have hvb := h.vBlank
  have h0 : (bytes 0).toNat = t.pixelClockHz.toNat / 10000 % 256 := hbytes 0
  have h1 : (bytes 1).toNat = t.pixelClockHz.toNat / 10000 / 256 := hbytes 1
  have h2 : (bytes 2).toNat = t.hActive.toNat % 256 := hbytes 2
  have h3 : (bytes 3).toNat = t.hBlank.toNat % 256 := hbytes 3
  have h4 : (bytes 4).toNat = t.hActive.toNat / 256 * 16 + t.hBlank.toNat / 256 := hbytes 4
  have h5 : (bytes 5).toNat = t.vActive.toNat % 256 := hbytes 5
  have h6 : (bytes 6).toNat = t.vBlank.toNat % 256 := hbytes 6
  have h7 : (bytes 7).toNat = t.vActive.toNat / 256 * 16 + t.vBlank.toNat / 256 := hbytes 7
  have hcdiv : t.pixelClockHz.toNat / 10000 = c := by omega
  have e0 := toNat_word (bytes 0) (bytes 1)
  rw [h0, h1, hcdiv, Nat.mod_add_div] at e0
  have e1 : highNibble (bytes 2) (bytes 4) = t.hActive := by
    refine UInt32.toNat_inj.1 ?_
    rw [toNat_highNibble]
    omega
  have e2 : lowNibble (bytes 3) (bytes 4) = t.hBlank := by
    refine UInt32.toNat_inj.1 ?_
    rw [toNat_lowNibble]
    omega
  have e3 : highNibble (bytes 5) (bytes 7) = t.vActive := by
    refine UInt32.toNat_inj.1 ?_
    rw [toNat_highNibble]
    omega
  have e4 : lowNibble (bytes 6) (bytes 7) = t.vBlank := by
    refine UInt32.toNat_inj.1 ?_
    rw [toNat_lowNibble]
    omega
  rw [DetailedTiming.parse]
  generalize hclk : (bytes 0).toUInt32 ||| (bytes 1).toUInt32 <<< 8 = clock at e0
  have hne : clock ≠ 0 := by
    rintro rfl
    change 0 = c at e0
    omega
  have hhz : clock * 10000 = t.pixelClockHz := by
    refine UInt32.toNat_inj.1 ?_
    rw [UInt32.toNat_mul, e0, hclock]
    change c * 10000 % 2 ^ 32 = _
    omega
  have hpos : ¬ (t.hActive = 0 ∨ t.vActive = 0) := by
    rintro (hz | hz)
    · rw [hz] at hha
      exact absurd hha.1 (by decide)
    · rw [hz] at hva
      exact absurd hva.1 (by decide)
  simp only [e1, e2, e3, e4, hne, hpos, if_false, hhz]

/-- Nothing panics, whatever the bytes are. -/
theorem Edid.exists_standardTiming (e : Edid) {i : ℕ} (hi : i < 8) :
    ∃ m, e.standardTiming i = .ok m ∧ ∀ mode ∈ m, ∃ (w : ℕ) (ratio : AspectRatio),
      mode = .ofNat w (ratio.height w) ∧ 8 ∣ w ∧ 248 ≤ w ∧ w ≤ 2288 := by
  have hle : standardTimingsOffset + i * 2 + 2 ≤ 1024 := by rw [standardTimingsOffset]; omega
  simp only [standardTiming, dif_pos hle]
  generalize (e.data _, e.data _) = bytes
  by_cases h : bytes = (1, 1)
  · exact ⟨none, if_pos h, nofun⟩
  · obtain ⟨ratio, -, hparse⟩ := StandardTiming.parse_eq h
    have hlt := bytes.1.toNat_lt
    refine ⟨_, hparse, fun mode hmode => ?_⟩
    cases hmode
    exact ⟨_, ratio, rfl, ⟨_, Nat.mul_comm _ _⟩, by omega, by omega⟩

theorem Edid.standardTimings_eq {e : Edid} {f : ℕ → Option MonitorMode}
    (hbase : e.hasBaseBlock = true) (hf : ∀ i < 8, e.standardTiming i = .ok (f i)) :
    e.standardTimings = .ok (((List.range 8).filterMap f).mergeSort
      fun a b => b.pixels ≤ a.pixels) := by
  have hmap : (List.range numStandardTimings).mapM e.standardTiming =
      .ok ((List.range 8).map f) := mapM_eq_ok fun i hi => hf i (List.mem_range.1 hi)
  rw [standardTimings, if_pos hbase, hmap, ok_bind, pure_eq_ok, List.filterMap_map]
  rfl

theorem DetailedTiming.parse_bounds {bytes : Fin 18 → UInt8} {t : DetailedTiming}
    (h : DetailedTiming.parse bytes = some t) :
    (0 < t.hActive.toNat ∧ t.hActive.toNat < 2 ^ 12) ∧
      0 < t.vActive.toNat ∧ t.vActive.toNat < 2 ^ 12 := by
  have hbound : ∀ low mixed : UInt8, (highNibble low mixed).toNat < 2 ^ 12 := fun low mixed => by
    have hlow := low.toNat_lt
    have hmixed := mixed.toNat_lt
    rw [toNat_highNibble]
    omega
  have hpos : ∀ x : UInt32, x ≠ 0 → 0 < x.toNat := fun x hx =>
    Nat.pos_of_ne_zero fun hz => hx (UInt32.toNat_inj.1 hz)
  simp only [DetailedTiming.parse] at h
  split_ifs at h with hclock hzero
  cases h
  obtain ⟨hh, hv⟩ := not_or.1 hzero
  exact ⟨⟨hpos _ hh, hbound _ _⟩, hpos _ hv, hbound _ _⟩

theorem MonitorMode.pairwise_mergeSort (l : List MonitorMode) :
    (l.mergeSort fun a b => b.pixels ≤ a.pixels).Pairwise fun a b => b.pixels ≤ a.pixels := by
  have h := @List.pairwise_mergeSort _ (fun a b : MonitorMode => decide (b.pixels ≤ a.pixels))
    (fun a b c hab hbc => decide_eq_true ((of_decide_eq_true hbc).trans (of_decide_eq_true hab)))
    (fun a b => by
      rcases Nat.le_total a.pixels b.pixels with hab | hab
      · simp [hab]
      · simp [hab]) l
  exact h.imp of_decide_eq_true

/-! ### The modes of a display -/

/-- The modes in the slots of a display. -/
def Display.timings (d : Display) : List MonitorMode :=
  (List.finRange 8).filterMap fun i => (d.slots i).map TimingSlot.mode

/-- The mode that is put first: the rectangle of the scanout, unless it is small. -/
def Display.preferredFor (d : Display) (info : DisplayOne) : MonitorMode :=
  if info.rect.width < 640 ∨ info.rect.height < 480 then
    ⟨d.preferred.hActive, d.preferred.vActive⟩
  else info.rect

theorem startOutput_eq {info : DisplayOne} {preferred : MonitorMode} {timings : List MonitorMode} :
    startOutput info ⟨some preferred, timings⟩ =
      some ⟨(if info.rect.width < 640 ∨ info.rect.height < 480 then preferred else info.rect) ::
          timings.filter (· ≠ if info.rect.width < 640 ∨ info.rect.height < 480 then preferred
            else info.rect),
        if info.enabled = 0 then none else some 0⟩ := by
  simp only [startOutput, VidPnOutput.new, Option.bind_eq_bind, Option.bind_some]
  split <;> rfl

/-- **What a block describes is what an output gets**: the preferred mode first, then the standard
timings other than it, the largest first, each as often as the block has it.  The other bytes of
the block make no difference. -/
theorem edid_modes {e : Edid} {d : Display} (h : e.Describes d) (info : DisplayOne) :
    ∃ ms o timings, e.modes = .ok ms ∧ startOutput info ms = some o ∧
      o.modes = d.preferredFor info :: timings ∧
      timings.Perm (d.timings.filter (· ≠ d.preferredFor info)) ∧
      timings.Pairwise fun a b => b.pixels ≤ a.pixels := by
  have hbase : e.hasBaseBlock = true := by
    rw [Edid.hasBaseBlock, decide_eq_true_iff]
    exact h.base
  have hfirst : e.firstDetailedTiming = some d.preferred := by
    rw [Edid.firstDetailedTiming, if_pos hbase]
    exact DetailedTiming.parse_bytes h.preferred h.detailed
  have hslot : ∀ i < 8, e.standardTiming i =
      .ok (if hi : i < 8 then (d.slots ⟨i, hi⟩).map TimingSlot.mode else none) := by
    intro i hi
    have hle : standardTimingsOffset + i * 2 + 2 ≤ 1024 := by rw [standardTimingsOffset]; omega
    have hbytes := h.standard ⟨i, hi⟩
    simp only [Edid.standardTiming, dif_pos hle, dif_pos hi]
    refine (congrArg StandardTiming.parse hbytes).trans ?_
    cases hs : d.slots ⟨i, hi⟩ with
    | none => rfl
    | some s => exact s.parse_bytes (h.slots _ s hs)
  have htimings : (List.range 8).filterMap
      (fun i => if hi : i < 8 then (d.slots ⟨i, hi⟩).map TimingSlot.mode else none) =
        d.timings := by
    rw [← List.map_coe_finRange_eq_range, List.filterMap_map]
    exact List.filterMap_congr fun i _ => dif_pos i.isLt
  have heq := Edid.standardTimings_eq hbase hslot
  rw [htimings] at heq
  refine ⟨⟨some ⟨d.preferred.hActive, d.preferred.vActive⟩, d.timings.mergeSort
      fun a b => b.pixels ≤ a.pixels⟩, _, _, ?_, startOutput_eq, rfl,
    (List.mergeSort_perm _ _).filter _, (MonitorMode.pairwise_mergeSort _).filter _⟩
  rw [Edid.modes, heq, ok_bind, Edid.preferredResolution, hfirst]
  rfl

/-- A display of 1920 by 1080 pixels, with the same and a smaller mode in two of the slots. -/
def fullHd : Display where
  preferred := ⟨1920, 280, 1080, 45, 148500000⟩
  slots
    | 0 => some ⟨1920, .ratio16x9, 60⟩
    | 3 => some ⟨1280, .ratio5x4, 75⟩
    | _ => none

/-- The block of this display. -/
def fullHdBlock : Edid where
  data i := ([209, 192, 1, 1, 1, 1, 129, 143, 1, 1, 1, 1, 1, 1, 1, 1,
    0x02, 0x3A, 0x80, 0x18, 0x71, 0x38, 0x2D, 0x40] : List UInt8).getD (i - 38) 0
  size := 128

/-- The smaller mode is the one besides the preferred one. -/
theorem edid_modes_fullHd : ∃ ms o timings, fullHdBlock.modes = .ok ms ∧
    startOutput ⟨⟨0, 0⟩, 1⟩ ms = some o ∧ o.modes = ⟨1920, 1080⟩ :: timings ∧
    timings.Perm [⟨1280, 1024⟩] ∧ timings.Pairwise fun a b => b.pixels ≤ a.pixels := by
  have hslots : ∀ i s, fullHd.slots i = some s → s.Valid := by
    intro i s hs
    obtain ⟨rfl, rfl⟩ | ⟨rfl, rfl⟩ : (i = 0 ∧ s = ⟨1920, .ratio16x9, 60⟩) ∨
        i = 3 ∧ s = ⟨1280, .ratio5x4, 75⟩ := by
      simp only [fullHd] at hs
      split at hs <;> simp_all
    · exact ⟨by decide, by decide, by decide, by decide⟩
    · exact ⟨by decide, by decide, by decide, by decide⟩
  have h : fullHdBlock.Describes fullHd :=
    ⟨by decide, ⟨by decide, by decide, by decide, by decide, 14850, by decide⟩, hslots,
      by decide, by decide⟩
  exact edid_modes h ⟨⟨0, 0⟩, 1⟩

/-- **What any bytes can make the driver read.**  Nothing panics; there are at most eight standard
timings, with sides of 139 to 2288 pixels, and the preferred mode has sides of 1 to 4095 pixels. -/
theorem edid_bounded (e : Edid) :
    ∃ ms, e.modes = .ok ms ∧ ms.standardTimings.length ≤ 8 ∧
      (∀ m ∈ ms.standardTimings, 8 ∣ m.width.toNat ∧ 248 ≤ m.width.toNat ∧ m.width.toNat ≤ 2288 ∧
        139 ≤ m.height.toNat ∧ m.height.toNat ≤ 1830) ∧
      (∀ m ∈ ms.preferredResolution, 0 < m.width.toNat ∧ m.width.toNat < 2 ^ 12 ∧
        0 < m.height.toNat ∧ m.height.toNat < 2 ^ 12) := by
  have hpreferred : ∀ m ∈ e.preferredResolution, 0 < m.width.toNat ∧ m.width.toNat < 2 ^ 12 ∧
      0 < m.height.toNat ∧ m.height.toNat < 2 ^ 12 := by
    intro m hm
    obtain ⟨t, ht, rfl⟩ := Option.map_eq_some_iff.1 hm
    rw [Edid.firstDetailedTiming] at ht
    split_ifs at ht
    obtain ⟨⟨h1, h2⟩, h3, h4⟩ := DetailedTiming.parse_bounds ht
    exact ⟨h1, h2, h3, h4⟩
  by_cases hbase : e.hasBaseBlock = true
  · choose! f hf hbounds using fun i (hi : i < 8) => e.exists_standardTiming hi
    have heq := Edid.standardTimings_eq hbase hf
    refine ⟨⟨e.preferredResolution, ((List.range 8).filterMap f).mergeSort
      fun a b => b.pixels ≤ a.pixels⟩, ?_, ?_, fun m hm => ?_, hpreferred⟩
    · rw [Edid.modes, heq, ok_bind, pure_eq_ok]
    · rw [List.length_mergeSort]
      exact List.length_filterMap_le _ _
    · obtain ⟨i, hi, hm⟩ := List.mem_filterMap.1 (List.mem_mergeSort.1 hm)
      obtain ⟨w, ratio, rfl, hdvd, hlo, hhi⟩ := hbounds i (List.mem_range.1 hi) m hm
      obtain ⟨hl, hh⟩ := ratio.height_bounds ⟨hlo, hhi⟩
      have hw : (MonitorMode.ofNat w (ratio.height w)).width.toNat = w :=
        UInt32.toNat_ofNat_of_lt' (by change w < 2 ^ 32; omega)
      have hv : (MonitorMode.ofNat w (ratio.height w)).height.toNat = ratio.height w :=
        UInt32.toNat_ofNat_of_lt' (by change _ < 2 ^ 32; omega)
      rw [hw, hv]
      exact ⟨hdvd, hlo, hhi, hl, hh⟩
  · refine ⟨⟨e.preferredResolution, []⟩, ?_, Nat.zero_le _, nofun, hpreferred⟩
    rw [Edid.modes, Edid.standardTimings, if_neg hbase, ok_bind, pure_eq_ok]

/-! ### What `dxgkrnl` reads -/

/-- What `query_device_descriptor` returns if it fails. -/
inductive DescriptorStatus where
  | invalidParameter
  | graphicsChildDescriptorNotSupported
  | monitorNoMoreDescriptorData

/-- The bytes of an EDID that `Adapter::get_edid` returns. -/
def Edid.descriptor (e : Edid) : List UInt8 := (List.ofFn e.data).take (min 256 e.size.toNat)

section Descriptor

variable (numScanouts : ℕ) (edids : ℕ → Option Edid) (childUid : ℕ)

/-- `Adapter::get_edid` -/
def getEdid : Except DescriptorStatus (List UInt8) :=
  if numScanouts ≤ childUid then .error .invalidParameter
  else match edids childUid with
    | none => .error .graphicsChildDescriptorNotSupported
    | some e => .ok e.descriptor

/-- `query_device_descriptor`: the bytes it copies to the buffer, which has `length` bytes. -/
def queryDeviceDescriptor (offset length : ℕ) : Except DescriptorStatus (List UInt8) := do
  let edid ← getEdid numScanouts edids childUid
  if edid.length ≤ offset then .error .monitorNoMoreDescriptorData
  else
    let len := min length (edid.length - offset)
    .ok ((edid.drop offset).take len)

/-- `dxgkrnl` reads the descriptor with buffers of these lengths, each after what it has `read`,
until there is an error. -/
def readDescriptor (read : List UInt8) : List ℕ → List UInt8
  | [] => read
  | length :: lengths =>
    match queryDeviceDescriptor numScanouts edids childUid read.length length with
    | .error _ => read
    | .ok block => readDescriptor (read ++ block) lengths

end Descriptor

section Read

variable {numScanouts : ℕ} {edids : ℕ → Option Edid} {childUid : ℕ} {e : Edid}

theorem queryDeviceDescriptor_eq (hlt : childUid < numScanouts) (he : edids childUid = some e)
    (offset length : ℕ) :
    queryDeviceDescriptor numScanouts edids childUid offset length =
      if e.descriptor.length ≤ offset then .error .monitorNoMoreDescriptorData
      else .ok ((e.descriptor.drop offset).take (min length (e.descriptor.length - offset))) := by
  rw [queryDeviceDescriptor, getEdid, if_neg (Nat.not_le.2 hlt), he]
  rfl

theorem readDescriptor_eq (hlt : childUid < numScanouts) (he : edids childUid = some e)
    (lengths : List ℕ) (n : ℕ) :
    readDescriptor numScanouts edids childUid (e.descriptor.take n) lengths =
      e.descriptor.take (n + lengths.sum) := by
  induction lengths generalizing n with
  | nil => rfl
  | cons length lengths ih =>
    rw [readDescriptor, queryDeviceDescriptor_eq hlt he, List.length_take, List.sum_cons]
    by_cases hn : e.descriptor.length ≤ n
    · rw [if_pos (by omega), List.take_of_length_le hn, List.take_of_length_le (by omega)]
    · have hmin : min n e.descriptor.length = n := by omega
      rw [hmin, if_neg hn]
      have hblock : e.descriptor.take n ++
          (e.descriptor.drop n).take (min length (e.descriptor.length - n)) =
          e.descriptor.take (n + length) := by
        rw [← List.length_drop, ← List.take_eq_take_min, List.take_add]
      exact (congrArg (readDescriptor numScanouts edids childUid · lengths) hblock).trans
        ((ih (n + length)).trans (by rw [Nat.add_assoc]))

end Read

namespace Edid

theorem length_descriptor (e : Edid) : e.descriptor.length = min 256 e.size.toNat := by
  rw [descriptor, List.length_take, List.length_ofFn]
  omega

theorem hasBaseBlock_iff {e : Edid} : e.hasBaseBlock = true ↔ 128 ≤ e.descriptor.length := by
  rw [length_descriptor, hasBaseBlock, decide_eq_true_iff]
  change 128 ≤ e.size.toNat ↔ _
  omega

theorem data_eq_of_descriptor {e e' : Edid} (h : e.descriptor = e'.descriptor)
    (hbase : e.hasBaseBlock = true) {i : Fin 1024} (hi : i.val < 128) : e.data i = e'.data i := by
  have hget : ∀ e : Edid, e.hasBaseBlock = true → e.descriptor[i.val]? = some (e.data i) := by
    intro e hbase
    have hlen := hasBaseBlock_iff.1 hbase
    rw [length_descriptor] at hlen
    rw [descriptor, List.getElem?_take_of_lt (by omega), List.getElem?_ofFn, dif_pos i.isLt]
  have hbase' : e'.hasBaseBlock = true := hasBaseBlock_iff.2 (h ▸ hasBaseBlock_iff.1 hbase)
  have hbytes := congrArg (·[i.val]?) h
  exact Option.some.inj ((hget e hbase).symm.trans (hbytes.trans (hget e' hbase')))

theorem modes_eq_of_descriptor {e e' : Edid} (h : e.descriptor = e'.descriptor) :
    e.modes = e'.modes := by
  have hiff : e.hasBaseBlock = e'.hasBaseBlock := by
    rw [Bool.eq_iff_iff, hasBaseBlock_iff, hasBaseBlock_iff, h]
  by_cases hbase : e.hasBaseBlock = true
  · have hfirst : e.firstDetailedTiming = e'.firstDetailedTiming := by
      rw [firstDetailedTiming, firstDetailedTiming, if_pos hbase, if_pos (hiff ▸ hbase)]
      refine congrArg DetailedTiming.parse (funext fun i => data_eq_of_descriptor h hbase ?_)
      change 0x36 + i.val < 128
      omega
    have hslot : ∀ i < 8, e.standardTiming i = e'.standardTiming i := by
      intro i hi
      have hle : standardTimingsOffset + i * 2 + 2 ≤ 1024 := by rw [standardTimingsOffset]; omega
      simp only [standardTiming, dif_pos hle]
      rw [data_eq_of_descriptor h hbase (by change 38 + i * 2 < 128; omega),
        data_eq_of_descriptor h hbase (by change 38 + i * 2 + 1 < 128; omega)]
    have hslots : e.standardTimings = e'.standardTimings := by
      choose! f hf _ using fun i (hi : i < 8) => e.exists_standardTiming hi
      rw [standardTimings_eq hbase hf, standardTimings_eq (hiff ▸ hbase) fun i hi =>
        (hslot i hi).symm.trans (hf i hi)]
    rw [modes, modes, preferredResolution, preferredResolution, hfirst, hslots]
  · rw [modes, modes, preferredResolution, preferredResolution, firstDetailedTiming,
      firstDetailedTiming, standardTimings, standardTimings, if_neg hbase, if_neg hbase,
      if_neg (hiff ▸ hbase), if_neg (hiff ▸ hbase)]

end Edid

/-- **What `dxgkrnl` reads is what the modes are from.**  Whatever buffers it reads with, once they
have room for 256 bytes it has the descriptor, is told that there is no more, and any EDID with
these bytes has the modes that the driver uses. -/
theorem descriptor_read {numScanouts : ℕ} {edids : ℕ → Option Edid} {childUid : ℕ} {e : Edid}
    (hlt : childUid < numScanouts) (he : edids childUid = some e) {lengths : List ℕ}
    (hlengths : 256 ≤ lengths.sum) :
    readDescriptor numScanouts edids childUid [] lengths = e.descriptor ∧
      (∀ length, queryDeviceDescriptor numScanouts edids childUid e.descriptor.length length =
        .error .monitorNoMoreDescriptorData) ∧
      ∀ e' : Edid, e'.descriptor = readDescriptor numScanouts edids childUid [] lengths →
        e'.modes = e.modes := by
  have hread : readDescriptor numScanouts edids childUid [] lengths = e.descriptor := by
    have hlen := e.length_descriptor
    rw [← List.take_zero (l := e.descriptor), readDescriptor_eq hlt he,
      List.take_of_length_le (by omega)]
  refine ⟨hread, fun length => ?_, fun e' he' => Edid.modes_eq_of_descriptor (he'.trans hread)⟩
  rw [queryDeviceDescriptor_eq hlt he, if_pos (Nat.le_refl _)]

/-- It is read in two halves. -/
theorem descriptor_read_halves :
    readDescriptor 1 (fun _ => some fullHdBlock) 0 [] [128, 128] = fullHdBlock.descriptor :=
  (descriptor_read Nat.zero_lt_one rfl (by decide : 256 ≤ [128, 128].sum)).1

end VirtioGpu
