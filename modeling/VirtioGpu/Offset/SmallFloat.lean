import VirtioGpu.Data.SmallFloat

/-!
# The size classes of the offset allocator

The offset allocator keeps its free regions in bins.  A bin holds the regions of one size class, and
the classes are small floats with three bits of mantissa: a region is filed under its size rounded
down, and a request looks from its size rounded up, so that whatever it finds is large enough.

The functions work on 32-bit numbers with shifts, masks and a count of leading zeros.  They are the
roundings of `VirtioGpu.SmallFloat` (`uintToFloatRoundUp_eq`, `uintToFloatRoundDown_eq`), and
`float_to_uint` is the value as long as that fits 32 bits, which it does for the bins below `240`:
the first bin after them stands for `2 ^ 32`, and `float_to_uint` makes it `0`.

* `roundings_adjoint` : the two roundings and the value fit together.
* `minAllocatorSize_le` : the smallest size of an allocator in which a request is found, if nothing
  has been allocated.
-/

namespace VirtioGpu

def mantissaBits : ℕ := 3

def mantissaValue : ℕ := 1 <<< mantissaBits

def mantissaMask : ℕ := mantissaValue - 1

/-- `u32::leading_zeros` -/
def leadingZeros (n : ℕ) : ℕ := if n = 0 then 32 else 31 - Nat.log2 n

def uintToFloatRoundUp (size : ℕ) : ℕ :=
  if size < mantissaValue then (0 <<< mantissaBits) + size
  else
    let highestSetBit := 31 - leadingZeros size
    let mantissaStartBit := highestSetBit - mantissaBits
    let exp := mantissaStartBit + 1
    let mantissa := (size >>> mantissaStartBit) &&& mantissaMask
    let lowBitsMask := 1 <<< mantissaStartBit - 1
    let mantissa := if size &&& lowBitsMask ≠ 0 then mantissa + 1 else mantissa
    -- the sum lets the mantissa carry into the exponent
    (exp <<< mantissaBits) + mantissa

def uintToFloatRoundDown (size : ℕ) : ℕ :=
  if size < mantissaValue then (0 <<< mantissaBits) ||| size
  else
    let highestSetBit := 31 - leadingZeros size
    let mantissaStartBit := highestSetBit - mantissaBits
    let exp := mantissaStartBit + 1
    let mantissa := (size >>> mantissaStartBit) &&& mantissaMask
    (exp <<< mantissaBits) ||| mantissa

/-- `float_to_uint`; the result has 32 bits, and so has the amount of the shift five. -/
def floatToUint (floatValue : ℕ) : ℕ :=
  let exponent := floatValue >>> mantissaBits
  let mantissa := floatValue &&& mantissaMask
  if exponent = 0 then mantissa
  else (mantissa ||| mantissaValue) <<< ((exponent - 1) % 32) % 2 ^ 32

/-- `ext::min_allocator_size` -/
def minAllocatorSize (neededObjectSize : ℕ) : ℕ :=
  floatToUint (uintToFloatRoundUp neededObjectSize)

section Roundings

variable {n f : ℕ}

theorem and_mantissaMask (n : ℕ) : n &&& mantissaMask = n % 8 := Nat.and_two_pow_sub_one_eq_mod n 3

/-- The bits above three and the three below can be put together by `|` as well as by `+`. -/
theorem shiftLeft_or_eq {k : ℕ} (hk : k < 8) (e : ℕ) : e <<< mantissaBits ||| k = e * 8 + k := by
  rw [mantissaBits, ← Nat.shiftLeft_add_eq_or_of_lt (i := 3) hk, Nat.shiftLeft_eq]

theorem startBit_eq (hn : 8 ≤ n) (hlt : n < 2 ^ 32) :
    31 - leadingZeros n - mantissaBits = SmallFloat.shift 3 n := by
  have hlog : Nat.log2 n < 32 := (Nat.log2_lt (by omega)).2 hlt
  rw [leadingZeros, if_neg (by omega), SmallFloat.shift, ← Nat.log2_eq_log_two, mantissaBits]
  omega

theorem uintToFloatRoundDown_eq (hlt : n < 2 ^ 32) :
    uintToFloatRoundDown n = SmallFloat.roundDown 3 n := by
  have hvalue : mantissaValue = 2 ^ 3 := rfl
  rw [uintToFloatRoundDown, SmallFloat.roundDown, hvalue]
  split_ifs with hn
  · rw [SmallFloat.shift_of_lt hn, shiftLeft_or_eq hn]
    simp
  · obtain ⟨hlow, hhigh⟩ := SmallFloat.div_shift_bounds (Nat.le_of_not_lt hn)
    simp only [startBit_eq (Nat.le_of_not_lt hn) hlt, and_mantissaMask, Nat.shiftRight_eq_div_pow]
    rw [shiftLeft_or_eq (Nat.mod_lt _ (by decide))]
    omega

theorem uintToFloatRoundUp_eq (hlt : n < 2 ^ 32) :
    uintToFloatRoundUp n = SmallFloat.roundUp 3 n := by
  have hvalue : mantissaValue = 2 ^ 3 := rfl
  rw [uintToFloatRoundUp, SmallFloat.roundUp, SmallFloat.roundDown, hvalue]
  by_cases hn : n < 2 ^ 3
  · rw [if_pos hn, SmallFloat.shift_of_lt hn, pow_zero, Nat.mod_one, if_pos rfl, Nat.div_one]
    simp
  · rw [if_neg hn]
    obtain ⟨hlow, hhigh⟩ := SmallFloat.div_shift_bounds (Nat.le_of_not_lt hn)
    have hmask : ∀ s, n &&& (1 <<< s - 1) = n % 2 ^ s := fun s => by
      rw [Nat.one_shiftLeft, Nat.and_two_pow_sub_one_eq_mod]
    simp only [startBit_eq (Nat.le_of_not_lt hn) hlt, and_mantissaMask, Nat.shiftRight_eq_div_pow,
      hmask, ne_eq, ite_not]
    rw [mantissaBits, Nat.shiftLeft_eq]
    split_ifs <;> omega

theorem floatToUint_eq (hf : f < 240) : floatToUint f = SmallFloat.toNat 3 f := by
  have hmask : mantissaValue = 8 := rfl
  have hmod : f % 8 < 8 := Nat.mod_lt _ (by decide)
  rw [floatToUint, SmallFloat.toNat]
  simp only [and_mantissaMask, hmask, mantissaBits, Nat.shiftRight_eq_div_pow]
  by_cases hsmall : f < 2 ^ 3
  · rw [if_pos (Nat.div_eq_of_lt hsmall), if_pos hsmall]
    omega
  · have hexp : f / 2 ^ 3 ≠ 0 := by omega
    have hor : f % 8 ||| 8 = 2 ^ 3 + f % 2 ^ 3 := by
      rw [Nat.or_comm, ← Nat.two_pow_add_eq_or_of_lt (i := 3) hmod 1]
      rfl
    have hbound : (2 ^ 3 + f % 2 ^ 3) * 2 ^ (f / 2 ^ 3 - 1) < 2 ^ 32 :=
      calc (2 ^ 3 + f % 2 ^ 3) * 2 ^ (f / 2 ^ 3 - 1) < 2 ^ 4 * 2 ^ (f / 2 ^ 3 - 1) :=
            Nat.mul_lt_mul_of_pos_right (by omega) (Nat.two_pow_pos _)
        _ ≤ 2 ^ 4 * 2 ^ 28 := Nat.mul_le_mul_left _ (Nat.pow_le_pow_right (by decide) (by omega))
    have hshift : (f / 2 ^ 3 - 1) % 32 = f / 2 ^ 3 - 1 := Nat.mod_eq_of_lt (by omega)
    rw [if_neg hexp, if_neg hsmall, hor, hshift, Nat.shiftLeft_eq, Nat.mod_eq_of_lt hbound]

theorem uintToFloatRoundUp_le (hlt : n < 2 ^ 32) : uintToFloatRoundUp n ≤ 240 := by
  have hvalue : SmallFloat.toNat 3 240 = 2 ^ 32 := by decide
  rw [uintToFloatRoundUp_eq hlt]
  exact (SmallFloat.gc_roundUp n 240).2 (by omega)

theorem uintToFloatRoundUp_le_last (hlt : n < 2 ^ 32) :
    uintToFloatRoundUp n ≤ 239 ↔ n ≤ 15 * 2 ^ 28 := by
  rw [uintToFloatRoundUp_eq hlt]
  exact SmallFloat.gc_roundUp n 239

/-- The smallest size that is filed under a bin in which a request of `n` units looks. -/
theorem minAllocatorSize_le {k : ℕ} (hn : n ≤ 15 * 2 ^ 28) (hk : k < 2 ^ 32) :
    minAllocatorSize n ≤ k ↔ uintToFloatRoundUp n ≤ uintToFloatRoundDown k := by
  have hlt : n < 2 ^ 32 := by omega
  have hup : uintToFloatRoundUp n < 240 := Nat.lt_succ_iff.2 ((uintToFloatRoundUp_le_last hlt).2 hn)
  rw [minAllocatorSize, floatToUint_eq hup, uintToFloatRoundDown_eq hk]
  exact SmallFloat.gc_roundDown _ k

theorem minAllocatorSize_le_seventeen :
    minAllocatorSize 17 ≤ 18 ↔ uintToFloatRoundUp 17 ≤ uintToFloatRoundDown 18 :=
  minAllocatorSize_le (by decide) (by decide)

/-- **The size classes are right.**  A request of `n` units looks from bin `f` on only if a region
of the size that `f` stands for is enough, and a region of `n` units is filed under `f` or a later
bin exactly if it has that size.  The sizes of the bins below `240` increase. -/
theorem roundings_adjoint :
    (∀ n < 2 ^ 32, ∀ f < 240, (uintToFloatRoundUp n ≤ f ↔ n ≤ floatToUint f) ∧
      (f ≤ uintToFloatRoundDown n ↔ floatToUint f ≤ n)) ∧
    (∀ f < 240, ∀ g < f, floatToUint g < floatToUint f) ∧
    (∀ n < 2 ^ 32, uintToFloatRoundUp n = 240 ↔ 15 * 2 ^ 28 < n) ∧ floatToUint 240 = 0 := by
  refine ⟨fun n hn f hf => ⟨?_, ?_⟩, fun f hf g hg => ?_, fun n hn => ?_, by decide⟩
  · rw [uintToFloatRoundUp_eq hn, floatToUint_eq hf]
    exact SmallFloat.gc_roundUp n f
  · rw [uintToFloatRoundDown_eq hn, floatToUint_eq hf]
    exact (SmallFloat.gc_roundDown f n).symm
  · rw [floatToUint_eq hf, floatToUint_eq (hg.trans hf)]
    exact SmallFloat.strictMono_toNat hg
  · have hlast := uintToFloatRoundUp_le_last hn
    have hle := uintToFloatRoundUp_le hn
    omega

end Roundings

end VirtioGpu
