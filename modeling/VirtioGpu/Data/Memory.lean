import Mathlib.Data.Nat.Basic
import Mathlib.Tactic.Ring

/-!
# Pages and bytes

Addresses are natural numbers and memory is divided into pages of `pageSize` bytes.  A non-empty
range lies in one page when its first and last byte do.  Two kinds of range are used below: a block
that starts at a page boundary (`inOnePage_of_aligned`), and a part of a power-of-two sized slot in
an array that starts at a page boundary (`inOnePage_of_slot`).
-/

namespace VirtioGpu

/-- Bytes in a page. -/
def pageSize : ℕ := 4096

/-- `u32::MAX`. -/
def u32Max : ℕ := 2 ^ 32 - 1

/-- A page boundary. -/
abbrev PageAddr := { a : ℕ // pageSize ∣ a }

/-- A range of memory. -/
structure Slice where
  addr : ℕ
  len : ℕ
  deriving DecidableEq

namespace Slice

/-- The range is empty, or its first and last byte are in the same page. -/
def InOnePage (r : Slice) : Prop :=
  r.len = 0 ∨ r.addr / pageSize = (r.addr + r.len - 1) / pageSize
  deriving Decidable

/-- A block that starts at a page boundary lies in one page iff it is no longer than a page. -/
theorem inOnePage_of_aligned {r : Slice} (h : pageSize ∣ r.addr) :
    r.InOnePage ↔ r.len ≤ pageSize := by
  obtain ⟨q, hq⟩ := h
  have hpos : 0 < pageSize := by decide
  constructor
  · rintro (hlen | hpage)
    · omega
    · rw [hq, Nat.mul_div_cancel_left q hpos] at hpage
      have hlt := Nat.lt_mul_div_succ (pageSize * q + r.len - 1) hpos
      rw [← hpage, Nat.mul_add] at hlt
      omega
  · intro hlen
    rcases Nat.eq_zero_or_pos r.len with hzero | hlenpos
    · exact .inl hzero
    · right
      rw [hq, Nat.mul_div_cancel_left q hpos]
      symm
      rw [Nat.div_eq_iff hpos]
      constructor <;> rw [Nat.mul_comm q] <;> omega

/-- A range inside slot `i` of an array that starts at a page boundary, with slots of `2 ^ m` bytes,
lies in one page if a slot is no longer than a page. -/
theorem inOnePage_of_slot {r : Slice} {base m i off : ℕ} (hbase : pageSize ∣ base) (hm : m ≤ 12)
    (haddr : r.addr = base + i * 2 ^ m + off) (hfit : off + r.len ≤ 2 ^ m) : r.InOnePage := by
  rcases Nat.eq_zero_or_pos r.len with hzero | hpos
  · exact .inl hzero
  right
  -- A page is a whole number of slots, so every slot is inside one page.
  have hpage : pageSize = 2 ^ m * 2 ^ (12 - m) := by
    rw [← pow_add, Nat.add_sub_cancel' hm]
    rfl
  have hslot : ∀ j, j < 2 ^ m →
      (base + i * 2 ^ m + j) / pageSize = (base / 2 ^ m + i) / 2 ^ (12 - m) := by
    intro j hj
    have hdvd : 2 ^ m ∣ base := (Dvd.intro _ hpage.symm).trans hbase
    have hbase' : base + i * 2 ^ m + j = j + 2 ^ m * (base / 2 ^ m + i) := by
      rw [Nat.mul_add, Nat.mul_div_cancel' hdvd]
      ring
    rw [hpage, ← Nat.div_div_eq_div_mul, hbase', Nat.add_mul_div_left _ _ (Nat.two_pow_pos m),
      Nat.div_eq_of_lt hj, Nat.zero_add]
  have hend : r.addr + r.len - 1 = base + i * 2 ^ m + (off + r.len - 1) := by omega
  rw [hend, haddr, hslot off (by omega), hslot (off + r.len - 1) (by omega)]

end Slice

/-- The number whose little-endian representation is a list of bytes. -/
def leNat : List UInt8 → ℕ
  | [] => 0
  | b :: bytes => b.toNat + 256 * leNat bytes

/-- The little-endian representation of a number in a given number of bytes. -/
def leBytes : ℕ → ℕ → List UInt8
  | 0, _ => []
  | size + 1, n => UInt8.ofNat n :: leBytes size (n / 256)

@[simp] theorem length_leBytes (size n : ℕ) : (leBytes size n).length = size := by
  induction size generalizing n with
  | zero => rfl
  | succ size ih => simp [leBytes, ih]

theorem leNat_leBytes {size n : ℕ} (h : n < 256 ^ size) : leNat (leBytes size n) = n := by
  induction size generalizing n with
  | zero =>
    rw [pow_zero, Nat.lt_one_iff] at h
    rw [h]
    rfl
  | succ size ih =>
    have hdiv : n / 256 < 256 ^ size := Nat.div_lt_of_lt_mul (by rwa [pow_succ'] at h)
    have hbyte : (UInt8.ofNat n).toNat = n % 256 := UInt8.toNat_ofNat'
    rw [leBytes, leNat, ih hdiv, hbyte]
    exact Nat.mod_add_div n 256

theorem leNat_lt (l : List UInt8) : leNat l < 256 ^ l.length := by
  induction l with
  | nil => exact Nat.one_pos
  | cons b l ih =>
    have hb := b.toNat_lt
    rw [leNat, List.length_cons, pow_succ]
    omega

theorem leBytes_leNat (l : List UInt8) : leBytes l.length (leNat l) = l := by
  induction l with
  | nil => rfl
  | cons b l ih =>
    have hb := b.toNat_lt
    have hhead : UInt8.ofNat (b.toNat + 256 * leNat l) = b := by
      refine UInt8.toNat_inj.1 ?_
      rw [UInt8.toNat_ofNat']
      omega
    have htail : (b.toNat + 256 * leNat l) / 256 = leNat l := by omega
    rw [leNat, List.length_cons, leBytes, hhead, htail, ih]

end VirtioGpu
