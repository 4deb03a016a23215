import VirtioGpu.Data.Memory
import VirtioGpu.Data.Ranges

/-!
# Aligned words and byte memory

Addresses as a machine computes with them: 64-bit words, whose sums and differences may not fit
(`Word.checkedAdd`, `Word.checkedSub`), and rounding to a power of two by masking off the low bits.
A mask and its complement divide a word exactly (`Word.toNat_and_not_add_and`), so that masking with
`!(a - 1)` takes away what is left over of a multiple of `a` (`Word.toNat_and_not_mask`).  Adding
`a` then gives the first multiple past the address (`next_multiple`).

`ByteMemory` has a byte at every address.  Bytes that have been stored are loaded again
(`ByteMemory.load_store`), from every memory that has not changed there (`ByteMemory.load_congr`).
-/

namespace VirtioGpu

namespace Word

/-- The sum of two words, unless it does not fit. -/
def checkedAdd (a b : UInt64) : Option UInt64 :=
  if a.toNat + b.toNat < 2 ^ 64 then some (a + b) else none

/-- The difference of two words, unless it is negative. -/
def checkedSub (a b : UInt64) : Option UInt64 :=
  if b.toNat ≤ a.toNat then some (a - b) else none

theorem checkedAdd_of_lt {a b : UInt64} (h : a.toNat + b.toNat < 2 ^ 64) :
    ∃ c, checkedAdd a b = some c ∧ c.toNat = a.toNat + b.toNat := by
  refine ⟨a + b, if_pos h, ?_⟩
  rw [UInt64.toNat_add, Nat.mod_eq_of_lt h]

theorem toNat_of_checkedSub {a b c : UInt64} (h : checkedSub a b = some c) :
    c.toNat = a.toNat - b.toNat := by
  rw [checkedSub] at h
  split_ifs at h with hle
  cases h
  exact UInt64.toNat_sub_of_le a b (UInt64.le_iff_toNat_le.2 hle)

theorem checkedSub_of_le {a b : UInt64} (h : b.toNat ≤ a.toNat) :
    ∃ c, checkedSub a b = some c ∧ c.toNat = a.toNat - b.toNat :=
  ⟨a - b, if_pos h, toNat_of_checkedSub (if_pos h)⟩

theorem toNat_and_not_add_and (x m : UInt64) : (x &&& ~~~m).toNat + (x &&& m).toNat = x.toNat := by
  have hapart : (x.toBitVec &&& ~~~m.toBitVec) &&& (x.toBitVec &&& m.toBitVec) = 0#64 := by
    ext i hi
    simp only [BitVec.getElem_and, BitVec.getElem_not, BitVec.getElem_zero]
    cases x.toBitVec[i] <;> cases m.toBitVec[i] <;> rfl
  have hjoin : (x.toBitVec &&& ~~~m.toBitVec) ||| (x.toBitVec &&& m.toBitVec) = x.toBitVec := by
    ext i hi
    simp only [BitVec.getElem_or, BitVec.getElem_and, BitVec.getElem_not]
    cases x.toBitVec[i] <;> cases m.toBitVec[i] <;> rfl
  calc (x &&& ~~~m).toNat + (x &&& m).toNat
      = ((x.toBitVec &&& ~~~m.toBitVec) + (x.toBitVec &&& m.toBitVec)).toNat :=
        (BitVec.toNat_add_of_and_eq_zero hapart).symm
    _ = x.toBitVec.toNat := by rw [BitVec.add_eq_or_of_and_eq_zero _ _ hapart, hjoin]

/-- **Rounding down by a mask.**  The bits of `x` above those of `a - 1`, for a power of two `a`,
are the greatest multiple of `a` that is no greater than `x`. -/
theorem toNat_and_not_mask {x a m : UInt64} {k : ℕ} (ha : a.toNat = 2 ^ k)
    (hm : m.toNat = a.toNat - 1) : (x &&& ~~~m).toNat + x.toNat % a.toNat = x.toNat := by
  have hlow : (x &&& m).toNat = x.toNat % a.toNat := by
    rw [UInt64.toNat_and, hm, ha, Nat.and_two_pow_sub_one_eq_mod]
  rw [← hlow]
  exact toNat_and_not_add_and x m

end Word

theorem two_pow_dvd_of_le {a b k l : ℕ} (ha : a = 2 ^ k) (hb : b = 2 ^ l) (h : a ≤ b) : a ∣ b := by
  rw [ha, hb] at h ⊢
  exact Nat.pow_dvd_pow 2 ((Nat.pow_le_pow_iff_right Nat.one_lt_two).1 h)

/-- The multiple of `a` after the greatest one that is no greater than `x`.  It is past `x`, and if
`d` divides both `x` and `a`, by `d` at least. -/
theorem next_multiple {x a base d : ℕ} (ha : 0 < a) (hbase : base + x % a = x) (hx : d ∣ x)
    (hd : d ∣ a) : a ∣ base + a ∧ x + d ≤ base + a ∧ base + a ≤ x + a := by
  have hlt : x % a < a := Nat.mod_lt x ha
  have hdvd : a ∣ base := by
    obtain rfl : base = x - x % a := by omega
    exact Nat.dvd_sub_mod x
  have hgap : d ∣ a - x % a := Nat.dvd_sub hd ((Nat.dvd_mod_iff hd).2 hx)
  have hle : d ≤ a - x % a := Nat.le_of_dvd (by omega) hgap
  exact ⟨Nat.dvd_add hdvd (Nat.dvd_refl a), by omega, by omega⟩

/-- Memory with a byte at every address. -/
abbrev ByteMemory := ℕ → UInt8

namespace ByteMemory

/-- The bytes of a range. -/
def load (mem : ByteMemory) (r : Range) : List UInt8 :=
  (List.range r.len).map fun i => mem (r.start + i)

/-- The memory with bytes stored from an address on. -/
def store (mem : ByteMemory) (addr : ℕ) (bytes : List UInt8) : ByteMemory :=
  fun x => if addr ≤ x then (bytes[x - addr]?).getD (mem x) else mem x

theorem load_congr {mem mem' : ByteMemory} {r : Range} (h : ∀ x, r.Has x → mem x = mem' x) :
    mem.load r = mem'.load r := by
  refine List.map_congr_left fun i hi => h _ ⟨Nat.le_add_right _ _, ?_⟩
  exact Nat.add_lt_add_left (List.mem_range.1 hi) _

theorem store_of_not_has {mem : ByteMemory} {addr : ℕ} {bytes : List UInt8} {x : ℕ}
    (h : ¬ (⟨addr, bytes.length⟩ : Range).Has x) : mem.store addr bytes x = mem x := by
  unfold store
  split_ifs with hle
  · have hend : bytes.length ≤ x - addr := by
      by_contra hlt
      refine h ⟨hle, ?_⟩
      show x < addr + bytes.length
      omega
    rw [List.getElem?_eq_none hend, Option.getD_none]
  · rfl

theorem load_store (mem : ByteMemory) (addr : ℕ) {bytes : List UInt8} {len : ℕ}
    (hlen : bytes.length = len) : (mem.store addr bytes).load ⟨addr, len⟩ = bytes := by
  refine List.ext_getElem (by simp [load, hlen]) fun i _ hi => ?_
  simp [load, store, hi]

end ByteMemory

end VirtioGpu
