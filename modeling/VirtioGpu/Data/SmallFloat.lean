import Mathlib.Algebra.Order.Ring.Nat
import Mathlib.Data.Nat.Log
import Mathlib.Order.GaloisConnection.Basic
import Mathlib.Tactic.Ring

/-!
# Floats without a sign

A number format for size classes: a float with `m` bits of mantissa is a natural number whose low
`m` bits are the mantissa and whose other bits are the exponent.  Exponent zero is the mantissa
itself; a larger exponent has a leading bit that is not stored.  The floats are numbered in the
order of their values, so that a size class and the class after it are consecutive numbers, and
rounding a number up may carry from the mantissa into the exponent.

* `SmallFloat.strictMono_toNat` : the values are in the order of the floats.
* `SmallFloat.gc_roundDown`, `SmallFloat.gc_roundUp` : rounding down and rounding up are the two
  adjoints of the value.
-/

namespace VirtioGpu.SmallFloat

variable (m : ℕ)

/-- The value of the float `f`. -/
def toNat (f : ℕ) : ℕ := if f < 2 ^ m then f else (2 ^ m + f % 2 ^ m) * 2 ^ (f / 2 ^ m - 1)

/-- How far a number is shifted for its mantissa, leading bit included, to be left. -/
def shift (n : ℕ) : ℕ := Nat.log 2 n - m

/-- The largest float whose value is at most `n`. -/
def roundDown (n : ℕ) : ℕ := shift m n * 2 ^ m + n / 2 ^ shift m n

/-- The smallest float whose value is at least `n`. -/
def roundUp (n : ℕ) : ℕ := roundDown m n + if n % 2 ^ shift m n = 0 then 0 else 1

variable {m}

theorem toNat_normal {s k : ℕ} (hk : k < 2 ^ m) :
    toNat m (s * 2 ^ m + (2 ^ m + k)) = (2 ^ m + k) * 2 ^ s := by
  have hpos : 0 < 2 ^ m := Nat.two_pow_pos m
  have hsplit : s * 2 ^ m + (2 ^ m + k) = k + 2 ^ m * (s + 1) := by ring
  have hlarge : ¬ s * 2 ^ m + (2 ^ m + k) < 2 ^ m := by omega
  rw [toNat, if_neg hlarge, hsplit, Nat.add_mul_mod_self_left, Nat.mod_eq_of_lt hk,
    Nat.add_mul_div_left _ _ hpos, Nat.div_eq_of_lt hk, Nat.zero_add, Nat.add_sub_cancel]

/-- The value after the largest with exponent `s + 1` is the first with exponent `s + 2`, so the
formula holds one step further. -/
theorem toNat_normal_le {s k : ℕ} (hk : k ≤ 2 ^ m) :
    toNat m (s * 2 ^ m + (2 ^ m + k)) = (2 ^ m + k) * 2 ^ s := by
  rcases hk.lt_or_eq with hlt | rfl
  · exact toNat_normal hlt
  · have hnext : s * 2 ^ m + (2 ^ m + 2 ^ m) = (s + 1) * 2 ^ m + (2 ^ m + 0) := by ring
    rw [hnext, toNat_normal (Nat.two_pow_pos m), pow_succ]
    ring

theorem exists_normal {f : ℕ} (hf : 2 ^ m ≤ f) :
    ∃ s k, k < 2 ^ m ∧ f = s * 2 ^ m + (2 ^ m + k) := by
  refine ⟨(f - 2 ^ m) / 2 ^ m, (f - 2 ^ m) % 2 ^ m, Nat.mod_lt _ (Nat.two_pow_pos m), ?_⟩
  have hdiv := Nat.div_add_mod' (f - 2 ^ m) (2 ^ m)
  omega

theorem toNat_lt_succ (f : ℕ) : toNat m f < toNat m (f + 1) := by
  by_cases hf : 2 ^ m ≤ f
  · obtain ⟨s, k, hk, rfl⟩ := exists_normal hf
    have hnext := toNat_normal_le (s := s) (Nat.succ_le_of_lt hk)
    rw [toNat_normal hk, Nat.add_assoc, Nat.add_assoc, hnext]
    exact Nat.mul_lt_mul_of_pos_right (by omega) (Nat.two_pow_pos s)
  · have hsmall : toNat m f = f := if_pos (by omega)
    rw [hsmall]
    by_cases hnext : f + 1 < 2 ^ m
    · rw [toNat, if_pos hnext]
      exact f.lt_succ_self
    · have heq : f + 1 = 0 * 2 ^ m + (2 ^ m + 0) := by omega
      rw [heq, toNat_normal (Nat.two_pow_pos m), pow_zero]
      omega

theorem strictMono_toNat : StrictMono (toNat m) := strictMono_nat_of_lt_succ toNat_lt_succ

theorem div_shift_bounds {n : ℕ} (hn : 2 ^ m ≤ n) :
    2 ^ m ≤ n / 2 ^ shift m n ∧ n / 2 ^ shift m n < 2 ^ m + 2 ^ m := by
  have hne : n ≠ 0 := by have := Nat.two_pow_pos m; omega
  have hlog : m ≤ Nat.log 2 n := Nat.le_log_of_pow_le (by decide) hn
  have hsplit : m + shift m n = Nat.log 2 n := by rw [shift]; omega
  have hlow : 2 ^ m * 2 ^ shift m n ≤ n := by
    rw [← pow_add, hsplit]
    exact Nat.pow_log_le_self 2 hne
  have hhigh : n < (2 ^ m + 2 ^ m) * 2 ^ shift m n := by
    have hlt := Nat.lt_pow_succ_log_self (b := 2) (by decide) n
    rwa [← hsplit, Nat.succ_eq_add_one, pow_succ, pow_add, mul_right_comm, mul_two] at hlt
  have hpos := Nat.two_pow_pos (shift m n)
  exact ⟨(Nat.le_div_iff_mul_le hpos).2 hlow, (Nat.div_lt_iff_lt_mul hpos).2 hhigh⟩

theorem shift_of_lt {n : ℕ} (hn : n < 2 ^ m) : shift m n = 0 := by
  have hlog : Nat.log 2 n < m + 1 := by
    refine Nat.log_lt_of_lt_pow' m.succ_ne_zero ?_
    rw [pow_succ]
    omega
  rw [shift]
  omega

theorem toNat_roundDown (n : ℕ) : toNat m (roundDown m n) = n / 2 ^ shift m n * 2 ^ shift m n := by
  by_cases hn : 2 ^ m ≤ n
  · obtain ⟨hlow, hhigh⟩ := div_shift_bounds hn
    obtain ⟨k, hk⟩ := Nat.exists_eq_add_of_le hlow
    rw [roundDown, hk, toNat_normal (by omega)]
  · have hlt : n < 2 ^ m := by omega
    rw [roundDown, shift_of_lt hlt, pow_zero, Nat.div_one, Nat.zero_mul, Nat.zero_add, Nat.mul_one,
      toNat, if_pos hlt]

theorem toNat_roundDown_succ (n : ℕ) :
    toNat m (roundDown m n + 1) = (n / 2 ^ shift m n + 1) * 2 ^ shift m n := by
  by_cases hn : 2 ^ m ≤ n
  · obtain ⟨hlow, hhigh⟩ := div_shift_bounds hn
    obtain ⟨k, hk⟩ := Nat.exists_eq_add_of_le hlow
    rw [roundDown, hk, Nat.add_assoc, Nat.add_assoc, toNat_normal_le (by omega)]
  · have hlt : n < 2 ^ m := by omega
    rw [roundDown, shift_of_lt hlt, pow_zero, Nat.div_one, Nat.zero_mul, Nat.zero_add, Nat.mul_one]
    rcases Nat.lt_or_ge (n + 1) (2 ^ m) with hsucc | hsucc
    · rw [toNat, if_pos hsucc]
    · have heq : n + 1 = 0 * 2 ^ m + (2 ^ m + 0) := by omega
      rw [heq, toNat_normal (Nat.two_pow_pos m), pow_zero]
      omega

theorem toNat_roundDown_le (n : ℕ) : toNat m (roundDown m n) ≤ n := by
  rw [toNat_roundDown]
  exact Nat.div_mul_le_self _ _

theorem lt_toNat_roundDown_succ (n : ℕ) : n < toNat m (roundDown m n + 1) := by
  rw [toNat_roundDown_succ, Nat.mul_comm]
  exact Nat.lt_mul_div_succ n (Nat.two_pow_pos _)

/-- **Rounding down is the upper adjoint of the value.** -/
theorem gc_roundDown : GaloisConnection (toNat m) (roundDown m) := by
  intro f n
  constructor
  · intro h
    by_contra hlt
    have hmono : toNat m (roundDown m n + 1) ≤ toNat m f :=
      strictMono_toNat.monotone (Nat.succ_le_of_lt (Nat.lt_of_not_le hlt))
    exact absurd (lt_toNat_roundDown_succ n) (Nat.not_lt.2 (hmono.trans h))
  · intro h
    exact (strictMono_toNat.monotone h).trans (toNat_roundDown_le n)

/-- **Rounding up is the lower adjoint of the value.** -/
theorem gc_roundUp : GaloisConnection (roundUp m) (toNat m) := by
  intro n f
  have hdown : toNat m (roundDown m n) = n ↔ n % 2 ^ shift m n = 0 := by
    rw [toNat_roundDown]
    have hdiv := Nat.div_add_mod' n (2 ^ shift m n)
    omega
  rw [roundUp]
  split_ifs with hexact
  · rw [Nat.add_zero, ← strictMono_toNat.le_iff_le (a := roundDown m n), hdown.2 hexact]
  · -- `n` lies strictly between two consecutive values
    have hlt : toNat m (roundDown m n) < n :=
      lt_of_le_of_ne (toNat_roundDown_le n) (mt hdown.1 hexact)
    constructor
    · intro h
      exact (lt_toNat_roundDown_succ n).le.trans (strictMono_toNat.monotone h)
    · intro h
      exact Nat.succ_le_of_lt (strictMono_toNat.lt_iff_lt.1 (hlt.trans_le h))

end VirtioGpu.SmallFloat
