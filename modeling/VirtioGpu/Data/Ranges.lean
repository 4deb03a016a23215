import Mathlib.Order.CompletePartialOrder
import Mathlib.Order.Interval.Set.Disjoint

/-!
# Ranges

Half-open ranges of natural numbers, given by their start and their length: pages handed out by an
allocator, bytes of a memory region.  Two ranges are `Apart` if no number is in both, which can be
decided from their ends (an empty range is apart from every range).
-/

namespace VirtioGpu

/-- The numbers from `start` on, `len` of them. -/
structure Range where
  start : ℕ
  len : ℕ
  deriving DecidableEq

namespace Range

/-- The first number after the range. -/
def stop (r : Range) : ℕ := r.start + r.len

/-- The ranges have no number in common. -/
def Apart (r s : Range) : Prop := min r.stop s.stop ≤ max r.start s.start
  deriving Decidable

variable {r s : Range}

theorem apart_iff_disjoint :
    r.Apart s ↔ Disjoint (Set.Ico r.start r.stop) (Set.Ico s.start s.stop) :=
  Set.Ico_disjoint_Ico.symm

theorem Apart.symm (h : r.Apart s) : s.Apart r :=
  apart_iff_disjoint.2 (apart_iff_disjoint.1 h).symm

/-- `x` is one of the numbers of the range. -/
def Has (r : Range) (x : ℕ) : Prop := r.start ≤ x ∧ x < r.stop
  deriving Decidable

/-- The range `r` is a part of `s`. -/
def Within (r s : Range) : Prop := s.start ≤ r.start ∧ r.stop ≤ s.stop
  deriving Decidable

theorem Within.has (h : r.Within s) {x : ℕ} (hx : r.Has x) : s.Has x :=
  ⟨h.1.trans hx.1, hx.2.trans_le h.2⟩

theorem Apart.not_has (h : r.Apart s) {x : ℕ} (hr : r.Has x) : ¬ s.Has x :=
  fun hs => Set.disjoint_left.1 (apart_iff_disjoint.1 h) hr hs

theorem Apart.mono {r s r' s' : Range} (h : r.Apart s) (hr : r'.Within r) (hs : s'.Within s) :
    r'.Apart s' :=
  apart_iff_disjoint.2 <|
    (apart_iff_disjoint.1 h).mono (Set.Ico_subset_Ico hr.1 hr.2) (Set.Ico_subset_Ico hs.1 hs.2)

/-- The range in a unit `k` times as small: pages as bytes. -/
def scale (k : ℕ) (r : Range) : Range := ⟨r.start * k, r.len * k⟩

theorem stop_scale (k : ℕ) (r : Range) : (r.scale k).stop = r.stop * k :=
  (Nat.add_mul _ _ _).symm

theorem Apart.scale (h : r.Apart s) (k : ℕ) : (r.scale k).Apart (s.scale k) := by
  have hmul : min r.stop s.stop * k ≤ max r.start s.start * k := Nat.mul_le_mul_right k h
  rw [← Nat.mul_min_mul_right, ← Nat.mul_max_mul_right] at hmul
  rw [Apart, stop_scale, stop_scale]
  exact hmul

end Range

end VirtioGpu
