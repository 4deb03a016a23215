import Mathlib.Data.Finset.Max

/-!
# Engines and their fence counters

`Engine` names the nodes `dxgkrnl` submits work to (`adapter.rs`); `EngineState` is what the driver
keeps for each of them (`queue.rs`): the last fence submitted and completed, the fence of a
preemption request, and the fences that were completed out of order and wait in `pending_fences`
until every earlier one has been reported.

Fence ids are `u32`; they are natural numbers here, and the one piece of arithmetic on them,
`last_completed + 1`, is `nextFence`, which wraps as compiled (overflow checks are off).
-/

namespace VirtioGpu

/-- The nodes of the adapter.  An `other` node carries its bound, which the source asserts. -/
inductive Engine where
  | graphics
  | physicalOther
  | copy
  | other (i : Fin 61)
  deriving DecidableEq

namespace Engine

def tryFromNodeOrdinal (index : ℕ) : Option Engine :=
  match index with
  | 0 => some graphics
  | 1 => some physicalOther
  | 2 => some copy
  | i + 3 => if h : i < 61 then some (other ⟨i, h⟩) else none

def nodeOrdinal : Engine → ℕ
  | graphics => 0
  | physicalOther => 1
  | copy => 2
  | other i => i + 3

end Engine

/-- The interrupts the submission path reports to `dxgkrnl`. -/
inductive Interrupt where
  | dmaCompleted (engine : Engine) (fence : ℕ)
  | dmaPreempted (engine : Engine) (preemptionFence lastCompletedFence : ℕ)

/-- The interrupt reports a completed fence. -/
def Interrupt.isDmaCompleted : Interrupt → Bool
  | .dmaCompleted _ _ => true
  | .dmaPreempted _ _ _ => false

/-- `last_completed + 1` on `u32`. -/
def nextFence (fence : ℕ) : ℕ := (fence + 1) % 2 ^ 32

theorem nextFence_of_lt {fence : ℕ} (h : fence < 2 ^ 32 - 1) : nextFence fence = fence + 1 :=
  Nat.mod_eq_of_lt (by omega)

/-- `BTreeSet::first`. -/
def first (s : Finset ℕ) : Option ℕ :=
  if h : s.Nonempty then some (s.min' h) else none

/-- `BTreeSet::pop_first`. -/
def popFirst (s : Finset ℕ) : Finset ℕ :=
  match first s with
  | some a => s.erase a
  | none => s

theorem first_eq_some {s : Finset ℕ} {a : ℕ} (h : first s = some a) : a ∈ s ∧ ∀ b ∈ s, a ≤ b := by
  unfold first at h
  split_ifs at h with hne
  cases h
  exact ⟨s.min'_mem hne, fun b hb => s.min'_le b hb⟩

theorem first_eq_none {s : Finset ℕ} (h : first s = none) : s = ∅ := by
  unfold first at h
  split_ifs at h with hne
  exact Finset.not_nonempty_iff_eq_empty.1 hne

theorem popFirst_of_first {s : Finset ℕ} {a : ℕ} (h : first s = some a) :
    popFirst s = s.erase a := by
  simp [popFirst, h]

/-- `EngineState`: the counters of one engine. -/
structure EngineState where
  lastSubmittedFence : ℕ
  lastCompletedFence : ℕ
  /-- The fence of a preemption request not yet reported, or `0`. -/
  lastPreemptionFence : ℕ
  /-- Fences completed before one of their predecessors. -/
  pendingFences : Finset ℕ
  lastSubmittedTimestamp : ℕ
  lastCompletedTimestamp : ℕ

/-- An engine that has completed `f₀`, with nothing outstanding. -/
structure EngineState.Settled (s : EngineState) (f₀ : ℕ) : Prop where
  lt : f₀ < 2 ^ 32
  completed : s.lastCompletedFence = f₀
  submitted : s.lastSubmittedFence = f₀
  pending : s.pendingFences = ∅

end VirtioGpu
