import VirtioGpu.Machine.Basic

/-!
# Releasing an allocation

An `Allocation` is kept alive by strong references: one belongs to the handle of the operating
system, others are taken for a while by `close_allocation` and by everybody who upgrades a weak
reference (the flip timer, the drop of an `AllocationsBatch` or of a `DeviceSpecificAllocation`) or
clones a strong one.  The resource at the host is released by the caller that gets the value out of
the last reference with `Arc::into_inner`, and only `Adapter::deallocate` and `close_allocation`
try.  All others let their reference go by dropping it; if it is the last one, the allocation goes
without a `RESOURCE_UNREF`.  So it does if `close_allocation` leaves early because the allocation
could not be detached from the device.

* `unref_once_iff` : all along a run exactly one `RESOURCE_UNREF` follows the last reference, and
  none comes before it, exactly if the last reference is never dropped.
* `unref_missing` : the flip timer can be the last to let go.
-/

namespace VirtioGpu

/-- Who has strong references to an allocation, and what has been done about its resource. -/
structure AllocationRefs where
  /-- The handle of the operating system. -/
  os : Bool
  /-- The references `deallocate` has taken over from the handle. -/
  destroying : ℕ
  /-- The references calls of `close_allocation` have upgraded. -/
  closing : ℕ
  /-- All others. -/
  others : ℕ
  /-- The callers that have the value and have not released the resource yet. -/
  releasing : ℕ
  /-- The `RESOURCE_UNREF` requests that have been queued. -/
  unrefs : ℕ

inductive RefAct where
  /-- `deallocate` takes over the reference of the handle. -/
  | deallocate
  /-- `destroy_allocation` calls `Arc::into_inner`. -/
  | destroyIntoInner
  /-- `close_allocation` upgrades the weak reference of a device handle. -/
  | closeAllocation
  /-- `detach_from_device` fails, and `close_allocation` returns. -/
  | closeFails
  /-- `close_allocation` calls `Arc::into_inner`. -/
  | closeIntoInner
  /-- Somebody else upgrades a weak reference, or clones a strong one. -/
  | upgrade
  /-- Somebody else drops their reference. -/
  | drop
  /-- `destroy_allocation_inner` queues `RESOURCE_UNREF`. -/
  | resourceUnref

namespace AllocationRefs

variable (s : AllocationRefs)

/-- The number of strong references. -/
def strong : ℕ := s.os.toNat + s.destroying + s.closing + s.others

/-- `Arc::into_inner` on a reference that `s` still counts, with `s'` the state without it: the
value comes out of the last one. -/
def intoInner (s s' : AllocationRefs) : AllocationRefs :=
  if s.strong = 1 then { s' with releasing := s'.releasing + 1 } else s'

def step : RefAct → Outcome AllocationRefs Empty
  | .deallocate =>
    if s.os then .next { s with os := false, destroying := s.destroying + 1 } else .stuck
  | .destroyIntoInner =>
    if 0 < s.destroying then .next (s.intoInner { s with destroying := s.destroying - 1 })
    else .stuck
  | .closeAllocation =>
    if 0 < s.strong then .next { s with closing := s.closing + 1 } else .next s
  | .closeFails =>
    if 0 < s.closing then .next { s with closing := s.closing - 1 } else .stuck
  | .closeIntoInner =>
    if 0 < s.closing then .next (s.intoInner { s with closing := s.closing - 1 }) else .stuck
  | .upgrade => if 0 < s.strong then .next { s with others := s.others + 1 } else .next s
  | .drop => if 0 < s.others then .next { s with others := s.others - 1 } else .stuck
  | .resourceUnref =>
    if 0 < s.releasing then
      .next { s with releasing := s.releasing - 1, unrefs := s.unrefs + 1 }
    else .stuck

/-- `allocate` has put the only reference behind the handle. -/
def init : AllocationRefs := ⟨true, 0, 0, 0, 0, 0⟩

/-- `RESOURCE_UNREF` is queued once the last reference is gone, and not before. -/
structure UnrefOnce (s : AllocationRefs) : Prop where
  /-- With no reference left and nobody at it, it has been queued once. -/
  after : s.strong = 0 → s.releasing = 0 → s.unrefs = 1
  before : 0 < s.strong → s.unrefs = 0

/-- A reference that is dropped is not the last one. -/
def NotLast : RefAct → Prop
  | .drop | .closeFails => s.strong ≠ 1
  | _ => True

/-- The resource is being released or has been, once, exactly if the last reference is gone. -/
def Inv : Prop := s.releasing + s.unrefs = if s.strong = 0 then 1 else 0

end AllocationRefs

/-- An allocation and those who use it. -/
def refMachine : Machine AllocationRefs RefAct Empty := ⟨AllocationRefs.step⟩

namespace AllocationRefs

variable {s s' : AllocationRefs} {a : RefAct}

theorem Inv.unrefOnce (hs : s.Inv) : s.UnrefOnce := by
  unfold Inv at hs
  constructor
  · intro hstrong hreleasing
    rw [if_pos hstrong] at hs
    omega
  · intro hstrong
    rw [if_neg hstrong.ne'] at hs
    omega

/-- `Arc::into_inner` hands the value to whoever gives up the last reference. -/
theorem Inv.intoInner (hs : s.Inv) (hstrong : s'.strong + 1 = s.strong)
    (hsame : s'.releasing = s.releasing ∧ s'.unrefs = s.unrefs) : (s.intoInner s').Inv := by
  unfold Inv at hs ⊢
  rw [if_neg (by omega)] at hs
  by_cases hlast : s.strong = 1
  · have hzero : s'.strong = 0 := by omega
    rw [AllocationRefs.intoInner, if_pos hlast]
    change s'.releasing + 1 + s'.unrefs = if s'.strong = 0 then 1 else 0
    rw [if_pos hzero]
    omega
  · rw [AllocationRefs.intoInner, if_neg hlast, if_neg (by omega)]
    omega

/-- A step that takes no reference, or drops one that is not the last, changes nothing. -/
theorem Inv.of_strong (hs : s.Inv) (hstrong : s'.strong = 0 ↔ s.strong = 0)
    (hsame : s'.releasing = s.releasing ∧ s'.unrefs = s.unrefs) : s'.Inv := by
  unfold Inv at hs ⊢
  rw [hsame.1, hsame.2, hs]
  simp only [hstrong]

theorem inv_step (hs : s.Inv) (hok : s.NotLast a) (hstep : refMachine.step s a = .next s') :
    s'.Inv := by
  cases a with
  | deallocate =>
    simp only [refMachine, step] at hstep
    split_ifs at hstep with hos
    cases hstep
    -- The reference of the handle becomes that of `destroy_allocation`.
    refine hs.of_strong ?_ ⟨rfl, rfl⟩
    simp [strong, hos]
  | destroyIntoInner =>
    simp only [refMachine, step] at hstep
    split_ifs at hstep with hpos
    cases hstep
    exact hs.intoInner (by simp only [strong]; omega) ⟨rfl, rfl⟩
  | closeIntoInner =>
    simp only [refMachine, step] at hstep
    split_ifs at hstep with hpos
    cases hstep
    exact hs.intoInner (by simp only [strong]; omega) ⟨rfl, rfl⟩
  | closeAllocation | upgrade =>
    simp only [refMachine, step] at hstep
    split_ifs at hstep with hpos
    · cases hstep
      -- A weak reference is upgraded only while there is a strong one.
      refine hs.of_strong ?_ ⟨rfl, rfl⟩
      simp only [strong] at hpos ⊢
      omega
    · cases hstep
      exact hs
  | closeFails | drop =>
    simp only [refMachine, step] at hstep
    split_ifs at hstep with hpos
    cases hstep
    -- A plain drop, which is not of the last reference.
    refine hs.of_strong ?_ ⟨rfl, rfl⟩
    simp only [NotLast, strong] at hok ⊢
    omega
  | resourceUnref =>
    simp only [refMachine, step] at hstep
    split_ifs at hstep with hpos
    cases hstep
    change s.releasing - 1 + (s.unrefs + 1) = if s.strong = 0 then 1 else 0
    rw [← (hs : _ = _)]
    omega

/-- If the last reference is dropped, nobody releases the resource. -/
theorem not_unrefOnce_of_last (hs : s.Inv) (hbad : ¬ s.NotLast a)
    (hstep : refMachine.step s a = .next s') : ¬ s'.UnrefOnce := by
  have hlast : (a = .drop ∨ a = .closeFails) ∧ s.strong = 1 := by
    cases a <;> simp_all [NotLast]
  obtain ⟨ha, hlast⟩ := hlast
  have hs : s.releasing + s.unrefs = 0 := by
    unfold Inv at hs
    rwa [if_neg (by omega)] at hs
  intro honce
  rcases ha with rfl | rfl <;>
  · simp only [refMachine, step] at hstep
    split_ifs at hstep with hpos
    cases hstep
    have hafter := honce.after (by simp only [strong] at hlast ⊢; omega)
      (by dsimp only; omega)
    dsimp only at hafter
    omega

end AllocationRefs

/-- **When a resource is released exactly once.**  All along, `RESOURCE_UNREF` has been queued once
when the last reference is gone, and not before, exactly if the last reference is never dropped but
given up with `Arc::into_inner`. -/
theorem unref_once_iff (as : List RefAct) (s : AllocationRefs)
    (hrun : refMachine.run .init as = some s) :
    refMachine.Always AllocationRefs.UnrefOnce .init as ↔
      refMachine.Meets AllocationRefs.NotLast .init as :=
  Machine.always_iff_meets (fun _ _ _ => AllocationRefs.inv_step) (fun _ hs => hs.unrefOnce)
    (fun _ _ _ => AllocationRefs.not_unrefOnce_of_last) rfl hrun

instance (s : AllocationRefs) (a : RefAct) : Decidable (s.NotLast a) := by
  cases a <;> unfold AllocationRefs.NotLast <;> infer_instance

/-- The handle is destroyed while a device handle is being closed; the latter is the last. -/
def closedLast : List RefAct :=
  [.closeAllocation, .upgrade, .deallocate, .destroyIntoInner, .drop, .closeIntoInner,
    .resourceUnref]

theorem unref_once_iff_closedLast :
    (refMachine.run .init closedLast).map AllocationRefs.unrefs = some 1 ∧
      refMachine.Always AllocationRefs.UnrefOnce .init closedLast := by
  have hrun : (refMachine.run .init closedLast).map AllocationRefs.unrefs = some 1 := by decide
  obtain ⟨s, hs, -⟩ := Option.map_eq_some_iff.1 hrun
  exact ⟨hrun, (unref_once_iff closedLast s hs).2 (by decide)⟩

/-- **A resource can be left behind.**  The flip timer upgrades its weak reference, the handle is
destroyed, and the timer drops its reference: nobody has queued `RESOURCE_UNREF`. -/
theorem unref_missing :
    (refMachine.run .init [.upgrade, .deallocate, .destroyIntoInner, .drop]).map
      (fun s => (s.strong, s.releasing, s.unrefs)) = some (0, 0, 0) := by
  decide

end VirtioGpu
