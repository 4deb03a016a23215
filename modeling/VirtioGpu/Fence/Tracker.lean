import VirtioGpu.Fence.Engine

/-!
# Virtio fences

Every fenced command carries a virtio fence from `FenceTracker::next_fence`; the handler thread
signals it when the device has answered the command.  User mode may make a submission wait for such
a fence: a `FenceSubmission` is kept until `FenceTracker::query` says its virtio fence has been
signalled.
-/

namespace VirtioGpu

/-- `FenceTracker`: the next fence to hand out, and the ones handed out and not signalled. -/
structure FenceTracker where
  nextFence : ℕ
  unsignaled : List ℕ
  deriving DecidableEq

namespace FenceTracker

/-- `FenceTracker::next_fence`: the fence, and the tracker with the fence outstanding. -/
def issue (t : FenceTracker) : ℕ × FenceTracker :=
  (t.nextFence, ⟨(t.nextFence + 1) % 2 ^ 64, t.unsignaled ++ [t.nextFence]⟩)

/-- `SmallVec::swap_remove`: the last element takes the place of the removed one. -/
def swapRemove (l : List ℕ) (position : ℕ) : List ℕ :=
  (l.set position (l.getLastD 0)).dropLast

/-- `FenceTracker::signal`; `none` is the failed assertion `fence < next_fence`. -/
def signal (t : FenceTracker) (fence : ℕ) : Option FenceTracker :=
  if fence < t.nextFence then
    match t.unsignaled.findIdx? (· == fence) with
    | some position => some { t with unsignaled := swapRemove t.unsignaled position }
    | none => some t
  else none

def query (t : FenceTracker) (fence : ℕ) : Bool :=
  fence < t.nextFence && !t.unsignaled.contains fence

theorem swapRemove_perm {l : List ℕ} {i : ℕ} (hi : i < l.length) :
    (l[i] :: swapRemove l i).Perm l := by
  rcases List.eq_nil_or_concat l with rfl | ⟨l, z, rfl⟩
  · cases hi
  · have hlast : swapRemove (l ++ [z]) i = ((l ++ [z]).set i z).dropLast := by
      simp [swapRemove]
    simp only [List.concat_eq_append] at hi ⊢
    rw [hlast]
    rcases Nat.lt_or_ge i l.length with hl | hl
    · -- The last element takes the place of the removed one.
      rw [List.set_append_left _ _ hl, List.dropLast_concat, List.getElem_append_left hl,
        List.set_eq_take_append_cons_drop, if_pos hl]
      have hsplit : l = l.take i ++ l[i] :: l.drop (i + 1) := by simp
      generalize l[i] = x at hsplit ⊢
      generalize l.take i = a at hsplit ⊢
      generalize l.drop (i + 1) = b at hsplit ⊢
      subst hsplit
      refine List.perm_middle.symm.trans ?_
      rw [List.append_assoc]
      exact ((List.perm_append_singleton z b).symm.cons x).append_left a
    · -- The removed element is the last one.
      obtain rfl : i = l.length := by simp at hi; omega
      simpa using (List.perm_append_singleton z l).symm

theorem signal_eq_some {t t' : FenceTracker} {fence : ℕ} (h : t.signal fence = some t') :
    fence < t.nextFence ∧ t'.nextFence = t.nextFence ∧
      ((fence ∈ t.unsignaled ∧ (fence :: t'.unsignaled).Perm t.unsignaled) ∨
        (fence ∉ t.unsignaled ∧ t'.unsignaled = t.unsignaled)) := by
  simp only [signal] at h
  by_cases hlt : fence < t.nextFence
  · rw [if_pos hlt] at h
    refine ⟨hlt, ?_⟩
    cases hfind : t.unsignaled.findIdx? (· == fence) with
    | none =>
      simp only [hfind, Option.some.injEq] at h
      subst h
      refine ⟨rfl, .inr ⟨fun hmem => ?_, rfl⟩⟩
      simpa using List.findIdx?_eq_none_iff.1 hfind fence hmem
    | some position =>
      simp only [hfind, Option.some.injEq] at h
      subst h
      obtain ⟨hpos, heq, -⟩ := List.findIdx?_eq_some_iff_getElem.1 hfind
      have heq : t.unsignaled[position] = fence := by simpa using heq
      refine ⟨rfl, .inl ⟨heq ▸ List.getElem_mem hpos, ?_⟩⟩
      have hperm := swapRemove_perm hpos
      rwa [heq] at hperm
  · rw [if_neg hlt] at h
    cases h

end FenceTracker

/-- `FenceSubmission`: `dxgkFence` of `engine` completes when `virtioFence` is signalled. -/
structure FenceSubmission where
  engine : Engine
  dxgkFence : ℕ
  virtioFence : ℕ
  timestamp : ℕ
  deriving DecidableEq

end VirtioGpu
