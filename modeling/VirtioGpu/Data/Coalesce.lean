import Mathlib.Data.List.Basic

/-!
# Merging neighbours

A list whose entries stand for more than they are (extents for the bytes they cover) can be made
shorter by merging neighbours where that is possible.  `join a b` is the merged entry, if there is
one.  There are two ways to do it: `coalesce` goes through a list from the left, and `appendMerged`
adds the entries of one list to the end of another, each merged with the last one if possible.

`Faithful join good expand` says that merging two good entries gives a good one that stands for the
same; then so do the two functions.

* `Faithful.flatMap_coalesce`, `Faithful.flatMap_appendMerged`
-/

namespace VirtioGpu

variable {α β : Type*} (join : α → α → Option α)

/-- `Itertools::coalesce`, with `a` the entry at hand. -/
def coalesceFrom (a : α) : List α → List α
  | [] => [a]
  | b :: l => match join a b with
    | some c => coalesceFrom c l
    | none => a :: coalesceFrom b l

/-- `Itertools::coalesce` -/
def coalesce : List α → List α
  | [] => []
  | a :: l => coalesceFrom join a l

/-- Merge `b` with the last entry of a list, or append it. -/
def pushMerged : List α → α → List α
  | [], b => [b]
  | [a], b => match join a b with
    | some c => [c]
    | none => [a, b]
  | a :: a' :: l, b => a :: pushMerged (a' :: l) b

/-- Append a list, entry by entry. -/
def appendMerged (l new : List α) : List α := new.foldl (pushMerged join) l

/-- Merging keeps what the entries stand for, and keeps them good. -/
def Faithful (good : α → Prop) (expand : α → List β) : Prop :=
  ∀ {a b c}, good a → good b → join a b = some c → good c ∧ expand c = expand a ++ expand b

variable {join} {good : α → Prop} {expand : α → List β}

namespace Faithful

section

variable (h : Faithful join good expand)
include h

theorem coalesceFrom :
    ∀ {l : List α} {a : α}, good a → (∀ b ∈ l, good b) →
      (∀ b ∈ coalesceFrom join a l, good b) ∧
        (coalesceFrom join a l).flatMap expand = expand a ++ l.flatMap expand := by
  intro l
  induction l with
  | nil =>
    intro a ha _
    simpa [VirtioGpu.coalesceFrom] using ha
  | cons b l ih =>
    intro a ha hl
    rw [List.forall_mem_cons] at hl
    rw [VirtioGpu.coalesceFrom]
    cases hab : join a b with
    | some =>
      obtain ⟨hc, hexpand⟩ := h ha hl.1 hab
      obtain ⟨hgood, heq⟩ := ih hc hl.2
      refine ⟨hgood, ?_⟩
      rw [heq, hexpand, List.flatMap_cons, List.append_assoc]
    | none =>
      obtain ⟨hgood, heq⟩ := ih hl.1 hl.2
      refine ⟨List.forall_mem_cons.2 ⟨ha, hgood⟩, ?_⟩
      simp only [List.flatMap_cons, heq]

theorem coalesce {l : List α} (hl : ∀ b ∈ l, good b) :
    (∀ b ∈ coalesce join l, good b) ∧ (coalesce join l).flatMap expand = l.flatMap expand := by
  cases l with
  | nil => exact ⟨hl, rfl⟩
  | cons =>
    rw [List.forall_mem_cons] at hl
    exact h.coalesceFrom hl.1 hl.2

theorem pushMerged {b : α} (hb : good b) :
    ∀ {l : List α}, (∀ a ∈ l, good a) → (∀ a ∈ pushMerged join l b, good a) ∧
      (pushMerged join l b).flatMap expand = l.flatMap expand ++ expand b := by
  intro l
  induction l with
  | nil =>
    intro _
    simpa [VirtioGpu.pushMerged] using hb
  | cons a l ih =>
    intro hl
    rw [List.forall_mem_cons] at hl
    cases l with
    | nil =>
      rw [VirtioGpu.pushMerged]
      cases hab : join a b with
      | some =>
        obtain ⟨hc, hexpand⟩ := h hl.1 hb hab
        simpa [hexpand] using hc
      | none => simpa using ⟨hl.1, hb⟩
    | cons =>
      obtain ⟨hgood, heq⟩ := ih hl.2
      rw [VirtioGpu.pushMerged]
      refine ⟨List.forall_mem_cons.2 ⟨hl.1, hgood⟩, ?_⟩
      simp only [List.flatMap_cons, heq, List.append_assoc]

theorem appendMerged {new : List α} (hnew : ∀ b ∈ new, good b) :
    ∀ {l : List α}, (∀ a ∈ l, good a) → (∀ a ∈ appendMerged join l new, good a) ∧
      (appendMerged join l new).flatMap expand = l.flatMap expand ++ new.flatMap expand := by
  induction new with
  | nil =>
    intro l hl
    simpa [VirtioGpu.appendMerged] using hl
  | cons b new ih =>
    intro l hl
    rw [List.forall_mem_cons] at hnew
    obtain ⟨hgood, heq⟩ := h.pushMerged hnew.1 hl
    obtain ⟨hgood', heq'⟩ := ih hnew.2 hgood
    refine ⟨hgood', ?_⟩
    rw [VirtioGpu.appendMerged, List.foldl_cons]
    exact heq'.trans (by rw [heq, List.flatMap_cons, List.append_assoc])

end

end Faithful

end VirtioGpu
