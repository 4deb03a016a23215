import Mathlib.Data.List.Basic
import Mathlib.Order.Lattice

/-!
# Sorting at two ends

Items arrive one by one and are put in front of those that are there, or behind them.  All that
decides is the key of the item that arrived last: an item with a smaller key goes to the front, any
other to the back.  The outcome is sorted exactly if every item that arrives has a key below all
earlier ones, or above all of them.

* `pairwise_arrange_iff`
-/

namespace VirtioGpu

variable {α κ : Type*} [LinearOrder κ] (key : α → κ)

/-- The items of a list arrive when `acc` is there and `last` was the last key. -/
def arrange (last : κ) (acc : List α) : List α → List α
  | [] => acc
  | x :: xs => arrange (key x) (if key x < last then x :: acc else acc ++ [x]) xs

/-- Every item of the list has a key below or above all earlier ones, those in `acc` included. -/
def Outward (acc : List α) : List α → Prop
  | [] => True
  | x :: xs =>
    ((∀ y ∈ acc, key x < key y) ∨ ∀ y ∈ acc, key y < key x) ∧ Outward (x :: acc) xs

instance decidableOutward [DecidableLT κ] (acc : List α) : ∀ xs, Decidable (Outward key acc xs)
  | [] => isTrue trivial
  | x :: xs =>
    have := decidableOutward (x :: acc) xs
    inferInstanceAs (Decidable (_ ∧ _))

variable {key} {last : κ} {acc acc' xs : List α}

theorem perm_arrange : (arrange key last acc xs).Perm (acc ++ xs) := by
  induction xs generalizing last acc with
  | nil => rw [arrange, List.append_nil]
  | cons x xs ih =>
    rw [arrange]
    refine ih.trans ?_
    split_ifs
    · exact (List.perm_middle).symm
    · rw [List.append_assoc]
      rfl

theorem infix_arrange : acc <:+: arrange key last acc xs := by
  induction xs generalizing last acc with
  | nil => exact List.infix_refl acc
  | cons x xs ih =>
    rw [arrange]
    refine List.IsInfix.trans ?_ ih
    split_ifs
    · exact List.infix_cons (List.infix_refl acc)
    · exact (List.prefix_append acc [x]).isInfix

theorem outward_congr (h : ∀ y, y ∈ acc ↔ y ∈ acc') : Outward key acc xs ↔ Outward key acc' xs := by
  induction xs generalizing acc acc' with
  | nil => rfl
  | cons x xs ih =>
    simp only [Outward, h]
    have hmem : ∀ y, y ∈ x :: acc ↔ y ∈ x :: acc' := fun y => by simp [h]
    rw [ih hmem]

/-- **When the outcome is sorted.** -/
theorem pairwise_arrange_iff (hacc : acc.Pairwise (key · < key ·))
    (hlast : acc = [] ∨ ∃ y ∈ acc, key y = last) :
    (arrange key last acc xs).Pairwise (key · < key ·) ↔ Outward key acc xs := by
  induction xs generalizing last acc with
  | nil => exact ⟨fun _ => trivial, fun _ => hacc⟩
  | cons x xs ih =>
    have hnext : ∀ {acc'}, (∀ y, y ∈ acc' ↔ y ∈ x :: acc) → acc'.Pairwise (key · < key ·) →
        ((arrange key (key x) acc' xs).Pairwise (key · < key ·) ↔ Outward key (x :: acc) xs) := by
      intro acc' hmem hsorted
      rw [ih hsorted (.inr ⟨x, (hmem x).2 List.mem_cons_self, rfl⟩)]
      exact outward_congr hmem
    have hback : ∀ y, y ∈ acc ++ [x] ↔ y ∈ x :: acc := by
      intro y
      simp [or_comm]
    rw [arrange, Outward]
    constructor
    · -- A sorted outcome is sorted around `x`, which stands at one of the ends.
      intro h
      have hinfix := h.sublist infix_arrange.sublist
      split_ifs at h hinfix
      · exact ⟨.inl (List.pairwise_cons.1 hinfix).1, (hnext (fun _ => Iff.rfl) hinfix).1 h⟩
      · refine ⟨.inr fun y hy => ?_, (hnext hback hinfix).1 h⟩
        exact (List.pairwise_append.1 hinfix).2.2 y hy x List.mem_cons_self
    · rintro ⟨hx, hrest⟩
      rcases hlast with rfl | ⟨z, hz, rfl⟩
      · have hsingle : (if key x < last then [x] else [] ++ [x]) = [x] := by simp
        rw [hsingle]
        exact (hnext (fun _ => Iff.rfl) (List.pairwise_singleton _ _)).2 hrest
      · rcases hx with hx | hx
        · rw [if_pos (hx z hz)]
          exact (hnext (fun _ => Iff.rfl) (List.pairwise_cons.2 ⟨hx, hacc⟩)).2 hrest
        · rw [if_neg (not_lt.2 (hx z hz).le)]
          refine (hnext hback (List.pairwise_append.2 ⟨hacc, List.pairwise_singleton _ _, ?_⟩)).2
            hrest
          intro y hy w hw
          rw [List.mem_singleton.1 hw]
          exact hx y hy

end VirtioGpu
