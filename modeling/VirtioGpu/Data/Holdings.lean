import Mathlib.Algebra.Order.Group.Nat
import Mathlib.Data.List.Count

/-!
# What many holders hold together

The holders of some items (threads, requests, buffers) are in a list `l`, and `f` says what each of
them has in its hands, so that `l.flatMap f` is what they hold together.  The rules below say how
that changes when one holder changes, leaves, or joins.  They are balances, without a subtraction,
for `omega` to put together.

* `countP_flatMap_set` : the holder at `i` changes.
* `countP_flatMap_eraseIdx` : the holder at `i` leaves.
* `countP_le_countP_flatMap` : one holder has at most what all have.
-/

namespace VirtioGpu

variable {α β : Type*} {l : List α} {x : α} {i : ℕ}

section

variable (p : β → Bool) (f : α → List β)

theorem countP_flatMap_set (h : l[i]? = some x) (y : α) :
    ((l.set i y).flatMap f).countP p + (f x).countP p =
      (l.flatMap f).countP p + (f y).countP p := by
  induction l generalizing i with
  | nil => cases h
  | cons z l ih =>
    cases i with
    | zero =>
      cases h
      simp only [List.set_cons_zero, List.flatMap_cons, List.countP_append]
      omega
    | succ i =>
      have := ih (i := i) h
      simp only [List.set_cons_succ, List.flatMap_cons, List.countP_append]
      omega

theorem countP_flatMap_eraseIdx (h : l[i]? = some x) :
    ((l.eraseIdx i).flatMap f).countP p + (f x).countP p = (l.flatMap f).countP p := by
  induction l generalizing i with
  | nil => cases h
  | cons z l ih =>
    cases i with
    | zero =>
      cases h
      simp only [List.eraseIdx_cons_zero, List.flatMap_cons, List.countP_append]
      omega
    | succ i =>
      have := ih (i := i) h
      simp only [List.eraseIdx_cons_succ, List.flatMap_cons, List.countP_append]
      omega

theorem countP_flatMap_concat (l : List α) (x : α) :
    ((l ++ [x]).flatMap f).countP p = (l.flatMap f).countP p + (f x).countP p := by
  simp [List.countP_append]

theorem countP_le_countP_flatMap (h : l[i]? = some x) :
    (f x).countP p ≤ (l.flatMap f).countP p := by
  have := countP_flatMap_eraseIdx p f h
  omega

end

end VirtioGpu
