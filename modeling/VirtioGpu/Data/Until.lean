import Mathlib.Data.List.Infix

/-!
# Updates until the first failure

A loop that updates a state with one element of a list after the other and returns early if an
update fails: the updates before that stay.  `applyUntil` is such a loop; `applyUntil_eq_ok_iff`
takes it apart into the elements that were handled, and `handled_takeWhile` says which these are.
-/

namespace VirtioGpu

variable {σ α ε : Type}

/-- Update the state with the elements of the list, up to the first failure. -/
def applyUntil (f : σ → α → Except ε σ) : σ → List α → Except ε Unit × σ
  | s, [] => (.ok (), s)
  | s, a :: l => match f s a with
    | .error e => (.error e, s)
    | .ok s' => applyUntil f s' l

/-- The elements of `done` are handled without a failure. -/
inductive Handled (f : σ → α → Except ε σ) : List α → σ → σ → Prop
  | nil (s : σ) : Handled f [] s s
  | cons {a : α} {done : List α} {s s' s'' : σ} (head : f s a = .ok s')
      (tail : Handled f done s' s'') : Handled f (a :: done) s s''

variable {f : σ → α → Except ε σ} {s s' : σ} {l : List α}

theorem applyUntil_of_handled {done rest : List α} (h : Handled f done s s') :
    applyUntil f s (done ++ rest) = applyUntil f s' rest := by
  induction h with
  | nil => rfl
  | cons head _ ih => rw [List.cons_append, applyUntil, head, ← ih]

theorem applyUntil_eq_ok_iff : applyUntil f s l = (.ok (), s') ↔ Handled f l s s' := by
  constructor
  · intro h
    induction l generalizing s with
    | nil =>
      cases h
      exact .nil _
    | cons a l ih =>
      unfold applyUntil at h
      split at h
      · cases h
      · rename_i s₁ head
        exact .cons head (ih h)
  · intro h
    rw [← List.append_nil l, applyUntil_of_handled h]
    rfl

/-- If it is known beforehand what can be handled, a loop that fails has handled what comes before
the first element that cannot. -/
theorem handled_takeWhile {I : σ → Prop} {p : α → Bool} {e : ε}
    (hf : ∀ s a s', I s → f s a = .ok s' → I s')
    (hp : ∀ s a, I s → (p a = true ↔ ∃ s', f s a = .ok s')) (hs : I s)
    (h : applyUntil f s l = (.error e, s')) : Handled f (l.takeWhile p) s s' := by
  induction l generalizing s with
  | nil => cases h
  | cons a l ih =>
    unfold applyUntil at h
    cases head : f s a with
    | error =>
      have hpa : ¬ p a = true := fun hpa => by
        obtain ⟨s₁, hs₁⟩ := (hp s a hs).1 hpa
        rw [head] at hs₁
        cases hs₁
      rw [head] at h
      cases h
      rw [List.takeWhile_cons_of_neg hpa]
      exact .nil _
    | ok s₁ =>
      rw [head] at h
      rw [List.takeWhile_cons_of_pos ((hp s a hs).2 ⟨s₁, head⟩)]
      exact .cons head (ih (hf s a s₁ hs head) h)

theorem applyUntil_invariant {I : σ → Prop} (hf : ∀ s a s', I s → f s a = .ok s' → I s')
    (hs : I s) : I (applyUntil f s l).2 := by
  induction l generalizing s with
  | nil => exact hs
  | cons a l ih =>
    unfold applyUntil
    cases head : f s a with
    | error => exact hs
    | ok s₁ => exact ih (hf s a s₁ hs head)

theorem applyUntil_fst : (applyUntil f s l).1 = l.foldlM f s >>= fun _ => .ok () := by
  induction l generalizing s with
  | nil => rfl
  | cons a l ih =>
    rw [applyUntil, List.foldlM_cons]
    cases f s a with
    | error => rfl
    | ok => exact ih

theorem foldlM_eq_ok_iff : l.foldlM f s = .ok s' ↔ Handled f l s s' := by
  constructor
  · intro h
    induction l generalizing s with
    | nil =>
      cases h
      exact .nil _
    | cons a l ih =>
      rw [List.foldlM_cons] at h
      cases head : f s a with
      | error =>
        rw [head] at h
        cases h
      | ok =>
        rw [head] at h
        exact .cons head (ih h)
  · intro h
    induction h with
    | nil => rfl
    | cons head _ ih =>
      rw [List.foldlM_cons, head]
      exact ih

theorem Handled.invariant {I : σ → Prop} {done : List α} (h : Handled f done s s')
    (hf : ∀ s a s', I s → f s a = .ok s' → I s') (hs : I s) : I s' := by
  induction h with
  | nil s => exact hs
  | cons head _ ih => exact ih (hf _ _ _ hs head)

end VirtioGpu
