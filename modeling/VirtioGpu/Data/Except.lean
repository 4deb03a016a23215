/-!
# Steps of code that can panic

Code that can panic is written in `Except`, with `do`.  A step that is known not to panic is taken
by one of these.
-/

namespace VirtioGpu

variable {ε α β : Type}

theorem ok_bind (x : α) (f : α → Except ε β) : (Except.ok x >>= f) = f x := rfl

theorem pure_eq_ok (x : α) : (pure x : Except ε α) = .ok x := rfl

theorem mapM_eq_ok {f : α → Except ε β} {g : α → β} {l : List α} (h : ∀ x ∈ l, f x = .ok (g x)) :
    l.mapM f = .ok (l.map g) := by
  induction l with
  | nil => rfl
  | cons x l ih =>
    rw [List.mapM_cons, h x List.mem_cons_self, ok_bind, ih fun y hy => h y (.tail _ hy), ok_bind]
    rfl

end VirtioGpu
