import Mathlib.Data.List.Basic

/-!
# Bounded first-in first-out queues

`ArrayQueue α cap` holds at most `cap` values, oldest first.  Besides `push` (refused when the
queue is full) and `pop` it has `forcePush`, which makes room by removing the oldest value and
hands that value back.  The capacity is positive and never exceeded: both facts are fields, so
that no operation has to prove them again.

The operations are characterised by what they do to the list of values (`items_of_push`,
`forcePush_cases`, `pop_cases`); nothing else looks inside.
-/

namespace VirtioGpu

/-- A queue of at most `cap` values, oldest first. -/
structure ArrayQueue (α : Type*) (cap : ℕ) where
  /-- The values, oldest first. -/
  items : List α
  cap_pos : 0 < cap
  length_le : items.length ≤ cap

namespace ArrayQueue

variable {α : Type*} {cap : ℕ} {q : ArrayQueue α cap}

/-- The empty queue of a given capacity. -/
def new (h : 0 < cap) : ArrayQueue α cap := ⟨[], h, Nat.zero_le _⟩

/-- Append a value, or give it back if the queue is full. -/
def push (q : ArrayQueue α cap) (v : α) : Except α (ArrayQueue α cap) :=
  if h : q.items.length < cap then
    .ok ⟨q.items ++ [v], q.cap_pos, by rw [List.length_append]; exact h⟩
  else .error v

/-- Append a value; a full queue first gives up its oldest value, which is returned. -/
def forcePush (q : ArrayQueue α cap) (v : α) : ArrayQueue α cap × Option α :=
  if h : q.items.length < cap then
    (⟨q.items ++ [v], q.cap_pos, by rw [List.length_append]; exact h⟩, none)
  else
    (⟨q.items.tail ++ [v], q.cap_pos, by
      have := q.cap_pos
      have := q.length_le
      rw [List.length_append, List.length_tail, List.length_singleton]; omega⟩, q.items.head?)

/-- Remove the oldest value. -/
def pop (q : ArrayQueue α cap) : Option α × ArrayQueue α cap :=
  (q.items.head?, ⟨q.items.tail, q.cap_pos, by
    have := q.length_le
    rw [List.length_tail]; omega⟩)

@[simp] theorem items_new (h : 0 < cap) : (new h : ArrayQueue α cap).items = [] := rfl

theorem push_of_lt (h : q.items.length < cap) (v : α) :
    ∃ q', q.push v = .ok q' ∧ q'.items = q.items ++ [v] := by
  simp [push, h]

theorem items_of_push {q q' : ArrayQueue α cap} {v : α} (h : q.push v = .ok q') :
    q'.items = q.items ++ [v] ∧ q.items.length < cap := by
  unfold push at h
  split_ifs at h with hlt
  cases h
  exact ⟨rfl, hlt⟩

theorem of_push_error {v w : α} (h : q.push v = .error w) :
    w = v ∧ q.items.length = cap := by
  unfold push at h
  split_ifs at h with hlt
  cases h
  exact ⟨rfl, by have := q.length_le; omega⟩

theorem ne_nil_of_full (h : q.items.length = cap) : q.items ≠ [] := by
  have := q.cap_pos
  rintro hnil
  rw [hnil, List.length_nil] at h
  omega

/-- A forced push either finds room, or moves every value one place forward and returns the
oldest. -/
theorem forcePush_cases (q : ArrayQueue α cap) (v : α) :
    (∃ q', q.forcePush v = (q', none) ∧ q'.items = q.items ++ [v]) ∨
      ∃ d rest q', q.items = d :: rest ∧ q.forcePush v = (q', some d) ∧
        q'.items = rest ++ [v] := by
  by_cases h : q.items.length < cap
  · exact .inl ⟨_, by simp only [forcePush, h, ↓reduceDIte]; rfl, rfl⟩
  · have hfull : q.items.length = cap := by have := q.length_le; omega
    obtain ⟨d, rest, hq⟩ := List.exists_cons_of_ne_nil (ne_nil_of_full hfull)
    refine .inr ⟨d, rest, (q.forcePush v).1, hq, Prod.ext rfl ?_, ?_⟩
    · simp only [forcePush, h, ↓reduceDIte]
      rw [hq, List.head?_cons]
    · simp only [forcePush, h, ↓reduceDIte]
      rw [hq, List.tail_cons]

theorem length_of_forcePush {v d : α} (h : (q.forcePush v).2 = some d) :
    q.items.length = cap := by
  have hle := q.length_le
  unfold forcePush at h
  split_ifs at h with hlt
  omega

theorem pop_cases (q : ArrayQueue α cap) :
    (q.items = [] ∧ ∃ q', q.pop = (none, q') ∧ q'.items = []) ∨
      ∃ d rest q', q.items = d :: rest ∧ q.pop = (some d, q') ∧ q'.items = rest := by
  cases hq : q.items with
  | nil => exact .inl ⟨rfl, _, by simp only [pop, hq, List.head?_nil]; rfl, by simp⟩
  | cons d rest => exact .inr ⟨d, rest, q.pop.2, rfl, by simp [pop, hq], by simp [pop, hq]⟩

end ArrayQueue

end VirtioGpu
