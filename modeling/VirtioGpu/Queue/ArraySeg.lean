import VirtioGpu.Data.ArrayQueue
import VirtioGpu.Machine.Basic
import Mathlib.Algebra.Order.Group.Multiset
import Mathlib.Algebra.Order.Ring.Nat

/-!
# The request channel's queue

`ArraySegQueue` (`queue.rs`) is a bounded *fast* queue with an unbounded *slow* queue behind it.
A producer that finds the fast queue full puts its value into the slow queue; a consumer first
moves the oldest value of the slow queue to the end of the fast one, and returns either the value
this displaces or, if there was room, the oldest value of the fast queue.

Neither operation is atomic.  `ArraySegQueue.machine` interleaves any number of producers `π` with
one consumer, one call of `ArrayQueue` or `SegQueue` at a time.  The state carries the history the
specification talks about: the values in the order in which they were given to `push`, those that
have been stored, what every `pop` has returned, and where the producers were when the running
`pop` made its first step.

* `ArraySegQueue.machine_conserves` : nothing is lost or duplicated, and a `pop` that returns
  `None` either ends with both queues empty or overlaps a push that had found the fast queue full.
* `ArraySegQueue.in_order_of_meets` : with one producer the values come out in the order in which
  they went in, *provided* no push finds room in the fast queue while an older value is still on
  its way through the slow one.
* `ArraySegQueue.out_of_order` : without that proviso they do not.
-/

namespace VirtioGpu

/-- The fast queue and the slow queue behind it. -/
structure ArraySegQueue (α : Type*) (cap : ℕ) where
  /-- `ArrayQueue`: bounded. -/
  fast : ArrayQueue α cap
  /-- `SegQueue`: unbounded, oldest value first. -/
  slow : List α

namespace ArraySegQueue

/-- Where a producer is in `push`. -/
inductive PushPc (α : Type*) where
  | idle
  /-- `fast.push` has returned `Err(v)`; `slow.push(v)` is next. -/
  | overflow (v : α)

/-- Where the consumer is in `pop`. -/
inductive PopPc (α : Type*) where
  | idle
  /-- `slow.pop` has returned `None`; `fast.pop` is next. -/
  | slowEmpty
  /-- `slow.pop` has returned `Some(v)`; `fast.force_push(v)` is next. -/
  | refill (v : α)
  /-- `fast.force_push` has returned `None`; `fast.pop` is next. -/
  | refilled

/-- The value a `pop` in progress has taken out of the slow queue and not yet put back. -/
def PopPc.held {α : Type*} : PopPc α → List α
  | .refill v => [v]
  | _ => []

/-- The value an overflowing `push` has not yet stored. -/
def PushPc.held {α : Type*} : PushPc α → List α
  | .overflow v => [v]
  | .idle => []

/-- The queue, its users, and the history of the run. -/
structure State (π α : Type*) (cap : ℕ) where
  q : ArraySegQueue α cap
  producer : π → PushPc α
  consumer : PopPc α
  /-- The values given to `push`, in the order of the calls. -/
  pushed : List α
  /-- The values whose `push` has stored them, in the order of storing. -/
  stored : List α
  /-- What the completed calls of `pop` have returned. -/
  returned : List (Option α)
  /-- Where the producers were at the first step of the latest `pop`. -/
  atFirst : π → PushPc α

/-- The values returned so far. -/
def State.values {π α : Type*} {cap : ℕ} (s : State π α cap) : List α :=
  s.returned.filterMap id

/-- The steps of the producers and of the consumer. -/
inductive Act (π α : Type*) where
  /-- Producer `p` calls `push(v)` and performs `fast.push(v)`. -/
  | push (p : π) (v : α)
  /-- Producer `p` performs `slow.push`. -/
  | slowPush (p : π)
  /-- The consumer performs the next step of `pop` (its first one if it is not in `pop`). -/
  | pop

section Machine

variable {π α : Type*} {cap : ℕ} {s s' : State π α cap} {p : π}

/-- An empty queue that nobody is using. -/
def init (π α : Type*) (h : 0 < cap) : State π α cap where
  q := ⟨.new h, []⟩
  producer := fun _ => .idle
  consumer := .idle
  pushed := []
  stored := []
  returned := []
  atFirst := fun _ => .idle

/-- `ArraySegQueue::push`, first step. -/
def stepPush [DecidableEq π] (s : State π α cap) (p : π) (v : α) : Outcome (State π α cap) Empty :=
  match s.producer p with
  | .overflow _ => .stuck
  | .idle => match s.q.fast.push v with
    | .ok fast => .next { s with
        q := { s.q with fast := fast }
        pushed := s.pushed ++ [v]
        stored := s.stored ++ [v] }
    | .error v => .next { s with
        producer := Function.update s.producer p (.overflow v)
        pushed := s.pushed ++ [v] }

/-- `ArraySegQueue::push`, second step of an overflowing push. -/
def stepSlowPush [DecidableEq π] (s : State π α cap) (p : π) : Outcome (State π α cap) Empty :=
  match s.producer p with
  | .idle => .stuck
  | .overflow v => .next { s with
      q := { s.q with slow := s.q.slow ++ [v] }
      producer := Function.update s.producer p .idle
      stored := s.stored ++ [v] }

/-- `ArraySegQueue::pop`, one step. -/
def stepPop (s : State π α cap) : Outcome (State π α cap) Empty :=
  match s.consumer with
  | .idle => match s.q.slow with
    | v :: slow => .next { s with
        q := { s.q with slow := slow }, consumer := .refill v, atFirst := s.producer }
    | [] => .next { s with consumer := .slowEmpty, atFirst := s.producer }
  | .refill v => match s.q.fast.forcePush v with
    | (fast, some d) => .next { s with
        q := { s.q with fast := fast }, consumer := .idle, returned := s.returned ++ [some d] }
    | (fast, none) => .next { s with
        q := { s.q with fast := fast }, consumer := .refilled }
  | .slowEmpty | .refilled => match s.q.fast.pop with
    | (r, fast) => .next { s with
        q := { s.q with fast := fast }, consumer := .idle, returned := s.returned ++ [r] }

/-- Producers `π` and one consumer sharing the queue. -/
def machine (π α : Type*) (cap : ℕ) [DecidableEq π] :
    Machine (State π α cap) (Act π α) Empty where
  step s
    | .push p v => stepPush s p v
    | .slowPush p => stepSlowPush s p
    | .pop => stepPop s

/-! ### What a step can do -/

theorem stepPush_cases [DecidableEq π] {v : α} (h : stepPush s p v = .next s') :
    s.producer p = .idle ∧
      ((∃ fast, fast.items = s.q.fast.items ++ [v] ∧ s.q.fast.items.length < cap ∧
          s' = { s with q := ⟨fast, s.q.slow⟩, pushed := s.pushed ++ [v],
                        stored := s.stored ++ [v] }) ∨
        (s.q.fast.items.length = cap ∧
          s' = { s with producer := Function.update s.producer p (.overflow v),
                        pushed := s.pushed ++ [v] })) := by
  unfold stepPush at h
  split at h
  · cases h
  · rename_i hp
    refine ⟨hp, ?_⟩
    split at h
    · rename_i fast hpush
      cases h
      obtain ⟨hitems, hlt⟩ := ArrayQueue.items_of_push hpush
      exact .inl ⟨fast, hitems, hlt, rfl⟩
    · rename_i w hpush
      cases h
      obtain ⟨rfl, hfull⟩ := ArrayQueue.of_push_error hpush
      exact .inr ⟨hfull, rfl⟩

theorem stepSlowPush_cases [DecidableEq π] (h : stepSlowPush s p = .next s') :
    ∃ v, s.producer p = .overflow v ∧
      s' = { s with q := ⟨s.q.fast, s.q.slow ++ [v]⟩,
                    producer := Function.update s.producer p .idle,
                    stored := s.stored ++ [v] } := by
  unfold stepSlowPush at h
  split at h
  · cases h
  · rename_i v hp
    cases h
    exact ⟨v, hp, rfl⟩

/-- A step of `pop`: take a value from the slow queue, find the slow queue empty, swap the value
against the oldest one, put it into a queue with room, or return what the fast queue holds. -/
theorem stepPop_cases (h : stepPop s = .next s') :
    (∃ v slow, s.consumer = .idle ∧ s.q.slow = v :: slow ∧
      s' = { s with q := ⟨s.q.fast, slow⟩, consumer := .refill v, atFirst := s.producer }) ∨
    (s.consumer = .idle ∧ s.q.slow = [] ∧
      s' = { s with consumer := .slowEmpty, atFirst := s.producer }) ∨
    (∃ v d rest fast, s.consumer = .refill v ∧ s.q.fast.items = d :: rest ∧
      fast.items = rest ++ [v] ∧
      s' = { s with q := ⟨fast, s.q.slow⟩, consumer := .idle,
                    returned := s.returned ++ [some d] }) ∨
    (∃ v fast, s.consumer = .refill v ∧ fast.items = s.q.fast.items ++ [v] ∧
      s' = { s with q := ⟨fast, s.q.slow⟩, consumer := .refilled }) ∨
    (∃ fast, (s.consumer = .slowEmpty ∨ s.consumer = .refilled) ∧
      fast.items = s.q.fast.items.tail ∧
      s' = { s with q := ⟨fast, s.q.slow⟩, consumer := .idle,
                    returned := s.returned ++ [s.q.fast.items.head?] }) := by
  unfold stepPop at h
  cases hc : s.consumer with
  | idle =>
    rw [hc] at h
    cases hslow : s.q.slow with
    | nil =>
      simp only [hslow, Outcome.next.injEq] at h
      exact .inr (.inl ⟨rfl, rfl, h.symm⟩)
    | cons v slow =>
      simp only [hslow, Outcome.next.injEq] at h
      exact .inl ⟨v, slow, rfl, rfl, h.symm⟩
  | refill v =>
    rw [hc] at h
    refine .inr (.inr ?_)
    obtain ⟨fast, hf, hitems⟩ | ⟨d, rest, fast, hq, hf, hitems⟩ :=
      ArrayQueue.forcePush_cases s.q.fast v
    · simp only [hf, Outcome.next.injEq] at h
      exact .inr (.inl ⟨v, fast, rfl, hitems, h.symm⟩)
    · simp only [hf, Outcome.next.injEq] at h
      exact .inl ⟨v, d, rest, fast, rfl, hq, hitems, h.symm⟩
  | slowEmpty =>
    rw [hc] at h
    simp only [ArrayQueue.pop, Outcome.next.injEq] at h
    exact .inr (.inr (.inr (.inr ⟨s.q.fast.pop.2, .inl rfl, rfl, h.symm⟩)))
  | refilled =>
    rw [hc] at h
    simp only [ArrayQueue.pop, Outcome.next.injEq] at h
    exact .inr (.inr (.inr (.inr ⟨s.q.fast.pop.2, .inr rfl, rfl, h.symm⟩)))

/-! ### Conservation -/

/-- What has been stored is what has been returned, what the two queues hold, and the value a
`pop` in progress holds. -/
def Conserved (s : State π α cap) : Prop :=
  (s.stored : Multiset α) = s.values + s.q.fast.items + s.q.slow + s.consumer.held

theorem values_append (l : List (Option α)) (r : Option α) :
    (l ++ [r]).filterMap id = l.filterMap id ++ r.toList := by
  cases r <;> simp

theorem head?_toList_append_tail (l : List α) : l.head?.toList ++ l.tail = l := by
  cases l <;> rfl

theorem conserved_push [DecidableEq π] {v : α} (h : stepPush s p v = .next s') (hs : Conserved s) :
    Conserved s' := by
  obtain ⟨-, ⟨fast, hfast, -, rfl⟩ | ⟨-, rfl⟩⟩ := stepPush_cases h
  · simp only [Conserved, State.values, hfast, ← Multiset.coe_add] at hs ⊢
    rw [hs]
    ac_rfl
  · exact hs

theorem conserved_slowPush [DecidableEq π] (h : stepSlowPush s p = .next s') (hs : Conserved s) :
    Conserved s' := by
  obtain ⟨v, -, rfl⟩ := stepSlowPush_cases h
  simp only [Conserved, State.values, ← Multiset.coe_add] at hs ⊢
  rw [hs]
  ac_rfl

theorem conserved_pop (h : stepPop s = .next s') (hs : Conserved s) :
    Conserved s' := by
  unfold Conserved State.values at hs
  obtain ⟨v, slow, hc, hq, rfl⟩ | ⟨hc, hq, rfl⟩ | ⟨v, d, rest, fast, hc, hq, hf, rfl⟩ |
    ⟨v, fast, hc, hf, rfl⟩ | ⟨fast, hc, hf, rfl⟩ := stepPop_cases h
  · rw [hc, hq, ← List.singleton_append] at hs
    simp only [Conserved, State.values, PopPc.held, ← Multiset.coe_add, Multiset.coe_nil,
      add_zero] at hs ⊢
    rw [hs]
    ac_rfl
  · rw [hc] at hs
    exact hs
  · rw [hc, hq, ← List.singleton_append] at hs
    simp only [Conserved, State.values, PopPc.held, hf, values_append, Option.toList_some,
      ← Multiset.coe_add, Multiset.coe_nil, add_zero] at hs ⊢
    rw [hs]
    ac_rfl
  · rw [hc] at hs
    simp only [Conserved, State.values, PopPc.held, hf, ← Multiset.coe_add, Multiset.coe_nil,
      add_zero] at hs ⊢
    rw [hs]
    ac_rfl
  · have hheld : s.consumer.held = [] := by
      rcases hc with hc | hc <;> rw [hc] <;> rfl
    rw [hheld, ← head?_toList_append_tail s.q.fast.items] at hs
    simp only [Conserved, State.values, PopPc.held, hf, values_append, ← Multiset.coe_add,
      Multiset.coe_nil, add_zero] at hs ⊢
    rw [hs]
    ac_rfl

/-! ### When `pop` returns `None` -/

/-- A push that had found the fast queue full was unfinished at the first step of the latest
`pop`. -/
def OverlapsOverflow (s : State π α cap) : Prop :=
  ∃ p v, s.atFirst p = .overflow v

/-- Why the last step of a `pop` will find something in the fast queue, or is excused. -/
def Excused (s : State π α cap) : Prop :=
  match s.consumer with
  | .refilled => s.q.fast.items ≠ []
  | .slowEmpty =>
      OverlapsOverflow s ∨ s.q.fast.items ≠ [] ∨ (s.q.slow = [] ∧ ∀ p, s.producer p = .idle)
  | _ => True

theorem excused_of_ne_nil {s : State π α cap} (h : s.q.fast.items ≠ []) : Excused s := by
  unfold Excused
  split
  · exact h
  · exact .inr (.inl h)
  · trivial

/-- Every push leaves the fast queue non-empty: it has either put its value there or found it
full. -/
theorem excused_push [DecidableEq π] {v : α} (h : stepPush s p v = .next s') : Excused s' := by
  obtain ⟨-, ⟨fast, hfast, -, rfl⟩ | ⟨hfull, rfl⟩⟩ := stepPush_cases h
  · exact excused_of_ne_nil (by simp [hfast])
  · exact excused_of_ne_nil (ArrayQueue.ne_nil_of_full hfull)

theorem excused_slowPush [DecidableEq π] (h : stepSlowPush s p = .next s') (hs : Excused s) :
    Excused s' := by
  obtain ⟨v, hp, rfl⟩ := stepSlowPush_cases h
  cases hc : s.consumer with
  | slowEmpty =>
    simp only [Excused, hc] at hs ⊢
    obtain hover | hne | ⟨-, hidle⟩ := hs
    · exact .inl hover
    · exact .inr (.inl hne)
    · simp [hidle p] at hp
  | refilled => simpa only [Excused, hc] using hs
  | idle => trivial
  | refill => trivial

theorem excused_pop (h : stepPop s = .next s') : Excused s' := by
  obtain ⟨v, slow, hc, hq, rfl⟩ | ⟨hc, hq, rfl⟩ | ⟨v, d, rest, fast, hc, hq, hf, rfl⟩ |
    ⟨v, fast, hc, hf, rfl⟩ | ⟨fast, hc, hf, rfl⟩ := stepPop_cases h
  · trivial
  · by_cases hidle : ∀ p, s.producer p = .idle
    · exact .inr (.inr ⟨hq, hidle⟩)
    · push Not at hidle
      obtain ⟨p, hp⟩ := hidle
      cases hpc : s.producer p with
      | idle => exact absurd hpc hp
      | overflow v => exact .inl ⟨p, v, hpc⟩
  · trivial
  · exact excused_of_ne_nil (by simp [hf])
  · trivial

/-- A `pop` that returns `None` found nothing in the fast queue, so it is excused only by an empty
slow queue or an unfinished push. -/
theorem empty_of_pop_none (hs : Excused s) (h : stepPop s = .next s')
    (hnone : s'.returned = s.returned ++ [none]) :
    (s.q.fast.items = [] ∧ s.q.slow = []) ∨ OverlapsOverflow s := by
  obtain ⟨v, slow, hc, hq, rfl⟩ | ⟨hc, hq, rfl⟩ | ⟨v, d, rest, fast, hc, hq, hf, rfl⟩ |
    ⟨v, fast, hc, hf, rfl⟩ | ⟨fast, hc, hf, rfl⟩ := stepPop_cases h
  · simp at hnone
  · simp at hnone
  · simp at hnone
  · simp at hnone
  · have hempty : s.q.fast.items = [] := by simpa using hnone
    obtain hc | hc := hc
    · simp only [Excused, hc] at hs
      obtain hover | hne | ⟨hslow, -⟩ := hs
      · exact .inr hover
      · exact absurd hempty hne
      · exact .inl ⟨hempty, hslow⟩
    · simp only [Excused, hc] at hs
      exact absurd hempty hs

theorem machine_invariant [DecidableEq π] {s : State π α cap} {as : List (Act π α)} (h : 0 < cap)
    (hrun : (machine π α cap).run (init π α h) as = some s) : Conserved s ∧ Excused s := by
  have hinit : Conserved (init π α h) ∧ Excused (init π α h) := by
    refine ⟨?_, trivial⟩
    simp [Conserved, init, State.values, PopPc.held]
  refine Machine.run_invariant (I := fun s => Conserved s ∧ Excused s) ?_ hinit hrun
  rintro s a s' ⟨hcons, hexc⟩ hstep
  cases a with
  | push => exact ⟨conserved_push hstep hcons, excused_push hstep⟩
  | slowPush => exact ⟨conserved_slowPush hstep hcons, excused_slowPush hstep hexc⟩
  | pop => exact ⟨conserved_pop hstep hcons, excused_pop hstep⟩

/-- **Nothing is lost or duplicated.**  The stored values are the returned ones with those in the
two queues and in the hands of a `pop`; and when `pop` returns `None`, both queues are empty or a
push that found the fast queue full was unfinished at its first step. -/
theorem machine_conserves [DecidableEq π] (h : 0 < cap) (as : List (Act π α))
    (s : State π α cap) (hrun : (machine π α cap).run (init π α h) as = some s) :
    ((s.stored : Multiset α) = s.values + s.q.fast.items + s.q.slow + s.consumer.held ∧
      s.consumer.held.length ≤ 1) ∧
    ∀ s', (machine π α cap).step s .pop = .next s' → s'.returned = s.returned ++ [none] →
      (s.q.fast.items = [] ∧ s.q.slow = []) ∨ ∃ p v, s.atFirst p = .overflow v := by
  obtain ⟨hcons, hexc⟩ := machine_invariant h hrun
  refine ⟨⟨hcons, ?_⟩, fun s' hstep hnone => empty_of_pop_none hexc hstep hnone⟩
  cases s.consumer <;> simp [PopPc.held]

/-- The second producer's push has found the fast queue full; the pop that starts before it stores
its value returns `None` although a value is on its way. -/
theorem machine_conserves_overlapping :
    ∃ s s', (machine Bool ℕ 1).run (init Bool ℕ one_pos)
        [.push false 1, .push true 2, .pop, .pop, .pop] = some s ∧
      (machine Bool ℕ 1).step s .pop = .next s' ∧ s'.returned = s.returned ++ [none] ∧
      ((s.stored : Multiset ℕ) = s.values + s.q.fast.items + s.q.slow + s.consumer.held) ∧
      ((s.q.fast.items = [] ∧ s.q.slow = []) ∨ ∃ p v, s.atFirst p = .overflow v) := by
  refine ⟨_, _, rfl, rfl, rfl, ?_, ?_⟩
  · exact (machine_conserves one_pos
      [.push false 1, .push true 2, .pop, .pop, .pop] _ rfl).1.1
  · exact (machine_conserves one_pos
      [.push false 1, .push true 2, .pop, .pop, .pop] _ rfl).2 _ rfl rfl

end Machine

/-! ### Order of one producer's values -/

section Order

variable {α : Type*} {cap : ℕ} {s s' : State Unit α cap} {rest : List α} {d : α}

/-- No value overtakes: a push that finds room in the fast queue does so while nothing older is in
the slow queue or in the hands of a `pop` that has taken it from there. -/
def NoOvertaking (s : State Unit α cap) : Act Unit α → Prop
  | .push _ _ => s.q.fast.items.length < cap → s.q.slow = [] ∧ s.consumer.held = []
  | _ => True

/-- The pushed values are, oldest first: the returned ones, the fast queue, the value a `pop`
holds, the slow queue, and the value an overflowing push has yet to store. -/
def Ordered (s : State Unit α cap) : Prop :=
  s.pushed = s.values ++ s.q.fast.items ++ s.consumer.held ++ s.q.slow ++ (s.producer ()).held

theorem ordered_push {p : Unit} {v : α} (h : stepPush s p v = .next s')
    (hok : NoOvertaking s (.push p v)) (hs : Ordered s) :
    Ordered s' := by
  obtain ⟨hp, ⟨fast, hfast, hlt, rfl⟩ | ⟨-, rfl⟩⟩ := stepPush_cases h
  · obtain ⟨hslow, hheld⟩ := hok hlt
    simp only [Ordered, hp, hslow, hheld, PushPc.held, List.append_nil] at hs ⊢
    rw [hs, hfast, List.append_assoc]
    rfl
  · simp only [Ordered, hp, PushPc.held, Function.update_self, List.append_nil] at hs ⊢
    rw [hs]
    rfl

theorem ordered_slowPush {p : Unit} (h : stepSlowPush s p = .next s') (hs : Ordered s) :
    Ordered s' := by
  obtain ⟨v, hp, rfl⟩ := stepSlowPush_cases h
  simp only [Ordered, hp, PushPc.held, Function.update_self, List.append_nil] at hs ⊢
  rw [hs, List.append_assoc _ s.q.slow]
  rfl

theorem ordered_pop (h : stepPop s = .next s') (hs : Ordered s) :
    Ordered s' := by
  unfold Ordered State.values at hs
  obtain ⟨v, slow, hc, hq, rfl⟩ | ⟨hc, hq, rfl⟩ | ⟨v, d, rest, fast, hc, hq, hf, rfl⟩ |
    ⟨v, fast, hc, hf, rfl⟩ | ⟨fast, hc, hf, rfl⟩ := stepPop_cases h
  · simp [Ordered, State.values, PopPc.held, hs, hc, hq]
  · simp [Ordered, State.values, PopPc.held, hs, hc]
  · simp [Ordered, State.values, PopPc.held, hs, hc, hq, hf]
  · simp [Ordered, State.values, PopPc.held, hs, hc, hf]
  · have hheld : s.consumer.held = [] := by
      rcases hc with hc | hc <;> rw [hc] <;> rfl
    rw [hheld] at hs
    simp only [Ordered, State.values, PopPc.held, hs, hf, values_append, List.append_nil]
    rw [List.append_assoc _ _ s.q.fast.items.tail, head?_toList_append_tail]

theorem ordered_of_meets {s : State Unit α cap} {as : List (Act Unit α)} (h : 0 < cap)
    (hok : (machine Unit α cap).Meets NoOvertaking (init Unit α h) as)
    (hrun : (machine Unit α cap).run (init Unit α h) as = some s) : Ordered s := by
  have hinit : Ordered (init Unit α h) := rfl
  refine Machine.run_induction (I := Ordered) ?_ hinit hok hrun
  intro s a s' hs hok hstep
  cases a with
  | push => exact ordered_push hstep hok hs
  | slowPush => exact ordered_slowPush hstep hs
  | pop => exact ordered_pop hstep hs

/-- **First in, first out, as long as nothing overtakes.**  In a run of one producer and one
consumer in which every push that finds room in the fast queue finds the slow queue empty and no
value in the hands of a `pop`, the returned values are a prefix of the pushed ones. -/
theorem in_order_of_meets (h : 0 < cap) (as : List (Act Unit α)) (s : State Unit α cap)
    (hok : (machine Unit α cap).Meets NoOvertaking (init Unit α h) as)
    (hrun : (machine Unit α cap).run (init Unit α h) as = some s) : s.values <+: s.pushed := by
  have hs : Ordered s := ordered_of_meets h hok hrun
  rw [hs]
  simp only [List.append_assoc]
  exact List.prefix_append _ _

/-- A full fast queue, a value through the slow queue, and the next push only once that value has
been moved: the condition is met and the values come out in order. -/
theorem in_order_of_meets_refilled :
    ∃ s, (machine Unit ℕ 1).run (init Unit ℕ one_pos)
        [.push () 1, .push () 2, .slowPush (), .pop, .pop, .pop, .pop, .push () 3] = some s ∧
      s.values = [1, 2] ∧ s.values <+: s.pushed := by
  refine ⟨_, rfl, rfl, in_order_of_meets one_pos
    [.push () 1, .push () 2, .slowPush (), .pop, .pop, .pop, .pop, .push () 3] _ ?_ rfl⟩
  simp [Machine.Meets, NoOvertaking, machine, stepPush, stepSlowPush, stepPop, init,
    ArrayQueue.push, ArrayQueue.forcePush, ArrayQueue.pop, ArrayQueue.new, PopPc.held]

/-- **A value can overtake.**  The push of `2` finds the fast queue full; before it reaches the slow
queue a pop empties the fast one, and the push of `3` finds room there.  The next pop brings `2`
back behind `3` and returns `3`. -/
theorem out_of_order :
    ∃ s, (machine Unit ℕ 1).run (init Unit ℕ one_pos)
        [.push () 1, .push () 2, .pop, .pop, .slowPush (), .push () 3, .pop, .pop] = some s ∧
      s.pushed = [1, 2, 3] ∧ s.values = [1, 3] ∧ ¬ s.values <+: s.pushed := by
  refine ⟨_, rfl, rfl, rfl, ?_⟩
  decide

/-! ### The proviso cannot be dropped

A push that finds room while an older value waits is always the start of a reordering: if nothing
but the consumer moves from there on, the new value is returned while the older one is still in
the queue. -/

/-- From `s`, pops alone bring out `d` and leave `rest` at the front of the fast queue. -/
def PopsOut (s : State Unit α cap) (d : α) (rest : List α) : Prop :=
  ∃ n t extra, (machine Unit α cap).run s (List.replicate n .pop) = some t ∧
    t.values = s.values ++ [d] ∧ t.q.fast.items = rest ++ extra ∧ t.pushed = s.pushed

theorem popsOut_of_step (extra : List α) (h : stepPop s = .next s') (hv : s'.values = s.values)
    (hp : s'.pushed = s.pushed) (hs' : PopsOut s' d (rest ++ extra)) : PopsOut s d rest := by
  obtain ⟨n, t, extra', hrun, hvt, hft, hpt⟩ := hs'
  refine ⟨n + 1, t, extra ++ extra', ?_, ?_, ?_, ?_⟩
  · rw [List.replicate_succ, ← hrun]
    exact Machine.run_cons_next h
  · rw [hvt, hv]
  · rw [hft, List.append_assoc]
  · rw [hpt, hp]

theorem popsOut_of_return (extra : List α) (h : stepPop s = .next s')
    (hv : s'.values = s.values ++ [d]) (hp : s'.pushed = s.pushed)
    (hf : s'.q.fast.items = rest ++ extra) : PopsOut s d rest :=
  ⟨1, s', extra, Machine.run_cons_next h, hv, hf, hp⟩

theorem popsOut_of_last {s : State Unit α cap}
    (hc : s.consumer = .slowEmpty ∨ s.consumer = .refilled) (hq : s.q.fast.items = d :: rest) :
    PopsOut s d rest := by
  have hpop : stepPop s = .next { s with
      q := { s.q with fast := s.q.fast.pop.2 }
      consumer := .idle
      returned := s.returned ++ [some d] } := by
    rcases hc with hc | hc <;> simp [stepPop, hc, ArrayQueue.pop, hq]
  refine popsOut_of_return [] hpop ?_ rfl ?_
  · simp [State.values]
  · simp [ArrayQueue.pop, hq]

theorem popsOut_of_refill {s : State Unit α cap} {v d : α} (hc : s.consumer = .refill v)
    (hq : s.q.fast.items = d :: rest) : PopsOut s d rest := by
  obtain ⟨fast, hf, hitems⟩ | ⟨d', rest', fast, hq', hf, hitems⟩ :=
    ArrayQueue.forcePush_cases s.q.fast v
  · have hpop : stepPop s = .next { s with
        q := { s.q with fast := fast }
        consumer := .refilled } := by
      simp [stepPop, hc, hf]
    refine popsOut_of_step [v] hpop rfl rfl (popsOut_of_last (.inr rfl) ?_)
    simp [hitems, hq]
  · obtain ⟨rfl, rfl⟩ := List.cons.inj (hq.symm.trans hq')
    have hpop : stepPop s = .next { s with
        q := { s.q with fast := fast }
        consumer := .idle
        returned := s.returned ++ [some d] } := by
      simp [stepPop, hc, hf]
    refine popsOut_of_return [v] hpop ?_ rfl hitems
    simp [State.values]

/-- Whatever the consumer was doing, it alone gets the oldest value of the fast queue out. -/
theorem popsOut_of_cons {s : State Unit α cap} (hq : s.q.fast.items = d :: rest) :
    PopsOut s d rest := by
  cases hc : s.consumer with
  | slowEmpty => exact popsOut_of_last (.inl hc) hq
  | refilled => exact popsOut_of_last (.inr hc) hq
  | refill => exact popsOut_of_refill hc hq
  | idle =>
    cases hslow : s.q.slow with
    | nil =>
      have hpop : stepPop s = .next { s with consumer := .slowEmpty, atFirst := s.producer } := by
        simp [stepPop, hc, hslow]
      refine popsOut_of_step [] hpop rfl rfl (popsOut_of_last (.inl rfl) ?_)
      simpa using hq
    | cons v slow =>
      have hpop : stepPop s = .next { s with
          q := { s.q with slow := slow }
          consumer := .refill v
          atFirst := s.producer } := by
        simp [stepPop, hc, hslow]
      refine popsOut_of_step [] hpop rfl rfl (popsOut_of_refill rfl ?_)
      simpa using hq

theorem exists_run_values (s : State Unit α cap) (front rest : List α)
    (hq : s.q.fast.items = front ++ rest) :
    ∃ n t, (machine Unit α cap).run s (List.replicate n .pop) = some t ∧
      t.values = s.values ++ front ∧ t.pushed = s.pushed := by
  induction front generalizing s rest with
  | nil => exact ⟨0, s, rfl, by simp, rfl⟩
  | cons d front ih =>
    obtain ⟨n, t, extra, hrun, hv, hf, hp⟩ := popsOut_of_cons hq
    obtain ⟨m, u, hrun', hv', hp'⟩ := ih t (rest ++ extra) (by simp [hf])
    refine ⟨n + m, u, ?_, ?_, hp'.trans hp⟩
    · rw [List.replicate_add, Machine.run_append hrun, hrun']
    · rw [hv', hv, List.append_assoc]
      rfl

/-- **The proviso is exact.**  If an otherwise well-ordered run comes to a push of a new value `v`
that finds room in the fast queue while an older value is in the slow queue or held by a `pop`,
then the pops that follow return `v` too early. -/
theorem overtakes_of_not_noOvertaking (h : 0 < cap) {as : List (Act Unit α)}
    {s : State Unit α cap} {v : α}
    (hok : (machine Unit α cap).Meets NoOvertaking (init Unit α h) as)
    (hrun : (machine Unit α cap).run (init Unit α h) as = some s)
    (hidle : s.producer () = .idle) (hv : ¬ NoOvertaking s (.push () v))
    (hnew : v ∉ s.consumer.held ++ s.q.slow) :
    ∃ n t, (machine Unit α cap).run s (.push () v :: List.replicate n .pop) = some t ∧
      ¬ t.values <+: t.pushed := by
  have hs : Ordered s := ordered_of_meets h hok hrun
  simp only [NoOvertaking, not_forall] at hv
  obtain ⟨hroom, hwait⟩ := hv
  obtain ⟨x, waiting, hx⟩ : ∃ x waiting, s.consumer.held ++ s.q.slow = x :: waiting := by
    refine List.exists_cons_of_ne_nil fun hnil => hwait ?_
    rw [List.append_eq_nil_iff] at hnil
    exact ⟨hnil.2, hnil.1⟩
  have hvx : v ≠ x := by
    rintro rfl
    exact hnew (by simp [hx])
  obtain ⟨fast, hpush, hfast⟩ := ArrayQueue.push_of_lt hroom v
  have hstep : (machine Unit α cap).step s (.push () v) = .next { s with
      q := { s.q with fast := fast }, pushed := s.pushed ++ [v], stored := s.stored ++ [v] } := by
    simp [machine, stepPush, hidle, hpush]
  obtain ⟨n, t, hrun', hvals, hpushed⟩ := exists_run_values { s with
      q := { s.q with fast := fast }, pushed := s.pushed ++ [v], stored := s.stored ++ [v] }
      (s.q.fast.items ++ [v]) [] (by simp [hfast])
  refine ⟨n, t, by rw [Machine.run_cons_next hstep, hrun'], ?_⟩
  -- The returned values go on with `v` where the pushed ones go on with `x`.
  have hpushed' : t.pushed = s.values ++ (s.q.fast.items ++ x :: (waiting ++ [v])) := by
    rw [hpushed, hs, hidle]
    simp only [PushPc.held, List.append_nil, List.append_assoc]
    rw [← List.append_assoc s.consumer.held, hx]
    rfl
  rw [hvals, hpushed']
  simp only [State.values, List.prefix_append_right_inj, List.cons_prefix_cons]
  exact fun hprefix => hvx hprefix.1

theorem overtakes_of_not_noOvertaking_three :
    ∃ s n t, (machine Unit ℕ 1).run (init Unit ℕ one_pos)
        [.push () 1, .push () 2, .pop, .pop, .slowPush ()] = some s ∧
      (machine Unit ℕ 1).run s (.push () 3 :: List.replicate n .pop) = some t ∧
      ¬ t.values <+: t.pushed := by
  have hok : (machine Unit ℕ 1).Meets NoOvertaking (init Unit ℕ one_pos)
      [.push () 1, .push () 2, .pop, .pop, .slowPush ()] := by
    simp [Machine.Meets, NoOvertaking, machine, stepPush, stepSlowPush, stepPop, init,
      ArrayQueue.push, ArrayQueue.forcePush, ArrayQueue.pop, ArrayQueue.new, PopPc.held]
  obtain ⟨n, t, ht⟩ := overtakes_of_not_noOvertaking one_pos hok rfl rfl (v := 3)
    (fun h => absurd (h (by decide)).1 (by decide)) (by decide)
  exact ⟨_, n, t, rfl, ht⟩

end Order

end ArraySegQueue

end VirtioGpu
