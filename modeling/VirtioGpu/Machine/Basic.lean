import Mathlib.Data.List.Infix
import Mathlib.Logic.Function.Basic

/-!
# Machines and their runs

Concurrent code (threads sharing counters, a producer and a consumer sharing a queue, a driver
thread and its device) is given as a *machine*: a partial step function from a state and an action
to the next state.  An interleaving is a list of actions, so a statement about every interleaving is
a statement about every list, and a run that goes wrong can be written down and evaluated.

An action may be impossible in a state (`Outcome.stuck`: a lock is taken, a thread is not at that
point of its code), or it may reach a Rust panic (`Outcome.panic`), after which nothing runs any
more.

## Main definitions

* `Machine.run s as` : the state after performing `as` from `s`, if every action is possible.
* `Machine.Meets ok s as` : every action of the run is taken in a state that satisfies `ok`.
* `Machine.Always Q s as` : `Q` holds in every state of the run.

## Main results

* `Machine.run_induction` : a predicate that every step satisfying `ok` preserves holds after
  every run whose steps satisfy `ok`.
* `Machine.always_of_meets` : the same for every state along the run.
* `Machine.always_iff_meets` : the condition is necessary too if a step that violates it shows at
  once.
* `Machine.iff_meets_of_step` : the same for a property of the last state.
-/

namespace VirtioGpu

/-- What performing an action in a state leads to. -/
inductive Outcome (S P : Type*) where
  /-- The action is performed and the next state is `s`. -/
  | next (s : S)
  /-- The action is not possible in this state. -/
  | stuck
  /-- The action reaches the panic `p`. -/
  | panic (p : P)
  deriving DecidableEq

namespace Outcome

variable {S T P : Type*}

/-- Go on with `f` unless the first part is stuck or panics. -/
def bind (x : Outcome S P) (f : S → Outcome T P) : Outcome T P :=
  match x with
  | .next s => f s
  | .stuck => .stuck
  | .panic p => .panic p

@[simp] theorem next_bind (s : S) (f : S → Outcome T P) : (next s).bind f = f s := rfl

theorem bind_eq_next {x : Outcome S P} {f : S → Outcome T P} {t : T} :
    x.bind f = .next t ↔ ∃ s, x = .next s ∧ f s = .next t := by
  cases x <;> simp [bind]

theorem bind_eq_panic {x : Outcome S P} {f : S → Outcome T P} {p : P} :
    x.bind f = .panic p ↔ x = .panic p ∨ ∃ s, x = .next s ∧ f s = .panic p := by
  cases x <;> simp [bind]

def panic? : Outcome S P → Option P
  | .panic p => some p
  | _ => none

theorem panic?_eq_some {x : Outcome S P} {p : P} : x.panic? = some p ↔ x = .panic p := by
  cases x <;> simp [panic?]

end Outcome

/-- A machine with states `S`, actions `A` and panics `P`. -/
structure Machine (S A P : Type*) where
  /-- What an action leads to in a state. -/
  step : S → A → Outcome S P

namespace Machine

variable {S A P : Type*} (M : Machine S A P)

/-- Perform the actions of a list in order. -/
def run : S → List A → Option S
  | s, [] => some s
  | s, a :: as => match M.step s a with
    | .next s' => run s' as
    | _ => none

/-- Every action of the run from `s` is taken in a state where `ok` holds. -/
def Meets (ok : S → A → Prop) : S → List A → Prop
  | _, [] => True
  | s, a :: as => ok s a ∧ ∀ s', M.step s a = .next s' → Meets ok s' as

/-- `Q` holds in every state of the run from `s`. -/
def Always (Q : S → Prop) : S → List A → Prop
  | s, [] => Q s
  | s, a :: as => Q s ∧ ∀ s', M.step s a = .next s' → Always Q s' as

instance decidableMeets (ok : S → A → Prop) [∀ s a, Decidable (ok s a)] :
    ∀ s as, Decidable (M.Meets ok s as)
  | _, [] => isTrue trivial
  | s, a :: as => match h : M.step s a with
    | .next s' =>
      have := decidableMeets ok s' as
      decidable_of_iff (ok s a ∧ M.Meets ok s' as) (by simp [Meets, h])
    | .stuck | .panic _ => decidable_of_iff (ok s a) (by simp [Meets, h])

variable {M}

@[simp] theorem run_nil (s : S) : M.run s [] = some s := rfl

theorem run_cons_next {s s' : S} {a : A} {as : List A} (h : M.step s a = .next s') :
    M.run s (a :: as) = M.run s' as := by
  simp [run, h]

theorem run_cons_eq_some {s t : S} {a : A} {as : List A} :
    M.run s (a :: as) = some t ↔ ∃ s', M.step s a = .next s' ∧ M.run s' as = some t := by
  constructor
  · intro h
    rw [run] at h
    split at h
    · exact ⟨_, ‹_›, h⟩
    · cases h
  · rintro ⟨s', hs, hr⟩
    rw [run_cons_next hs, hr]

theorem run_append {s t : S} {as bs : List A} (h : M.run s as = some t) :
    M.run s (as ++ bs) = M.run t bs := by
  induction as generalizing s with
  | nil => cases h; rfl
  | cons a as ih =>
    obtain ⟨s', hs, hr⟩ := run_cons_eq_some.1 h
    rw [List.cons_append, run_cons_next hs, ih hr]

theorem meets_possible {s t : S} {as : List A} (h : M.run s as = some t) :
    M.Meets (fun s a => M.step s a ≠ .stuck) s as := by
  induction as generalizing s with
  | nil => trivial
  | cons a as ih =>
    obtain ⟨s', hs, hr⟩ := run_cons_eq_some.1 h
    have hne : M.step s a ≠ .stuck := by simp [hs]
    refine ⟨hne, fun s'' hs'' => ?_⟩
    obtain rfl : s' = s'' := Outcome.next.inj (hs.symm.trans hs'')
    exact ih hr

theorem meets_of_forall_mem {ok : A → Prop} :
    ∀ {as : List A} {s : S}, (∀ a ∈ as, ok a) → M.Meets (fun _ a => ok a) s as := by
  intro as
  induction as with
  | nil => intro s _; trivial
  | cons a as ih =>
    intro s h
    exact ⟨h a List.mem_cons_self, fun s' _ => ih fun b hb => h b (.tail _ hb)⟩

/-- **The invariant rule for conditional runs.**  A predicate preserved by every step taken under
`ok` holds after every run all of whose steps are taken under `ok`. -/
theorem run_induction {ok : S → A → Prop} {I : S → Prop}
    (hstep : ∀ s a s', I s → ok s a → M.step s a = .next s' → I s') :
    ∀ {as : List A} {s t : S}, I s → M.Meets ok s as → M.run s as = some t → I t := by
  intro as
  induction as with
  | nil => intro s t hs _ hr; cases hr; exact hs
  | cons a as ih =>
    intro s t hs hm hr
    obtain ⟨s', hst, hr'⟩ := run_cons_eq_some.1 hr
    exact ih (hstep s a s' hs hm.1 hst) (hm.2 s' hst) hr'

theorem run_invariant {I : S → Prop} (hstep : ∀ s a s', I s → M.step s a = .next s' → I s')
    {as : List A} {s t : S} (hs : I s) (hr : M.run s as = some t) : I t := by
  have hmeets : M.Meets (fun _ _ => True) s as := meets_of_forall_mem fun _ _ => trivial
  exact run_induction (fun s a s' hs _ => hstep s a s' hs) hs hmeets hr

/-- A predicate preserved by every step taken under `ok`, and strong enough for `Q`, gives `Q` in
every state of a run all of whose steps are taken under `ok`. -/
theorem always_of_meets {ok : S → A → Prop} {I Q : S → Prop}
    (hstep : ∀ s a s', I s → ok s a → M.step s a = .next s' → I s') (hQ : ∀ s, I s → Q s) :
    ∀ {as : List A} {s : S}, I s → M.Meets ok s as → M.Always Q s as := by
  intro as
  induction as with
  | nil => intro s hs _; exact hQ s hs
  | cons a as ih =>
    intro s hs hm
    exact ⟨hQ s hs, fun s' hst => ih (hstep s a s' hs hm.1 hst) (hm.2 s' hst)⟩

/-- **When a run is good all along.**  If a step taken under `ok` preserves `I`, and any other step
breaks `Q` at once, then `Q` holds in every state of a run exactly when every step of it is taken
under `ok`.  Both are only asked for steps that are taken under `adm`, as those of the run are. -/
theorem always_iff_meets_of_meets {adm ok : S → A → Prop} {I Q : S → Prop}
    (hstep : ∀ s a s', I s → adm s a → ok s a → M.step s a = .next s' → I s')
    (hQ : ∀ s, I s → Q s)
    (hbad : ∀ s a s', I s → adm s a → ¬ ok s a → M.step s a = .next s' → ¬ Q s') :
    ∀ {as : List A} {s t : S}, I s → M.Meets adm s as → M.run s as = some t →
      (M.Always Q s as ↔ M.Meets ok s as) := by
  intro as
  induction as with
  | nil =>
    intro s t hs _ _
    exact ⟨fun _ => trivial, fun _ => hQ s hs⟩
  | cons a as ih =>
    intro s t hs hadm hrun
    obtain ⟨s', hst, hrun⟩ := run_cons_eq_some.1 hrun
    have hadm' := hadm.2 s' hst
    by_cases hok : ok s a
    · have ih' := ih (hstep s a s' hs hadm.1 hok hst) hadm' hrun
      constructor
      · intro halways
        refine ⟨hok, fun s'' hst' => ?_⟩
        obtain rfl : s' = s'' := Outcome.next.inj (hst.symm.trans hst')
        exact ih'.1 (halways.2 s' hst)
      · intro hmeets
        refine ⟨hQ s hs, fun s'' hst' => ?_⟩
        obtain rfl : s' = s'' := Outcome.next.inj (hst.symm.trans hst')
        exact ih'.2 (hmeets.2 s' hst)
    · refine iff_of_false (fun halways => ?_) fun hmeets => hok hmeets.1
      refine hbad s a s' hs hadm.1 hok hst ?_
      have halways' := halways.2 s' hst
      cases as with
      | nil => exact halways'
      | cons => exact halways'.1

theorem always_iff_meets {ok : S → A → Prop} {I Q : S → Prop}
    (hstep : ∀ s a s', I s → ok s a → M.step s a = .next s' → I s') (hQ : ∀ s, I s → Q s)
    (hbad : ∀ s a s', I s → ¬ ok s a → M.step s a = .next s' → ¬ Q s')
    {as : List A} {s t : S} (hs : I s) (hrun : M.run s as = some t) :
    M.Always Q s as ↔ M.Meets ok s as := by
  have hmeets : M.Meets (fun _ _ => True) s as := meets_of_forall_mem fun _ _ => trivial
  exact always_iff_meets_of_meets (fun s a s' hs _ => hstep s a s' hs) hQ
    (fun s a s' hs _ => hbad s a s' hs) hs hmeets hrun

/-- **When a run ends well.**  If a step leads to a state with `G` exactly when it is taken under
`ok` in a state with `G`, then a run that starts with `G` ends with `G` exactly when every step of
it is taken under `ok`. -/
theorem iff_meets_of_step {ok : S → A → Prop} {I G : S → Prop}
    (hI : ∀ s a s', I s → M.step s a = .next s' → I s')
    (hG : ∀ s a s', I s → M.step s a = .next s' → (G s' ↔ G s ∧ ok s a)) :
    ∀ {as : List A} {s t : S}, I s → G s → M.run s as = some t → (G t ↔ M.Meets ok s as) := by
  have hboth : ∀ {as : List A} {s t : S}, I s → M.run s as = some t →
      (G t ↔ G s ∧ M.Meets ok s as) := by
    intro as
    induction as with
    | nil =>
      intro s t _ hr
      cases hr
      exact (and_iff_left trivial).symm
    | cons a as ih =>
      intro s t hs hr
      obtain ⟨s', hst, hr⟩ := run_cons_eq_some.1 hr
      rw [ih (hI s a s' hs hst) hr, hG s a s' hs hst, and_assoc]
      refine and_congr_right fun _ => and_congr_right fun _ =>
        ⟨fun h s'' hst' => ?_, fun h => h s' hst⟩
      obtain rfl : s' = s'' := Outcome.next.inj (hst.symm.trans hst')
      exact h
  intro as s t hs hg hr
  rw [hboth hs hr]
  exact and_iff_right hg

theorem meets_of_invariant {ok : S → A → Prop} {I : S → Prop}
    (hstep : ∀ s a s', I s → M.step s a = .next s' → I s') (hok : ∀ s a, I s → ok s a) :
    ∀ {as : List A} {s : S}, I s → M.Meets ok s as := by
  intro as
  induction as with
  | nil => intro s _; trivial
  | cons a as ih => exact fun hs => ⟨hok _ a hs, fun s' hst => ih (hstep _ a s' hs hst)⟩

theorem meets_iff_meets {adm ok ok' : S → A → Prop} {I : S → Prop}
    (hstep : ∀ s a s', I s → M.step s a = .next s' → I s')
    (h : ∀ s a, I s → adm s a → (ok s a ↔ ok' s a)) :
    ∀ {as : List A} {s : S}, I s → M.Meets adm s as → (M.Meets ok s as ↔ M.Meets ok' s as) := by
  intro as
  induction as with
  | nil => exact fun _ _ => Iff.rfl
  | cons a as ih =>
    intro s hs hadm
    refine and_congr (h s a hs hadm.1) (forall_congr' fun s' => forall_congr' fun hst => ?_)
    exact ih (hstep s a s' hs hst) (hadm.2 s' hst)

/-! ### One action again and again -/

/-- Performing `a` some number of times leads from `s` to `s'`: what a thread does that runs
alone. -/
def Repeats (M : Machine S A P) (a : A) (s s' : S) : Prop :=
  ∃ n, M.run s (List.replicate n a) = some s'

theorem Repeats.refl (a : A) (s : S) : M.Repeats a s s := ⟨0, rfl⟩

theorem Repeats.trans {a : A} {s s' s'' : S} (h : M.Repeats a s s') (h' : M.Repeats a s' s'') :
    M.Repeats a s s'' := by
  obtain ⟨n, hn⟩ := h
  obtain ⟨m, hm⟩ := h'
  refine ⟨n + m, ?_⟩
  rw [← List.replicate_append_replicate, run_append hn, hm]

theorem Repeats.head {a : A} {s s'' : S} (s' : S) (h : M.step s a = .next s')
    (h' : M.Repeats a s' s'') : M.Repeats a s s'' := by
  obtain ⟨n, hn⟩ := h'
  refine ⟨n + 1, ?_⟩
  rw [List.replicate_succ, run_cons_next h, hn]

end Machine

theorem bind_eq_ok.{u, v} {ε : Type v} {α β : Type u} {x : Except ε α} {f : α → Except ε β}
    {y : β} : x >>= f = .ok y ↔ ∃ a, x = .ok a ∧ f a = .ok y := by
  cases x with
  | error => exact iff_of_false nofun (by simp)
  | ok => simp [bind, Except.bind]

end VirtioGpu
