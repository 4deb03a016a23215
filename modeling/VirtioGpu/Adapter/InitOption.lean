import VirtioGpu.Machine.Basic

/-!
# `InitOption`

The adapter keeps its state in an `InitOption<T>`: memory for a `T` and a flag that says whether it
holds one.  A value is made in place by an initialiser, which writes through a pointer and may fail
after it has written a part of the slot.

Replacing a value first drops the old one, in `drop_if_init`, which resets the flag.  But it does
both only for types with drop glue.  For any other type the flag stays set while the initialiser
runs, and if that fails the option still says that it holds a value.

`optionMachine` makes, writes, clears and drops options in any order.  Its ghost fields record the
value of the last initialisation, unless it failed or the option has been cleared since, and all the
values that have been made.

## Main results

* `reports_iff_meets` : an option reports the value of the last initialisation in every state of a
  run exactly if `T` has drop glue or no initialiser fails on an option whose flag is set.  With
  drop glue, the values that have been made are those dropped and the one that is there, in order.
* `fails_over_value` : a run after which `as_ref` exposes a slot that a failed initialiser has
  written to.
-/

namespace VirtioGpu

/-- What is in memory for a `T`. -/
inductive Slot (τ : Type*) where
  /-- No value: it has not been initialised, or the value has been dropped. -/
  | vacant
  /-- A failed initialiser has written to it. -/
  | touched
  | holds (v : τ)

/-- `impl Init<T, E>`: what it makes, or the error it fails with and whether it has written to the
slot by then. -/
inductive Initialiser (τ ε : Type*) where
  | succeeds (v : τ)
  | fails (e : ε) (touches : Bool)

variable {τ ε : Type*}

/-- `Init::__init`: the slot afterwards and the result. -/
def Initialiser.run : Initialiser τ ε → Slot τ → Slot τ × Except ε Unit
  | .succeeds v, _ => (.holds v, .ok ())
  | .fails e true, _ => (.touched, .error e)
  | .fails e false, slot => (slot, .error e)

/-- `InitOption<T>` -/
structure InitOption (τ : Type*) where
  value : Slot τ
  init : Bool

/-- `impl Init<InitOption<T>, E>` -/
inductive OptionInitialiser (τ ε : Type*) where
  | none
  | some (init : Initialiser τ ε)

namespace OptionInitialiser

/-- `Init::__init`: the option afterwards and the result. -/
def run : OptionInitialiser τ ε → InitOption τ → InitOption τ × Except ε Unit
  | .none, _ => (⟨.vacant, false⟩, .ok ())
  | .some init, slot => match init.run slot.value with
    | (value, .ok ()) => (⟨value, true⟩, .ok ())
    | (value, .error e) => ({ slot with value }, .error e)

/-- The value that the initialiser makes. -/
def value : OptionInitialiser τ ε → Option τ
  | .some (.succeeds v) => .some v
  | _ => .none

def fails : OptionInitialiser τ ε → Bool
  | .some (.fails _ _) => true
  | _ => false

end OptionInitialiser

namespace InitOption

variable (needsDrop : Bool) (self : InitOption τ) (opt : InitOption τ)
  (init : OptionInitialiser τ ε)

/-- `drop_if_init`, with `needsDrop` for `needs_drop::<T>()`: the option afterwards, and the slots
that `assume_init_drop` has been called for. -/
def dropIfInit : InitOption τ × List (Slot τ) :=
  if needsDrop && self.init then (⟨.vacant, false⟩, [self.value]) else (self, [])

def writeInit (init : Initialiser τ ε) : (InitOption τ × List (Slot τ)) × Except ε Unit :=
  let (self, dropped) := self.dropIfInit needsDrop
  match init.run self.value with
  | (value, .ok ()) => ((⟨value, true⟩, dropped), .ok ())
  | (value, .error e) => (({ self with value }, dropped), .error e)

def write : (InitOption τ × List (Slot τ)) × Except ε Unit :=
  let (self, dropped) := self.dropIfInit needsDrop
  let (self, result) := init.run self
  ((self, dropped), result)

/-- `clear`; `none` is a panic of its `unwrap`. -/
def clear : Option (InitOption τ × List (Slot τ)) :=
  match self.write (ε := Empty) needsDrop .none with
  | (self, .ok ()) => some self
  | (_, .error _) => none

/-- `as_ref`: the slot that is taken for a value. -/
def asRef : Option (Slot τ) := if self.init then some self.value else none

/-- `as_mut`: the slot that is taken for a value. -/
def asMut : Option (Slot τ) := if self.init then some self.value else none

def isSome : Bool := self.init

/-- The option reports the value `last`, or none. -/
structure Reports (opt : InitOption τ) (last : Option τ) : Prop where
  isSome_eq : opt.isSome = last.isSome
  asRef_eq : opt.asRef = last.map .holds
  asMut_eq : opt.asMut = last.map .holds

theorem reports_holds (v : τ) : (⟨.holds v, true⟩ : InitOption τ).Reports (some v) :=
  ⟨rfl, rfl, rfl⟩

theorem reports_none_iff {opt : InitOption τ} : opt.Reports none ↔ opt.init = false := by
  constructor
  · intro h
    exact h.isSome_eq
  · intro hinit
    have hnot : ¬ opt.init = true := by simp [hinit]
    exact ⟨hinit, if_neg hnot, if_neg hnot⟩

/-- The slots that a destructor still has to be called for. -/
def pending : List (Slot τ) := if opt.init then [opt.value] else []

theorem writeInit_eq_write (init : Initialiser τ ε) :
    opt.writeInit needsDrop init = opt.write needsDrop (.some init) := by
  rw [write, writeInit]
  cases init with
  | succeeds => rfl
  | fails e touches => cases touches <;> rfl

theorem clear_eq : opt.clear needsDrop = some (opt.write (ε := ε) needsDrop .none).1 :=
  rfl

theorem pending_eq : opt.pending = opt.asRef.toList := by
  rw [pending, asRef]
  split_ifs <;> rfl

/-- The flag is only reset for types with drop glue. -/
theorem init_dropIfInit : (opt.dropIfInit needsDrop).1.init = (!needsDrop && opt.init) := by
  cases needsDrop
  · rfl
  · cases hinit : opt.init <;> simp [dropIfInit, hinit]

theorem dropIfInit_true : (opt.dropIfInit true).2 = opt.pending := by
  cases hinit : opt.init <;> simp [dropIfInit, pending, hinit]

/-- An initialiser succeeds and leaves an option that reports its value, or it fails, makes no value
and leaves the flag as it is. -/
theorem run_cases (memory : InitOption τ) :
    (init.fails = false ∧ ∃ opt, init.run memory = (opt, .ok ()) ∧ opt.Reports init.value) ∨
    (init.fails = true ∧ init.value = none ∧
      ∃ opt e, init.run memory = (opt, .error e) ∧ opt.init = memory.init) := by
  cases init with
  | none => exact .inl ⟨rfl, _, rfl, reports_none_iff.2 rfl⟩
  | some init =>
    cases init with
    | succeeds v => exact .inl ⟨rfl, _, rfl, reports_holds v⟩
    | fails e touches => cases touches <;> exact .inr ⟨rfl, rfl, _, e, rfl, rfl⟩

theorem reports_of_run {init : OptionInitialiser τ ε} {memory opt : InitOption τ}
    (h : init.run memory = (opt, .ok ())) : opt.Reports init.value := by
  obtain ⟨-, opt', hrun, hreports⟩ | ⟨-, -, opt', e, hrun, -⟩ := run_cases init memory
  · cases hrun.symm.trans h
    exact hreports
  · cases hrun.symm.trans h

/-- **When a write leaves an option that reports the outcome**: always for a type with drop glue,
and otherwise unless the initialiser fails while the flag is set. -/
theorem reports_write_iff :
    (opt.write needsDrop init).1.1.Reports init.value ↔
      needsDrop = true ∨ init.fails = false ∨ opt.init = false := by
  have hwrite : (opt.write needsDrop init).1.1 = (init.run (opt.dropIfInit needsDrop).1).1 := rfl
  obtain ⟨hfails, opt', hrun, hreports⟩ | ⟨hfails, hvalue, opt', e, hrun, hflag⟩ :=
    run_cases init (opt.dropIfInit needsDrop).1
  · rw [hwrite, hrun]
    exact iff_of_true hreports (.inr (.inl hfails))
  · rw [hwrite, hrun, hvalue, reports_none_iff, hflag, init_dropIfInit, hfails]
    cases needsDrop <;> simp

end InitOption

/-! ### Runs -/

/-- An option, if there is one, and what has happened to it and its predecessors. -/
structure OptionState (τ : Type*) where
  opt : Option (InitOption τ)
  /-- The slots that `assume_init_drop` has been called for, oldest first. -/
  dropped : List (Slot τ)
  /-- The value of the last initialisation, if it succeeded and has not been cleared since. -/
  last : Option τ
  /-- The values that have been made, oldest first. -/
  made : List τ

inductive OptionAct (τ ε : Type*) where
  /-- An option is made in memory that holds anything. -/
  | create (memory : InitOption τ) (init : OptionInitialiser τ ε)
  | write (init : OptionInitialiser τ ε)
  | writeInit (init : Initialiser τ ε)
  | clear
  | drop

/-- What the act initialises an option with. -/
def OptionAct.initialiser : OptionAct τ ε → Option (OptionInitialiser τ ε)
  | .write init => some init
  | .writeInit init => some (.some init)
  | .clear => some .none
  | .create _ _ | .drop => none

/-- The act initialises an option that is there, and fails. -/
def OptionAct.failsOver (a : OptionAct τ ε) : Bool := a.initialiser.any OptionInitialiser.fails

inductive OptionPanic where
  /-- `clear` unwraps an error. -/
  | unwrap

namespace OptionState

/-- No option has been made yet. -/
def start : OptionState τ := ⟨none, [], none, []⟩

/-- An initialiser has run; `written` is the option now and the slots that have been dropped. -/
def initialised (s : OptionState τ) (init : OptionInitialiser τ ε)
    (written : InitOption τ × List (Slot τ)) : OptionState τ :=
  ⟨some written.1, s.dropped ++ written.2, init.value, s.made ++ init.value.toList⟩

/-- `needsDrop` says whether `T` has drop glue.  If an option cannot be made, there is none. -/
def step (needsDrop : Bool) (s : OptionState τ) :
    OptionAct τ ε → Outcome (OptionState τ) OptionPanic
  | .create memory init => match s.opt with
    | none => match init.run memory with
      | (opt, .ok ()) => .next (s.initialised init (opt, []))
      | (_, .error _) => .next { s with last := none }
    | some _ => .stuck
  | .write init => match s.opt with
    | some opt => .next (s.initialised init (opt.write needsDrop init).1)
    | none => .stuck
  | .writeInit init => match s.opt with
    | some opt => .next (s.initialised (.some init) (opt.writeInit needsDrop init).1)
    | none => .stuck
  | .clear => match s.opt with
    | some opt => match opt.clear needsDrop with
      | some (opt, dropped) => .next ⟨some opt, s.dropped ++ dropped, none, s.made⟩
      | none => .panic .unwrap
    | none => .stuck
  | .drop => match s.opt with
    | some opt => .next ⟨none, s.dropped ++ (opt.dropIfInit needsDrop).2, none, s.made⟩
    | none => .stuck

/-- The option, if there is one, reports the value of the last initialisation. -/
def Reports (s : OptionState τ) : Prop := ∀ opt, s.opt = some opt → opt.Reports s.last

/-- The flag of the option is set. -/
def flag (s : OptionState τ) : Bool := s.opt.any InitOption.init

/-- The slots that a destructor still has to be called for. -/
def pending (s : OptionState τ) : List (Slot τ) := (s.opt.map InitOption.pending).getD []

theorem step_cases {needsDrop : Bool} {s s' : OptionState τ} {a : OptionAct τ ε}
    (h : s.step needsDrop a = .next s') :
    (∃ opt init, s.opt = some opt ∧ a.initialiser = some init ∧
      s' = s.initialised init (opt.write needsDrop init).1) ∨
    (∃ memory init, a = .create memory init ∧ s.opt = none ∧
      ((∃ opt, init.run memory = (opt, .ok ()) ∧ s' = s.initialised init (opt, [])) ∨
        s' = { s with last := none })) ∨
    (∃ opt, s.opt = some opt ∧ a = .drop ∧
      s' = ⟨none, s.dropped ++ (opt.dropIfInit needsDrop).2, none, s.made⟩) := by
  cases hopt : s.opt with
  | none =>
    cases a with
    | create memory init =>
      refine .inr (.inl ⟨memory, init, rfl, rfl, ?_⟩)
      simp only [step, hopt] at h
      split at h
      · cases h
        exact .inl ⟨_, ‹_›, rfl⟩
      · cases h
        exact .inr rfl
    | _ =>
      simp only [step, hopt] at h
      cases h
  | some opt =>
    cases a with
    | create =>
      simp only [step, hopt] at h
      cases h
    | write init =>
      simp only [step, hopt] at h
      cases h
      exact .inl ⟨opt, init, rfl, rfl, rfl⟩
    | writeInit init =>
      simp only [step, hopt, InitOption.writeInit_eq_write] at h
      cases h
      exact .inl ⟨opt, .some init, rfl, rfl, rfl⟩
    | clear =>
      simp only [step, hopt, InitOption.clear_eq (ε := ε)] at h
      cases h
      refine .inl ⟨opt, .none, rfl, rfl, ?_⟩
      simp [initialised, OptionInitialiser.value]
    | drop =>
      simp only [step, hopt] at h
      cases h
      exact .inr (.inr ⟨opt, rfl, rfl, rfl⟩)

end OptionState

/-- The option and everybody who uses it, for a type with or without drop glue. -/
def optionMachine (τ ε : Type*) (needsDrop : Bool) :
    Machine (OptionState τ) (OptionAct τ ε) OptionPanic where
  step := OptionState.step needsDrop

/-- An initialiser only fails where this leaves no trace: `T` has drop glue, or the flag is not
set. -/
def Harmless (needsDrop : Bool) (s : OptionState τ) (a : OptionAct τ ε) : Prop :=
  needsDrop = true ∨ a.failsOver = false ∨ s.flag = false
  deriving Decidable

namespace OptionState

variable {needsDrop : Bool} {s s' : OptionState τ} {a : OptionAct τ ε}

theorem reports_initialised {init : OptionInitialiser τ ε}
    {written : InitOption τ × List (Slot τ)} :
    (s.initialised init written).Reports ↔ written.1.Reports init.value := by
  constructor
  · intro h
    exact h _ rfl
  · intro h opt hopt
    cases hopt
    exact h

theorem reports_step_iff (h : s.step needsDrop a = .next s') :
    s'.Reports ↔ Harmless needsDrop s a := by
  obtain ⟨opt, init, hopt, hinit, rfl⟩ | ⟨memory, init, rfl, hopt, hs'⟩ | ⟨opt, hopt, rfl, rfl⟩ :=
    step_cases h
  · have hfails : a.failsOver = init.fails := by rw [OptionAct.failsOver, hinit, Option.any_some]
    have hflag : s.flag = opt.init := by rw [flag, hopt, Option.any_some]
    rw [Harmless, hfails, hflag, reports_initialised]
    exact InitOption.reports_write_iff needsDrop opt init
  · refine iff_of_true ?_ (.inr (.inl rfl))
    obtain ⟨opt, hrun, rfl⟩ | rfl := hs'
    · exact reports_initialised.2 (InitOption.reports_of_run hrun)
    · intro opt hsome
      rw [hopt] at hsome
      cases hsome
  · refine iff_of_true ?_ (.inr (.inl rfl))
    rintro _ hnone
    cases hnone

/-- With drop glue, the values made are those dropped and the one that is there. -/
def Balanced (s : OptionState τ) : Prop := s.made.map .holds = s.dropped ++ s.pending

theorem pending_of_some {opt : InitOption τ} (h : s.opt = some opt) : s.pending = opt.pending := by
  rw [pending, h]
  rfl

theorem balanced_initialised {init : OptionInitialiser τ ε} {opt : InitOption τ}
    (h : s.Balanced) (hreports : opt.Reports init.value) :
    (s.initialised init (opt, s.pending)).Balanced := by
  have hpending : opt.pending = init.value.toList.map .holds := by
    rw [InitOption.pending_eq, hreports.asRef_eq]
    cases init.value <;> rfl
  show (s.made ++ init.value.toList).map .holds = (s.dropped ++ s.pending) ++ opt.pending
  rw [List.map_append, hpending, ← h]

theorem balanced_step (hs : s.Balanced) (h : s.step true a = .next s') : s'.Balanced := by
  obtain ⟨opt, init, hopt, hinit, rfl⟩ | ⟨memory, init, rfl, hopt, hs'⟩ | ⟨opt, hopt, rfl, rfl⟩ :=
    step_cases h
  · have hdropped : (opt.write true init).1.2 = s.pending := by
      rw [pending_of_some hopt]
      exact opt.dropIfInit_true
    have hbalanced := balanced_initialised hs
      ((InitOption.reports_write_iff true opt init).2 (.inl rfl))
    rw [← hdropped] at hbalanced
    exact hbalanced
  · have hnone : s.pending = [] := by
      rw [pending, hopt]
      rfl
    obtain ⟨opt, hrun, rfl⟩ | rfl := hs'
    · have hbalanced := balanced_initialised hs (InitOption.reports_of_run hrun)
      rw [hnone] at hbalanced
      exact hbalanced
    · exact hs
  · show s.made.map .holds = (s.dropped ++ (opt.dropIfInit true).2) ++ []
    rw [hs, pending_of_some hopt, opt.dropIfInit_true, List.append_nil]

theorem dropped_step (hs : s.dropped = []) (h : s.step false a = .next s') : s'.dropped = [] := by
  obtain ⟨opt, init, hopt, hinit, rfl⟩ | ⟨memory, init, rfl, hopt, hs'⟩ | ⟨opt, hopt, rfl, rfl⟩ :=
    step_cases h
  · show s.dropped ++ [] = []
    rw [hs, List.append_nil]
  · obtain ⟨opt, hrun, rfl⟩ | rfl := hs'
    · show s.dropped ++ [] = []
      rw [hs, List.append_nil]
    · exact hs
  · show s.dropped ++ [] = []
    rw [hs, List.append_nil]

theorem balanced_start : (start : OptionState τ).Balanced := rfl

theorem reports_start : (start : OptionState τ).Reports := by
  intro opt h
  cases h

end OptionState

/-- **What an option reports** is the last initialisation all along exactly if no initialiser fails
on an option whose flag is set, or `T` has drop glue.  With it, every value that has been made is
dropped once, in order, or is still there. -/
theorem reports_iff_meets (needsDrop : Bool) {as : List (OptionAct τ ε)} {t : OptionState τ}
    (hrun : (optionMachine τ ε needsDrop).run .start as = some t) :
    ((optionMachine τ ε needsDrop).Always OptionState.Reports .start as ↔
      (optionMachine τ ε needsDrop).Meets (Harmless needsDrop) .start as) ∧
    (needsDrop = true → t.made.map .holds = t.dropped ++ t.pending) ∧
    (needsDrop = false → t.dropped = []) := by
  refine ⟨?_, ?_, ?_⟩
  · refine Machine.always_iff_meets (I := OptionState.Reports) (fun s a s' _ hok hstep => ?_)
      (fun s hs => hs) (fun s a s' _ hnot hstep hreports => ?_) OptionState.reports_start hrun
    · exact (OptionState.reports_step_iff hstep).2 hok
    · exact hnot ((OptionState.reports_step_iff hstep).1 hreports)
  · rintro rfl
    exact Machine.run_invariant (I := OptionState.Balanced)
      (fun s a s' hs hstep => OptionState.balanced_step hs hstep) OptionState.balanced_start hrun
  · rintro rfl
    exact Machine.run_invariant (I := fun s : OptionState τ => s.dropped = [])
      (fun s a s' hs hstep => OptionState.dropped_step hs hstep) rfl hrun

/-- A value is made, replaced, cleared and made again, and the option is dropped. -/
def threeValues : List (OptionAct ℕ Unit) :=
  [.create ⟨.touched, true⟩ (.some (.succeeds 1)), .writeInit (.succeeds 2), .clear,
    .writeInit (.fails () true), .write (.some (.succeeds 3)), .drop]

theorem reports_iff_meets_three :
    (optionMachine ℕ Unit true).Always OptionState.Reports .start threeValues ∧
      ∃ t, (optionMachine ℕ Unit true).run .start threeValues = some t ∧
        t.dropped = [.holds 1, .holds 2, .holds 3] := by
  have hrun : (optionMachine ℕ Unit true).run .start threeValues =
      some ⟨none, [.holds 1, .holds 2, .holds 3], none, [1, 2, 3]⟩ := rfl
  obtain ⟨hreports, hdropped, -⟩ := reports_iff_meets true hrun
  refine ⟨hreports.2 (by decide), _, hrun, ?_⟩
  exact ((hdropped rfl).trans (List.append_nil _)).symm

/-- **A failed initialiser over a value without drop glue.**  The option is made with a value, and
then written with an initialiser that fails after it has written to the slot.  The option still says
that it holds a value, and `as_ref` exposes the slot. -/
theorem fails_over_value :
    ∃ (t : OptionState ℕ) (opt : InitOption ℕ),
      (optionMachine ℕ Unit false).run .start
        [.create ⟨.vacant, false⟩ (.some (.succeeds 1)), .writeInit (.fails () true)] = some t ∧
      t.last = none ∧ t.opt = some opt ∧ opt.isSome = true ∧ opt.asRef = some .touched ∧
      opt.asMut = some .touched :=
  ⟨_, ⟨.touched, true⟩, rfl, rfl, rfl, rfl, rfl, rfl⟩

end VirtioGpu
