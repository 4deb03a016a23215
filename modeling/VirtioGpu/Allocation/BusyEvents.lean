import VirtioGpu.Machine.Basic
import Mathlib.Data.Finset.Card

/-!
# The busy count, the busy event and the events of user mode

An `Allocation` counts the submissions that use it (`mark_busy`, `mark_free`) and has an event for
those who `wait` until it is idle.  Beside that event there are events of user mode in the list
`sync`: the escape `RESOURCE_BUSY` puts one there and clears or sets it, `mark_busy` clears all of
them, and the `mark_free` that makes the allocation idle sets and forgets them.  The count, the
events and the list are changed in separate steps; only the list has a lock.

`busyMachine` interleaves the calls at the level of these steps.  A thread of the machine is one
submission, or one caller of the escape, after another; its `mark_free` is that of its own
`mark_busy`.

* `idle_signalled` : whenever the count is 0 and no `mark_free` has yet to set the busy event, the
  event is set, unless there was no `mark_busy` at all, and so nobody waits for it in vain.
-/

namespace VirtioGpu

/-! ### The machine -/

/-- An event of user mode in the list, with the number of its registration; it stands for the
reference that `KeEvent::from_usermode_handle` has taken. -/
structure EventRef (ε : Type*) where
  id : ℕ
  event : ε
  deriving DecidableEq

/-- Where a thread is. -/
inductive BusyPc (ε : Type*) where
  | idle
  /-- `mark_busy`: the count is raised next. -/
  | busyAdd
  /-- The busy event is cleared next. -/
  | busyClear
  /-- The list is locked for reading next. -/
  | busyLock
  /-- The events `todo` of the list are still to be cleared. -/
  | busyEach (todo : List (EventRef ε))
  /-- Between `mark_busy` and `mark_free`. -/
  | held
  /-- `mark_free`: the count is lowered next. -/
  | freeSub
  /-- The count was 1; the busy event is set next. -/
  | freeSet
  /-- The list is locked for writing next. -/
  | freeLock
  /-- The events `todo` of the list are still to be set and destroyed. -/
  | freeEach (todo : List (EventRef ε))
  /-- `r` has been set and is destroyed next. -/
  | freeDestroy (r : EventRef ε) (todo : List (EventRef ε))
  /-- The escape: the event is put into the list next. -/
  | attach (e : ε) (wait : Bool)
  /-- The count is read next. -/
  | load (r : EventRef ε) (wait : Bool)
  /-- The event is cleared, if the allocation was busy, or set. -/
  | use (r : EventRef ε) (busy wait : Bool)
  /-- `wait`, in an escape with the event `e`, if it has one: the count is read next. -/
  | waitLoad (e : Option ε)
  /-- `wait_usermode` -/
  | waitEvent (e : Option ε)
  /-- The count is read again. -/
  | waitCheck (e : Option ε)
  /-- `ke_delay_execution_thread` -/
  | waitDelay (e : Option ε)
  /-- The count is read for the answer, and the escape returns. -/
  | last (e : Option ε)
  deriving DecidableEq

inductive BusyAct (ι ε : Type*) where
  /-- `mark_busy` is called; the count it loads first is not used. -/
  | markBusy (i : ι)
  | markFree (i : ι)
  /-- The escape `RESOURCE_BUSY` is called, with an event or without. -/
  | escape (i : ι) (e : Option ε) (wait : Bool)
  | advance (i : ι)
  /-- `wait_usermode` returns without the event. -/
  | alert (i : ι)

/-- The list `sync` with its lock, and the events of user mode. -/
structure SyncFiles (ι ε : Type*) where
  sync : List (EventRef ε)
  /-- The threads that have locked `sync` for reading. -/
  readers : Finset ι
  /-- The thread that has locked `sync` for writing. -/
  writer : Option ι
  /-- The events that are set. -/
  events : ε → Bool
  /-- The references that have been given back. -/
  destroyed : List (EventRef ε)
  nextRef : ℕ
  /-- The events of the escapes that have returned. -/
  returned : List ε

/-- `sync` can be locked for writing. -/
def SyncFiles.Unlocked {ι ε : Type*} (f : SyncFiles ι ε) : Prop := f.writer = none ∧ f.readers = ∅

instance {ι ε : Type*} [DecidableEq ι] (f : SyncFiles ι ε) : Decidable f.Unlocked :=
  inferInstanceAs (Decidable (_ ∧ _))

/-- An allocation and the threads that use it. -/
structure BusyState (ι ε : Type*) where
  /-- `busy.1` -/
  count : ℕ
  /-- `busy.0` is set. -/
  signalled : Bool
  /-- There has been a `mark_busy`. -/
  marked : Bool
  files : SyncFiles ι ε
  pc : ι → BusyPc ε

section Machine

variable {ι ε : Type*} [DecidableEq ι] [DecidableEq ε]

namespace BusyState

variable (s : BusyState ι ε)

def goto (i : ι) (p : BusyPc ε) : BusyState ι ε :=
  { s with pc := Function.update s.pc i p }

/-- Thread `i` goes to `p`, with the list and the events as given. -/
def gotoWith (i : ι) (p : BusyPc ε) (files : SyncFiles ι ε) : BusyState ι ε :=
  { s.goto i p with files := files }

def advance (i : ι) : Outcome (BusyState ι ε) Empty :=
  let f := s.files
  match s.pc i with
  | .idle | .held => .stuck
  | .busyAdd => .next { s.goto i .busyClear with count := s.count + 1, marked := true }
  | .busyClear => .next { s.goto i .busyLock with signalled := false }
  | .busyLock =>
    if f.writer = none then
      .next (s.gotoWith i (.busyEach f.sync) { f with readers := insert i f.readers })
    else .stuck
  | .busyEach (r :: todo) =>
    .next (s.gotoWith i (.busyEach todo)
      { f with events := Function.update f.events r.event false })
  | .busyEach [] => .next (s.gotoWith i .held { f with readers := f.readers.erase i })
  | .freeSub => .next { s.goto i (if s.count = 1 then .freeSet else .idle) with
      count := s.count - 1 }
  | .freeSet => .next { s.goto i .freeLock with signalled := true }
  | .freeLock =>
    if f.Unlocked then .next (s.gotoWith i (.freeEach f.sync) { f with writer := some i })
    else .stuck
  | .freeEach (r :: todo) =>
    .next (s.gotoWith i (.freeDestroy r todo)
      { f with events := Function.update f.events r.event true })
  | .freeDestroy r todo =>
    .next (s.gotoWith i (.freeEach todo) { f with destroyed := r :: f.destroyed })
  | .freeEach [] => .next (s.gotoWith i .idle { f with sync := [], writer := none })
  | .attach e wait =>
    -- the lock is held for `push` alone
    if f.Unlocked then
      .next (s.gotoWith i (.load ⟨f.nextRef, e⟩ wait)
        { f with sync := f.sync ++ [⟨f.nextRef, e⟩], nextRef := f.nextRef + 1 })
    else .stuck
  | .load r wait => .next (s.goto i (.use r (decide (0 < s.count)) wait))
  | .use r busy wait =>
    .next (s.gotoWith i (if wait then .waitLoad (some r.event) else .last (some r.event))
      { f with events := Function.update f.events r.event (!busy) })
  | .waitLoad e => .next (s.goto i (if 0 < s.count then .waitEvent e else .last e))
  | .waitEvent e => if s.signalled then .next (s.goto i (.waitCheck e)) else .stuck
  | .waitCheck e => .next (s.goto i (if 0 < s.count then .waitDelay e else .last e))
  | .waitDelay e => .next (s.goto i (.waitLoad e))
  | .last e => .next (s.gotoWith i .idle { f with returned := e.toList ++ f.returned })

def step : BusyAct ι ε → Outcome (BusyState ι ε) Empty
  | .markBusy i => match s.pc i with
    | .idle => .next (s.goto i .busyAdd)
    | _ => .stuck
  | .markFree i => match s.pc i with
    | .held => .next (s.goto i .freeSub)
    | _ => .stuck
  | .escape i e wait => match s.pc i with
    | .idle => match e with
      | some e => .next (s.goto i (.attach e wait))
      | none => .next (s.goto i (if wait then .waitLoad none else .last none))
    | _ => .stuck
  | .advance i => s.advance i
  | .alert i => match s.pc i with
    | .waitEvent e => .next (s.goto i (.waitCheck e))
    | _ => .stuck

/-- A new allocation; the busy event is not set. -/
def init (ι : Type*) {ε : Type*} (events : ε → Bool) : BusyState ι ε :=
  ⟨0, false, false, ⟨[], ∅, none, events, [], 0, []⟩, fun _ => .idle⟩

end BusyState

/-- The calls on one allocation. -/
def busyMachine (ι ε : Type*) [DecidableEq ι] [DecidableEq ε] :
    Machine (BusyState ι ε) (BusyAct ι ε) Empty :=
  ⟨BusyState.step⟩

end Machine

/-! ### The count and the busy event -/

namespace BusyPc

variable {ε : Type*}

/-- The thread has raised the count and has not lowered it yet. -/
def holds : BusyPc ε → Bool
  | busyClear | busyLock | busyEach _ | held | freeSub => true
  | _ => false

/-- The thread has made the allocation idle and has yet to set the busy event. -/
def sets : BusyPc ε → Bool
  | freeSet => true
  | _ => false

theorem sets_iff {p : BusyPc ε} : p.sets = true ↔ p = freeSet := by
  cases p <;> simp [sets]

/-- The thread is in `wait_usermode`. -/
def blocks : BusyPc ε → Bool
  | waitEvent _ => true
  | _ => false

/-- The thread is in `wait`, in an escape with the event `e`. -/
def Waits (p : BusyPc ε) (e : Option ε) : Prop :=
  p = waitLoad e ∨ p = waitEvent e ∨ p = waitCheck e ∨ p = waitDelay e

end BusyPc

namespace BusyState

variable {ι ε : Type*} [DecidableEq ι] [DecidableEq ε] {s s' : BusyState ι ε} {i : ι}

/-- What a step of thread `i` does to the count and to the busy event. -/
inductive CountStep (s s' : BusyState ι ε) (i : ι) : Prop
  | keep (p : BusyPc ε) (pc : s'.pc = Function.update s.pc i p) (count : s'.count = s.count)
      (signalled : s'.signalled = s.signalled) (marked : s'.marked = s.marked)
      (holds : p.holds = (s.pc i).holds) (sets : (s.pc i).sets = false)
      (blocks : p.blocks = true → 0 < s.count)
  | raise (pc : s'.pc = Function.update s.pc i .busyClear) (count : s'.count = s.count + 1)
      (marked : s'.marked = true) (loc : s.pc i = .busyAdd)
  | clear (pc : s'.pc = Function.update s.pc i .busyLock) (count : s'.count = s.count)
      (marked : s'.marked = s.marked) (loc : s.pc i = .busyClear)
  | lower (pc : s'.pc = Function.update s.pc i (if s.count = 1 then .freeSet else .idle))
      (count : s'.count = s.count - 1) (marked : s'.marked = s.marked) (loc : s.pc i = .freeSub)
  | set (pc : s'.pc = Function.update s.pc i .freeLock) (count : s'.count = s.count)
      (signalled : s'.signalled = true) (marked : s'.marked = s.marked) (loc : s.pc i = .freeSet)

omit [DecidableEq ε] in
theorem CountStep.move {p q : BusyPc ε} (hpc : s.pc i = p)
    (h : s'.pc = Function.update s.pc i q ∧ s'.count = s.count ∧ s'.signalled = s.signalled ∧
      s'.marked = s.marked) (hholds : q.holds = p.holds) (hsets : p.sets = false)
    (hblocks : q.blocks = true → 0 < s.count) : CountStep s s' i :=
  .keep q h.1 h.2.1 h.2.2.1 h.2.2.2 (hpc ▸ hholds) (hpc ▸ hsets) hblocks

theorem countStep_advance (h : s.advance i = .next s') : CountStep s s' i := by
  have hfalse : false = true → 0 < s.count := fun h => Bool.noConfusion h
  unfold advance at h
  cases hpc : s.pc i with
  | idle | held => simp [hpc] at h
  | busyAdd =>
    simp only [hpc] at h
    cases h
    exact .raise rfl rfl rfl hpc
  | busyClear =>
    simp only [hpc] at h
    cases h
    exact .clear rfl rfl rfl hpc
  | freeSub =>
    simp only [hpc] at h
    cases h
    exact .lower rfl rfl rfl hpc
  | freeSet =>
    simp only [hpc] at h
    cases h
    exact .set rfl rfl rfl rfl hpc
  | busyEach todo | freeEach todo =>
    cases todo <;> simp only [hpc] at h <;> cases h <;>
      exact .move hpc ⟨rfl, rfl, rfl, rfl⟩ rfl rfl hfalse
  | busyLock | freeLock | attach e wait | waitEvent e =>
    simp only [hpc] at h
    split_ifs at h
    cases h
    exact .move hpc ⟨rfl, rfl, rfl, rfl⟩ rfl rfl hfalse
  | freeDestroy r todo | load r wait | waitDelay e | last e =>
    simp only [hpc] at h
    cases h
    exact .move hpc ⟨rfl, rfl, rfl, rfl⟩ rfl rfl hfalse
  | use r busy wait =>
    simp only [hpc] at h
    cases h
    cases wait <;> exact .move hpc ⟨rfl, rfl, rfl, rfl⟩ rfl rfl hfalse
  | waitLoad e | waitCheck e =>
    simp only [hpc] at h
    cases h
    by_cases hcount : 0 < s.count
    · simp only [hcount, if_true]
      exact .move hpc ⟨rfl, rfl, rfl, rfl⟩ rfl rfl fun _ => hcount
    · simp only [hcount, if_false]
      exact .move hpc ⟨rfl, rfl, rfl, rfl⟩ rfl rfl hfalse

theorem countStep {a : BusyAct ι ε} (h : (busyMachine ι ε).step s a = .next s') :
    ∃ i, CountStep s s' i := by
  have hfalse : false = true → 0 < s.count := fun h => Bool.noConfusion h
  cases a with
  | advance i => exact ⟨i, countStep_advance h⟩
  | markBusy i | markFree i | alert i =>
    refine ⟨i, ?_⟩
    simp only [busyMachine, step] at h
    split at h
    · rename_i hpc
      cases h
      exact .move hpc ⟨rfl, rfl, rfl, rfl⟩ rfl rfl hfalse
    · cases h
  | escape i e wait =>
    refine ⟨i, ?_⟩
    simp only [busyMachine, step] at h
    split at h
    · rename_i hpc
      cases e <;> cases wait <;> cases h <;>
        exact .move hpc ⟨rfl, rfl, rfl, rfl⟩ rfl rfl hfalse
    · cases h

/-- The count is the number of threads that hold it up, and the busy event is set when it has to
be. -/
structure Counted (s : BusyState ι ε) : Prop where
  holders : ∃ H : Finset ι, (∀ i, i ∈ H ↔ (s.pc i).holds = true) ∧ s.count = H.card
  signal : s.signalled = true ∨ 0 < s.count ∨ (∃ i, (s.pc i).sets = true) ∨ s.marked = false
  marked : 0 < s.count → s.marked = true
  blocked : ∀ i, (s.pc i).blocks = true → s.marked = true

omit [DecidableEq ι] [DecidableEq ε] in
theorem counted_init (events : ε → Bool) : (init ι events).Counted where
  holders := ⟨∅, fun i => by simp [init, BusyPc.holds], rfl⟩
  signal := .inr (.inr (.inr rfl))
  marked h := absurd h (lt_irrefl 0)
  blocked i h := by cases h

omit [DecidableEq ι] [DecidableEq ε] in
theorem Counted.pos (hs : s.Counted) (hi : (s.pc i).holds = true) : 0 < s.count := by
  obtain ⟨H, hmem, hcard⟩ := hs.holders
  rw [hcard]
  exact Finset.card_pos.2 ⟨i, (hmem i).2 hi⟩

omit [DecidableEq ε] in
theorem Counted.holders_update (hs : s.Counted) {p : BusyPc ε}
    (hpc : s'.pc = Function.update s.pc i p) (hcount : s'.count = s.count)
    (hp : p.holds = (s.pc i).holds) :
    ∃ H : Finset ι, (∀ j, j ∈ H ↔ (s'.pc j).holds = true) ∧ s'.count = H.card := by
  obtain ⟨H, hmem, hcard⟩ := hs.holders
  refine ⟨H, fun j => ?_, hcount.trans hcard⟩
  rw [hmem, hpc]
  by_cases hj : j = i
  · rw [hj, Function.update_self, hp]
  · rw [Function.update_of_ne hj]

omit [DecidableEq ε] in
theorem Counted.step (hs : s.Counted) (h : CountStep s s' i) : s'.Counted := by
  obtain ⟨H, hmem, hcard⟩ := hs.holders
  have hblocked : ∀ {p : BusyPc ε}, (p.blocks = true → s.marked = true) →
      ∀ j, (Function.update s.pc i p j).blocks = true → s.marked = true := fun hp =>
    (Function.forall_update_iff s.pc fun _ q => q.blocks = true → s.marked = true).2
      ⟨hp, fun j _ => hs.blocked j⟩
  cases h with
  | keep p pc count signalled marked holds sets blocks =>
    refine ⟨hs.holders_update pc count holds, ?_, ?_, ?_⟩
    · rw [signalled, count, marked]
      refine hs.signal.imp_right (.imp_right (.imp_left (Exists.imp fun j hj => ?_)))
      have hji : j ≠ i := fun hji => by simp [hji, sets] at hj
      rwa [pc, Function.update_of_ne hji]
    · rw [count, marked]
      exact hs.marked
    · rw [pc, marked]
      exact hblocked fun hp => hs.marked (blocks hp)
  | raise pc count marked loc =>
    have hi : i ∉ H := fun hi => by simpa [loc, BusyPc.holds] using (hmem i).1 hi
    refine ⟨⟨insert i H, fun j => ?_, ?_⟩, .inr (.inl ?_), fun _ => marked, fun _ _ => marked⟩
    · rw [Finset.mem_insert, hmem, pc]
      by_cases hj : j = i
      · simp [hj, BusyPc.holds]
      · rw [Function.update_of_ne hj, or_iff_right hj]
    · rw [count, hcard, Finset.card_insert_of_notMem hi]
    · omega
  | clear pc count marked loc =>
    -- the thread itself holds up the count
    have hpos := hs.pos (i := i) (by rw [loc]; rfl)
    refine ⟨hs.holders_update pc count (by rw [loc]; rfl), .inr (.inl (count ▸ hpos)), ?_, ?_⟩
    · rw [count, marked]
      exact hs.marked
    · rw [pc, marked]
      exact hblocked fun _ => hs.marked hpos
  | lower pc count marked loc =>
    have hi : (s.pc i).holds = true := by rw [loc]; rfl
    have hpos := hs.pos hi
    have hidle : (if s.count = 1 then BusyPc.freeSet else .idle : BusyPc ε).holds = false := by
      split_ifs <;> rfl
    refine ⟨⟨H.erase i, fun j => ?_, ?_⟩, ?_, fun _ => marked.trans (hs.marked hpos), ?_⟩
    · rw [Finset.mem_erase, hmem, pc]
      by_cases hj : j = i
      · simp [hj, hidle]
      · rw [Function.update_of_ne hj, and_iff_right hj]
    · rw [count, hcard, Finset.card_erase_of_mem ((hmem i).2 hi)]
    · by_cases hone : s.count = 1
      · refine .inr (.inr (.inl ⟨i, ?_⟩))
        rw [pc, Function.update_self, if_pos hone]
        rfl
      · exact .inr (.inl (by omega))
    · rw [pc, marked]
      exact hblocked fun _ => hs.marked hpos
  | set pc count signalled marked loc =>
    refine ⟨hs.holders_update pc count (by rw [loc]; rfl), .inl signalled, ?_, ?_⟩
    · rw [count, marked]
      exact hs.marked
    · rw [pc, marked]
      exact hblocked fun h => Bool.noConfusion h

theorem counted_run {events : ε → Bool} {as : List (BusyAct ι ε)}
    (h : (busyMachine ι ε).run (init ι events) as = some s) : s.Counted :=
  Machine.run_invariant (fun _ _ _ hs hstep => (countStep hstep).elim fun _ => hs.step)
    (counted_init events) h

theorem repeats_last {p : BusyPc ε} {e : Option ε} (hpc : s.pc i = p) (hcount : s.count = 0)
    (hp : p = .waitLoad e ∨ p = .waitCheck e) :
    ∃ t, (busyMachine ι ε).Repeats (.advance i) s t ∧ t.pc i = .last e := by
  have hstep : (busyMachine ι ε).step s (.advance i) = .next (s.goto i (.last e)) := by
    rcases hp with rfl | rfl <;> simp [busyMachine, BusyState.step, advance, hpc, hcount]
  exact ⟨_, .head _ hstep (.refl _ _), Function.update_self _ _ _⟩

theorem repeats_wait {e : Option ε} (hcount : s.count = 0)
    (hsignalled : (s.pc i).blocks = true → s.signalled = true) (hi : (s.pc i).Waits e) :
    ∃ t, (busyMachine ι ε).Repeats (.advance i) s t ∧ t.pc i = .last e := by
  have hgo : ∀ p : BusyPc ε, (busyMachine ι ε).step s (.advance i) = .next (s.goto i p) →
      (p = .waitLoad e ∨ p = .waitCheck e) →
      ∃ t, (busyMachine ι ε).Repeats (.advance i) s t ∧ t.pc i = .last e := by
    intro p hstep hp
    obtain ⟨t, ht, hlast⟩ := repeats_last (s := s.goto i p) (Function.update_self _ _ _) hcount hp
    exact ⟨t, .head _ hstep ht, hlast⟩
  rcases hi with hpc | hpc | hpc | hpc
  · exact repeats_last hpc hcount (.inl rfl)
  · refine hgo (.waitCheck e) ?_ (.inr rfl)
    rw [hpc] at hsignalled
    simp [busyMachine, BusyState.step, advance, hpc, hsignalled rfl]
  · exact repeats_last hpc hcount (.inr rfl)
  · refine hgo (.waitLoad e) ?_ (.inl rfl)
    simp [busyMachine, BusyState.step, advance, hpc]

end BusyState

/-- **The busy event is set when the allocation is idle**, if there has been a `mark_busy` and no
`mark_free` is between lowering the count and setting the event; and a thread in `wait` gets to the
end of it on its own. -/
theorem idle_signalled {ι ε : Type*} [DecidableEq ι] [DecidableEq ε] (events : ε → Bool)
    (as : List (BusyAct ι ε)) (s : BusyState ι ε)
    (hrun : (busyMachine ι ε).run (.init ι events) as = some s) (hcount : s.count = 0)
    (hset : ∀ i, s.pc i ≠ .freeSet) :
    (s.marked = true → s.signalled = true) ∧
      ∀ i e, (s.pc i).Waits e →
        ∃ t, (busyMachine ι ε).Repeats (.advance i) s t ∧ t.pc i = .last e := by
  have hs := BusyState.counted_run hrun
  have hsignal : s.marked = true → s.signalled = true := by
    intro hmarked
    rcases hs.signal with h | h | ⟨i, h⟩ | h
    · exact h
    · omega
    · exact absurd (BusyPc.sets_iff.1 h) (hset i)
    · simp [hmarked] at h
  exact ⟨hsignal, fun i e hi =>
    BusyState.repeats_wait hcount (fun hb => hsignal (hs.blocked i hb)) hi⟩

/-- A submission that is freed while another thread waits for it. -/
def freeWhileWaiting : List (BusyAct Bool Unit) :=
  [.markBusy false, .advance false, .advance false, .advance false, .advance false,
    .escape true none true, .advance true, .markFree false, .advance false, .advance false]

theorem freeWhileWaiting_runs : ((busyMachine Bool Unit).run (.init Bool fun _ => false)
    freeWhileWaiting).isSome = true := by decide

theorem idle_signalled_freeWhileWaiting :
    ∃ s, (busyMachine Bool Unit).run (.init Bool fun _ => false) freeWhileWaiting = some s ∧
      s.pc true = .waitEvent none ∧ s.signalled = true ∧
      ∃ t, (busyMachine Bool Unit).Repeats (.advance true) s t ∧ t.pc true = .last none := by
  have hrun := (Option.some_get freeWhileWaiting_runs).symm
  have hpc : (Option.get _ freeWhileWaiting_runs).pc true = .waitEvent none := by decide
  have hidle := idle_signalled _ _ _ hrun (by decide) (by decide)
  exact ⟨_, hrun, hpc, hidle.1 (by decide), hidle.2 true none (.inr (.inl hpc))⟩

end VirtioGpu
