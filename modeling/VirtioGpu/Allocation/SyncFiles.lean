import VirtioGpu.Allocation.BusyEvents

/-!
# The events of user mode

The escape `RESOURCE_BUSY` puts an event into the list `sync`, reads the busy count, and only then
clears or sets the event, without the lock of the list.  A `mark_free` that makes the allocation
idle sets all events of the list, gives back the references to them, and empties the list.

* `syncFiles_sound` : if no `mark_free` sets an event between its registration and the moment when
  the escape clears or sets it, then nobody touches an event without a reference, and whenever no
  call is in progress and the count is 0, the events of all escapes that have returned are set.  If
  a `mark_free` does, there is a way to go on in which the escape touches the event without a
  reference.
* `syncFiles_unsound` : such a run, and one in which the event stays cleared for ever.
-/

namespace VirtioGpu

/-! ### What is to hold -/

namespace BusyPc

variable {ε : Type*}

/-- The event that is set or cleared next. -/
def touches : BusyPc ε → Option (EventRef ε)
  | busyEach (r :: _) | freeEach (r :: _) | use r _ _ => some r
  | _ => none

/-- The event that `mark_free` sets next. -/
def signals : BusyPc ε → Option (EventRef ε)
  | freeEach (r :: _) => some r
  | _ => none

/-- The event that has been registered, and has yet to be cleared or set by the escape. -/
def window : BusyPc ε → Option (EventRef ε)
  | load r _ | use r _ _ => some r
  | _ => none

end BusyPc

namespace BusyState

variable {ι ε : Type*}

/-- No call is in progress. -/
def Quiet (s : BusyState ι ε) : Prop := ∀ i, s.pc i = .idle ∨ s.pc i = .held

/-- What is to hold in every state. -/
structure Sound (s : BusyState ι ε) : Prop where
  /-- With no call in progress and the allocation idle, the events of the escapes that have returned
  are set. -/
  signalled : s.Quiet → s.count = 0 → ∀ e ∈ s.files.returned, s.files.events e = true
  /-- An event is set or cleared only while there is a reference to it. -/
  alive : ∀ i, ∀ r ∈ (s.pc i).touches, r ∉ s.files.destroyed

/-- `mark_free` does not set an event that its escape has yet to clear or to set. -/
def Settled (s : BusyState ι ε) : BusyAct ι ε → Prop
  | .advance i => match (s.pc i).signals with
    | some r => ∀ j, (s.pc j).window ≠ some r
    | none => True
  | _ => True

end BusyState

/-! ### The invariant -/

namespace BusyPc

variable {ε : Type*}

/-- `mark_free` has made the allocation idle and has not emptied the list yet. -/
def pending : BusyPc ε → Bool
  | freeSet | freeLock | freeEach _ | freeDestroy _ _ => true
  | _ => false

end BusyPc

namespace BusyState

section Invariant

variable {ι ε : Type*}

/-- The allocation is busy, or the events in the list are going to be set. -/
def Active (s : BusyState ι ε) : Prop := 0 < s.count ∨ ∃ i, (s.pc i).pending = true

/-- The event is set, or it is in the list and going to be set. -/
def Fired (s : BusyState ι ε) (e : ε) : Prop :=
  s.files.events e = true ∨ (∃ r ∈ s.files.sync, r.event = e) ∧ s.Active

/-- The list while `mark_free` has yet to set the events `todo`: the escapes are done with those
before them, and these are set, unless one of `todo` is the same event. -/
structure Drains (s : BusyState ι ε) (todo : List (EventRef ε)) : Prop where
  split : ∃ done, s.files.sync = done ++ todo ∧ ∀ r ∈ done, (∀ j, (s.pc j).window ≠ some r) ∧
    (s.files.events r.event = true ∨ ∃ r' ∈ todo, r'.event = r.event)
  alive : ∀ r ∈ todo, r ∉ s.files.destroyed

/-- What thread `j` relies on. -/
def At (s : BusyState ι ε) (j : ι) : BusyPc ε → Prop
  | .busyEach todo => j ∈ s.files.readers ∧ ∀ r ∈ todo, r ∈ s.files.sync
  | .freeEach todo => s.files.writer = some j ∧ s.Drains todo
  | .freeDestroy r todo =>
    s.files.writer = some j ∧ s.Drains todo ∧ r ∈ s.files.sync ∧ r ∉ todo
  | .load r _ => r ∈ s.files.sync ∧ r ∉ s.files.destroyed
  | .use r busy _ => (r ∈ s.files.sync ∧ r ∉ s.files.destroyed) ∧ (busy = true → s.Active)
  | .waitLoad e | .waitEvent e | .waitCheck e | .waitDelay e | .last e => ∀ e' ∈ e, s.Fired e'
  | _ => True

/-- The references, the lock and the events. -/
structure Tracked (s : BusyState ι ε) : Prop where
  threads : ∀ j, s.At j (s.pc j)
  exclusive : s.files.writer ≠ none → s.files.readers = ∅
  nodup : s.files.sync.Nodup
  old : ∀ r, r ∈ s.files.sync ∨ r ∈ s.files.destroyed → r.id < s.files.nextRef
  clean : s.files.writer = none → ∀ r ∈ s.files.sync, r ∉ s.files.destroyed
  returned : ∀ e ∈ s.files.returned, s.Fired e

/-- A step of thread `i` does not take away what the others rely on. -/
structure Frame (s s' : BusyState ι ε) (i : ι) : Prop where
  readers : ∀ j, j ≠ i → j ∈ s.files.readers → j ∈ s'.files.readers
  writer : ∀ j, j ≠ i → s.files.writer = some j → s'.files.writer = some j
  drains : ∀ j, j ≠ i → s.files.writer = some j → ∀ todo, s.Drains todo → s'.Drains todo
  sync : ∀ r ∈ s.files.sync, r ∈ s'.files.sync
  destroyed : ∀ j r, (s.pc j).window = some r → r ∉ s.files.destroyed → r ∉ s'.files.destroyed
  active : s.Active → s'.Active
  fired : ∀ e, s.Fired e → s'.Fired e

variable {s s' : BusyState ι ε} {i j : ι}

theorem Frame.at (h : Frame s s' i) (hj : j ≠ i) (hat : s.At j (s.pc j)) : s'.At j (s.pc j) := by
  cases hpc : s.pc j with
  | busyEach =>
    rw [hpc] at hat
    exact ⟨h.readers j hj hat.1, fun r hr => h.sync r (hat.2 r hr)⟩
  | freeEach todo =>
    rw [hpc] at hat
    exact ⟨h.writer j hj hat.1, h.drains j hj hat.1 todo hat.2⟩
  | freeDestroy r todo =>
    rw [hpc] at hat
    obtain ⟨hwriter, hdrains, hr, htodo⟩ := hat
    exact ⟨h.writer j hj hwriter, h.drains j hj hwriter todo hdrains, h.sync r hr, htodo⟩
  | load r =>
    rw [hpc] at hat
    exact ⟨h.sync r hat.1, h.destroyed j r (by rw [hpc]; rfl) hat.2⟩
  | use r =>
    rw [hpc] at hat
    obtain ⟨⟨hr, halive⟩, hbusy⟩ := hat
    exact ⟨⟨h.sync r hr, h.destroyed j r (by rw [hpc]; rfl) halive⟩, fun hb => h.active (hbusy hb)⟩
  | waitLoad e | waitEvent e | waitCheck e | waitDelay e | last e =>
    rw [hpc] at hat
    exact fun e' he' => h.fired e' (hat e' he')
  | _ => trivial

end Invariant

/-! ### The steps -/

section Steps

variable {ι ε : Type*} [DecidableEq ι] {s s' : BusyState ι ε} {i : ι} {q : BusyPc ε}
  {r : EventRef ε} {todo : List (EventRef ε)} {f : SyncFiles ι ε}

theorem Tracked.threads_of_frame (hs : s.Tracked) (hpc : s'.pc = Function.update s.pc i q)
    (hframe : Frame s s' i) (hat : s'.At i q) : ∀ j, s'.At j (s'.pc j) := by
  rw [hpc]
  exact (Function.forall_update_iff s.pc s'.At).2 ⟨hat, fun j hj => hframe.at hj (hs.threads j)⟩

theorem Active.update (h : s.Active) (hpc : s'.pc = Function.update s.pc i q)
    (hcount : 0 < s.count → 0 < s'.count ∨ q.pending = true)
    (hq : (s.pc i).pending = true → q.pending = true) : s'.Active := by
  have hi : q.pending = true → s'.Active := fun h => .inr ⟨i, by rwa [hpc, Function.update_self]⟩
  rcases h with h | ⟨m, hm⟩
  · exact (hcount h).elim .inl hi
  · by_cases hmi : m = i
    · exact hi (hq (hmi ▸ hm))
    · exact .inr ⟨m, by rwa [hpc, Function.update_of_ne hmi]⟩

theorem Active.gotoWith (h : s.Active) (hq : (s.pc i).pending = true → q.pending = true) :
    (s.gotoWith i q f).Active :=
  h.update rfl .inl hq

theorem window_update (hpc : s'.pc = Function.update s.pc i q)
    (hq : q.window = none ∨ q.window = (s.pc i).window) (hr : ∀ j, (s.pc j).window ≠ some r)
    (j : ι) : (s'.pc j).window ≠ some r := by
  rw [hpc]
  by_cases hj : j = i
  · rw [hj, Function.update_self]
    rcases hq with hq | hq
    · rw [hq]
      exact (Option.some_ne_none r).symm
    · rw [hq]
      exact hr i
  · rw [Function.update_of_ne hj]
    exact hr j

/-- The list that is being emptied stays as it is, and no event of it is cleared but one that is
still to be set. -/
theorem Drains.update (h : s.Drains todo) (hpc : s'.pc = Function.update s.pc i q)
    (hq : q.window = none ∨ q.window = (s.pc i).window) (hsync : s'.files.sync = s.files.sync)
    (hdestroyed : s'.files.destroyed = s.files.destroyed)
    (hevents : ∀ e, s.files.events e = true →
      s'.files.events e = true ∨ ∃ r' ∈ todo, r'.event = e) : s'.Drains todo := by
  obtain ⟨done, hdone, hset⟩ := h.split
  refine ⟨⟨done, hsync.trans hdone, fun r hr => ⟨window_update hpc hq (hset r hr).1, ?_⟩⟩, ?_⟩
  · exact (hset r hr).2.elim (hevents r.event) .inr
  · rw [hdestroyed]
    exact h.alive

theorem Tracked.move (hs : s.Tracked) (hpc : s'.pc = Function.update s.pc i q)
    (hfiles : s'.files = s.files) (hq : q.window = none ∨ q.window = (s.pc i).window)
    (hactive : s.Active → s'.Active) (hat : s'.At i q) : s'.Tracked := by
  have hfired : ∀ e, s.Fired e → s'.Fired e := fun e =>
    Or.imp (by rw [hfiles]; exact id) (by rw [hfiles]; exact And.imp_right hactive)
  refine ⟨hs.threads_of_frame hpc ?_ hat, ?_, ?_, ?_, ?_, ?_⟩
  · refine ⟨?_, ?_, fun j _ _ todo hdrains => ?_, ?_, ?_, hactive, hfired⟩
    · rw [hfiles]
      exact fun _ _ h => h
    · rw [hfiles]
      exact fun _ _ h => h
    · refine hdrains.update hpc hq (by rw [hfiles]) (by rw [hfiles]) ?_
      rw [hfiles]
      exact fun _ => .inl
    · rw [hfiles]
      exact fun _ h => h
    · rw [hfiles]
      exact fun _ _ _ h => h
  · rw [hfiles]
    exact hs.exclusive
  · rw [hfiles]
    exact hs.nodup
  · rw [hfiles]
    exact hs.old
  · rw [hfiles]
    exact hs.clean
  · rw [hfiles]
    exact fun e he => hfired e (hs.returned e he)

theorem Tracked.relock (hs : s.Tracked) {readers : Finset ι} {writer : Option ι} {returned : List ε}
    (hq : q.window = none) (hpending : (s.pc i).pending = true → q.pending = true)
    (hreaders : ∀ j, j ≠ i → j ∈ s.files.readers → j ∈ readers)
    (hwriter : ∀ j, j ≠ i → s.files.writer = some j → writer = some j)
    (hexclusive : writer ≠ none → readers = ∅) (hclean : writer = none → s.files.writer = none)
    (hreturned : ∀ e ∈ returned, s.Fired e)
    (hat : (s.gotoWith i q { s.files with readers, writer, returned }).At i q) :
    (s.gotoWith i q { s.files with readers, writer, returned }).Tracked := by
  set s' := s.gotoWith i q { s.files with readers, writer, returned } with hs'
  have hactive : s.Active → s'.Active := fun h => h.gotoWith hpending
  have hfired : ∀ e, s.Fired e → s'.Fired e := fun e => Or.imp_right (And.imp_right hactive)
  have hframe : Frame s s' i := ⟨hreaders, hwriter,
    fun _ _ _ _ h => h.update rfl (.inl hq) rfl rfl fun _ => .inl, fun _ h => h, fun _ _ _ h => h,
    hactive, hfired⟩
  exact ⟨hs.threads_of_frame rfl hframe hat, hexclusive, hs.nodup, hs.old,
    fun h => hs.clean (hclean h), fun e he => hfired e (hreturned e he)⟩

theorem Tracked.wait (hs : s.Tracked) {e : Option ε} (hpending : (s.pc i).pending = false)
    (hq : q.window = none) (hat : ∀ e' ∈ e, s.Fired e')
    (hat' : (s.goto i q).At i q = ∀ e' ∈ e, (s.goto i q).Fired e') : (s.goto i q).Tracked := by
  have hactive : s.Active → (s.goto i q).Active := fun h =>
    h.update rfl .inl fun h => Bool.noConfusion (hpending.symm.trans h)
  refine hs.move rfl rfl (.inl hq) hactive ?_
  rw [hat']
  exact fun e' he' => (hat e' he').imp_right (And.imp_right hactive)

theorem Tracked.attach (hs : s.Tracked) {e : ε} {wait : Bool} (hpc : s.pc i = .attach e wait)
    (hfree : s.files.Unlocked) :
    (s.gotoWith i (.load ⟨s.files.nextRef, e⟩ wait)
      { s.files with
        sync := s.files.sync ++ [⟨s.files.nextRef, e⟩]
        nextRef := s.files.nextRef + 1 }).Tracked := by
  set new : EventRef ε := ⟨s.files.nextRef, e⟩ with hnew
  set s' := s.gotoWith i (.load new wait)
    { s.files with sync := s.files.sync ++ [new], nextRef := s.files.nextRef + 1 } with hs'
  have hfresh : ∀ r, r ∈ s.files.sync ∨ r ∈ s.files.destroyed → r ≠ new := by
    rintro r hr rfl
    exact lt_irrefl _ (hs.old new hr)
  have hactive : s.Active → s'.Active := fun h => h.gotoWith (by rw [hpc]; exact id)
  have hfired : ∀ e, s.Fired e → s'.Fired e := by
    rintro e (he | ⟨⟨r, hr, he⟩, h⟩)
    · exact .inl he
    · exact .inr ⟨⟨r, List.mem_append_left _ hr, he⟩, hactive h⟩
  have hframe : Frame s s' i := ⟨fun _ _ h => h, fun _ _ h => h,
    fun j _ h => absurd (hfree.1.symm.trans h) (Option.some_ne_none j).symm,
    fun _ h => List.mem_append_left _ h, fun _ _ _ h => h, hactive, hfired⟩
  have hdestroyed : new ∉ s.files.destroyed := fun h => hfresh new (.inr h) rfl
  refine ⟨hs.threads_of_frame rfl hframe ⟨?_, hdestroyed⟩, hs.exclusive, ?_, ?_, ?_,
    fun e he => hfired e (hs.returned e he)⟩
  · exact List.mem_append_right _ (List.mem_singleton_self _)
  · refine List.nodup_append.2 ⟨hs.nodup, List.nodup_singleton _, fun r hr r' hr' => ?_⟩
    rw [List.mem_singleton.1 hr']
    exact hfresh r (.inl hr)
  · rintro r (hr | hr)
    · rcases List.mem_append.1 hr with hr | hr
      · exact Nat.lt_succ_of_lt (hs.old r (.inl hr))
      · rw [List.mem_singleton.1 hr]
        exact Nat.lt_succ_self _
    · exact Nat.lt_succ_of_lt (hs.old r (.inr hr))
  · intro hnone r hr
    rcases List.mem_append.1 hr with hr | hr
    · exact hs.clean hnone r hr
    · rw [List.mem_singleton.1 hr]
      exact hdestroyed

omit [DecidableEq ι] in
theorem writer_vacuous {P : Prop} (hwriter : s.files.writer = some i) {j : ι} (hj : j ≠ i)
    (h : s.files.writer = some j) : P :=
  absurd (Option.some.inj (h.symm.trans hwriter)) hj

theorem Tracked.destroy (hs : s.Tracked) (hpc : s.pc i = .freeDestroy r todo) :
    (s.gotoWith i (.freeEach todo)
      { s.files with destroyed := r :: s.files.destroyed }).Tracked := by
  set s' := s.gotoWith i (.freeEach todo)
    { s.files with destroyed := r :: s.files.destroyed } with hs'
  have hat := hs.threads i
  rw [hpc] at hat
  obtain ⟨hwriter, hdrains, hr, htodo⟩ := hat
  obtain ⟨done, hdone, hset⟩ := hdrains.split
  have hrdone : r ∈ done := by
    rw [hdone] at hr
    exact (List.mem_append.1 hr).resolve_right htodo
  have hactive : s.Active → s'.Active := fun h => h.gotoWith fun _ => rfl
  have hfired : ∀ e, s.Fired e → s'.Fired e := fun e => Or.imp_right (And.imp_right hactive)
  have hframe : Frame s s' i := by
    refine ⟨fun _ _ h => h, fun _ _ h => h, fun _ hj h => writer_vacuous hwriter hj h,
      fun _ h => h, fun j r' hwindow hr' => ?_, hactive, hfired⟩
    -- the escape of `r` is done with it
    refine fun hmem => (List.mem_cons.1 hmem).elim (fun heq => ?_) hr'
    exact (hset r hrdone).1 j (heq ▸ hwindow)
  have hdrains' : s'.Drains todo := by
    refine ⟨⟨done, hdone, fun r' hr' => ⟨window_update rfl (.inl rfl) (hset r' hr').1,
      (hset r' hr').2⟩⟩, fun r' hr' hmem => ?_⟩
    rcases List.mem_cons.1 hmem with rfl | hmem
    · exact htodo hr'
    · exact hdrains.alive r' hr' hmem
  refine ⟨hs.threads_of_frame rfl hframe ⟨hwriter, hdrains'⟩, hs.exclusive, hs.nodup, ?_, ?_,
    fun e he => hfired e (hs.returned e he)⟩
  · rintro r' (hr' | hr')
    · exact hs.old r' (.inl hr')
    · rcases List.mem_cons.1 hr' with rfl | hr'
      · exact hs.old r' (.inl hr)
      · exact hs.old r' (.inr hr')
  · exact fun hnone => absurd (hwriter.symm.trans hnone) (Option.some_ne_none i)

/-- `mark_free` empties the list, and unlocks it.  All events of the list are set, and no escape is
on the way. -/
theorem Tracked.unlockWrite (hs : s.Tracked) (hpc : s.pc i = .freeEach []) :
    (s.gotoWith i .idle { s.files with sync := [], writer := none }).Tracked := by
  set s' := s.gotoWith i .idle { s.files with sync := [], writer := none } with hs'
  have hat := hs.threads i
  rw [hpc] at hat
  obtain ⟨hwriter, hdrains⟩ := hat
  obtain ⟨done, hdone, hset⟩ := hdrains.split
  rw [List.append_nil] at hdone
  have hfired : ∀ e, s.Fired e → s'.Fired e := by
    rintro e (he | ⟨⟨r, hr, rfl⟩, -⟩)
    · exact .inl he
    · rcases (hset r (hdone ▸ hr)).2 with he | ⟨r', hr', -⟩
      · exact .inl he
      · cases hr'
  have hwindow : ∀ {P : Prop} {j : ι} {r : EventRef ε}, (s.pc j).window = some r →
      r ∈ s.files.sync → P := fun hj hr => absurd hj ((hset _ (hdone ▸ hr)).1 _)
  have hothers : ∀ j, j ≠ i → s'.At j (s.pc j) := by
    intro j hj
    have hat := hs.threads j
    cases hpcj : s.pc j with
    | busyEach =>
      rw [hpcj, At, hs.exclusive (by rw [hwriter]; exact Option.some_ne_none i)] at hat
      exact absurd hat.1 (Finset.notMem_empty j)
    | freeEach todo | freeDestroy r todo =>
      rw [hpcj] at hat
      exact writer_vacuous hwriter hj hat.1
    | load r =>
      rw [hpcj] at hat
      exact hwindow (r := r) (by rw [hpcj]; rfl) hat.1
    | use r =>
      rw [hpcj] at hat
      exact hwindow (r := r) (by rw [hpcj]; rfl) hat.1.1
    | waitLoad e | waitEvent e | waitCheck e | waitDelay e | last e =>
      rw [hpcj] at hat
      exact fun e' he' => hfired e' (hat e' he')
    | _ => trivial
  refine ⟨(Function.forall_update_iff s.pc s'.At).2 ⟨trivial, hothers⟩, fun h => absurd rfl h,
    List.nodup_nil, fun r hr => hs.old r (.inr (hr.resolve_left List.not_mem_nil)),
    fun _ _ h => absurd h List.not_mem_nil, fun e he => hfired e (hs.returned e he)⟩

variable [DecidableEq ε]

theorem Tracked.clear (hs : s.Tracked) (hpos : 0 < s.count)
    (hpc : s.pc i = .busyEach (r :: todo)) :
    (s.gotoWith i (.busyEach todo)
      { s.files with events := Function.update s.files.events r.event false }).Tracked := by
  set s' := s.gotoWith i (.busyEach todo)
    { s.files with events := Function.update s.files.events r.event false } with hs'
  have hat := hs.threads i
  rw [hpc] at hat
  obtain ⟨hreader, hsync⟩ := hat
  have hnone : s.files.writer = none := by
    by_contra hwriter
    rw [hs.exclusive hwriter] at hreader
    exact absurd hreader (Finset.notMem_empty i)
  have hactive : s'.Active := .inl hpos
  have hfired : ∀ e, s.Fired e → s'.Fired e := by
    intro e he
    by_cases hre : e = r.event
    · exact .inr ⟨⟨r, hsync r List.mem_cons_self, hre.symm⟩, hactive⟩
    · refine he.imp (fun h => ?_) (And.imp_right fun _ => hactive)
      exact (Function.update_of_ne hre _ _).trans h
  have hframe : Frame s s' i := ⟨fun _ _ h => h, fun _ _ h => h,
    fun j _ h => absurd (hnone.symm.trans h) (Option.some_ne_none j).symm, fun _ h => h,
    fun _ _ _ h => h, fun _ => hactive, hfired⟩
  exact ⟨hs.threads_of_frame rfl hframe
      ⟨hreader, fun r' hr' => hsync r' (List.mem_cons_of_mem _ hr')⟩,
    hs.exclusive, hs.nodup, hs.old, hs.clean, fun e he => hfired e (hs.returned e he)⟩

theorem Tracked.signal (hs : s.Tracked) (hpc : s.pc i = .freeEach (r :: todo))
    (hwindow : ∀ j, (s.pc j).window ≠ some r) :
    (s.gotoWith i (.freeDestroy r todo)
      { s.files with events := Function.update s.files.events r.event true }).Tracked := by
  set s' := s.gotoWith i (.freeDestroy r todo)
    { s.files with events := Function.update s.files.events r.event true } with hs'
  have hat := hs.threads i
  rw [hpc] at hat
  obtain ⟨hwriter, hdrains⟩ := hat
  obtain ⟨done, hdone, hset⟩ := hdrains.split
  have hself : s'.files.events r.event = true := Function.update_self _ _ _
  have hevents : ∀ e, s.files.events e = true → s'.files.events e = true := by
    intro e he
    by_cases hre : e = r.event
    · rw [hre, hself]
    · exact (Function.update_of_ne hre _ _).trans he
  have hactive : s.Active → s'.Active := fun h => h.gotoWith fun _ => rfl
  have hfired : ∀ e, s.Fired e → s'.Fired e := fun e => Or.imp (hevents e) (And.imp_right hactive)
  have hframe : Frame s s' i := ⟨fun _ _ h => h, fun _ _ h => h,
    fun _ hj h => writer_vacuous hwriter hj h, fun _ h => h, fun _ _ _ h => h, hactive, hfired⟩
  have hdrains' : s'.Drains todo := by
    refine ⟨⟨done ++ [r], ?_, fun r' hr' => ?_⟩,
      fun r' hr' => hdrains.alive r' (List.mem_cons_of_mem _ hr')⟩
    · rw [List.append_assoc]
      exact hdone
    · rcases List.mem_append.1 hr' with hr' | hr'
      · obtain ⟨hout, he⟩ := hset r' hr'
        refine ⟨window_update rfl (.inl rfl) hout, ?_⟩
        rcases he with he | ⟨r'', hr'', he⟩
        · exact .inl (hevents _ he)
        · rcases List.mem_cons.1 hr'' with rfl | hr''
          · exact .inl (he ▸ hself)
          · exact .inr ⟨r'', hr'', he⟩
      · rw [List.mem_singleton.1 hr']
        exact ⟨window_update rfl (.inl rfl) hwindow, .inl hself⟩
  have hmem : r ∈ s.files.sync := by
    rw [hdone]
    exact List.mem_append_right _ List.mem_cons_self
  have htodo : r ∉ todo := by
    have hnodup := hs.nodup
    rw [hdone] at hnodup
    exact (List.nodup_cons.1 hnodup.of_append_right).1
  exact ⟨hs.threads_of_frame rfl hframe ⟨hwriter, hdrains', hmem, htodo⟩, hs.exclusive, hs.nodup,
    hs.old, hs.clean, fun e he => hfired e (hs.returned e he)⟩

theorem Tracked.use (hs : s.Tracked) {busy : Bool} {wait : Bool} (hpc : s.pc i = .use r busy wait)
    (hq : q = .waitLoad (some r.event) ∨ q = .last (some r.event)) :
    (s.gotoWith i q
      { s.files with events := Function.update s.files.events r.event (!busy) }).Tracked := by
  set s' := s.gotoWith i q
    { s.files with events := Function.update s.files.events r.event (!busy) } with hs'
  have hat := hs.threads i
  rw [hpc] at hat
  obtain ⟨⟨hr, -⟩, hbusy⟩ := hat
  have hpending : (s.pc i).pending = true → q.pending = true := by
    rw [hpc]
    exact fun h => Bool.noConfusion h
  have hwindow : q.window = none := by rcases hq with rfl | rfl <;> rfl
  have hactive : s.Active → s'.Active := fun h => h.gotoWith hpending
  have hself : s'.Fired r.event := by
    cases hb : busy with
    | false =>
      refine .inl ?_
      rw [hs', hb]
      exact Function.update_self _ _ _
    | true => exact .inr ⟨⟨r, hr, rfl⟩, hactive (hbusy hb)⟩
  have hfired : ∀ e, s.Fired e → s'.Fired e := by
    intro e he
    by_cases hre : e = r.event
    · exact hre ▸ hself
    · refine he.imp (fun h => ?_) (And.imp_right hactive)
      exact (Function.update_of_ne hre _ _).trans h
  have hframe : Frame s s' i := by
    refine ⟨fun _ _ h => h, fun _ _ h => h, fun j _ _ todo h => ?_, fun _ h => h, fun _ _ _ h => h,
      hactive, hfired⟩
    -- a `mark_free` under way has not come to `r` yet
    obtain ⟨done, hdone, hset⟩ := h.split
    have htodo : r ∈ todo := by
      rw [hdone] at hr
      refine (List.mem_append.1 hr).resolve_left fun hmem => ?_
      exact (hset r hmem).1 i (by rw [hpc]; rfl)
    refine h.update rfl (.inl hwindow) rfl rfl fun e he => ?_
    by_cases hre : e = r.event
    · exact .inr ⟨r, htodo, hre.symm⟩
    · exact .inl ((Function.update_of_ne hre _ _).trans he)
  have hat' : s'.At i q := by
    rcases hq with rfl | rfl <;> exact fun e' he' => Option.some.inj he' ▸ hself
  exact ⟨hs.threads_of_frame rfl hframe hat', hs.exclusive, hs.nodup, hs.old, hs.clean,
    fun e he => hfired e (hs.returned e he)⟩

end Steps

/-! ### Runs -/

section Runs

variable {ι ε : Type*} [DecidableEq ι] [DecidableEq ε] {s s' : BusyState ι ε} {i : ι}

omit [DecidableEq ι] [DecidableEq ε] in
theorem tracked_init (events : ε → Bool) : (init ι events).Tracked where
  threads _ := trivial
  exclusive h := absurd rfl h
  nodup := List.nodup_nil
  old _ h := absurd h (not_or.2 ⟨List.not_mem_nil, List.not_mem_nil⟩)
  clean _ _ h := absurd h List.not_mem_nil
  returned _ h := absurd h List.not_mem_nil

theorem Tracked.advance (hs : s.Tracked) (hcounted : s.Counted) (hok : s.Settled (.advance i))
    (h : s.advance i = .next s') : s'.Tracked := by
  have hat := hs.threads i
  unfold BusyState.advance at h
  cases hpc : s.pc i with
  | idle | held => simp [hpc] at h
  | busyAdd =>
    simp only [hpc] at h
    cases h
    exact hs.move rfl rfl (.inl rfl) (fun _ => .inl (Nat.succ_pos _)) trivial
  | busyClear =>
    simp only [hpc] at h
    cases h
    exact hs.move rfl rfl (.inl rfl) (fun h => h.update rfl .inl (by rw [hpc]; exact id)) trivial
  | busyLock =>
    simp only [hpc] at h
    split_ifs at h with hfree
    cases h
    exact hs.relock rfl (by rw [hpc]; exact id) (fun _ _ => Finset.mem_insert_of_mem)
      (fun _ _ h => h) (fun h => absurd hfree h) id hs.returned
      ⟨Finset.mem_insert_self _ _, fun _ h => h⟩
  | busyEach todo =>
    cases todo with
    | nil =>
      simp only [hpc] at h
      cases h
      refine hs.relock rfl (by rw [hpc]; exact id) (fun _ hj h => Finset.mem_erase.2 ⟨hj, h⟩)
        (fun _ _ h => h) (fun h => ?_) id hs.returned trivial
      rw [hs.exclusive h, Finset.erase_empty]
    | cons =>
      simp only [hpc] at h
      cases h
      exact hs.clear (hcounted.pos (i := i) (by rw [hpc]; rfl)) hpc
  | freeSub =>
    simp only [hpc] at h
    cases h
    by_cases hone : s.count = 1
    · simp only [hone, if_true]
      exact hs.move rfl rfl (.inl rfl) (fun _ => .inr ⟨i, by simp [goto, BusyPc.pending]⟩) trivial
    · simp only [hone, if_false]
      refine hs.move rfl rfl (.inl rfl) (fun h => h.update rfl (fun hpos => .inl ?_) ?_) trivial
      · exact Nat.sub_pos_of_lt (by omega)
      · rw [hpc]
        exact id
  | freeSet =>
    simp only [hpc] at h
    cases h
    exact hs.move rfl rfl (.inl rfl) (fun h => h.update rfl .inl fun _ => rfl) trivial
  | freeLock =>
    simp only [hpc] at h
    split_ifs at h with hfree
    cases h
    refine hs.relock rfl (fun _ => rfl) (fun _ _ h => h) (fun j _ h => ?_) (fun _ => hfree.2)
      (fun h => absurd h (Option.some_ne_none i)) hs.returned
      ⟨rfl, ⟨[], rfl, fun _ h => absurd h List.not_mem_nil⟩, hs.clean hfree.1⟩
    exact absurd (hfree.1.symm.trans h) (Option.some_ne_none j).symm
  | freeEach todo =>
    cases todo with
    | nil =>
      simp only [hpc] at h
      cases h
      exact hs.unlockWrite hpc
    | cons =>
      simp only [hpc] at h
      cases h
      simp only [Settled, hpc, BusyPc.signals] at hok
      exact hs.signal hpc hok
  | freeDestroy =>
    simp only [hpc] at h
    cases h
    exact hs.destroy hpc
  | attach =>
    simp only [hpc] at h
    split_ifs at h with hfree
    cases h
    exact hs.attach hpc hfree
  | load r wait =>
    simp only [hpc] at h
    cases h
    rw [hpc] at hat
    refine hs.move rfl rfl (.inr (by rw [hpc]; rfl))
      (fun h => h.update rfl .inl (by rw [hpc]; exact id)) ⟨hat, fun hbusy => .inl ?_⟩
    exact of_decide_eq_true hbusy
  | use r busy wait =>
    simp only [hpc] at h
    cases h
    cases wait <;> exact hs.use hpc (by simp)
  | waitLoad e | waitCheck e =>
    simp only [hpc] at h
    cases h
    rw [hpc] at hat
    split_ifs <;> exact hs.wait (by rw [hpc]; rfl) rfl hat rfl
  | waitEvent =>
    simp only [hpc] at h
    split_ifs at h
    cases h
    rw [hpc] at hat
    exact hs.wait (by rw [hpc]; rfl) rfl hat rfl
  | waitDelay =>
    simp only [hpc] at h
    cases h
    rw [hpc] at hat
    exact hs.wait (by rw [hpc]; rfl) rfl hat rfl
  | last =>
    simp only [hpc] at h
    cases h
    rw [hpc] at hat
    refine hs.relock rfl (by rw [hpc]; exact id) (fun _ _ h => h) (fun _ _ h => h) hs.exclusive id
      (fun e' he' => ?_) trivial
    rcases List.mem_append.1 he' with he' | he'
    · exact hat e' (Option.mem_toList.1 he')
    · exact hs.returned e' he'

theorem Tracked.step (hs : s.Tracked) (hcounted : s.Counted) {a : BusyAct ι ε} (hok : s.Settled a)
    (h : (busyMachine ι ε).step s a = .next s') : s'.Tracked := by
  have hnone : ∀ e' ∈ (none : Option ε), s.Fired e' := fun _ h => absurd h (Option.not_mem_none _)
  cases a with
  | advance => exact hs.advance hcounted hok h
  | markBusy i | markFree i =>
    simp only [busyMachine, BusyState.step] at h
    split at h
    · rename_i hpc
      cases h
      exact hs.move rfl rfl (.inl rfl) (fun h => h.update rfl .inl (by rw [hpc]; exact id)) trivial
    · cases h
  | alert i =>
    simp only [busyMachine, BusyState.step] at h
    split at h
    · rename_i e hpc
      cases h
      have hat := hs.threads i
      rw [hpc] at hat
      exact hs.wait (by rw [hpc]; rfl) rfl hat rfl
    · cases h
  | escape i e wait =>
    simp only [busyMachine, BusyState.step] at h
    split at h
    · rename_i hpc
      cases e with
      | none =>
        cases h
        cases wait <;> exact hs.wait (by rw [hpc]; rfl) rfl hnone rfl
      | some =>
        cases h
        exact hs.move rfl rfl (.inl rfl) (fun h => h.update rfl .inl (by rw [hpc]; exact id))
          trivial
    · cases h

omit [DecidableEq ι] [DecidableEq ε] in
theorem Tracked.sound (hs : s.Tracked) : s.Sound where
  signalled hquiet hcount e he := by
    rcases hs.returned e he with h | ⟨-, hpos | ⟨j, hj⟩⟩
    · exact h
    · omega
    · rcases hquiet j with hpc | hpc <;> rw [hpc] at hj <;> cases hj
  alive j r hr := by
    have hat := hs.threads j
    cases hpc : s.pc j with
    | busyEach todo =>
      rw [hpc] at hat hr
      -- nobody empties the list while it is locked for reading
      have hnone : s.files.writer = none := by
        by_contra hwriter
        rw [At, hs.exclusive hwriter] at hat
        exact absurd hat.1 (Finset.notMem_empty j)
      cases todo with
      | nil => cases hr
      | cons =>
        cases hr
        exact hs.clean hnone r (hat.2 r List.mem_cons_self)
    | freeEach todo =>
      rw [hpc] at hat hr
      cases todo with
      | nil => cases hr
      | cons =>
        cases hr
        exact hat.2.alive r List.mem_cons_self
    | use =>
      rw [hpc] at hat hr
      cases hr
      exact hat.1.2
    | _ => rw [hpc] at hr; cases hr

omit [DecidableEq ι] [DecidableEq ε] in
theorem not_settled {a : BusyAct ι ε} (h : ¬ s.Settled a) :
    ∃ i j r todo, a = .advance i ∧ s.pc i = .freeEach (r :: todo) ∧ (s.pc j).window = some r := by
  cases a with
  | advance i =>
    rw [Settled] at h
    split at h
    · rename_i r hr
      simp only [not_forall, not_not] at h
      obtain ⟨j, hj⟩ := h
      cases hpc : s.pc i with
      | freeEach todo =>
        rw [hpc] at hr
        cases todo with
        | nil => cases hr
        | cons r' todo =>
          cases hr
          exact ⟨i, j, r, todo, rfl, hpc, hj⟩
      | _ => rw [hpc] at hr; cases hr
    · exact absurd trivial h
  | _ => exact absurd trivial h

/-- An event that is set by `mark_free` before its escape has cleared or set it can be touched
without a reference. -/
theorem exists_unsound {a : BusyAct ι ε} (hstep : (busyMachine ι ε).step s a = .next s')
    (hok : ¬ s.Settled a) : ∃ bs t, (busyMachine ι ε).run s' bs = some t ∧ ¬ t.Sound := by
  obtain ⟨i, j, r, todo, rfl, hpc, hwindow⟩ := not_settled hok
  have hji : j ≠ i := fun hji => by simp [hji, hpc, BusyPc.window] at hwindow
  simp only [busyMachine, BusyState.step, BusyState.advance, hpc] at hstep
  cases hstep
  set s' := s.gotoWith i (.freeDestroy r todo)
    { s.files with events := Function.update s.files.events r.event true } with hs'
  set t := s'.gotoWith i (.freeEach todo) { s'.files with destroyed := r :: s'.files.destroyed }
    with ht
  have hdestroy : (busyMachine ι ε).step s' (.advance i) = .next t := by
    have hpc' : s'.pc i = .freeDestroy r todo := Function.update_self _ _ _
    simp only [busyMachine, BusyState.step, BusyState.advance, hpc']
    rfl
  have hpcj : t.pc j = s.pc j :=
    (Function.update_of_ne hji _ _).trans (Function.update_of_ne hji _ _)
  -- a thread that is about to touch `r` does so without a reference
  have hunsound : ∀ {u : BusyState ι ε} {busy wait}, u.pc j = .use r busy wait →
      u.files.destroyed = r :: s.files.destroyed → ¬ u.Sound := fun hu hfiles hsound => by
    refine hsound.alive j r (by rw [hu]; rfl) ?_
    rw [hfiles]
    exact List.mem_cons_self
  cases hpcj' : s.pc j with
  | load r' wait =>
    rw [hpcj'] at hwindow
    cases hwindow
    have hload : (busyMachine ι ε).step t (.advance j) =
        .next (t.goto j (.use r (decide (0 < t.count)) wait)) := by
      simp only [busyMachine, BusyState.step, BusyState.advance, hpcj, hpcj']
    refine ⟨[.advance i, .advance j], t.goto j (.use r (decide (0 < t.count)) wait), ?_,
      hunsound (Function.update_self _ _ _) rfl⟩
    rw [Machine.run_cons_next hdestroy, Machine.run_cons_next hload, Machine.run_nil]
  | use =>
    rw [hpcj'] at hwindow
    cases hwindow
    refine ⟨[.advance i], t, ?_, hunsound (hpcj.trans hpcj') rfl⟩
    rw [Machine.run_cons_next hdestroy, Machine.run_nil]
  | _ => rw [hpcj'] at hwindow; cases hwindow

end Runs

end BusyState

/-- **When the events of user mode are right.**  If no `mark_free` sets an event that its escape has
yet to clear or to set, the events of all escapes that have returned are set when all is idle, and
none is touched without a reference.  If a `mark_free` does, the run can go on to break this. -/
theorem syncFiles_sound {ι ε : Type*} [DecidableEq ι] [DecidableEq ε] (events : ε → Bool)
    (as : List (BusyAct ι ε)) :
    ((busyMachine ι ε).Meets BusyState.Settled (.init ι events) as →
      (busyMachine ι ε).Always BusyState.Sound (.init ι events) as) ∧
    ∀ s a s', (busyMachine ι ε).run (.init ι events) as = some s →
      (busyMachine ι ε).step s a = .next s' → ¬ s.Settled a →
      ∃ bs t, (busyMachine ι ε).run s' bs = some t ∧ ¬ t.Sound := by
  refine ⟨fun h => ?_, fun s a s' _ hstep hok => BusyState.exists_unsound hstep hok⟩
  refine Machine.always_of_meets (I := fun s => s.Counted ∧ s.Tracked)
    (fun s a s' hs hok hstep => ?_) (fun s hs => hs.2.sound)
    ⟨BusyState.counted_init events, BusyState.tracked_init events⟩ h
  obtain ⟨i, hcount⟩ := BusyState.countStep hstep
  exact ⟨hs.1.step hcount, hs.2.step hs.1 hok hstep⟩

instance {ι ε : Type*} [Fintype ι] [DecidableEq ε] (s : BusyState ι ε) : Decidable s.Quiet :=
  inferInstanceAs (Decidable (∀ _, _ ∨ _))

instance {ι ε : Type*} [Fintype ι] [DecidableEq ε] (s : BusyState ι ε) (a : BusyAct ι ε) :
    Decidable (s.Settled a) := by
  unfold BusyState.Settled
  split
  · split <;> infer_instance
  · infer_instance

/-- A submission makes the allocation busy. -/
def submitted : List (BusyAct Bool Unit) :=
  .markBusy false :: List.replicate 4 (.advance false)

/-- It is freed, with one event in the list. -/
def completed : List (BusyAct Bool Unit) :=
  .markFree false :: List.replicate 6 (.advance false)

/-- Another thread registers an event and reads the count. -/
def registered : List (BusyAct Bool Unit) :=
  .escape true (some ()) false :: List.replicate 2 (.advance true)

/-- The escape clears the event and returns before the submission is freed. -/
theorem syncFiles_sound_registered :
    (busyMachine Bool Unit).Meets BusyState.Settled (.init Bool fun _ => false)
      (submitted ++ registered ++ List.replicate 2 (.advance true) ++ completed) ∧
    (busyMachine Bool Unit).Always BusyState.Sound (.init Bool fun _ => false)
      (submitted ++ registered ++ List.replicate 2 (.advance true) ++ completed) := by
  have hmeets : (busyMachine Bool Unit).Meets BusyState.Settled (.init Bool fun _ => false)
      (submitted ++ registered ++ List.replicate 2 (.advance true) ++ completed) := by decide
  exact ⟨hmeets, (syncFiles_sound _ _).1 hmeets⟩

/-- The submission is freed between the moment the escape reads the count and the moment it clears
the event.  It then clears an event without a reference; and when it has returned, nothing is in
progress, the allocation is idle, and the event is not set. -/
theorem syncFiles_unsound :
    ((busyMachine Bool Unit).run (.init Bool fun _ => false)
      (submitted ++ registered ++ completed)).map
        (fun s => ((s.pc true).touches, s.files.destroyed)) = some (some ⟨0, ()⟩, [⟨0, ()⟩]) ∧
    ((busyMachine Bool Unit).run (.init Bool fun _ => false)
      (submitted ++ registered ++ completed ++ List.replicate 2 (.advance true))).map
        (fun s => (decide s.Quiet, s.count, s.files.returned, s.files.events ())) =
      some (true, 0, [()], false) := by
  decide

end VirtioGpu
