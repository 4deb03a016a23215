import VirtioGpu.Blob.Map

/-!
# Mapping and unmapping a blob concurrently

`Allocation::map_blob` and `unmap_blob` may be called for one blob on any threads, and neither holds
a lock: they read the flag, change it, and write `map` in separate steps, with exchanges with the
host in between.  `raceMachine` interleaves them on a blob that can be mapped, with a host that
accepts every request.

* `race_sound_of_meets` : if a call that passes its check of the flag is the only one under way,
  there is at most one range, nothing is unwrapped that is not there, and the flag is right whenever
  no call is under way.
* `race_unsound` : without that, two ranges are allocated and one of them lost, or the handle is
  unwrapped before it has been stored, or the flag stays set on a blob that is not mapped.
* `run_mapBlob_alone`, `run_mapBlob_fails`, `run_unmapBlob_alone` : a call that nobody interrupts
  is the function of `Blob.Map`.
-/

namespace VirtioGpu

/-- Where a thread is in `map_blob` or `unmap_blob`. -/
inductive MapPc where
  | idle
  /-- `map_blob` has found the flag clear; the context is looked up, and a range of pages for `size`
  bytes allocated next. -/
  | mapChecked (size : ℕ)
  /-- `map_blob` waits for the host. -/
  | mapAllocated (r : Range)
  /-- The host has accepted; the flag is set next. -/
  | mapAccepted (r : Range)
  /-- The range is stored next. -/
  | mapFlagged (r : Range)
  /-- `unmap_blob` has found the flag set; it is cleared next. -/
  | unmapChecked
  /-- The range is taken out of `map` and unwrapped next. -/
  | unmapCleared
  /-- The range is freed next. -/
  | unmapTaken (r : Range)
  /-- `unmap_blob` waits for the host. -/
  | unmapFreed
  deriving DecidableEq

/-- A blob and the threads that map and unmap it. -/
structure RaceState (π : Type*) where
  blob : BlobWorld
  pc : π → MapPc

inductive RaceAct (π : Type*) where
  /-- `map_blob` is called and reads the flag. -/
  | mapBlob (p : π)
  /-- `unmap_blob` is called and reads the flag. -/
  | unmapBlob (p : π)
  /-- The allocator gives a range that starts at page `offset`. -/
  | allocate (p : π) (offset : ℕ)
  /-- The device has no context, or the allocator no room, and `map_blob` returns an error. -/
  | fail (p : π)
  | advance (p : π)

/-- `unwrap` on `None`. -/
inductive UnwrapNone where
  | unwrapNone

section Machine

variable {π : Type*} [DecidableEq π]

namespace RaceState

variable (s : RaceState π)

/-- Thread `p` goes on, with the blob as given. -/
def goto (p : π) (pc : MapPc) (blob : BlobWorld) : RaceState π :=
  ⟨blob, Function.update s.pc p pc⟩

/-- One step of a call that has passed its check and its allocation. -/
def advance (p : π) : Outcome (RaceState π) UnwrapNone :=
  match s.pc p with
  | .idle | .mapChecked _ => .stuck
  | .mapAllocated r => .next (s.goto p (.mapAccepted r) { s.blob with host := true })
  | .mapAccepted r => .next (s.goto p (.mapFlagged r) { s.blob with mapped := true })
  | .mapFlagged r => .next (s.goto p .idle { s.blob with map := some r })
  | .unmapChecked => .next (s.goto p .unmapCleared { s.blob with mapped := false })
  | .unmapCleared => match s.blob.map with
    | none => .panic .unwrapNone
    | some r => .next (s.goto p (.unmapTaken r) { s.blob with map := none })
  | .unmapTaken r =>
    .next (s.goto p .unmapFreed { s.blob with outstanding := s.blob.outstanding.erase r })
  | .unmapFreed => .next (s.goto p .idle { s.blob with host := false })

def step : RaceAct π → Outcome (RaceState π) UnwrapNone
  | .mapBlob p => match s.pc p with
    | .idle => match s.blob.resource with
      | .blob size true =>
        if s.blob.mapped then .next s else .next (s.goto p (.mapChecked size) s.blob)
      | _ => .next s
    | _ => .stuck
  | .unmapBlob p => match s.pc p with
    | .idle => if s.blob.mapped then .next (s.goto p .unmapChecked s.blob) else .next s
    | _ => .stuck
  | .allocate p offset => match s.pc p with
    | .mapChecked size => .next (s.goto p (.mapAllocated ⟨offset, pagesU32 size⟩)
        { s.blob with outstanding := ⟨offset, pagesU32 size⟩ :: s.blob.outstanding })
    | _ => .stuck
  | .fail p => match s.pc p with
    | .mapChecked _ => .next (s.goto p .idle s.blob)
    | _ => .stuck
  | .advance p => s.advance p

/-- A mappable blob that is not mapped, and no call. -/
def init (π : Type*) (size : ℕ) : RaceState π :=
  ⟨⟨.blob size true, false, none, [], false⟩, fun _ => .idle⟩

/-- No call is in progress. -/
def Quiet : Prop := ∀ p, s.pc p = .idle

/-- What is to hold in every state. -/
structure Sound (s : RaceState π) : Prop where
  /-- At most one range is outstanding. -/
  one : s.blob.outstanding.length ≤ 1
  /-- Whoever is about to unwrap finds a range. -/
  stored : ∀ p, s.pc p = .unmapCleared → s.blob.map.isSome = true
  /-- With no call in progress the flag says whether there is a range. -/
  agree : s.Quiet → (s.blob.mapped = true ↔ s.blob.map.isSome = true)

/-- A call passes its check of the flag only while no other call is in progress. -/
def Alone : RaceAct π → Prop
  | .mapBlob _ => s.blob.mapped = false → s.Quiet
  | .unmapBlob _ => s.blob.mapped = true → s.Quiet
  | _ => True

end RaceState

/-- Concurrent calls for one blob. -/
def raceMachine (π : Type*) [DecidableEq π] : Machine (RaceState π) (RaceAct π) UnwrapNone :=
  ⟨RaceState.step⟩

end Machine

/-! ### One call at a time -/

namespace RaceState

variable {π : Type*} [DecidableEq π] {s s' : RaceState π} {p : π} {w : BlobWorld}

/-- What the blob looks like when the only call in progress is at `pc`. -/
def Agrees (w : BlobWorld) : MapPc → Prop
  | .idle => (w.mapped = false ∧ w.map = none ∧ w.outstanding = []) ∨
      ∃ r, w.mapped = true ∧ w.map = some r ∧ w.outstanding = [r]
  | .mapChecked _ | .unmapFreed => w.mapped = false ∧ w.map = none ∧ w.outstanding = []
  | .mapAllocated r | .mapAccepted r | .unmapTaken r =>
      w.mapped = false ∧ w.map = none ∧ w.outstanding = [r]
  | .mapFlagged r => w.mapped = true ∧ w.map = none ∧ w.outstanding = [r]
  | .unmapChecked => ∃ r, w.mapped = true ∧ w.map = some r ∧ w.outstanding = [r]
  | .unmapCleared => ∃ r, w.mapped = false ∧ w.map = some r ∧ w.outstanding = [r]

/-- At most one call is in progress, and the blob agrees with where it is. -/
def Inv (s : RaceState π) : Prop :=
  (s.Quiet ∧ Agrees s.blob .idle) ∨
    ∃ p, (∀ q, q ≠ p → s.pc q = .idle) ∧ Agrees s.blob (s.pc p)

theorem Agrees.length_outstanding {pc : MapPc} (h : Agrees w pc) : w.outstanding.length ≤ 1 := by
  cases pc <;> simp only [Agrees] at h <;>
    first
    | rcases h with ⟨-, -, h⟩ | ⟨r, -, -, h⟩ <;> simp [h]
    | obtain ⟨-, -, h⟩ := h; simp [h]
    | obtain ⟨r, -, -, h⟩ := h; simp [h]

omit [DecidableEq π] in
theorem Inv.agrees_idle (hs : s.Inv) (hquiet : s.Quiet) : Agrees s.blob .idle := by
  rcases hs with ⟨-, h⟩ | ⟨p, -, h⟩
  · exact h
  · rwa [hquiet p] at h

/-- A call in progress is the only one. -/
theorem Inv.of_active (hs : s.Inv) (hp : s.pc p ≠ .idle) :
    (∀ q, q ≠ p → s.pc q = .idle) ∧ Agrees s.blob (s.pc p) := by
  rcases hs with ⟨hquiet, -⟩ | ⟨p', hothers, h⟩
  · exact absurd (hquiet p) hp
  · by_cases hpp : p = p'
    · subst hpp
      exact ⟨hothers, h⟩
    · exact absurd (hothers p hpp) hp

theorem Inv.sound (hs : s.Inv) : s.Sound where
  one := by
    rcases hs with ⟨-, h⟩ | ⟨p, -, h⟩ <;> exact h.length_outstanding
  stored p hp := by
    have hagrees := (hs.of_active (p := p) (by rw [hp]; nofun)).2
    rw [hp] at hagrees
    obtain ⟨r, -, hmap, -⟩ := hagrees
    simp [hmap]
  agree hquiet := by
    rcases hs.agrees_idle hquiet with ⟨hmapped, hmap, -⟩ | ⟨r, hmapped, hmap, -⟩ <;>
      simp [hmapped, hmap]

theorem Inv.goto {pc : MapPc} (hothers : ∀ q, q ≠ p → s.pc q = .idle) (h : Agrees w pc) :
    (s.goto p pc w).Inv :=
  .inr ⟨p, fun q hq => by simp [RaceState.goto, hq, hothers q hq], by
    simpa [RaceState.goto] using h⟩

/-- Every step of the only call in progress leads to a blob that agrees with it. -/
theorem inv_advance (hs : s.Inv) (hstep : s.advance p = .next s') : s'.Inv := by
  have hactive : s.pc p ≠ .idle := fun hp => by simp [advance, hp] at hstep
  obtain ⟨hothers, hagrees⟩ := hs.of_active hactive
  cases hpc : s.pc p with
  | idle => exact absurd hpc hactive
  | mapChecked => simp [advance, hpc] at hstep
  | mapAllocated =>
    simp only [advance, hpc] at hstep hagrees
    cases hstep
    exact .goto hothers hagrees
  | mapAccepted =>
    simp only [advance, hpc] at hstep hagrees
    cases hstep
    exact .goto hothers ⟨rfl, hagrees.2⟩
  | mapFlagged r =>
    simp only [advance, hpc] at hstep hagrees
    cases hstep
    exact .goto hothers (.inr ⟨r, hagrees.1, rfl, hagrees.2.2⟩)
  | unmapChecked =>
    simp only [advance, hpc] at hstep hagrees
    cases hstep
    obtain ⟨r, -, hmap, hout⟩ := hagrees
    exact .goto hothers ⟨r, rfl, hmap, hout⟩
  | unmapCleared =>
    simp only [hpc] at hagrees
    obtain ⟨r, hmapped, hmap, hout⟩ := hagrees
    simp only [advance, hpc, hmap] at hstep
    cases hstep
    exact .goto hothers ⟨hmapped, rfl, hout⟩
  | unmapTaken =>
    simp only [advance, hpc] at hstep hagrees
    cases hstep
    obtain ⟨hmapped, hmap, hout⟩ := hagrees
    exact .goto hothers ⟨hmapped, hmap, by simp [hout]⟩
  | unmapFreed =>
    simp only [advance, hpc] at hstep hagrees
    cases hstep
    exact .goto hothers (.inl hagrees)

theorem inv_step {a : RaceAct π} (hs : s.Inv) (halone : s.Alone a)
    (hstep : (raceMachine π).step s a = .next s') : s'.Inv := by
  cases a with
  | mapBlob p =>
    simp only [raceMachine, step] at hstep
    split at hstep
    · split at hstep
      · split_ifs at hstep with hmapped
        · cases hstep
          exact hs
        · cases hstep
          have hmapped : s.blob.mapped = false := by simpa using hmapped
          have hquiet := halone hmapped
          rcases hs.agrees_idle hquiet with h | ⟨r, h, -⟩
          · exact .goto (fun q _ => hquiet q) h
          · exact absurd (hmapped.symm.trans h) (by decide)
      · cases hstep
        exact hs
    · cases hstep
  | unmapBlob p =>
    simp only [raceMachine, step] at hstep
    split at hstep
    · split_ifs at hstep with hmapped
      · cases hstep
        have hquiet := halone hmapped
        rcases hs.agrees_idle hquiet with ⟨h, -⟩ | h
        · exact absurd (hmapped.symm.trans h) (by decide)
        · exact .goto (fun q _ => hquiet q) h
      · cases hstep
        exact hs
    · cases hstep
  | allocate p offset =>
    simp only [raceMachine, step] at hstep
    split at hstep
    · rename_i size hpc
      cases hstep
      obtain ⟨hothers, hagrees⟩ := hs.of_active (p := p) (by rw [hpc]; nofun)
      rw [hpc] at hagrees
      exact .goto hothers ⟨hagrees.1, hagrees.2.1, by simp [hagrees.2.2]⟩
    · cases hstep
  | fail p =>
    simp only [raceMachine, step] at hstep
    split at hstep
    · rename_i size hpc
      cases hstep
      obtain ⟨hothers, hagrees⟩ := hs.of_active (p := p) (by rw [hpc]; nofun)
      rw [hpc] at hagrees
      exact .goto hothers (.inl hagrees)
    · cases hstep
  | advance => exact inv_advance hs hstep

end RaceState

section Runs

variable {π : Type*} [DecidableEq π] {s : RaceState π} {size : ℕ}

/-- **When concurrent calls are safe.**  If every call that passes its check of the flag does so
while no other call is in progress, at most one range is outstanding, `unmap_blob` finds the range
it unwraps, and between calls the flag is set exactly if there is a range. -/
theorem race_sound_of_meets (size : ℕ) (as : List (RaceAct π))
    (h : (raceMachine π).Meets RaceState.Alone (.init π size) as) :
    (raceMachine π).Always RaceState.Sound (.init π size) as := by
  have hinit : (RaceState.init π size).Inv := .inl ⟨fun _ => rfl, .inl ⟨rfl, rfl, rfl⟩⟩
  exact Machine.always_of_meets (fun _ _ _ hs hok hstep => RaceState.inv_step hs hok hstep)
    (fun _ hs => hs.sound) hinit h

instance [Fintype π] (s : RaceState π) : Decidable s.Quiet :=
  inferInstanceAs (Decidable (∀ _, _))

instance [Fintype π] (s : RaceState π) (a : RaceAct π) : Decidable (s.Alone a) := by
  cases a <;> unfold RaceState.Alone <;> infer_instance

/-- One thread maps the blob while the other finds nothing to unmap; then the other unmaps it while
the first finds it mapped. -/
def mapThenUnmap : List (RaceAct Bool) :=
  [.mapBlob true, .unmapBlob false, .allocate true 0, .advance true, .advance true, .advance true,
    .unmapBlob false, .mapBlob true, .advance false, .advance false, .advance false, .advance false]

theorem race_sound_of_meets_unmapped :
    (raceMachine Bool).Meets RaceState.Alone (.init Bool 4096) mapThenUnmap ∧
      (raceMachine Bool).Always RaceState.Sound (.init Bool 4096) mapThenUnmap := by
  have hmeets : (raceMachine Bool).Meets RaceState.Alone (.init Bool 4096) mapThenUnmap := by
    decide
  exact ⟨hmeets, race_sound_of_meets _ _ hmeets⟩

/-- **Concurrent calls are not safe.**  Two threads find the flag clear, and two ranges are
allocated; one finds it set before the range is stored, and unwraps nothing; one clears it before
the blob is mapped again, and takes the new range. -/
theorem race_unsound :
    ((raceMachine Bool).run (.init Bool 4096) [.mapBlob false, .mapBlob true, .allocate false 0,
      .allocate true 1]).map (·.blob.outstanding) = some [⟨1, 1⟩, ⟨0, 1⟩] ∧
    (((raceMachine Bool).run (.init Bool 4096) [.mapBlob false, .allocate false 0, .advance false,
      .advance false, .unmapBlob true, .advance true]).map fun s =>
        ((raceMachine Bool).step s (.advance true) matches .panic _)) = some true ∧
    ((raceMachine Bool).run (.init Bool 4096) ([RaceAct.mapBlob false, RaceAct.allocate false 0] ++
      List.replicate 3 (RaceAct.advance false) ++
      [RaceAct.unmapBlob true, RaceAct.unmapBlob false] ++
      List.replicate 4 (RaceAct.advance false) ++
      [RaceAct.mapBlob false, RaceAct.allocate false 0, RaceAct.advance false,
        RaceAct.advance true, RaceAct.advance false, RaceAct.advance false] ++
      List.replicate 3 (RaceAct.advance true))).map
        (fun s => (decide s.Quiet, s.blob.mapped, s.blob.map)) = some (true, true, none) := by
  decide

/-! ### Calls that nobody interrupts -/

/-- A call of `map_blob` that nobody interrupts does what `BlobWorld.mapBlob` does. -/
theorem run_mapBlob_alone {p : π} (context offset mapInfo : ℕ) (hpc : s.pc p = .idle)
    (hres : s.blob.resource = .blob size true) (hmapped : s.blob.mapped = false)
    (mdl : Except NtStatus Unit) (userMapping : Except NtStatus (Option ℕ)) :
    (raceMachine π).run s [.mapBlob p, .allocate p offset, .advance p, .advance p, .advance p] =
      some ⟨(s.blob.mapBlob (some context) ⟨some offset, .accepted mapInfo, mdl, userMapping⟩).2,
        s.pc⟩ := by
  have hidle : Function.update s.pc p .idle = s.pc := by rw [← hpc, Function.update_eq_self]
  simp [Machine.run, raceMachine, RaceState.step, RaceState.advance, RaceState.goto, hpc, hres,
    hmapped, hidle, BlobWorld.mapBlob, BlobWorld.contextMapBlob, BlobWorld.resourceMapBlob,
    BlobWorld.store]

theorem run_mapBlob_fails {p : π} (context : Option ℕ) (ans : MapAnswers) (hpc : s.pc p = .idle)
    (hres : s.blob.resource = .blob size true) (hmapped : s.blob.mapped = false)
    (hfails : context = none ∨ ans.allocate = none) :
    (raceMachine π).run s [.mapBlob p, .fail p] = some ⟨(s.blob.mapBlob context ans).2, s.pc⟩ := by
  have hidle : Function.update s.pc p .idle = s.pc := by rw [← hpc, Function.update_eq_self]
  have hsame : (s.blob.mapBlob context ans).2 = s.blob := by
    rcases hfails with rfl | hfull
    · simp [BlobWorld.mapBlob, hres, hmapped, BlobWorld.contextMapBlob]
    · cases context <;>
        simp [BlobWorld.mapBlob, hres, hmapped, BlobWorld.contextMapBlob,
          BlobWorld.resourceMapBlob, hfull]
  simp [Machine.run, raceMachine, RaceState.step, RaceState.goto, hpc, hres, hmapped, hidle, hsame]

/-- A call of `unmap_blob` that nobody interrupts does what `BlobWorld.unmapBlob` does. -/
theorem run_unmapBlob_alone {p : π} {mappable : Bool} {r : Range} (hpc : s.pc p = .idle)
    (hres : s.blob.resource = .blob size mappable) (hmapped : s.blob.mapped = true)
    (hmap : s.blob.map = some r) :
    ∃ w, s.blob.unmapBlob = some (.ok (), w) ∧
      (raceMachine π).run s [.unmapBlob p, .advance p, .advance p, .advance p, .advance p] =
        some ⟨w, s.pc⟩ := by
  have hidle : Function.update s.pc p .idle = s.pc := by rw [← hpc, Function.update_eq_self]
  refine ⟨{ s.blob with
    mapped := false, map := none, outstanding := s.blob.outstanding.erase r, host := false },
    by simp [BlobWorld.unmapBlob, hmapped, hres, hmap], ?_⟩
  simp [Machine.run, raceMachine, RaceState.step, RaceState.advance, RaceState.goto, hpc, hmapped,
    hmap, hidle]

end Runs

end VirtioGpu
