import VirtioGpu.Fence.Notify

/-!
# Fences are reported in order

`dxgkrnl` requires the fences of an engine to be reported as completed in order, each once, and the
driver panics if it finds that it has missed one.  This file proves that `notify_fence` and
`notify_queued_fences` keep that promise under every interleaving of `Notify.machine`, although a
fence may be reported outside the lock and `notify_queued_fences` works with a copy of
`last_completed_fence` that may be stale by the time it holds the lock.

The invariant assigns to every fence a single `Home`: not yet notified, in the hands of one thread,
in `pending_fences`, or done.  It says further that

* a thread's copy of `last_completed_fence` is never ahead of it, and a fence about to be reported
  is the next one (`Pc.Valid`); so a stale copy can only make a thread stop too early, and
* if the next fence lies in `pending_fences`, some thread is going to look there with an up-to-date
  copy (`Pc.WillLook`); so stopping too early loses nothing.

* `Notify.reports_in_order` : the reports are an initial segment of the fences in order, no step
  panics, and when all calls have returned every fence has been reported and the set is empty.
-/

namespace VirtioGpu

namespace Notify

/-- Where a fence is on its way from `notify_fence` to a completed report. -/
inductive Home (τ : Type*) where
  /-- Not one of the fences of this run. -/
  | outside
  /-- `notify_fence` has not been called for it. -/
  | todo
  /-- In the hands of thread `t`, and reported or not. -/
  | held (t : τ) (reported : Bool)
  /-- In `pending_fences`. -/
  | pending
  /-- Reported, and `last_completed_fence` has reached it. -/
  | done

/-- The fence has been reported. -/
def Home.Reported {τ : Type*} : Home τ → Prop
  | .done | .held _ true => True
  | _ => False

/-- The fence a thread has in hand, and whether it has reported it. -/
@[simp]
def Pc.fence : Pc → Option (ℕ × Bool)
  | .nfLoad f | .nfNotify f | .nfLock f | .nfInsert f | .nqNotify f => some (f, false)
  | .nfStore f | .nqStore f => some (f, true)
  | _ => none

/-- The thread holds the lock. -/
@[simp]
def Pc.Locked : Pc → Prop
  | .nfInsert _ | .nfUnlock | .nqFirst _ | .nqPop _ | .nqNotify _ | .nqStore _ | .nqStamp _
  | .nqSubmitted _ | .nqSwap _ | .nqPreempted _ _ | .nqUnlock => True
  | _ => False

/-- What a thread's local variables say about the engine: a copy of `last_completed_fence` may be
stale but never ahead, and a fence about to be reported is the next one. -/
def Pc.Valid (engine : EngineState) : Pc → Prop
  | .nfNotify f | .nqNotify f => f = engine.lastCompletedFence + 1
  | .nqLock last | .nqFirst last | .nqStamp last => last ≤ engine.lastCompletedFence
  | .nqPop next =>
      next = engine.lastCompletedFence + 1 ∧ first engine.pendingFences = some next
  | _ => True

/-- The thread is going to look at `pending_fences` with an up-to-date `last_completed`. -/
@[simp]
def Pc.WillLook (lastCompleted : ℕ) : Pc → Prop
  | .nfStamp | .nfUnlock | .nqLoad | .nqPop _ => True
  | .nqLock last | .nqFirst last | .nqStamp last => last = lastCompleted
  | _ => False

variable {τ : Type*}

/-- Every fence is in exactly one place. -/
structure Placed (f₀ n : ℕ) (s : State τ) (home : ℕ → Home τ) : Prop where
  outside : ∀ f, home f = .outside ↔ ¬ (f₀ < f ∧ f ≤ f₀ + n)
  todo : ∀ f, f ∈ s.todo ↔ home f = .todo
  held : ∀ t f b, (s.pc t).fence = some (f, b) ↔ home f = .held t b
  pending : ∀ f, f ∈ s.engine.pendingFences ↔ home f = .pending
  done : ∀ f, home f = .done ↔ f₀ < f ∧ f ≤ s.engine.lastCompletedFence

/-- The invariant: every fence has one home, the first `k` fences and no others have been
reported, and if the next fence is pending then somebody is going to look. -/
structure Inv (e : Engine) (f₀ n : ℕ) (s : State τ) (home : ℕ → Home τ) (k : ℕ) : Prop where
  placed : Placed f₀ n s home
  le_completed : f₀ ≤ s.engine.lastCompletedFence
  reported : ∀ f, (home f).Reported ↔ f₀ < f ∧ f ≤ f₀ + k
  held_reported : ∀ t f, home f = .held t true → f = s.engine.lastCompletedFence + 1
  completed : s.completed = (List.range' (f₀ + 1) k).map (.dmaCompleted e)
  lock : ∀ t, (s.pc t).Locked → s.lock = some t
  valid : ∀ t, (s.pc t).Valid s.engine
  look : s.engine.lastCompletedFence + 1 ∈ s.engine.pendingFences →
    ∃ t, (s.pc t).WillLook s.engine.lastCompletedFence

variable {e : Engine} {f₀ n : ℕ} {s s' : State τ} {home : ℕ → Home τ} {k : ℕ}

theorem inv_init (engine : EngineState) (n : ℕ) (h : engine.pendingFences = ∅) :
    ∃ home, Inv e engine.lastCompletedFence n (init τ engine n) home 0 := by
  refine ⟨fun f => if engine.lastCompletedFence < f ∧ f ≤ engine.lastCompletedFence + n then .todo
    else .outside, ⟨?_, ?_, ?_, ?_, ?_⟩, ?_, ?_, ?_, ?_, ?_, ?_, ?_⟩
  all_goals grind [init, Pc.fence, Pc.Locked, Pc.Valid, State.completed, Home.Reported]

/-! ### Consequences -/

section

variable (hs : Inv e f₀ n s home k)
include hs

theorem Inv.pending_range {f : ℕ} (hf : f ∈ s.engine.pendingFences) :
    s.engine.lastCompletedFence < f ∧ f ≤ f₀ + n := by
  have hhome := (hs.placed.pending f).1 hf
  have hin := hs.placed.outside f
  have hdone := hs.placed.done f
  simp only [hhome, reduceCtorEq, false_iff, not_not] at hin hdone
  omega

theorem Inv.held_range {t : τ} {f : ℕ} {b : Bool} (hf : (s.pc t).fence = some (f, b)) :
    f₀ < f ∧ f ≤ f₀ + n := by
  have hhome := (hs.placed.held t f b).1 hf
  have hin := hs.placed.outside f
  simp only [hhome, reduceCtorEq, false_iff, not_not] at hin
  exact hin

theorem Inv.completed_le : s.engine.lastCompletedFence ≤ f₀ + n := by
  have hle := hs.le_completed
  rcases hle.eq_or_lt with heq | hlt
  · omega
  · have hdone := (hs.placed.done _).2 ⟨hlt, le_rfl⟩
    have hin := hs.placed.outside s.engine.lastCompletedFence
    simp only [hdone, reduceCtorEq, false_iff, not_not] at hin
    exact hin.2

/-- If the next fence has not been reported, the reports have come exactly as far as
`last_completed_fence`. -/
theorem Inv.reported_eq (h : ¬ (home (s.engine.lastCompletedFence + 1)).Reported) :
    f₀ + k = s.engine.lastCompletedFence := by
  have hle := hs.le_completed
  rw [hs.reported] at h
  rcases hle.eq_or_lt with heq | hlt
  · omega
  · have hdone := (hs.placed.done s.engine.lastCompletedFence).2 ⟨hlt, le_rfl⟩
    have hrep := (hs.reported s.engine.lastCompletedFence).1 (by rw [hdone]; trivial)
    omega

/-- The next fence in the set, compared with a copy of `last_completed_fence`: the copy is never
ahead of the set, and only an up-to-date copy matches. -/
theorem Inv.first_cases (hn : f₀ + n < 2 ^ 32) {last f : ℕ}
    (hlast : last ≤ s.engine.lastCompletedFence) (hf : first s.engine.pendingFences = some f) :
    nextFence last ≤ f ∧ (nextFence last = f → f = s.engine.lastCompletedFence + 1) ∧
      (nextFence last ≠ f → last = s.engine.lastCompletedFence →
        s.engine.lastCompletedFence + 1 ∉ s.engine.pendingFences) := by
  obtain ⟨hmem, hmin⟩ := first_eq_some hf
  have hrange := hs.pending_range hmem
  have hle := hs.completed_le
  rw [nextFence_of_lt (by omega)]
  refine ⟨by omega, by omega, ?_⟩
  rintro hne rfl hnext
  have := hmin _ hnext
  omega

end

/-! ### Steps that leave every fence where it is -/

section Steps

variable {t : τ} {p : Pc} {f : ℕ} {engine : EngineState} {h : Home τ}

/-- `s'` differs from `s` at most in the lock, the program counters, and fields that play no part
in the order of the reports. -/
structure SameFences (s s' : State τ) : Prop where
  todo : s'.todo = s.todo
  last : s'.engine.lastCompletedFence = s.engine.lastCompletedFence
  pending : s'.engine.pendingFences = s.engine.pendingFences
  completed : s'.completed = s.completed

theorem SameFences.valid (h : SameFences s s') : p.Valid s'.engine ↔ p.Valid s.engine := by
  cases p <;> simp only [Pc.Valid, h.last, h.pending]

/-- Steps of the rest of the driver. -/
theorem Inv.congr (hs : Inv e f₀ n s home k) (hsame : SameFences s s') (hpc : s'.pc = s.pc)
    (hlock : s'.lock = s.lock) : Inv e f₀ n s' home k := by
  refine ⟨⟨hs.placed.outside, ?_, ?_, ?_, ?_⟩, ?_, hs.reported, ?_, ?_, ?_, fun u => ?_, ?_⟩
  · rw [hsame.todo]
    exact hs.placed.todo
  · rw [hpc]
    exact hs.placed.held
  · rw [hsame.pending]
    exact hs.placed.pending
  · rw [hsame.last]
    exact hs.placed.done
  · rw [hsame.last]
    exact hs.le_completed
  · rw [hsame.last]
    exact hs.held_reported
  · rw [hsame.completed]
    exact hs.completed
  · rw [hpc, hlock]
    exact hs.lock
  · rw [hpc, hsame.valid]
    exact hs.valid u
  · rw [hsame.last, hsame.pending, hpc]
    exact hs.look

/-- What a thread knows does not depend on the set, unless it holds the lock. -/
theorem valid_of_not_locked {engine engine' : EngineState} (h : p.Valid engine) (hp : ¬ p.Locked)
    (hlast : engine'.lastCompletedFence = engine.lastCompletedFence) : p.Valid engine' := by
  cases p with
  | nqPop => exact absurd trivial hp
  | nfNotify g | nqNotify g | nqLock g | nqFirst g | nqStamp g =>
    simpa only [Pc.Valid, hlast] using h
  | _ => trivial

/-- What a thread knows survives the store of the next fence `f`, unless it was about to report
`f` itself. -/
theorem valid_advance (hf : f = engine.lastCompletedFence + 1) (h : p.Valid engine)
    (hhand : ∀ b, p.fence ≠ some (f, b)) (hset : f ∉ engine.pendingFences) :
    p.Valid { engine with lastCompletedFence := f } := by
  cases p with
  | nfNotify g | nqNotify g =>
    have hg : g = f := h.trans hf.symm
    exact absurd (by rw [hg]; rfl) (hhand false)
  | nqLock last | nqFirst last | nqStamp last =>
    have hle : last ≤ engine.lastCompletedFence := h
    simp only [Pc.Valid]
    omega
  | nqPop g =>
    have hg : g = f := h.1.trans hf.symm
    exact absurd (hg ▸ (first_eq_some h.2).1) hset
  | _ => trivial

theorem Inv.not_locked (hs : Inv e f₀ n s home k) (ht : (s.pc t).Locked) {u : τ} (hu : u ≠ t) :
    ¬ (s.pc u).Locked := by
  intro hlocked
  have := (hs.lock u hlocked).symm.trans (hs.lock t ht)
  exact hu (Option.some.inj this)

theorem reported_update (hh : h.Reported ↔ (home f).Reported) (g : ℕ) :
    (Function.update home f h g).Reported ↔ (home g).Reported := by
  rw [Function.update_apply]
  split_ifs with hg
  · rw [hh, hg]
  · rfl

variable [DecidableEq τ]

section

variable (hlock : ∀ u, (s.pc u).Locked → s.lock = some u)
include hlock

theorem lock_goto (hp : p.Locked → (s.pc t).Locked) (u : τ)
    (hu : (Function.update s.pc t p u).Locked) :
    s.lock = some u := by
  by_cases hut : u = t
  · subst hut
    rw [Function.update_self] at hu
    exact hlock u (hp hu)
  · rw [Function.update_of_ne hut] at hu
    exact hlock u hu

theorem lock_acquire (hfree : s.lock = none) (u : τ) (hu : (Function.update s.pc t p u).Locked) :
    some t = some u := by
  by_cases hut : u = t
  · rw [hut]
  · rw [Function.update_of_ne hut] at hu
    simp [hfree] at hlock
    exact absurd hu (hlock u)

theorem not_locked_of_release (ht : (s.pc t).Locked) (hp : ¬ p.Locked) (u : τ) :
    ¬ (Function.update s.pc t p u).Locked := by
  intro hu
  by_cases hut : u = t
  · subst hut
    rw [Function.update_self] at hu
    exact hp hu
  · rw [Function.update_of_ne hut] at hu
    have := (hlock u hu).symm.trans (hlock t ht)
    exact hut (Option.some.inj this)

end

theorem look_goto {last : ℕ} {pc : τ → Pc}
    (hlook : last + 1 ∈ engine.pendingFences → ∃ u, (pc u).WillLook last)
    (ht : ¬ (pc t).WillLook last) (hmem : last + 1 ∈ engine.pendingFences) :
    ∃ u, (Function.update pc t p u).WillLook last := by
  obtain ⟨u, hu⟩ := hlook hmem
  have hut : u ≠ t := by
    rintro rfl
    exact ht hu
  exact ⟨u, by rwa [Function.update_of_ne hut]⟩

theorem valid_goto {pc : τ → Pc} (hother : ∀ u, u ≠ t → (pc u).Valid engine) (hp : p.Valid engine)
    (u : τ) :
    (Function.update pc t p u).Valid engine := by
  by_cases hut : u = t
  · subst hut
    rwa [Function.update_self]
  · rw [Function.update_of_ne hut]
    exact hother u hut

theorem Inv.move (hs : Inv e f₀ n s home k) (hsame : SameFences s s')
    (hpc : s'.pc = Function.update s.pc t p) (hfence : p.fence = (s.pc t).fence)
    (hlock : ∀ u, (Function.update s.pc t p u).Locked → s'.lock = some u)
    (hvalid : p.Valid s.engine)
    (hlook : s.engine.lastCompletedFence + 1 ∈ s.engine.pendingFences →
      (s.pc t).WillLook s.engine.lastCompletedFence → p.WillLook s.engine.lastCompletedFence) :
    Inv e f₀ n s' home k where
  placed := by
    refine ⟨hs.placed.outside, ?_, ?_, ?_, ?_⟩
    · rw [hsame.todo]
      exact hs.placed.todo
    · intro u f b
      rw [hpc, ← hs.placed.held]
      by_cases hut : u = t
      · subst hut
        rw [Function.update_self, hfence]
      · rw [Function.update_of_ne hut]
    · rw [hsame.pending]
      exact hs.placed.pending
    · rw [hsame.last]
      exact hs.placed.done
  le_completed := by
    rw [hsame.last]
    exact hs.le_completed
  reported := hs.reported
  held_reported := by
    rw [hsame.last]
    exact hs.held_reported
  completed := by rw [hsame.completed, hs.completed]
  lock := by
    rw [hpc]
    exact hlock
  valid := by
    intro u
    rw [hpc, hsame.valid]
    exact valid_goto (fun u _ => hs.valid u) hvalid u
  look := by
    rw [hpc, hsame.last, hsame.pending]
    intro hmem
    obtain ⟨u, hu⟩ := hs.look hmem
    by_cases hut : u = t
    · subst hut
      exact ⟨u, by rw [Function.update_self]; exact hlook hmem hu⟩
    · exact ⟨u, by rwa [Function.update_of_ne hut]⟩

/-! ### Steps that move a fence -/

omit [DecidableEq τ] in
/-- Only `f` moves, to `h`. -/
theorem mem_update_iff {P P' : ℕ → Prop} {h place : Home τ} (hold : ∀ g, P g ↔ home g = place)
    (hnew : (∀ g, g ≠ f → (P' g ↔ P g)) ∧ (P' f ↔ h = place)) (g : ℕ) :
    P' g ↔ Function.update home f h g = place := by
  by_cases hg : g = f
  · subst hg
    rw [Function.update_self]
    exact hnew.2
  · rw [Function.update_of_ne hg, hnew.1 g hg]
    exact hold g

/-- Fence `f` goes to `h`, in the hands of thread `t` before or after the step or both. -/
theorem Placed.relocate (hs : Placed f₀ n s home)
    (hpc : s'.pc = Function.update s.pc t p) (hin : home f ≠ .outside) (hout : h ≠ .outside)
    (htodo : (∀ g, g ≠ f → (g ∈ s'.todo ↔ g ∈ s.todo)) ∧ (f ∈ s'.todo ↔ h = .todo))
    (hpending : (∀ g, g ≠ f → (g ∈ s'.engine.pendingFences ↔ g ∈ s.engine.pendingFences)) ∧
      (f ∈ s'.engine.pendingFences ↔ h = .pending))
    (hdone : (∀ g, g ≠ f → (f₀ < g ∧ g ≤ s'.engine.lastCompletedFence ↔
        f₀ < g ∧ g ≤ s.engine.lastCompletedFence)) ∧
      (f₀ < f ∧ f ≤ s'.engine.lastCompletedFence ↔ h = .done))
    (hown : ∀ u b, home f = .held u b ∨ h = .held u b → u = t)
    (hbefore : ∀ g b, (s.pc t).fence = some (g, b) → g = f)
    (hafter : ∀ g b, p.fence = some (g, b) ↔ g = f ∧ h = .held t b) :
    Placed f₀ n s' (Function.update home f h) where
  outside g := by
    by_cases hg : g = f
    · subst hg
      rw [Function.update_self, ← hs.outside]
      exact ⟨fun hh => absurd hh hout, fun hh => absurd hh hin⟩
    · rw [Function.update_of_ne hg, hs.outside]
  todo := mem_update_iff hs.todo htodo
  held u g b := by
    rw [hpc, Function.update_apply, Function.update_apply]
    split_ifs with hu hg hg
    · subst hu hg
      rw [hafter, and_iff_right rfl]
    · subst hu
      rw [hafter, ← hs.held]
      exact ⟨fun hh => absurd hh.1 hg, fun hh => absurd (hbefore g b hh) hg⟩
    · subst hg
      rw [hs.held]
      exact ⟨fun hh => absurd (hown u b (.inl hh)) hu, fun hh => absurd (hown u b (.inr hh)) hu⟩
    · exact hs.held u g b
  pending := mem_update_iff hs.pending hpending
  done g := (mem_update_iff (fun g => (hs.done g).symm) hdone g).symm

section

variable (hs : Inv e f₀ n s home k)
include hs

/-- A fence moves, but it is not reported or completed. -/
theorem Inv.relocate (hplaced : Placed f₀ n s' (Function.update home f h))
    (hlast : s'.engine.lastCompletedFence = s.engine.lastCompletedFence)
    (hcompleted : s'.completed = s.completed) (hpc : s'.pc = Function.update s.pc t p)
    (hlock : s'.lock = s.lock) (hlocked : p.Locked → (s.pc t).Locked)
    (hhome : ¬ (home f).Reported) (hh : ¬ h.Reported)
    (hvalid : ∀ u, u ≠ t → (s.pc u).Valid s'.engine) (hp : p.Valid s'.engine)
    (hlook : s.engine.lastCompletedFence + 1 ∈ s'.engine.pendingFences →
      ∃ u, (Function.update s.pc t p u).WillLook s.engine.lastCompletedFence) :
    Inv e f₀ n s' (Function.update home f h) k where
  placed := hplaced
  le_completed := hlast ▸ hs.le_completed
  reported g := by rw [reported_update (iff_of_false hh hhome), hs.reported]
  held_reported u g := by
    rw [Function.update_apply, hlast]
    split_ifs with hg
    · rintro rfl
      exact absurd trivial hh
    · exact hs.held_reported u g
  completed := hcompleted.trans hs.completed
  lock := by
    rw [hpc, hlock]
    exact lock_goto hs.lock hlocked
  valid := by
    rw [hpc]
    exact valid_goto hvalid hp
  look := by
    rw [hpc, hlast]
    exact hlook

theorem Inv.call (hidle : s.pc t = .idle) (hf : f ∈ s.todo) :
    Inv e f₀ n ({ s with todo := s.todo.erase f }.goto t (.nfLoad f))
      (Function.update home f (.held t false)) k := by
  have hhome : home f = .todo := (hs.placed.todo f).1 hf
  refine hs.relocate (hs.placed.relocate rfl ?_ ?_ ⟨?_, ?_⟩ ⟨fun _ _ => Iff.rfl, ?_⟩
    ⟨fun _ _ => Iff.rfl, ?_⟩ ?_ ?_ ?_) rfl rfl rfl rfl ?_ ?_ id (fun u _ => hs.valid u) trivial
    (look_goto hs.look ?_)
  · simp [hhome]
  · simp
  · intro g hg
    simp [State.goto, hg]
  · simp [State.goto]
  · simp [State.goto, hs.placed.pending, hhome]
  · simp [State.goto, ← hs.placed.done, hhome]
  · rintro u b (hh | hh)
    · simp [hhome] at hh
    · cases hh
      rfl
  · simp [hidle]
  · simp [eq_comm]
  · simp
  · simp [hhome, Home.Reported]
  · simp [hidle]

theorem Inv.report (hfence : (s.pc t).fence = some (f, false))
    (hf : f = s.engine.lastCompletedFence + 1) (hp : p.fence = some (f, true))
    (hvalid : p.Valid s.engine) (hlock : p.Locked → (s.pc t).Locked)
    (hlook : ¬ (s.pc t).WillLook s.engine.lastCompletedFence) :
    Inv e f₀ n ((s.report (.dmaCompleted e f)).goto t p)
      (Function.update home f (.held t true)) (k + 1) := by
  have hhome : home f = .held t false := (hs.placed.held t f false).1 hfence
  have hk : f₀ + k = s.engine.lastCompletedFence :=
    hs.reported_eq (by simp [← hf, hhome, Home.Reported])
  refine ⟨?_, hs.le_completed, ?_, ?_, ?_, ?_, ?_, ?_⟩
  · refine hs.placed.relocate rfl ?_ ?_ ⟨fun _ _ => Iff.rfl, ?_⟩ ⟨fun _ _ => Iff.rfl, ?_⟩
      ⟨fun _ _ => Iff.rfl, ?_⟩ ?_ ?_ ?_
    · simp [hhome]
    · simp
    · simp [State.goto, State.report, hs.placed.todo, hhome]
    · simp [State.goto, State.report, hs.placed.pending, hhome]
    · simp [State.goto, State.report, ← hs.placed.done, hhome]
    · rintro u b (hh | hh)
      · rw [hhome] at hh
        cases hh
        rfl
      · cases hh
        rfl
    · rw [hfence]
      simp [eq_comm]
    · rw [hp]
      simp [eq_comm]
  · intro g
    rw [Function.update_apply]
    split_ifs with hg
    · simp only [Home.Reported, true_iff]
      omega
    · rw [hs.reported]
      omega
  · intro u g
    rw [Function.update_apply]
    split_ifs with hg
    · intro _
      exact hg.trans hf
    · exact hs.held_reported u g
  · have hfirst : f = f₀ + 1 + k := by omega
    simp only [State.completed, State.goto, State.report, List.filter_append] at hs ⊢
    rw [List.range'_concat, List.map_append, ← hs.completed, hfirst]
    simp [State.completed, Interrupt.isDmaCompleted]
  · exact lock_goto hs.lock hlock
  · exact valid_goto (fun u _ => hs.valid u) hvalid
  · exact look_goto hs.look hlook

theorem Inv.store (hfence : (s.pc t).fence = some (f, true)) (hp : p.fence = none)
    (hvalid : p.Valid (s.storeCompleted f).engine) (hlock : p.Locked → (s.pc t).Locked)
    (hlook : p.WillLook f) :
    Inv e f₀ n ((s.storeCompleted f).goto t p) (Function.update home f .done) k := by
  have hhome : home f = .held t true := (hs.placed.held t f true).1 hfence
  have hf : f = s.engine.lastCompletedFence + 1 := hs.held_reported t f hhome
  have hle := hs.le_completed
  refine ⟨?_, ?_, ?_, ?_, hs.completed, ?_, ?_, ?_⟩
  · refine hs.placed.relocate rfl ?_ ?_ ⟨fun _ _ => Iff.rfl, ?_⟩ ⟨fun _ _ => Iff.rfl, ?_⟩
      ⟨fun g hg => ?_, ?_⟩ ?_ ?_ ?_
    · simp [hhome]
    · simp
    · simp [State.goto, State.storeCompleted, hs.placed.todo, hhome]
    · simp [State.goto, State.storeCompleted, hs.placed.pending, hhome]
    · simp only [State.goto, State.storeCompleted]
      omega
    · simp only [State.goto, State.storeCompleted, iff_true]
      omega
    · rintro u b (hh | hh)
      · rw [hhome] at hh
        cases hh
        rfl
      · cases hh
    · rw [hfence]
      simp [eq_comm]
    · rw [hp]
      simp
  · simp only [State.goto, State.storeCompleted]
    omega
  · intro g
    rw [reported_update (by simp [hhome, Home.Reported]), hs.reported]
  · intro u g
    rw [Function.update_apply]
    split_ifs with hg
    · simp
    · intro hh
      exact absurd ((hs.held_reported u g hh).trans hf.symm) hg
  · exact lock_goto hs.lock hlock
  · refine valid_goto (fun u hu => valid_advance hf (hs.valid u) (fun b hub => ?_) ?_) hvalid
    · -- Nobody else has `f` in hand: `t` has.
      have hhome' : home f = .held u b := (hs.placed.held u f b).1 hub
      rw [hhome] at hhome'
      cases hhome'
      exact hu rfl
    · simp [hs.placed.pending, hhome]
  · intro _
    refine ⟨t, ?_⟩
    simp only [State.goto, State.storeCompleted, Function.update_self]
    exact hlook

theorem Inv.insert (hpc : s.pc t = .nfInsert f) :
    Inv e f₀ n ((s.setPending (insert f s.engine.pendingFences)).goto t .nfUnlock)
      (Function.update home f .pending) k := by
  have hhome : home f = .held t false := (hs.placed.held t f false).1 (by rw [hpc]; rfl)
  have hlocked : (s.pc t).Locked := by simp [hpc]
  refine hs.relocate (hs.placed.relocate rfl ?_ ?_ ⟨fun _ _ => Iff.rfl, ?_⟩ ⟨fun g hg => ?_, ?_⟩
    ⟨fun _ _ => Iff.rfl, ?_⟩ ?_ ?_ ?_) rfl rfl rfl rfl (fun _ => hlocked) ?_ id (fun u hu =>
      valid_of_not_locked (hs.valid u) (hs.not_locked hlocked hu) rfl) trivial fun _ => ⟨t, ?_⟩
  · simp [hhome]
  · simp
  · simp [State.goto, State.setPending, hs.placed.todo, hhome]
  · simp [State.goto, State.setPending, hg]
  · simp [State.goto, State.setPending]
  · simp [State.goto, State.setPending, ← hs.placed.done, hhome]
  · rintro u b (hh | hh)
    · rw [hhome] at hh
      cases hh
      rfl
    · cases hh
  · simp [hpc, eq_comm]
  · simp
  · simp [hhome, Home.Reported]
  · simp

theorem Inv.pop (hpc : s.pc t = .nqPop f) :
    Inv e f₀ n ((s.setPending (popFirst s.engine.pendingFences)).goto t (.nqNotify f))
      (Function.update home f (.held t false)) k := by
  have hvalid : (Pc.nqPop f).Valid s.engine := hpc ▸ hs.valid t
  obtain ⟨hf, hfirst⟩ := hvalid
  have hhome : home f = .pending := (hs.placed.pending f).1 (first_eq_some hfirst).1
  have hlocked : (s.pc t).Locked := by simp [hpc]
  rw [popFirst_of_first hfirst]
  refine hs.relocate (hs.placed.relocate rfl ?_ ?_ ⟨fun _ _ => Iff.rfl, ?_⟩ ⟨fun g hg => ?_, ?_⟩
    ⟨fun _ _ => Iff.rfl, ?_⟩ ?_ ?_ ?_) rfl rfl rfl rfl (fun _ => hlocked) ?_ id (fun u hu =>
      valid_of_not_locked (hs.valid u) (hs.not_locked hlocked hu) rfl) hf fun hmem => ?_
  · simp [hhome]
  · simp
  · simp [State.goto, State.setPending, hs.placed.todo, hhome]
  · simp [State.goto, State.setPending, hg]
  · simp [State.goto, State.setPending]
  · simp [State.goto, State.setPending, ← hs.placed.done, hhome]
  · rintro u b (hh | hh)
    · simp [hhome] at hh
    · cases hh
      rfl
  · simp [hpc]
  · simp [eq_comm]
  · simp [hhome, Home.Reported]
  · simp [State.goto, State.setPending, ← hf] at hmem

/-! ### Every step -/

theorem Inv.goto (hfence : p.fence = (s.pc t).fence) (hlock : p.Locked → (s.pc t).Locked)
    (hvalid : p.Valid s.engine)
    (hlook : s.engine.lastCompletedFence + 1 ∈ s.engine.pendingFences →
      (s.pc t).WillLook s.engine.lastCompletedFence → p.WillLook s.engine.lastCompletedFence) :
    Inv e f₀ n (s.goto t p) home k :=
  hs.move ⟨rfl, rfl, rfl, rfl⟩ rfl hfence (lock_goto hs.lock hlock) hvalid hlook

end

theorem inv_stepThread {now : ℕ} (hn : f₀ + n < 2 ^ 32) (hs : Inv e f₀ n s home k)
    (hstep : stepThread e s t now = .next s') : ∃ home' k', Inv e f₀ n s' home' k' := by
  have hvalid := hs.valid t
  unfold stepThread at hstep
  cases hpc : s.pc t with
  | idle => simp [hpc] at hstep
  | nfLoad f =>
    simp only [hpc] at hstep
    split_ifs at hstep with hnext
    · cases hstep
      have hrange := hs.held_range (t := t) (b := false) (by rw [hpc]; rfl)
      have hle := hs.completed_le
      have hne : s.engine.lastCompletedFence ≠ 2 ^ 32 - 1 := by
        intro h
        rw [h] at hnext
        have : f = 0 := hnext.symm
        omega
      rw [nextFence_of_lt (by omega)] at hnext
      refine ⟨_, _, hs.goto ?_ ?_ hnext.symm ?_⟩ <;>
        simp [hpc]
    · cases hstep
      refine ⟨_, _, hs.goto ?_ ?_ trivial ?_⟩ <;> simp [hpc]
  | nfNotify =>
    simp only [hpc] at hstep hvalid
    cases hstep
    refine ⟨_, _, hs.report ?_ hvalid rfl trivial ?_ ?_⟩ <;>
      simp [hpc]
  | nfStore =>
    simp only [hpc] at hstep
    cases hstep
    refine ⟨_, _, hs.store ?_ rfl trivial ?_ trivial⟩ <;> simp [hpc]
  | nfStamp =>
    simp only [hpc] at hstep
    cases hstep
    refine ⟨_, _, hs.move ⟨rfl, rfl, rfl, rfl⟩ rfl ?_ (lock_goto hs.lock ?_) trivial ?_⟩ <;>
      simp [hpc]
  | nfLock =>
    simp only [hpc, State.acquire] at hstep
    split_ifs at hstep with hfree
    cases hstep
    refine ⟨_, _, hs.move ⟨rfl, rfl, rfl, rfl⟩ rfl ?_ (lock_acquire hs.lock hfree) trivial ?_⟩ <;>
      simp [hpc]
  | nfInsert =>
    simp only [hpc] at hstep
    cases hstep
    exact ⟨_, _, hs.insert hpc⟩
  | nfUnlock =>
    simp only [hpc] at hstep
    cases hstep
    have hlocked : (s.pc t).Locked := by simp [hpc]
    have hfree := not_locked_of_release (p := .nqLoad) hs.lock hlocked id
    refine ⟨_, _, hs.move ⟨rfl, rfl, rfl, rfl⟩ rfl ?_ (fun u hu => absurd hu (hfree u)) trivial ?_⟩
      <;> simp [hpc]
  | nqLoad =>
    simp only [hpc] at hstep
    cases hstep
    refine ⟨_, _, hs.goto ?_ ?_ le_rfl ?_⟩ <;> simp [hpc]
  | nqLock =>
    simp only [hpc, State.acquire] at hstep hvalid
    split_ifs at hstep with hfree
    cases hstep
    refine ⟨_, _, hs.move ⟨rfl, rfl, rfl, rfl⟩ rfl ?_ (lock_acquire hs.lock hfree) hvalid ?_⟩ <;>
      simp [hpc]
  | nqFirst last =>
    simp only [hpc] at hstep hvalid
    split at hstep
    · rename_i hempty
      cases hstep
      refine ⟨_, _, hs.goto ?_ ?_ trivial ?_⟩
      · simp [hpc]
      · simp [hpc]
      · simp [first_eq_none hempty]
    · rename_i f hf
      obtain ⟨-, hnext, hwait⟩ := hs.first_cases hn hvalid hf
      split_ifs at hstep with heq
      · cases hstep
        refine ⟨_, _, hs.goto ?_ ?_ ⟨hnext heq, hf⟩ ?_⟩ <;>
          simp [hpc]
      · cases hstep
        refine ⟨_, _, hs.goto ?_ ?_ trivial ?_⟩
        · simp [hpc]
        · simp [hpc]
        · intro hmem hlast
          rw [hpc] at hlast
          exact absurd hmem (hwait heq hlast)
  | nqPop =>
    simp only [hpc] at hstep
    cases hstep
    exact ⟨_, _, hs.pop hpc⟩
  | nqNotify =>
    simp only [hpc] at hstep hvalid
    cases hstep
    refine ⟨_, _, hs.report ?_ hvalid rfl trivial ?_ ?_⟩ <;>
      simp [hpc]
  | nqStore =>
    simp only [hpc] at hstep
    cases hstep
    refine ⟨_, _, hs.store ?_ rfl le_rfl ?_ rfl⟩ <;> simp [hpc]
  | nqStamp =>
    simp only [hpc] at hstep hvalid
    cases hstep
    refine ⟨_, _, hs.move ⟨rfl, rfl, rfl, rfl⟩ rfl ?_ (lock_goto hs.lock ?_) hvalid ?_⟩ <;>
      simp [hpc]
  | nqSubmitted =>
    simp only [hpc] at hstep
    split_ifs at hstep
    all_goals
      cases hstep
      refine ⟨_, _, hs.goto ?_ ?_ trivial ?_⟩ <;> simp [hpc]
  | nqSwap =>
    simp only [hpc] at hstep
    split_ifs at hstep
    all_goals
      cases hstep
      refine ⟨_, _, hs.move ⟨rfl, rfl, rfl, rfl⟩ rfl ?_ (lock_goto hs.lock ?_) trivial ?_⟩ <;>
        simp [hpc]
  | nqPreempted =>
    simp only [hpc] at hstep
    cases hstep
    refine ⟨_, _, hs.move ⟨rfl, rfl, rfl, ?_⟩ rfl ?_ (lock_goto hs.lock ?_) trivial ?_⟩
    · simp [State.completed, State.goto, State.report, Interrupt.isDmaCompleted]
    all_goals simp [hpc]
  | nqUnlock =>
    simp only [hpc] at hstep
    cases hstep
    have hlocked : (s.pc t).Locked := by simp [hpc]
    have hfree := not_locked_of_release (p := .idle) hs.lock hlocked id
    refine ⟨_, _, hs.move ⟨rfl, rfl, rfl, rfl⟩ rfl ?_ (fun u hu => absurd hu (hfree u)) trivial ?_⟩
      <;> simp [hpc]

theorem inv_step {a : Act τ} (hn : f₀ + n < 2 ^ 32) (hs : Inv e f₀ n s home k)
    (hstep : (machine τ e).step s a = .next s') : ∃ home' k', Inv e f₀ n s' home' k' := by
  cases a with
  | notifyFence =>
    simp only [machine] at hstep
    split_ifs at hstep with hcall
    cases hstep
    exact ⟨_, _, hs.call hcall.1 hcall.2⟩
  | notifyQueuedFences =>
    simp only [machine] at hstep
    split_ifs at hstep with hidle
    cases hstep
    refine ⟨_, _, hs.goto ?_ ?_ trivial ?_⟩ <;> simp [hidle]
  | step => exact inv_stepThread hn hs hstep
  | submit fence | submitStamp now | submitPreemption fence =>
    cases hstep
    exact ⟨home, k, hs.congr ⟨rfl, rfl, rfl, rfl⟩ rfl rfl⟩

theorem stepThread_panic {now : ℕ} {q : Panic} (h : stepThread e s t now = .panic q) :
    ∃ last f, s.pc t = .nqFirst last ∧ first s.engine.pendingFences = some f ∧
      f < nextFence last := by
  unfold stepThread at h
  cases hpc : s.pc t with
  | nqFirst last =>
    simp only [hpc] at h
    split at h
    · cases h
    · rename_i f hf
      split_ifs at h with _ hlt
      exact ⟨last, f, rfl, hf, hlt⟩
  | nfLoad f | nqSubmitted last | nqSwap last =>
    simp only [hpc] at h
    split_ifs at h
  | nfLock f | nqLock last =>
    simp only [hpc, State.acquire] at h
    split_ifs at h
  | _ => simp only [hpc, reduceCtorEq] at h

theorem not_panic {a : Act τ} {q : Panic} (hn : f₀ + n < 2 ^ 32)
    (hs : Inv e f₀ n s home k) : (machine τ e).step s a ≠ .panic q := by
  intro hstep
  cases a with
  | step t now =>
    obtain ⟨last, f, hpc, hf, hlt⟩ := stepThread_panic hstep
    have hvalid := hs.valid t
    rw [hpc] at hvalid
    have := (hs.first_cases hn hvalid hf).1
    omega
  | notifyFence t f | notifyQueuedFences t =>
    simp only [machine] at hstep
    split_ifs at hstep
  | submit fence | submitStamp now | submitPreemption fence => cases hstep

end Steps

/-! ### Whole runs -/

theorem Inv.completed_eq (hs : Inv e f₀ n s home k) (htodo : s.todo = ∅)
    (hidle : ∀ t, s.pc t = .idle) : s.engine.lastCompletedFence = f₀ + n := by
  have hle := hs.le_completed
  rcases hs.completed_le.eq_or_lt with heq | hlt
  · exact heq
  -- Otherwise the next fence can only be pending, but nobody is going to look.
  have hin := hs.placed.outside (s.engine.lastCompletedFence + 1)
  have hdone := hs.placed.done (s.engine.lastCompletedFence + 1)
  have hpend := hs.placed.pending (s.engine.lastCompletedFence + 1)
  have hnot := hs.placed.todo (s.engine.lastCompletedFence + 1)
  cases hhome : home (s.engine.lastCompletedFence + 1) with
  | outside =>
    have := hin.1 hhome
    omega
  | todo =>
    have := hnot.2 hhome
    simp [htodo] at this
  | held =>
    rw [← hs.placed.held, hidle] at hhome
    cases hhome
  | pending =>
    obtain ⟨t, ht⟩ := hs.look (hpend.2 hhome)
    rw [hidle] at ht
    cases ht
  | done =>
    have := hdone.1 hhome
    omega

theorem Inv.finished (hs : Inv e f₀ n s home k) (htodo : s.todo = ∅)
    (hidle : ∀ t, s.pc t = .idle) : k = n ∧ s.engine.pendingFences = ∅ := by
  have hall := hs.completed_eq htodo hidle
  have hk : f₀ + k = s.engine.lastCompletedFence := by
    refine hs.reported_eq fun hrep => ?_
    cases hhome : home (s.engine.lastCompletedFence + 1) with
    | held =>
      rw [← hs.placed.held, hidle] at hhome
      cases hhome
    | done =>
      have := (hs.placed.done _).1 hhome
      omega
    | outside | todo | pending =>
      rw [hhome] at hrep
      cases hrep
  refine ⟨by omega, Finset.eq_empty_of_forall_notMem fun f hf => ?_⟩
  have := hs.pending_range hf
  omega

variable [DecidableEq τ]

theorem inv_run {engine : EngineState} {n : ℕ} (hpend : engine.pendingFences = ∅)
    (hn : engine.lastCompletedFence + n < 2 ^ 32 - 1) {as : List (Act τ)} {s : State τ}
    (hrun : (machine τ e).run (init τ engine n) as = some s) :
    ∃ home k, Inv e engine.lastCompletedFence n s home k := by
  refine Machine.run_invariant
    (I := fun s => ∃ home k, Inv e engine.lastCompletedFence n s home k) ?_ ?_ hrun
  · rintro s a s' ⟨home, k, hs⟩ hstep
    exact inv_step (by omega) hs hstep
  · exact (inv_init engine n hpend).imp fun _ hs => ⟨0, hs⟩

/-- **Fences are reported in order, each once, and none is missed.**  In every interleaving, the
`DmaCompleted` reports are those of an initial segment of the `n` fences, in order; no next step
panics; and once all calls have returned, all have been reported and `pending_fences` is empty. -/
theorem reports_in_order (e : Engine) (engine : EngineState) (n : ℕ)
    (hpend : engine.pendingFences = ∅) (hn : engine.lastCompletedFence + n < 2 ^ 32 - 1)
    (as : List (Act τ)) (s : State τ)
    (hrun : (machine τ e).run (init τ engine n) as = some s) :
    (∃ k ≤ n, s.completed =
      (List.range' (engine.lastCompletedFence + 1) k).map (Interrupt.dmaCompleted e)) ∧
    (∀ a q, (machine τ e).step s a ≠ .panic q) ∧
    (s.todo = ∅ → (∀ t, s.pc t = .idle) →
      s.completed =
        (List.range' (engine.lastCompletedFence + 1) n).map (Interrupt.dmaCompleted e) ∧
      s.engine.pendingFences = ∅) := by
  obtain ⟨home, k, hs⟩ := inv_run hpend hn hrun
  refine ⟨⟨k, ?_, hs.completed⟩, fun a q => not_panic (by omega) hs, fun htodo hidle => ?_⟩
  · rcases Nat.eq_zero_or_pos k with rfl | hk
    · exact Nat.zero_le n
    · have hrep : (home (engine.lastCompletedFence + k)).Reported := (hs.reported _).2 (by omega)
      by_contra hlt
      have hout := (hs.placed.outside (engine.lastCompletedFence + k)).2 (by omega)
      rw [hout] at hrep
      cases hrep
  · obtain ⟨rfl, hempty⟩ := hs.finished htodo hidle
    exact ⟨hs.completed, hempty⟩

/-- Two threads, the later fence first: the thread that completes fence `1` finds `2` in the set. -/
def swapped : List (Act Bool) :=
  [Act.notifyFence false 2] ++ List.replicate 5 (Act.step false 0) ++
    [Act.notifyFence true 1] ++ List.replicate 15 (Act.step true 0) ++
    List.replicate 4 (Act.step false 0)

theorem reports_in_order_swapped :
    ∃ s, (machine Bool .graphics).run (init Bool ⟨2, 0, 0, ∅, 0, 0⟩ 2) swapped = some s ∧
      s.completed = [.dmaCompleted .graphics 1, .dmaCompleted .graphics 2] ∧
      s.engine.pendingFences = ∅ := by
  have hend : ((machine Bool .graphics).run (init Bool ⟨2, 0, 0, ∅, 0, 0⟩ 2) swapped).map
      (fun s => (s.todo, s.pc false, s.pc true)) = some (∅, .idle, .idle) := by decide
  obtain ⟨s, hrun, hs⟩ := Option.map_eq_some_iff.1 hend
  simp only [Prod.mk.injEq] at hs
  obtain ⟨htodo, hfalse, htrue⟩ := hs
  have hidle : ∀ t, s.pc t = .idle := by simp [hfalse, htrue]
  exact ⟨s, hrun, (reports_in_order .graphics ⟨2, 0, 0, ∅, 0, 0⟩ 2 rfl (by decide) swapped s
    hrun).2.2 htodo hidle⟩

end Notify

end VirtioGpu
