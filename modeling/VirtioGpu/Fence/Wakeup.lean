import VirtioGpu.Fence.Submissions
import Mathlib.Data.Fintype.Basic

/-!
# A submission that nobody looks at again

When a virtio fence is signalled, the submissions that wait for it are to be reported soon: the
handler thread runs `handle_fence_submissions` after its round, and a submitter does so after it has
queued its submission, so that a signal between its `query` and its `push` is not missed.

A submission that has timed out is missed nevertheless.  `retain` puts it into a local list and
releases the lock; it is put back in a second section under the lock.  In between it is in no list
that the handler looks at, so if the fence is signalled and handled there, the submission is put
back after the last look (`fence_left_behind`), and stays until an unrelated event makes the handler
run again.

* `FenceWait.Rechecked` : what a step has to satisfy.  The one that matters is the second section:
  if the fence of a submission it puts back has been removed, some thread is still to run
  `handle_fence_submissions`.  The others are that `signal` finds the fence it is called with, and
  that the counter of 64 bits does not wrap around.
* `no_ready_fence_left` : in every run whose steps satisfy this, no signalled fence is left behind
  once all calls have returned and every thread has run `handle_fence_submissions` after its last
  `signal`.

The invariant says that for every submission in the list whose fence has been removed, some thread
*looks*: it has signalled and not yet taken the lock in `handle_fence_submissions`, or it is about
to take it.
-/

namespace VirtioGpu

namespace FenceWait

namespace Pc

/-- The thread is outside `submit_fence`, `signal` and `handle_fence_submissions`. -/
def outside : Pc → Bool
  | .idle | .push _ => true
  | _ => false

/-- The thread has not taken the lock in a call of `handle_fence_submissions`. -/
def beforeLock : Pc → Bool
  | .retain _ | .retainRead _ _ | .retainNotify _ _ | .retainTimeout _ _ | .extend _ => false
  | _ => true

/-- The elements that `retain` has found not to be ready and that may stay in the list. -/
def passed : Pc → List Entry
  | .retain p | .retainRead p _ | .retainNotify p _ => p.kept
  | .retainTimeout p x => x :: p.kept
  | _ => []

/-- The fence that `next_fence` is about to put into `unsignaled`. -/
def pushing : Pc → List ℕ
  | .push fence => [fence]
  | _ => []

end Pc

section Property

variable {τ : Type}

variable (s : State τ)

/-- All calls but those of `next_fence` have returned, and every thread has run
`handle_fence_submissions` after its last `signal`. -/
def State.Quiet : Prop := ∀ t, (s.pc t).outside = true ∧ s.clean t = true

/-- When it is quiet, no submission in the list has a fence that was signalled. -/
def State.NoneLeft : Prop :=
  s.Quiet → ∀ x ∈ s.entries, x.body.virtioFence ∉ s.signalled

/-- Thread `t` is going to look at the whole list: it has signalled and not yet taken the lock, or
it is about to take it. -/
def State.Looks (t : τ) : Prop :=
  (s.pc t).beforeLock = true ∧ (s.clean t = false ∨ s.pc t = .lock)
  deriving Decidable

/-- What the step of a thread at `p` has to satisfy for nothing to be left behind. -/
def State.RecheckedAt : Pc → Prop
  | .signal fence _ => fence ∈ s.tracker.unsignaled
  | .extend resubmit => ∀ x ∈ resubmit, x.body.virtioFence ∈ s.removed → ∃ u, s.Looks u
  | _ => True

/-- What an action has to satisfy for nothing to be left behind. -/
def State.Rechecked : Act τ → Prop
  | .nextFence _ => s.tracker.nextFence + 1 < 2 ^ 64
  | .step t _ => s.RecheckedAt (s.pc t)
  | _ => True

instance decidableRecheckedAt [Fintype τ] (s : State τ) : ∀ p, Decidable (s.RecheckedAt p)
  | .signal fence _ => inferInstanceAs (Decidable (fence ∈ s.tracker.unsignaled))
  | .extend resubmit => inferInstanceAs (Decidable (∀ x ∈ resubmit, _ → _))
  | .idle | .push _ | .submit _ | .queryLoad _ | .queryRead _ | .notify _ | .enqueue _ | .lock
  | .retain _ | .retainRead _ _ | .retainNotify _ _ | .retainTimeout _ _ => .isTrue trivial

instance decidableRechecked [Fintype τ] (s : State τ) : ∀ a, Decidable (s.Rechecked a)
  | .nextFence _ => inferInstanceAs (Decidable (_ < _))
  | .step t _ => decidableRecheckedAt s (s.pc t)
  | .signal _ _ | .submitFence _ _ _ _ | .handle _ => .isTrue trivial

/-- Where the fences are: about to become outstanding, outstanding, or removed. -/
def State.fences : Place τ → List ℕ :=
  Place.fill Pc.pushing s.pc s.tracker.unsignaled s.removed

end Property

/-! ### What a step does -/

section Steps

variable {τ : Type} [DecidableEq τ] {env : SubmitEnv} {s s' : State τ} {t : τ} {p : Pc} {now : ℕ}

theorem Looks.of_ne {u : τ} (hpc : s'.pc = Function.update s.pc t p) (hut : u ≠ t)
    (hclean : s'.clean u = s.clean u) (h : s.Looks u) : s'.Looks u := by
  unfold State.Looks at h ⊢
  rwa [hpc, Function.update_of_ne hut, hclean]

/-- The submissions somebody has to look at after a step of `t` were there before, or a thread is
going to look. -/
structure Watched (s s' : State τ) (t : τ) : Prop where
  looks : s.Looks t → s'.Looks t
  entries : ∀ x, x ∈ s'.entries ∨ x ∈ (s'.pc t).passed → x.body.virtioFence ∈ s.removed →
    (x ∈ s.entries ∨ x ∈ (s.pc t).passed) ∨ ∃ u, s'.Looks u

theorem Watched.of_before (hpc : s'.pc = Function.update s.pc t p) (hclean : s'.clean = s.clean)
    (hentries : s'.entries = s.entries) (hp : p.beforeLock = true) (hpassed : p.passed = [])
    (hlock : s.pc t ≠ .lock) : Watched s s' t := by
  have hpc' : s'.pc t = p := by rw [hpc, Function.update_self]
  refine ⟨fun h => ⟨by rw [hpc', hp], .inl ?_⟩, fun x hx _ => .inl (.inl ?_)⟩
  · rw [hclean]
    exact h.2.resolve_right hlock
  · rwa [hpc', hpassed, hentries, or_iff_left List.not_mem_nil] at hx

theorem Watched.of_after (hpc : s'.pc = Function.update s.pc t p)
    (hafter : (s.pc t).beforeLock = false)
    (h : ∀ x, x ∈ s'.entries ∨ x ∈ p.passed → x.body.virtioFence ∈ s.removed →
      (x ∈ s.entries ∨ x ∈ (s.pc t).passed) ∨ ∃ u, s'.Looks u) : Watched s s' t := by
  refine ⟨fun hlooks => ?_, ?_⟩
  · rw [State.Looks, hafter] at hlooks
    cases hlooks.1
  · rw [hpc, Function.update_self]
    exact h

theorem Watched.of_retain {q : Pc} (hpc : s'.pc = Function.update s.pc t p) (hq : s.pc t = q)
    (hafter : q.beforeLock = false) (hentries : s'.entries = s.entries)
    (h : ∀ x ∈ p.passed, x.body.virtioFence ∈ s.removed → x ∈ q.passed) : Watched s s' t := by
  subst hq
  refine .of_after hpc hafter fun x hx hv => .inl ?_
  rw [hentries] at hx
  exact hx.imp_right fun hx => h x hx hv

/-- A step of a thread outside `next_fence` and `signal` takes the lock and with it all
submissions, or leaves none behind. -/
theorem stepThread_watched (hok : s.Rechecked (.step t now)) (h : s.stepThread env t = .next s')
    (hout : (s.pc t).inTracker = false)
    (hremoved : ∀ v ∈ s.removed, v < s.tracker.nextFence ∧ v ∉ s.tracker.unsignaled) :
    (s.lock = none ∧ s'.entries = [] ∧ (s'.pc t).passed = []) ∨ Watched s s' t := by
  unfold State.stepThread at h
  split at h
  case h_1 => cases h
  case h_2 fence hpc => simp [hpc, Pc.inTracker] at hout
  case h_3 fence n hpc => simp [hpc, Pc.inTracker] at hout
  case h_4 c hpc =>
    cases h
    exact .inr (.of_before rfl rfl rfl rfl rfl (by simp [hpc]))
  case h_5 c hpc =>
    split at h <;> cases h
    all_goals exact .inr (.of_before rfl rfl rfl rfl rfl (by simp [hpc]))
  case h_6 c hpc =>
    split at h <;> cases h
    all_goals exact .inr (.of_before rfl rfl rfl rfl rfl (by simp [hpc]))
  case h_7 c hpc =>
    cases h
    exact .inr (.of_before rfl rfl rfl rfl rfl (by simp [hpc]))
  case h_8 c hpc =>
    split at h <;> cases h
    -- The submitter is going to look itself.
    have hlooks : State.Looks { s.goto t .lock with entries := s.entries ++ [c.entry env] } t :=
      ⟨by simp [State.goto, Pc.beforeLock], .inr (by simp [State.goto])⟩
    exact .inr ⟨fun _ => hlooks, fun _ _ _ => .inr ⟨t, hlooks⟩⟩
  case h_9 hpc =>
    split at h <;> cases h
    exact .inl ⟨‹_›, rfl, by simp [State.goto, Pc.passed]⟩
  case h_10 kept resubmit hpc =>
    cases h
    refine .inr (.of_after rfl (by rw [hpc]; rfl) fun x hx _ => .inl (.inr ?_))
    rw [hpc]
    exact hx.resolve_right List.not_mem_nil
  case h_11 kept x rest resubmit hpc =>
    split at h <;> cases h
    · exact .inr (.of_retain rfl hpc rfl rfl fun y hy _ => hy)
    · rename_i hlt
      refine .inr (.of_retain rfl hpc rfl rfl fun y hy hv => ?_)
      rcases List.mem_cons.1 hy with rfl | hy
      · exact absurd (hremoved _ hv).1 hlt
      · exact hy
  case h_12 p x hpc =>
    split at h <;> cases h
    · rename_i hmem
      refine .inr (.of_retain rfl hpc rfl rfl fun y hy hv => ?_)
      rcases List.mem_cons.1 hy with rfl | hy
      · exact absurd hmem (hremoved _ hv).2
      · exact hy
    · exact .inr (.of_retain rfl hpc rfl rfl fun y hy _ => hy)
  case h_13 p x hpc =>
    cases h
    exact .inr (.of_retain rfl hpc rfl rfl fun y hy _ => hy)
  case h_14 p x hpc =>
    split at h <;> cases h
    · exact .inr (.of_retain rfl hpc rfl rfl fun y hy _ => List.mem_cons_of_mem x hy)
    · refine .inr (.of_retain rfl hpc rfl rfl fun y hy _ => ?_)
      simpa [Pc.passed, or_comm] using hy
  case h_15 resubmit hpc =>
    split at h <;> cases h
    have hafter : (s.pc t).beforeLock = false := by rw [hpc]; rfl
    refine .inr (.of_after rfl hafter fun x hx hv => ?_)
    rcases List.mem_append.1 (hx.resolve_right List.not_mem_nil) with hx | hx
    · exact .inl (.inl hx)
    · simp only [State.Rechecked, State.RecheckedAt, hpc] at hok
      obtain ⟨u, hu⟩ := hok x hx hv
      have hut : u ≠ t := by
        rintro rfl
        exact absurd hu.1 (by simp [hafter])
      exact .inr ⟨u, Looks.of_ne rfl hut (Function.update_of_ne hut _ _) hu⟩

/-- The other threads have signalled and handled what they had before, and a fence is on its way to
`unsignaled` only at the start of a call. -/
theorem stepThread_frame (h : s.stepThread env t = .next s') :
    (s'.pc t).pushing = [] ∧ ∀ u, u ≠ t → s'.clean u = s.clean u := by
  unfold State.stepThread at h
  split at h
  case h_1 => cases h
  case h_3 fence n hpc =>
    split at h <;> cases h
    exact ⟨by simp [State.remove, State.goto, Pc.pushing], fun u hu => Function.update_of_ne hu _ _⟩
  case h_15 resubmit hpc =>
    split at h <;> cases h
    exact ⟨by simp [State.goto, Pc.pushing], fun u hu => Function.update_of_ne hu _ _⟩
  all_goals
    try split at h
    all_goals cases h
    all_goals exact ⟨by simp [State.notify, State.goto, Pc.pushing], fun _ _ => rfl⟩

end Steps

/-! ### The invariant -/

section Invariant

variable {τ : Type} {env : SubmitEnv} {s s' : State τ} {t : τ} {p : Pc}

/-- What holds in every state that a run of rechecked steps can reach. -/
structure Watch (s : State τ) : Prop where
  base : Inv s
  fences : Apart s.fences
  below : ∀ {q v}, v ∈ s.fences q → v < s.tracker.nextFence
  signalled : ∀ v ∈ s.signalled, v ∈ s.removed ∨ ∃ t n, s.pc t = .signal v n
  /-- Somebody is going to look at a submission in the list whose fence has been removed. -/
  entries : ∀ x ∈ s.entries, x.body.virtioFence ∈ s.removed → ∃ u, s.Looks u
  /-- Also at one that is going to be in the list again. -/
  passed : ∀ t, ∀ x ∈ (s.pc t).passed, x.body.virtioFence ∈ s.removed → ∃ u, s.Looks u

theorem watch_init (engines : Engine → EngineState) : Watch (State.init τ engines) := by
  have hfences : (State.init τ engines).fences = fun _ => [] := by
    funext q
    cases q <;> rfl
  refine ⟨inv_init engines, ?_, ?_, ?_, ?_, ?_⟩
  · rw [hfences]
    exact Apart.empty
  · intro q v hv
    rw [hfences] at hv
    cases hv
  all_goals simp [State.init, Pc.passed]

/-- **When it is quiet, nothing is left behind.** -/
theorem Watch.noneLeft (hs : Watch s) : s.NoneLeft := by
  intro hquiet x hx hv
  have hremoved : x.body.virtioFence ∈ s.removed := by
    refine (hs.signalled _ hv).resolve_right ?_
    rintro ⟨t, n, hpc⟩
    have := (hquiet t).1
    simp [hpc, Pc.outside] at this
  obtain ⟨u, hlooks⟩ := hs.entries x hx hremoved
  obtain ⟨hout, hclean⟩ := hquiet u
  rcases hlooks.2 with hdirty | hlock
  · simp [hclean] at hdirty
  · simp [hlock, Pc.outside] at hout

theorem Watch.removed (hs : Watch s) {v : ℕ} (hv : v ∈ s.removed) :
    v < s.tracker.nextFence ∧ v ∉ s.tracker.unsignaled := by
  have hdone : v ∈ s.fences .done := hv
  refine ⟨hs.below hdone, fun hmem => ?_⟩
  have hshared : v ∈ s.fences .shared := hmem
  cases hs.fences.unique hdone hshared

theorem Pc.pushing_eq_nil {p : Pc} (h : p.inTracker = false) : p.pushing = [] := by
  cases p <;> first | rfl | cases h

theorem Pc.passed_eq_nil {p : Pc} (h : p.inRetain = false) : p.passed = [] := by
  cases p <;> first | rfl | cases h

variable [DecidableEq τ]

section

variable (hs : Watch s)
include hs

/-- After a step that watches, somebody is still going to look. -/
theorem Watch.looks (hpc : s'.pc = Function.update s.pc t p)
    (hclean : ∀ u, u ≠ t → s'.clean u = s.clean u) (hremoved : s'.removed = s.removed)
    (hw : (s.lock = none ∧ s'.entries = [] ∧ (s'.pc t).passed = []) ∨ Watched s s' t) :
    (∀ x ∈ s'.entries, x.body.virtioFence ∈ s'.removed → ∃ u, s'.Looks u) ∧
      ∀ u, ∀ x ∈ (s'.pc u).passed, x.body.virtioFence ∈ s'.removed → ∃ u, s'.Looks u := by
  have hother : ∀ u, u ≠ t → s'.pc u = s.pc u := fun u hu => by
    rw [hpc, Function.update_of_ne hu]
  rw [hremoved]
  rcases hw with ⟨hfree, hentries, hpassed⟩ | hw
  · -- The lock was free, so no other thread is in `retain`.
    refine ⟨by simp [hentries], fun u => ?_⟩
    by_cases hu : u = t
    · simp [hu, hpassed]
    · have hout : (s.pc u).inRetain = false := by
        rw [← Bool.not_eq_true, hs.base.locked u, hfree]
        simp
      simp [hother u hu, Pc.passed_eq_nil hout]
  · have hstill : (∃ u, s.Looks u) → ∃ u, s'.Looks u := by
      rintro ⟨u, hu⟩
      by_cases hut : u = t
      · exact ⟨t, hw.looks (hut ▸ hu)⟩
      · exact ⟨u, Looks.of_ne hpc hut (hclean u hut) hu⟩
    have hown : ∀ x, x ∈ s'.entries ∨ x ∈ (s'.pc t).passed → x.body.virtioFence ∈ s.removed →
        ∃ u, s'.Looks u := by
      intro x hx hv
      rcases hw.entries x hx hv with (hx | hx) | hlooks
      · exact hstill (hs.entries x hx hv)
      · exact hstill (hs.passed t x hx hv)
      · exact hlooks
    refine ⟨fun x hx => hown x (.inl hx), fun u x hx hv => ?_⟩
    by_cases hu : u = t
    · exact hown x (.inr (hu ▸ hx)) hv
    · exact hstill (hs.passed u x (hother u hu ▸ hx) hv)

/-- A signal that is under way stays so while its thread does not end it. -/
theorem Watch.signalled_of_ne (hpc : s'.pc = Function.update s.pc t p)
    (hremoved : s.removed ⊆ s'.removed) (hnot : ∀ fence n, s.pc t ≠ .signal fence n) {v : ℕ}
    (hv : v ∈ s.signalled) : v ∈ s'.removed ∨ ∃ u n, s'.pc u = .signal v n := by
  rcases hs.signalled v hv with hv | ⟨u, n, hu⟩
  · exact .inl (hremoved hv)
  · have hut : u ≠ t := fun h => hnot v n (h ▸ hu)
    exact .inr ⟨u, n, by rw [hpc, Function.update_of_ne hut, hu]⟩

theorem Watch.of_same (hbase : Inv s') (hpc : s'.pc = Function.update s.pc t p)
    (hclean : ∀ u, u ≠ t → s'.clean u = s.clean u) (htracker : s'.tracker = s.tracker)
    (hremoved : s'.removed = s.removed) (hpush : p.pushing = (s.pc t).pushing)
    (hnot : ∀ fence n, s.pc t ≠ .signal fence n)
    (hsignalled : ∀ v ∈ s'.signalled, v ∈ s.signalled ∨ ∃ n, p = .signal v n)
    (hw : (s.lock = none ∧ s'.entries = [] ∧ (s'.pc t).passed = []) ∨ Watched s s' t) :
    Watch s' := by
  have hfences : s'.fences = s.fences := by
    rw [State.fences, htracker, hremoved]
    exact Place.fill_thread_same hpc hpush
  obtain ⟨hentries, hpassed⟩ := hs.looks hpc hclean hremoved hw
  refine ⟨hbase, hfences ▸ hs.fences, ?_, fun v hv => ?_, hentries, hpassed⟩
  · rw [hfences, htracker]
    exact hs.below
  · rcases hsignalled v hv with hv | ⟨n, hp⟩
    · exact hs.signalled_of_ne hpc (by rw [hremoved]; exact List.Subset.refl _) hnot hv
    · exact .inr ⟨t, n, by rw [hpc, Function.update_self, hp]⟩

theorem Watch.nextFence (hbase : Inv s') (hidle : s.pc t = .idle)
    (hpc : s'.pc = Function.update s.pc t (.push s.tracker.nextFence)) (hclean : s'.clean = s.clean)
    (htracker : s'.tracker = { s.tracker with nextFence := s.tracker.nextFence + 1 })
    (hremoved : s'.removed = s.removed) (hentries : s'.entries = s.entries)
    (hsignalled : s'.signalled = s.signalled) : Watch s' := by
  have hempty : s.fences (.thread t) = [] := by rw [State.fences, Place.fill, hidle]; rfl
  have hfences : s'.fences = Function.update s.fences (.thread t)
      (s.tracker.nextFence :: s.fences (.thread t)) := by
    rw [hempty, State.fences, htracker, hremoved]
    exact Place.fill_thread hpc
  have hnot : ∀ fence n, s.pc t ≠ .signal fence n := by simp [hidle]
  obtain ⟨hlist, hpassed⟩ := hs.looks hpc (fun _ _ => by rw [hclean]) hremoved
    (.inr (.of_before hpc hclean hentries rfl rfl (by simp [hidle])))
  refine ⟨hbase, ?_, fun {q v} hv => ?_, fun v hv => ?_, hlist, hpassed⟩
  · rw [hfences]
    exact hs.fences.insert fun q hq => lt_irrefl _ (hs.below hq)
  · rw [hfences] at hv
    rw [htracker]
    by_cases hq : q = .thread t
    · rw [hq, Function.update_self, hempty, List.mem_singleton] at hv
      exact hv ▸ Nat.lt_succ_self _
    · rw [Function.update_of_ne hq] at hv
      exact Nat.lt_succ_of_lt (hs.below hv)
  · rw [hsignalled] at hv
    exact hs.signalled_of_ne hpc (by rw [hremoved]; exact List.Subset.refl _) hnot hv

theorem Watch.push (hbase : Inv s') {fence : ℕ} (hpush : s.pc t = .push fence)
    (hpc : s'.pc = Function.update s.pc t .idle) (hclean : s'.clean = s.clean)
    (htracker : s'.tracker = { s.tracker with unsignaled := s.tracker.unsignaled ++ [fence] })
    (hremoved : s'.removed = s.removed) (hentries : s'.entries = s.entries)
    (hsignalled : s'.signalled = s.signalled) : Watch s' := by
  have hown : s.fences (.thread t) = [fence] := by rw [State.fences, Place.fill, hpush]; rfl
  have hfences : s'.fences = Function.update (Function.update s.fences (.thread t) []) .shared
      (s.tracker.unsignaled ++ [fence]) := by
    rw [State.fences, htracker, hremoved, State.fences]
    have hidle : Pc.pushing .idle = [] := rfl
    rw [← hidle, ← Place.fill_thread hpc]
    exact Place.fill_shared
  have hperm : ([] ++ (s.tracker.unsignaled ++ [fence])).Perm
      (s.fences (.thread t) ++ s.fences .shared) := by
    rw [hown, List.nil_append]
    exact List.perm_append_comm
  obtain ⟨hlist, hpassed⟩ := hs.looks hpc (fun _ _ => by rw [hclean]) hremoved
    (.inr (.of_before hpc hclean hentries rfl rfl (by simp [hpush])))
  refine ⟨hbase, ?_, fun {q v} hv => ?_, fun v hv => ?_, hlist, hpassed⟩
  · rw [hfences]
    exact hs.fences.move (by simp) hperm
  · rw [hfences] at hv
    obtain ⟨q', hv⟩ := Apart.exists_mem_of_move hperm hv
    rw [htracker]
    exact hs.below hv
  · rw [hsignalled] at hv
    exact hs.signalled_of_ne hpc (by rw [hremoved]; exact List.Subset.refl _) (by simp [hpush]) hv

theorem Watch.remove {fence n : ℕ} {tracker : FenceTracker} (hbase : Inv (s.remove t fence tracker))
    (hpc : s.pc t = .signal fence n) (hmem : fence ∈ s.tracker.unsignaled)
    (hperm : (fence :: tracker.unsignaled).Perm s.tracker.unsignaled) :
    Watch (s.remove t fence tracker) := by
  have hlooks : (s.remove t fence tracker).Looks t :=
    ⟨by simp [State.remove, State.goto, Pc.beforeLock], .inl (by simp [State.remove])⟩
  have hremoved : (s.remove t fence tracker).removed = s.removed ++ [fence] := if_pos hmem
  have hfences : (s.remove t fence tracker).fences = Function.update (Function.update s.fences
      .shared tracker.unsignaled) .done (s.removed ++ [fence]) := by
    have hpc' : (s.remove t fence tracker).pc = Function.update s.pc t .idle := rfl
    rw [State.fences, hremoved, Place.fill_thread_same hpc' (by rw [hpc]; rfl), State.fences,
      ← Place.fill_shared]
    exact Place.fill_done
  have hmove : (tracker.unsignaled ++ (s.removed ++ [fence])).Perm
      (s.fences .shared ++ s.fences .done) := by
    refine List.Perm.trans ?_ (hperm.append_right s.removed)
    rw [← List.append_assoc]
    exact List.perm_append_singleton fence _
  refine ⟨hbase, ?_, fun {q v} hv => ?_, fun v hv => ?_, fun _ _ _ => ⟨t, hlooks⟩,
    fun _ _ _ _ => ⟨t, hlooks⟩⟩
  · rw [hfences]
    exact hs.fences.move (by simp) hmove
  · rw [hfences] at hv
    obtain ⟨q', hv⟩ := Apart.exists_mem_of_move hmove hv
    exact hs.below hv
  · rw [hremoved, List.mem_append, List.mem_singleton]
    rcases hs.signalled v hv with hv | ⟨u, m, hu⟩
    · exact .inl (.inl hv)
    · by_cases hut : u = t
      · rw [hut, hpc] at hu
        cases hu
        exact .inl (.inr rfl)
      · exact .inr ⟨u, m, by simp [State.remove, State.goto, hut, hu]⟩

theorem watch_step {a : Act τ} (hok : s.Rechecked a) (hstep : (machine env).step s a = .next s') :
    Watch s' := by
  have hbase : Inv s' := inv_step hs.base hstep
  cases a with
  | nextFence =>
    simp only [machine, State.step] at hstep
    split_ifs at hstep with hidle
    cases hstep
    have hmod : (s.tracker.nextFence + 1) % 2 ^ 64 = s.tracker.nextFence + 1 :=
      Nat.mod_eq_of_lt hok
    exact hs.nextFence hbase hidle rfl rfl (by rw [hmod]) rfl rfl rfl
  | signal =>
    simp only [machine, State.step] at hstep
    split_ifs at hstep with h
    cases hstep
    refine hs.of_same hbase rfl (fun _ _ => rfl) rfl rfl (by rw [h.1]; rfl) (by simp [h.1])
      (fun v hv => ?_) (.inr (.of_before rfl rfl rfl rfl rfl (by simp [h.1])))
    rcases List.mem_append.1 hv with hv | hv
    · exact .inl hv
    · exact .inr ⟨_, by rw [List.mem_singleton.1 hv]⟩
  | submitFence =>
    simp only [machine, State.step] at hstep
    split_ifs at hstep with h
    cases hstep
    exact hs.of_same hbase rfl (fun _ _ => rfl) rfl rfl (by rw [h.1]; rfl) (by simp [h.1])
      (fun v hv => .inl hv) (.inr (.of_before rfl rfl rfl rfl rfl (by simp [h.1])))
  | handle =>
    simp only [machine, State.step] at hstep
    split_ifs at hstep with hidle
    cases hstep
    exact hs.of_same hbase rfl (fun _ _ => rfl) rfl rfl (by rw [hidle]; rfl) (by simp [hidle])
      (fun v hv => .inl hv) (.inr (.of_before rfl rfl rfl rfl rfl (by simp [hidle])))
  | step t =>
    have hentries : (s.pc t).inRetain = true → s.entries = [] := fun hin =>
      hs.base.empty t ((hs.base.locked t).1 hin)
    rcases stepThread_cases hentries hstep with ⟨fence, hpc, rfl⟩ |
      ⟨fence, nextFence, tracker, hpc, hsignal, rfl⟩ | ⟨hout, p, hmoves⟩
    · exact hs.push hbase hpc rfl rfl rfl rfl rfl rfl
    · have hmem : fence ∈ s.tracker.unsignaled := by
        simpa [State.Rechecked, State.RecheckedAt, hpc] using hok
      obtain ⟨-, -, ⟨-, hperm⟩ | ⟨hnot, -⟩⟩ := FenceTracker.signal_eq_some hsignal
      · exact hs.remove hbase hpc hmem hperm
      · exact absurd hmem hnot
    · obtain ⟨hpush, hclean⟩ := stepThread_frame hstep
      rw [hmoves.pc, Function.update_self] at hpush
      refine hs.of_same hbase hmoves.pc hclean hmoves.keeps.tracker hmoves.keeps.removed ?_ ?_
        (fun v hv => .inl (hmoves.keeps.signalled ▸ hv))
        (stepThread_watched hok hstep hout fun v hv => hs.removed hv)
      · rw [hpush, Pc.pushing_eq_nil hout]
      · rintro fence n hpc
        simp [hpc, Pc.inTracker] at hout

end

end Invariant

end FenceWait

open FenceWait

/-- **Nothing is left behind if the second section is rechecked.**  When the calls have returned and
every thread has run `handle_fence_submissions` after its last `signal`, `fence_submissions` has no
submission whose virtio fence was signalled. -/
theorem no_ready_fence_left {τ : Type} [DecidableEq τ] (env : SubmitEnv)
    (engines : Engine → EngineState) (as : List (Act τ))
    (hmeets : (machine env).Meets State.Rechecked (State.init τ engines) as) :
    (machine env).Always State.NoneLeft (State.init τ engines) as :=
  Machine.always_of_meets (fun _ _ _ hs hok => watch_step hs hok) (fun _ hs => hs.noneLeft)
    (watch_init engines) hmeets

theorem no_ready_fence_left_timedOut :
    (machine startedEnv).Always State.NoneLeft (State.init Bool freshEngines) timedOut :=
  no_ready_fence_left startedEnv freshEngines timedOut (by decide)

/-- The submission times out in the first section of the submitter, and before its second section
the handler signals the virtio fence and runs `handle_fence_submissions`. -/
def leftBehind : List (Act Bool) :=
  [Act.nextFence true, .step true 0, .submitFence true .graphics 7 0] ++
    List.replicate 4 (Act.step true 0) ++ List.replicate 5 (Act.step true 30) ++
    [Act.signal false 0, .step false 30, .handle false] ++ List.replicate 3 (Act.step false 31) ++
    [Act.step true 31]

/-- **The signal falls between the two sections.**  All calls have returned, the handler has run
`handle_fence_submissions` after its `signal`, and the submission waits for a fence that was
signalled. -/
theorem fence_left_behind :
    ∃ s, (machine startedEnv).run (.init Bool freshEngines) leftBehind = some s ∧ s.Quiet ∧
      s.notified = [] ∧ s.removed = [0] ∧
      s.entries.map (fun x => x.body) = [⟨.graphics, 7, 0, 30⟩] ∧ 0 ∈ s.signalled := by
  refine ⟨_, rfl, fun t => ?_, rfl, rfl, rfl, List.mem_singleton_self 0⟩
  cases t <;> exact ⟨rfl, rfl⟩

end VirtioGpu
