import VirtioGpu.Fence.Notify

/-!
# Fence numbers that wrap around

Submission fences are consecutive numbers modulo `2 ^ 32`, and `last_completed + 1` wraps as they
do.  But the fences that have completed too early wait in a set that is sorted by the plain numbers,
and `notify_queued_fences` takes a number below `last_completed + 1` for a fence it has missed.
Across the wrap-around a fence that waits has a smaller number than the ones it waits for.

The calls of this file run one after the other.  `EngineState.notifyFence` is `notify_fence` as one
step, and the steps of `Notify.machine` lead to the same result when no other thread is about
(`notifyFence_alone`).  A submission is known by its position; `fenceOf` gives its number.

* `wrap_in_order_iff` : the reports are always in order, and the driver does not panic exactly as
  long as no fence completes whose plain number is below that of the next fence.
* `wrap_panics` : it does if the fence after the wrap-around completes before the one in front of
  it.
* `EngineState.Awaits.notifyAll_iff` : when a list of fences gets through, in terms of the engine
  before the first call.
-/

namespace VirtioGpu

/-- The number of the `k`-th submission after the fence `f₀`. -/
def fenceOf (f₀ k : ℕ) : ℕ := (f₀ + k + 1) % 2 ^ 32

/-- An engine whose submissions are completed one call at a time. -/
structure WrapState where
  engine : EngineState
  /-- The number of submissions. -/
  submitted : ℕ
  /-- The submissions `notify_fence` has not been called for. -/
  todo : Finset ℕ
  /-- The interrupts reported, oldest first. -/
  reports : List Interrupt

/-- What happens to it; the performance counter stands at `now`. -/
inductive WrapAct where
  | submit (now : ℕ)
  /-- `notify_fence` for the `k`-th submission. -/
  | notifyFence (k now : ℕ)

namespace WrapState

/-- The `DmaCompleted` reports. -/
def completed (s : WrapState) : List Interrupt := s.reports.filter Interrupt.isDmaCompleted

/-- One step.  A fence that completes is at most `2 ^ 31` ahead of `last_completed_fence`. -/
def step (e : Engine) (f₀ : ℕ) (s : WrapState) : WrapAct → Outcome WrapState Notify.Panic
  | .submit now =>
    .next { s with
      engine := { s.engine with
        lastSubmittedFence := fenceOf f₀ s.submitted
        lastSubmittedTimestamp := now }
      submitted := s.submitted + 1
      todo := insert s.submitted s.todo }
  | .notifyFence k now =>
    if k ∈ s.todo ∧ k < s.completed.length + 2 ^ 31 then
      (s.engine.notifyFence e now (fenceOf f₀ k)).bind fun r =>
        .next { s with engine := r.1, todo := s.todo.erase k, reports := s.reports ++ r.2 }
    else .stuck

/-- Nothing has been submitted. -/
def init (engine : EngineState) : WrapState := ⟨engine, 0, ∅, []⟩

/-- The reports are the first submissions in order, each once, and all of them if all have
completed. -/
def InOrder (e : Engine) (f₀ : ℕ) (s : WrapState) : Prop :=
  s.completed = (List.range s.completed.length).map (fun k => .dmaCompleted e (fenceOf f₀ k)) ∧
    (s.todo = ∅ → s.completed.length = s.submitted)

/-- The plain number of a fence that completes is not below that of the next fence. -/
def NotBelow (f₀ : ℕ) (s : WrapState) : WrapAct → Prop
  | .submit _ => True
  | .notifyFence k _ => nextFence s.engine.lastCompletedFence ≤ fenceOf f₀ k

end WrapState

/-- An engine whose first submission comes after the fence `f₀`. -/
def wrapMachine (e : Engine) (f₀ : ℕ) : Machine WrapState WrapAct Notify.Panic :=
  ⟨WrapState.step e f₀⟩

/-! ### Numbers -/

section Numbers

variable {f₀ m k : ℕ} {Q : Finset ℕ}

/-- `last_completed_fence` when `m` submissions have completed. -/
def lastOf (f₀ m : ℕ) : ℕ := (f₀ + m) % 2 ^ 32

theorem nextFence_lastOf (f₀ m : ℕ) : nextFence (lastOf f₀ m) = fenceOf f₀ m :=
  Nat.mod_add_mod _ _ _

theorem lastOf_succ (f₀ m : ℕ) : lastOf f₀ (m + 1) = fenceOf f₀ m := rfl

theorem fenceOf_lt (f₀ k : ℕ) : fenceOf f₀ k < 2 ^ 32 := Nat.mod_lt _ (by decide)

theorem fenceOf_ne (h : m < k) (hk : k < m + 2 ^ 31) : fenceOf f₀ m ≠ fenceOf f₀ k := by
  unfold fenceOf
  omega

theorem fenceOf_of_le (h : m ≤ k) (hk : k < m + 2 ^ 31) (hle : fenceOf f₀ m ≤ fenceOf f₀ k) :
    fenceOf f₀ k = fenceOf f₀ m + (k - m) := by
  unfold fenceOf at hle ⊢
  omega

/-- The submissions of `Q` come after the `m`-th with no wrap-around in between. -/
def Waiting (f₀ m : ℕ) (Q : Finset ℕ) : Prop :=
  ∀ k ∈ Q, m ≤ k ∧ fenceOf f₀ k = fenceOf f₀ m + (k - m)

section

variable (hQ : Waiting f₀ m Q)
include hQ

theorem Waiting.injOn : Set.InjOn (fenceOf f₀) Q := by
  intro k hk l hl h
  have hk := hQ k hk
  have hl := hQ l hl
  omega

theorem Waiting.image_erase (hm : m ∈ Q) :
    (Q.image (fenceOf f₀)).erase (fenceOf f₀ m) = (Q.erase m).image (fenceOf f₀) := by
  ext v
  simp only [Finset.mem_erase, Finset.mem_image]
  constructor
  · rintro ⟨hne, k, hk, rfl⟩
    exact ⟨k, ⟨fun h => hne (h ▸ rfl), hk⟩, rfl⟩
  · rintro ⟨k, ⟨hne, hk⟩, rfl⟩
    exact ⟨fun h => hne (hQ.injOn hk hm h), k, hk, rfl⟩

theorem Waiting.succ (hm : m ∉ Q) : Waiting f₀ (m + 1) Q := by
  intro k hk
  have hlt := fenceOf_lt f₀ k
  have hne : k ≠ m := fun h => hm (h ▸ hk)
  obtain ⟨hle, heq⟩ := hQ k hk
  have hstep : fenceOf f₀ (m + 1) = fenceOf f₀ m + 1 := by
    unfold fenceOf at heq hlt ⊢
    omega
  omega

theorem Waiting.mono {Q' : Finset ℕ} (h : Q' ⊆ Q) : Waiting f₀ m Q' :=
  fun k hk => hQ k (h hk)

theorem Waiting.first_of_mem (hm : m ∈ Q) : first (Q.image (fenceOf f₀)) = some (fenceOf f₀ m) := by
  cases hfirst : first (Q.image (fenceOf f₀)) with
  | none =>
    have := first_eq_none hfirst
    rw [Finset.image_eq_empty] at this
    rw [this] at hm
    cases hm
  | some v =>
    obtain ⟨hv, hmin⟩ := first_eq_some hfirst
    obtain ⟨k, hk, rfl⟩ := Finset.mem_image.1 hv
    have := hmin _ (Finset.mem_image_of_mem _ hm)
    have := hQ k hk
    rw [le_antisymm (hmin _ (Finset.mem_image_of_mem _ hm)) (by omega)]

theorem Waiting.first_of_notMem (hm : m ∉ Q) {v : ℕ}
    (hfirst : first (Q.image (fenceOf f₀)) = some v) : fenceOf f₀ m < v := by
  obtain ⟨hv, -⟩ := first_eq_some hfirst
  obtain ⟨k, hk, rfl⟩ := Finset.mem_image.1 hv
  have hne : k ≠ m := fun h => hm (h ▸ hk)
  have := hQ k hk
  omega

end

end Numbers

/-! ### One call -/

namespace EngineState

variable {e : Engine} {f₀ m now rounds : ℕ} {Q : Finset ℕ} {s : EngineState}

/-- The reports of the submissions from the `m`-th to before the `m'`-th. -/
def reportsOf (e : Engine) (f₀ m m' : ℕ) : List Interrupt :=
  (List.range' m (m' - m)).map fun k => .dmaCompleted e (fenceOf f₀ k)

/-- The engine has gone on from the `m`-th submission to the `m'`-th, with the submissions of `Q`
waiting before. -/
structure Drained (f₀ m : ℕ) (Q : Finset ℕ) (m' : ℕ) (s' : EngineState) : Prop where
  le : m ≤ m'
  mem : ∀ k, m ≤ k → k < m' → k ∈ Q
  notMem : m' ∉ Q
  pending : s'.pendingFences = (Q.filter (m' ≤ ·)).image (fenceOf f₀)
  last : s'.lastCompletedFence = lastOf f₀ m'
  waiting : Waiting f₀ m' (Q.filter (m' ≤ ·))

theorem drained_self (hpend : s.pendingFences = Q.image (fenceOf f₀)) (hQ : Waiting f₀ m Q)
    (hlast : s.lastCompletedFence = lastOf f₀ m) (hm : m ∉ Q) : Drained f₀ m Q m s := by
  have hfilter : Q.filter (m ≤ ·) = Q := Finset.filter_true_of_mem fun k hk => (hQ k hk).1
  exact ⟨le_rfl, fun k h₁ h₂ => absurd h₁ (not_le.2 h₂), hm, by rw [hfilter, hpend], hlast,
    by rw [hfilter]; exact hQ⟩

theorem Drained.of_erase {m' : ℕ} {s' : EngineState} (h : Drained f₀ (m + 1) (Q.erase m) m' s')
    (hm : m ∈ Q) : Drained f₀ m Q m' s' := by
  have hlt : m < m' := h.le
  have hfilter : (Q.erase m).filter (m' ≤ ·) = Q.filter (m' ≤ ·) := by
    ext k
    simp only [Finset.mem_filter, Finset.mem_erase]
    refine ⟨fun hk => ⟨hk.1.2, hk.2⟩, fun hk => ⟨⟨?_, hk.1⟩, hk.2⟩⟩
    omega
  refine ⟨hlt.le, fun k h₁ h₂ => ?_, fun hmem => h.notMem ?_, by rw [h.pending, hfilter], h.last,
    by rw [← hfilter]; exact h.waiting⟩
  · rcases h₁.eq_or_lt with rfl | h₁
    · exact hm
    · exact Finset.mem_of_mem_erase (h.mem k h₁ h₂)
  · exact Finset.mem_erase.2 ⟨by omega, hmem⟩

theorem reportsOf_succ {m' : ℕ} (h : m < m') :
    reportsOf e f₀ m m' = .dmaCompleted e (fenceOf f₀ m) :: reportsOf e f₀ (m + 1) m' := by
  unfold reportsOf
  rw [show m' - m = m' - (m + 1) + 1 by omega, List.range'_succ, List.map_cons]

theorem drain_spec (e : Engine) (now : ℕ) (hrounds : s.pendingFences.card ≤ rounds)
    (hpend : s.pendingFences = Q.image (fenceOf f₀)) (hQ : Waiting f₀ m Q)
    (hlast : s.lastCompletedFence = lastOf f₀ m) :
    ∃ m' s', drain e now rounds s (lastOf f₀ m) =
        .next (s', lastOf f₀ m', reportsOf e f₀ m m') ∧ Drained f₀ m Q m' s' := by
  -- on the bound; a round takes one fence out of the set
  induction rounds generalizing s m Q with
  | zero =>
    have hempty : Q = ∅ := by
      rw [hpend, Nat.le_zero, Finset.card_eq_zero, Finset.image_eq_empty] at hrounds
      exact hrounds
    refine ⟨m, s, ?_, drained_self hpend hQ hlast (by simp [hempty])⟩
    simp [drain, reportsOf]
  | succ rounds ih =>
    by_cases hm : m ∈ Q
    · have hfirst : first s.pendingFences = some (fenceOf f₀ m) := by
        rw [hpend]
        exact hQ.first_of_mem hm
      have hpop : popFirst s.pendingFences = (Q.erase m).image (fenceOf f₀) := by
        rw [popFirst_of_first hfirst, hpend]
        exact hQ.image_erase hm
      have hcard : (popFirst s.pendingFences).card ≤ rounds := by
        rw [popFirst_of_first hfirst, Finset.card_erase_of_mem (first_eq_some hfirst).1]
        omega
      have hwait : Waiting f₀ (m + 1) (Q.erase m) :=
        (hQ.mono (Finset.erase_subset _ _)).succ (Finset.notMem_erase _ _)
      obtain ⟨m', s', hdrain, hdrained⟩ := ih (m := m + 1)
        (s := { s with pendingFences := popFirst s.pendingFences }.complete (fenceOf f₀ m) now)
        hcard hpop hwait rfl
      refine ⟨m', s', ?_, hdrained.of_erase hm⟩
      rw [drain, hfirst]
      simp only [nextFence_lastOf, if_true]
      rw [lastOf_succ] at hdrain
      rw [hdrain, Outcome.next_bind, reportsOf_succ hdrained.le]
    · refine ⟨m, s, ?_, drained_self hpend hQ hlast hm⟩
      cases hfirst : first s.pendingFences with
      | none => simp [drain, hfirst, reportsOf]
      | some =>
        rw [hpend] at hfirst
        have hlt := hQ.first_of_notMem hm hfirst
        rw [← hpend] at hfirst
        simp [drain, hfirst, nextFence_lastOf, hlt.ne, not_lt.2 hlt.le, reportsOf]

theorem answerPreemption_frame (e : Engine) (s : EngineState) (last : ℕ) :
    (answerPreemption e s last).1.pendingFences = s.pendingFences ∧
      (answerPreemption e s last).1.lastCompletedFence = s.lastCompletedFence := by
  unfold answerPreemption
  by_cases h : last = s.lastSubmittedFence
  · rw [if_pos h]
    exact ⟨rfl, rfl⟩
  · rw [if_neg h]
    exact ⟨rfl, rfl⟩

theorem notifyQueuedFences_spec (e : Engine) (now : ℕ)
    (hpend : s.pendingFences = Q.image (fenceOf f₀)) (hQ : Waiting f₀ m Q)
    (hlast : s.lastCompletedFence = lastOf f₀ m) :
    ∃ m' s' reports, notifyQueuedFences e now s = .next (s', reports) ∧ Drained f₀ m Q m' s' ∧
      reports.filter Interrupt.isDmaCompleted = reportsOf e f₀ m m' := by
  obtain ⟨m', s', hdrain, hdrained⟩ := drain_spec e now le_rfl hpend hQ hlast
  refine ⟨m', (answerPreemption e s' (lastOf f₀ m')).1,
    reportsOf e f₀ m m' ++ (answerPreemption e s' (lastOf f₀ m')).2, ?_, ?_, ?_⟩
  · rw [notifyQueuedFences, hlast, hdrain, Outcome.next_bind]
  · obtain ⟨hpend', hlast'⟩ := answerPreemption_frame e s' (lastOf f₀ m')
    exact ⟨hdrained.le, hdrained.mem, hdrained.notMem, hpend'.trans hdrained.pending,
      hlast'.trans hdrained.last, hdrained.waiting⟩
  · have hreports : (reportsOf e f₀ m m').filter Interrupt.isDmaCompleted =
        reportsOf e f₀ m m' := by
      rw [List.filter_eq_self]
      intro i hi
      obtain ⟨k, -, rfl⟩ := List.mem_map.1 hi
      rfl
    have hanswer : (answerPreemption e s' (lastOf f₀ m')).2.filter
        Interrupt.isDmaCompleted = [] := by
      unfold answerPreemption
      split_ifs <;> rfl
    rw [List.filter_append, hreports, hanswer, List.append_nil]

/-- A fence with a number below the next one is taken for a missed one. -/
theorem notifyQueuedFences_of_below (e : Engine) (now : ℕ) {v : ℕ} (hv : v ∈ s.pendingFences)
    (hlt : v < nextFence s.lastCompletedFence) :
    ∃ p, notifyQueuedFences e now s = .panic p := by
  obtain ⟨rounds, hrounds⟩ := Nat.exists_eq_succ_of_ne_zero (Finset.card_ne_zero_of_mem hv)
  cases hfirst : first s.pendingFences with
  | none =>
    rw [first_eq_none hfirst] at hv
    cases hv
  | some w =>
    have := (first_eq_some hfirst).2 v hv
    have hne : nextFence s.lastCompletedFence ≠ w := by omega
    have hgt : nextFence s.lastCompletedFence > w := by omega
    refine ⟨.missedFence w s.lastCompletedFence, ?_⟩
    rw [notifyQueuedFences, hrounds]
    simp [drain, hfirst, hne, hgt, Outcome.bind]

end EngineState

/-! ### Runs -/

namespace WrapState

variable {e : Engine} {f₀ : ℕ} {s s' : WrapState} {a : WrapAct}

/-- The submissions that have completed too early. -/
def early (s : WrapState) : Finset ℕ := Finset.Ico s.completed.length s.submitted \ s.todo

/-- The engine has reported a first part of the submissions, and the rest is to come or waits in
the set with no wrap-around before it. -/
structure Inv (e : Engine) (f₀ : ℕ) (s : WrapState) : Prop where
  completed : s.completed = EngineState.reportsOf e f₀ 0 s.completed.length
  last : s.engine.lastCompletedFence = lastOf f₀ s.completed.length
  le : s.completed.length ≤ s.submitted
  todo : ∀ k ∈ s.todo, s.completed.length ≤ k ∧ k < s.submitted
  pending : s.engine.pendingFences = s.early.image (fenceOf f₀)
  waiting : Waiting f₀ s.completed.length s.early
  gap : s.completed.length ∉ s.early

theorem inv_init {engine : EngineState} (h : engine.Settled f₀) : Inv e f₀ (init engine) where
  completed := rfl
  last := by
    have hmod := Nat.mod_eq_of_lt h.lt
    simpa [init, WrapState.completed, lastOf, h.completed] using hmod.symm
  le := le_rfl
  todo := by simp [init]
  pending := h.pending
  waiting := by simp [Waiting, early, init]
  gap := by simp [early, init]

theorem Inv.inOrder (hs : Inv e f₀ s) : s.InOrder e f₀ := by
  refine ⟨?_, fun htodo => ?_⟩
  · have := hs.completed
    rwa [EngineState.reportsOf, Nat.sub_zero, ← List.range_eq_range'] at this
  · -- the next submission would be waiting
    have hgap := hs.gap
    have := hs.le
    simp only [early, htodo, Finset.sdiff_empty, Finset.mem_Ico, le_refl, true_and] at hgap
    omega

theorem Inv.of_drained {m m' k : ℕ} {Q : Finset ℕ} {engine : EngineState}
    (reports : List Interrupt) (hs : Inv e f₀ s) (hdrained : engine.Drained f₀ m Q m')
    (hreports : reports.filter Interrupt.isDmaCompleted =
      EngineState.reportsOf e f₀ s.completed.length m')
    (hle : s.completed.length ≤ m) (hm : m ≤ s.submitted)
    (hQ : ∀ j, m ≤ j → (j ∈ Q ↔ j < s.submitted ∧ j ∉ s.todo.erase k))
    (htodo : ∀ j ∈ s.todo.erase k, m ≤ j) :
    Inv e f₀
      { s with engine := engine, todo := s.todo.erase k, reports := s.reports ++ reports } := by
  have hle' : s.completed.length ≤ m' := hle.trans hdrained.le
  have hall : WrapState.completed
      { s with engine := engine, todo := s.todo.erase k, reports := s.reports ++ reports } =
      EngineState.reportsOf e f₀ 0 m' := by
    simp only [WrapState.completed, List.filter_append]
    rw [hreports, show s.reports.filter Interrupt.isDmaCompleted = _ from hs.completed]
    simp only [EngineState.reportsOf, ← List.map_append, Nat.sub_zero]
    have := List.range'_append_1 (s := 0) (m := s.completed.length) (n := m' - s.completed.length)
    rw [Nat.zero_add] at this
    rw [this, Nat.add_sub_cancel' hle']
  have hlen : (WrapState.completed
      { s with engine := engine, todo := s.todo.erase k, reports := s.reports ++ reports }).length =
      m' := by
    rw [hall]
    simp [EngineState.reportsOf]
  have hearly : early
      { s with engine := engine, todo := s.todo.erase k, reports := s.reports ++ reports } =
      Q.filter (m' ≤ ·) := by
    ext j
    rw [early, hlen, Finset.mem_sdiff, Finset.mem_Ico, Finset.mem_filter]
    have := hdrained.le
    constructor
    · rintro ⟨⟨hj, hlt⟩, hnot⟩
      exact ⟨(hQ j (this.trans hj)).2 ⟨hlt, hnot⟩, hj⟩
    · rintro ⟨hmem, hj⟩
      obtain ⟨hlt, hnot⟩ := (hQ j (this.trans hj)).1 hmem
      exact ⟨⟨hj, hlt⟩, hnot⟩
  constructor
  · rw [hlen, hall]
  · rw [hlen]
    exact hdrained.last
  · rw [hlen]
    -- the submission after the last one would be waiting
    by_contra hlt
    exact absurd ((hQ _ hm).1 (hdrained.mem _ hm (not_le.1 hlt))).1 (lt_irrefl _)
  · intro j hj
    rw [hlen]
    refine ⟨?_, (hs.todo j (Finset.mem_of_mem_erase hj)).2⟩
    by_contra hlt
    exact ((hQ j (htodo j hj)).1 (hdrained.mem j (htodo j hj) (not_le.1 hlt))).2 hj
  · rw [hearly]
    exact hdrained.pending
  · rw [hearly, hlen]
    exact hdrained.waiting
  · rw [hearly, hlen]
    exact fun h => hdrained.notMem (Finset.mem_of_mem_filter _ h)

theorem mem_early {j : ℕ} :
    j ∈ s.early ↔ (s.completed.length ≤ j ∧ j < s.submitted) ∧ j ∉ s.todo := by
  rw [early, Finset.mem_sdiff, Finset.mem_Ico]

theorem Inv.step_next (hs : Inv e f₀ s) (now : ℕ) (hk : s.completed.length ∈ s.todo) :
    ∃ s', step e f₀ s (.notifyFence s.completed.length now) = .next s' ∧ Inv e f₀ s' := by
  obtain ⟨-, hlt⟩ := hs.todo _ hk
  obtain ⟨m', engine, reports, hqueued, hdrained, hreports⟩ :=
    EngineState.notifyQueuedFences_spec e now
      (s := s.engine.complete (fenceOf f₀ s.completed.length) now) hs.pending
      (hs.waiting.succ hs.gap) rfl
  refine ⟨_, ?_, hs.of_drained (k := s.completed.length)
    (.dmaCompleted e (fenceOf f₀ s.completed.length) :: reports) hdrained ?_ (Nat.le_succ _) hlt
    ?_ ?_⟩
  · rw [step, if_pos ⟨hk, by omega⟩, EngineState.notifyFence, hs.last, nextFence_lastOf,
      if_pos rfl, hqueued]
    rfl
  · rw [EngineState.reportsOf_succ hdrained.le, ← hreports]
    rfl
  · intro j hj
    rw [mem_early, Finset.mem_erase]
    have : j ≠ s.completed.length := by omega
    have : s.completed.length ≤ j := by omega
    simp_all
  · intro j hj
    obtain ⟨hne, hj⟩ := Finset.mem_erase.1 hj
    have := (hs.todo j hj).1
    omega

theorem Inv.step_early {k : ℕ} (hs : Inv e f₀ s) (now : ℕ) (hk : k ∈ s.todo)
    (hne : s.completed.length ≠ k) (hahead : k < s.completed.length + 2 ^ 31)
    (hok : s.NotBelow f₀ (.notifyFence k now)) :
    ∃ s', step e f₀ s (.notifyFence k now) = .next s' ∧ Inv e f₀ s' := by
  obtain ⟨hle, hlt⟩ := hs.todo k hk
  have hnum : nextFence s.engine.lastCompletedFence = fenceOf f₀ s.completed.length := by
    rw [hs.last, nextFence_lastOf]
  have hwait : Waiting f₀ s.completed.length (insert k s.early) := by
    intro j hj
    rcases Finset.mem_insert.1 hj with rfl | hj
    · exact ⟨hle, fenceOf_of_le hle hahead (hnum ▸ hok)⟩
    · exact hs.waiting j hj
  have hpend : insert (fenceOf f₀ k) s.engine.pendingFences =
      (insert k s.early).image (fenceOf f₀) := by
    rw [Finset.image_insert, hs.pending]
  obtain ⟨m', engine, reports, hqueued, hdrained, hreports⟩ :=
    EngineState.notifyQueuedFences_spec e now
      (s := { s.engine with pendingFences := insert (fenceOf f₀ k) s.engine.pendingFences }) hpend
      hwait hs.last
  refine ⟨_, ?_, hs.of_drained (k := k) reports hdrained hreports
    le_rfl hs.le ?_ ?_⟩
  · rw [step, if_pos ⟨hk, hahead⟩, EngineState.notifyFence, hnum,
      if_neg (fenceOf_ne (lt_of_le_of_ne hle hne) hahead), hqueued]
    rfl
  · intro j hj
    rw [Finset.mem_insert, mem_early, Finset.mem_erase]
    by_cases hjk : j = k
    · simp [hjk, hlt]
    · simp [hjk, hj]
  · intro j hj
    exact (hs.todo j (Finset.mem_of_mem_erase hj)).1

theorem step_below {k : ℕ} (now : ℕ) (hk : k ∈ s.todo)
    (hahead : k < s.completed.length + 2 ^ 31) (hbad : ¬ s.NotBelow f₀ (.notifyFence k now)) :
    ∃ p, step e f₀ s (.notifyFence k now) = .panic p := by
  have hlt : fenceOf f₀ k < nextFence s.engine.lastCompletedFence := not_le.1 hbad
  obtain ⟨p, hp⟩ := EngineState.notifyQueuedFences_of_below e now
    (s := { s.engine with pendingFences := insert (fenceOf f₀ k) s.engine.pendingFences })
    (Finset.mem_insert_self _ _) hlt
  refine ⟨p, ?_⟩
  rw [step, if_pos ⟨hk, hahead⟩, EngineState.notifyFence, if_neg hlt.ne', hp]
  rfl

theorem Inv.step_submit (hs : Inv e f₀ s) (now : ℕ) (hstep : step e f₀ s (.submit now) = .next s') :
    Inv e f₀ s' := by
  cases hstep
  have hearly : early { s with
      engine := { s.engine with
        lastSubmittedFence := fenceOf f₀ s.submitted
        lastSubmittedTimestamp := now }
      submitted := s.submitted + 1
      todo := insert s.submitted s.todo } = s.early := by
    ext j
    rw [mem_early, mem_early, Finset.mem_insert]
    change (s.completed.length ≤ j ∧ j < s.submitted + 1) ∧ _ ↔ _
    have : ¬ (j = s.submitted ∨ j ∈ s.todo) ↔ j ≠ s.submitted ∧ j ∉ s.todo := not_or
    rw [this]
    constructor
    · rintro ⟨⟨h₁, h₂⟩, h₃, h₄⟩
      exact ⟨⟨h₁, by omega⟩, h₄⟩
    · rintro ⟨⟨h₁, h₂⟩, h₃⟩
      exact ⟨⟨h₁, by omega⟩, by omega, h₃⟩
  refine ⟨hs.completed, hs.last, hs.le.trans (Nat.le_succ _), ?_, ?_, ?_, ?_⟩
  · intro k hk
    rcases Finset.mem_insert.1 hk with rfl | hk
    · exact ⟨hs.le, Nat.lt_succ_self _⟩
    · exact ⟨(hs.todo k hk).1, (hs.todo k hk).2.trans (Nat.lt_succ_self _)⟩
  · rw [hearly]
    exact hs.pending
  · rw [hearly]
    exact hs.waiting
  · rw [hearly]
    exact hs.gap

theorem Inv.step_notify {k : ℕ} (hs : Inv e f₀ s) (now : ℕ) (hk : k ∈ s.todo)
    (hahead : k < s.completed.length + 2 ^ 31) :
    (s.NotBelow f₀ (.notifyFence k now) ∧
        ∃ s', step e f₀ s (.notifyFence k now) = .next s' ∧ Inv e f₀ s') ∨
      (¬ s.NotBelow f₀ (.notifyFence k now) ∧
        ∃ p, step e f₀ s (.notifyFence k now) = .panic p) := by
  by_cases hok : s.NotBelow f₀ (.notifyFence k now)
  · refine .inl ⟨hok, ?_⟩
    by_cases hne : s.completed.length = k
    · subst hne
      exact hs.step_next now hk
    · exact hs.step_early now hk hne hahead hok
  · exact .inr ⟨hok, step_below now hk hahead hok⟩

theorem Inv.step_cases (hs : Inv e f₀ s) (hposs : step e f₀ s a ≠ .stuck) :
    (s.NotBelow f₀ a ∧ ∃ s', step e f₀ s a = .next s' ∧ Inv e f₀ s') ∨
      (¬ s.NotBelow f₀ a ∧ ∃ p, step e f₀ s a = .panic p) := by
  cases a with
  | submit now => exact .inl ⟨trivial, _, rfl, hs.step_submit now rfl⟩
  | notifyFence k now =>
    have hk : k ∈ s.todo ∧ k < s.completed.length + 2 ^ 31 := by
      by_contra hk
      exact hposs (by rw [step, if_neg hk])
    exact hs.step_notify now hk.1 hk.2

theorem inv_step (hs : Inv e f₀ s) (hstep : (wrapMachine e f₀).step s a = .next s') :
    Inv e f₀ s' := by
  have hstep : step e f₀ s a = .next s' := hstep
  rcases hs.step_cases (a := a) (by rw [hstep]; nofun) with ⟨-, s'', h, hinv⟩ | ⟨-, p, h⟩
  · rw [hstep] at h
    cases h
    exact hinv
  · rw [hstep] at h
    cases h

end WrapState

/-- **Reports across the wrap-around** are in the order of submission, each once, and all of them
once all have completed.  The driver does not panic exactly if no submission completes whose plain
number is below that of the next one to be reported. -/
theorem wrap_in_order_iff (e : Engine) (f₀ : ℕ) (engine : EngineState) (hengine : engine.Settled f₀)
    (as : List WrapAct)
    (hposs : (wrapMachine e f₀).Meets (fun s a => (wrapMachine e f₀).step s a ≠ .stuck)
      (.init engine) as) :
    (wrapMachine e f₀).Always (WrapState.InOrder e f₀) (.init engine) as ∧
      ((wrapMachine e f₀).Meets (fun s a => ∀ p, (wrapMachine e f₀).step s a ≠ .panic p)
          (.init engine) as ↔
        (wrapMachine e f₀).Meets (WrapState.NotBelow f₀) (.init engine) as) := by
  have hinit : WrapState.Inv e f₀ (.init engine) := WrapState.inv_init hengine
  constructor
  · exact Machine.always_of_meets (fun _ _ _ hs _ => WrapState.inv_step hs)
      (fun _ hs => hs.inOrder) hinit hposs
  · refine Machine.meets_iff_meets (fun _ _ _ => WrapState.inv_step) (fun s a hs ha => ?_) hinit
      hposs
    rcases hs.step_cases ha with ⟨hok, s', h, -⟩ | ⟨hbad, p, h⟩
    · refine iff_of_true (fun p hp => ?_) hok
      rw [show (wrapMachine e f₀).step s a = .next s' from h] at hp
      cases hp
    · exact iff_of_false (fun hno => hno p h) hbad

/-- Two submissions around the wrap-around, completed in order. -/
def crossing : List WrapAct := [.submit 0, .submit 0, .notifyFence 0 0, .notifyFence 1 0]

theorem wrap_in_order_iff_crossing :
    ∃ s, (wrapMachine .graphics (2 ^ 32 - 2)).run
        (.init ⟨2 ^ 32 - 2, 2 ^ 32 - 2, 0, ∅, 0, 0⟩) crossing = some s ∧
      s.completed = [.dmaCompleted .graphics (2 ^ 32 - 1), .dmaCompleted .graphics 0] ∧
      (wrapMachine .graphics (2 ^ 32 - 2)).Always (WrapState.InOrder .graphics (2 ^ 32 - 2))
        (.init ⟨2 ^ 32 - 2, 2 ^ 32 - 2, 0, ∅, 0, 0⟩) crossing :=
  ⟨_, rfl, rfl, (wrap_in_order_iff .graphics (2 ^ 32 - 2) _ ⟨by decide, rfl, rfl, rfl⟩ crossing
    (Machine.meets_possible rfl)).1⟩

/-- **The number after `2 ^ 32 - 1`.**  The fences `2 ^ 32 - 1` and `0` are outstanding, and `0`
completes first: the driver takes it for a fence it has missed. -/
theorem wrap_panics :
    ∃ s, (wrapMachine .graphics (2 ^ 32 - 2)).run
        (.init ⟨2 ^ 32 - 2, 2 ^ 32 - 2, 0, ∅, 0, 0⟩) [.submit 0, .submit 0] = some s ∧
      (wrapMachine .graphics (2 ^ 32 - 2)).step s (.notifyFence 1 0) =
        .panic (.missedFence 0 (2 ^ 32 - 2)) :=
  ⟨_, rfl, rfl⟩

/-! ### One call after the other -/

namespace EngineState

/-- `notify_fence` for one fence after the other. -/
def notifyAll (e : Engine) (now : ℕ) : EngineState → List ℕ → Outcome EngineState Notify.Panic
  | s, [] => .next s
  | s, f :: fs => (s.notifyFence e now f).bind fun r => notifyAll e now r.1 fs

/-- The fences `fs` are outstanding: none of them twice, none that waits in the set, and none
`2 ^ 31` or more ahead.  What waits in the set comes after the next fence. -/
structure Awaits (s : EngineState) (fs : List ℕ) : Prop where
  lt : s.lastCompletedFence < 2 ^ 32
  ahead : ∀ g ∈ s.pendingFences, nextFence s.lastCompletedFence < g ∧ g < 2 ^ 32
  nodup : fs.Nodup
  fresh : ∀ f ∈ fs, f ∉ s.pendingFences ∧ ∃ k < 2 ^ 31, f = fenceOf s.lastCompletedFence k

/-- A fence after the wrap-around comes only when all fences before it are there. -/
def InTurn (s : EngineState) (fs : List ℕ) : Prop :=
  ∀ before f after, fs = before ++ f :: after → f < nextFence s.lastCompletedFence →
    ∀ g, nextFence s.lastCompletedFence ≤ g → g < 2 ^ 32 → g ∈ s.pendingFences ∨ g ∈ before

end EngineState

namespace WrapState

variable {e : Engine} {f₀ : ℕ} {s : WrapState}

theorem Inv.notBelow_iff {k : ℕ} (hs : Inv e f₀ s) (hf₀ : f₀ < 2 ^ 32)
    (hsub : s.submitted ≤ 2 ^ 32) (now : ℕ) (hk : k ∈ s.todo) (hlt : k < 2 ^ 31) :
    s.NotBelow f₀ (.notifyFence k now) ↔ (fenceOf f₀ k < nextFence f₀ →
      ∀ g, nextFence f₀ ≤ g → g < 2 ^ 32 → ∀ j ∈ s.todo, fenceOf f₀ j ≠ g) := by
  have hle := (hs.todo k hk).1
  have hkn := (hs.todo k hk).2
  have hgap := hs.gap
  rw [mem_early] at hgap
  unfold NotBelow
  rw [hs.last, nextFence_lastOf]
  constructor
  · -- both the submission and the next one are after the wrap-around
    rintro hok hbelow g hg hg' j hj rfl
    have := hs.todo j hj
    unfold fenceOf nextFence at *
    omega
  · intro h
    by_contra hbad
    have hnext : s.completed.length ∈ s.todo := by
      by_contra hno
      exact hgap ⟨⟨le_rfl, by omega⟩, hno⟩
    refine h ?_ (fenceOf f₀ s.completed.length) ?_ (fenceOf_lt _ _) _ hnext rfl <;>
      unfold fenceOf nextFence at * <;> omega

theorem step_notifyFence (e : Engine) (f₀ : ℕ) {k : ℕ} (now : ℕ) (hk : k ∈ s.todo)
    (hahead : k < s.completed.length + 2 ^ 31) :
    step e f₀ s (.notifyFence k now) = (s.engine.notifyFence e now (fenceOf f₀ k)).bind fun r =>
      .next { s with engine := r.1, todo := s.todo.erase k, reports := s.reports ++ r.2 } :=
  if_pos ⟨hk, hahead⟩

/-- The calls get through exactly if each fence after the wrap-around comes when all submissions
before it have completed. -/
theorem Inv.notifyAll_iff (hs : Inv e f₀ s) (hf₀ : f₀ < 2 ^ 32) (hsub : s.submitted ≤ 2 ^ 32)
    (now : ℕ) {fs : List ℕ} (hnodup : fs.Nodup)
    (hfs : ∀ f ∈ fs, ∃ k ∈ s.todo, k < 2 ^ 31 ∧ f = fenceOf f₀ k) :
    (∃ engine, s.engine.notifyAll e now fs = .next engine) ↔
      ∀ before f after, fs = before ++ f :: after → f < nextFence f₀ → ∀ g, nextFence f₀ ≤ g →
        g < 2 ^ 32 → ∀ j ∈ s.todo, fenceOf f₀ j = g → g ∈ before := by
  induction fs generalizing s with
  | nil => simp [EngineState.notifyAll]
  | cons f fs ih =>
    obtain ⟨hnew, hfsnodup⟩ := List.nodup_cons.1 hnodup
    obtain ⟨k, hk, hlt, rfl⟩ := hfs f List.mem_cons_self
    have hahead := Nat.lt_add_left s.completed.length hlt
    have hiff := hs.notBelow_iff hf₀ hsub now hk hlt
    have hstep := step_notifyFence e f₀ now hk hahead
    rcases hs.step_notify now hk hahead with ⟨hok, s₁, h, hs₁⟩ | ⟨hbad, p, h⟩
    · rw [hstep] at h
      obtain ⟨r, hr, h⟩ := Outcome.bind_eq_next.1 h
      cases h
      rw [EngineState.notifyAll, hr, Outcome.next_bind, ih hs₁ hsub hfsnodup]
      · constructor
        · rintro hall (_ | ⟨b, before⟩) f after heq hbelow g hg hg' j hj hjg <;> cases heq
          · exact absurd hjg (hiff.1 hok hbelow g hg hg' j hj)
          · by_cases hjk : j = k
            · exact hjk ▸ hjg ▸ List.mem_cons_self
            · exact .tail _ (hall before f after rfl hbelow g hg hg' j
                (Finset.mem_erase.2 ⟨hjk, hj⟩) hjg)
        · intro hall before f after heq hbelow g hg hg' j hj hjg
          obtain ⟨hjk, hj⟩ := Finset.mem_erase.1 hj
          have hmem := hall (fenceOf f₀ k :: before) f after (by rw [heq]; rfl) hbelow g hg hg' j hj
            hjg
          refine (List.mem_cons.1 hmem).resolve_left fun h => hjk ?_
          have := hs.todo j hj
          have := hs.todo k hk
          rw [← hjg] at h
          unfold fenceOf at h
          omega
      · intro f hf
        obtain ⟨j, hj, hjlt, rfl⟩ := hfs f (.tail _ hf)
        exact ⟨j, Finset.mem_erase.2 ⟨fun h => hnew (h ▸ hf), hj⟩, hjlt, rfl⟩
    · rw [hstep] at h
      refine iff_of_false ?_ fun hall => hbad (hiff.2 fun hbelow g hg hg' j hj hjg => ?_)
      · rintro ⟨engine, hrun⟩
        obtain ⟨r, hr, -⟩ := Outcome.bind_eq_next.1 hrun
        rw [hr] at h
        cases h
      · exact List.not_mem_nil (hall [] _ fs rfl hbelow g hg hg' j hj hjg)

end WrapState

namespace EngineState

/-- `2 ^ 32` submissions, of which those in the set have completed. -/
def withSubmissions (s : EngineState) : WrapState where
  engine := s
  submitted := 2 ^ 32
  todo := (Finset.range (2 ^ 32)).filter fun k =>
    fenceOf s.lastCompletedFence k ∉ s.pendingFences
  reports := []

theorem fenceOf_sub {f₀ g : ℕ} (hg : nextFence f₀ ≤ g) (hlt : g < 2 ^ 32) :
    fenceOf f₀ (g - nextFence f₀) = g := by
  unfold fenceOf
  unfold nextFence at *
  omega

theorem Awaits.inv {s : EngineState} {fs : List ℕ} (h : s.Awaits fs) (e : Engine) :
    (withSubmissions s).Inv e s.lastCompletedFence := by
  have hearly : ∀ k, k ∈ (withSubmissions s).early ↔
      k < 2 ^ 32 ∧ fenceOf s.lastCompletedFence k ∈ s.pendingFences := by
    intro k
    simp only [WrapState.mem_early, withSubmissions, WrapState.completed, Finset.mem_filter,
      Finset.mem_range, List.filter_nil, List.length_nil, Nat.zero_le, true_and, not_and, not_not]
    exact and_congr_right fun hk => ⟨fun h => h hk, fun h _ => h⟩
  have hlt := h.lt
  refine ⟨rfl, (Nat.mod_eq_of_lt h.lt).symm, Nat.zero_le _, fun k hk => ?_, ?_, fun k hk => ?_, ?_⟩
  · exact ⟨Nat.zero_le _, Finset.mem_range.1 (Finset.mem_filter.1 hk).1⟩
  · ext g
    simp only [Finset.mem_image, hearly]
    constructor
    · intro hg
      have hgt := h.ahead g hg
      have heq := fenceOf_sub hgt.1.le hgt.2
      exact ⟨_, ⟨by omega, heq.symm ▸ hg⟩, heq⟩
    · rintro ⟨k, ⟨-, hk⟩, rfl⟩
      exact hk
  · obtain ⟨hk, hmem⟩ := (hearly k).1 hk
    have := h.ahead _ hmem
    refine ⟨Nat.zero_le _, ?_⟩
    show _ = fenceOf _ 0 + (k - 0)
    unfold fenceOf nextFence at *
    omega
  · intro hmem
    obtain ⟨-, hmem⟩ := (hearly _).1 hmem
    exact lt_irrefl _ (h.ahead _ hmem).1

/-- **A sequence of completions.**  For outstanding fences, one call of `notify_fence` after the
other gets through without a panic exactly if none of them crosses the wrap-around too early. -/
theorem Awaits.notifyAll_iff {s : EngineState} {fs : List ℕ} (h : s.Awaits fs) (e : Engine)
    (now : ℕ) : (∃ s', s.notifyAll e now fs = .next s') ↔ s.InTurn fs := by
  have hfs : ∀ f ∈ fs, ∃ k ∈ (withSubmissions s).todo, k < 2 ^ 31 ∧
      f = fenceOf s.lastCompletedFence k := by
    intro f hf
    obtain ⟨hnew, k, hk, rfl⟩ := h.fresh f hf
    exact ⟨k, Finset.mem_filter.2 ⟨Finset.mem_range.2 (by omega), hnew⟩, hk, rfl⟩
  refine ((h.inv e).notifyAll_iff h.lt le_rfl now h.nodup hfs).trans ?_
  refine forall₃_congr fun before f after => forall₂_congr fun _ _ => forall₃_congr
    fun g hg hg' => ⟨fun hall => or_iff_not_imp_left.2 fun hnew => ?_, fun hor j hj hjg => ?_⟩
  · have heq := fenceOf_sub hg hg'
    refine hall _ (Finset.mem_filter.2 ⟨Finset.mem_range.2 (by omega), ?_⟩) heq
    rwa [heq]
  · exact hor.resolve_left (hjg ▸ (Finset.mem_filter.1 hj).2)

end EngineState

/-! ### The steps of a call that runs alone -/

namespace Notify

variable {τ : Type*} [DecidableEq τ] {e : Engine} {t : τ} {now : ℕ} {s s' s'' : State τ}

/-! The place of a thread does not matter to the other parts of the state. -/

section

variable (s : State τ) (t : τ) (p : Pc)

@[simp] theorem pc_goto : (s.goto t p).pc t = p := by
  simp [State.goto]

@[simp] theorem goto_goto (q : Pc) : (s.goto t p).goto t q = s.goto t q := by
  simp [State.goto]

@[simp] theorem engine_goto : (s.goto t p).engine = s.engine := rfl

@[simp] theorem goto_lock : (s.goto t p).lock = s.lock := rfl

@[simp] theorem report_goto (i : Interrupt) : (s.goto t p).report i = (s.report i).goto t p := rfl

@[simp] theorem storeCompleted_goto (fence : ℕ) :
    (s.goto t p).storeCompleted fence = (s.storeCompleted fence).goto t p := rfl

@[simp] theorem stampCompleted_goto (now : ℕ) :
    (s.goto t p).stampCompleted now = (s.stampCompleted now).goto t p := rfl

@[simp] theorem setPending_goto (pending : Finset ℕ) :
    (s.goto t p).setPending pending = (s.setPending pending).goto t p := rfl

@[simp] theorem release_goto : (s.goto t p).release = s.release.goto t p := rfl

end

/-- Thread `t` gets from `s` to `s'` without the others. -/
def Alone (e : Engine) (t : τ) (now : ℕ) (s s' : State τ) : Prop :=
  (machine τ e).Repeats (.step t now) s s'

theorem Alone.refl (e : Engine) (t : τ) (now : ℕ) (s : State τ) : Alone e t now s s :=
  Machine.Repeats.refl _ s

theorem Alone.trans (h : Alone e t now s s') (h' : Alone e t now s' s'') : Alone e t now s s'' :=
  Machine.Repeats.trans h h'

theorem Alone.head (s' : State τ) (h : stepThread e s t now = .next s')
    (h' : Alone e t now s' s'') : Alone e t now s s'' :=
  Machine.Repeats.head s' h h'

/-- A call, or a part of one, with the result `x` if it runs alone: the thread gets to the state
that goes with the result, or to the step that panics. -/
structure Reaches {α : Type} (e : Engine) (t : τ) (now : ℕ) (s : State τ) (x : Outcome α Panic)
    (f : α → State τ) : Prop where
  next : ∀ r, x = .next r → Alone e t now s (f r)
  panic : ∀ p, x = .panic p → ∃ s', Alone e t now s s' ∧ stepThread e s' t now = .panic p

theorem Alone.reaches {α : Type} {x : Outcome α Panic} {f : α → State τ}
    (h : Alone e t now s s') (h' : Reaches e t now s' x f) : Reaches e t now s x f := by
  refine ⟨fun r hr => h.trans (h'.next r hr), fun p hp => ?_⟩
  obtain ⟨s'', halone, hpanic⟩ := h'.panic p hp
  exact ⟨s'', h.trans halone, hpanic⟩

theorem reaches_next {α : Type} {r : α} {f : α → State τ} (h : Alone e t now s (f r)) :
    Reaches e t now s (.next r) f := by
  refine ⟨fun r' hr => ?_, nofun⟩
  cases hr
  exact h

theorem Reaches.bind {α β : Type} {x : Outcome α Panic} {f : α → State τ}
    {g : α → Outcome β Panic} {f' : β → State τ} (h : Reaches e t now s x f)
    (h' : ∀ r, x = .next r → Reaches e t now (f r) (g r) f') :
    Reaches e t now s (x.bind g) f' := by
  cases x with
  | next r => exact (h.next r rfl).reaches (h' r rfl)
  | stuck => exact ⟨nofun, nofun⟩
  | panic p =>
    refine ⟨nofun, fun q hq => ?_⟩
    cases hq
    exact h.panic p rfl

/-- The engine and the reports after a part of a call. -/
def State.after (s : State τ) (engine : EngineState) (reports : List Interrupt) : State τ :=
  { s with engine := engine, reports := s.reports ++ reports }

omit [DecidableEq τ] in
@[simp] theorem after_nil (s : State τ) : s.after s.engine [] = s := by simp [State.after]

omit [DecidableEq τ] in
theorem after_after (s : State τ) (engine engine' : EngineState)
    (reports reports' : List Interrupt) :
    (s.after engine reports).after engine' reports' = s.after engine' (reports ++ reports') := by
  simp [State.after]

theorem alone_round {last : ℕ} (hfirst : first s.engine.pendingFences = some (nextFence last)) :
    Alone e t now (s.goto t (.nqFirst last))
      ((s.after ({ s.engine with pendingFences := popFirst s.engine.pendingFences }.complete
        (nextFence last) now) [.dmaCompleted e (nextFence last)]).goto t
          (.nqFirst (nextFence last))) := by
  refine .head (s.goto t (.nqPop (nextFence last))) (by simp [stepThread, hfirst]) ?_
  refine .head ((s.setPending (popFirst s.engine.pendingFences)).goto t
    (.nqNotify (nextFence last))) (by simp [stepThread]) ?_
  refine .head (((s.setPending (popFirst s.engine.pendingFences)).report
    (.dmaCompleted e (nextFence last))).goto t (.nqStore (nextFence last)))
    (by simp [stepThread]) ?_
  refine .head ((((s.setPending (popFirst s.engine.pendingFences)).report
    (.dmaCompleted e (nextFence last))).storeCompleted (nextFence last)).goto t
      (.nqStamp (nextFence last))) (by simp [stepThread]) ?_
  refine .head _ ?_ (.refl e t now _)
  simp only [stepThread, pc_goto, stampCompleted_goto, goto_goto]
  rfl

theorem reaches_drain {rounds last : ℕ} (hrounds : s.engine.pendingFences.card ≤ rounds) :
    Reaches e t now (s.goto t (.nqFirst last)) (s.engine.drain e now rounds last)
      fun r => (s.after r.1 r.2.2).goto t (.nqSubmitted r.2.1) := by
  induction rounds generalizing s last with
  | zero =>
    rw [Nat.le_zero, Finset.card_eq_zero] at hrounds
    have hfirst : first s.engine.pendingFences = none := by rw [hrounds]; rfl
    refine reaches_next (.head (s.goto t (.nqSubmitted last)) ?_ ?_)
    · simp [stepThread, hfirst]
    · simpa using Alone.refl e t now _
  | succ rounds ih =>
    cases hfirst : first s.engine.pendingFences with
    | none =>
      simp only [EngineState.drain, hfirst]
      refine reaches_next (.head (s.goto t (.nqSubmitted last)) ?_ ?_)
      · simp [stepThread, hfirst]
      · simpa using Alone.refl e t now _
    | some next =>
      simp only [EngineState.drain, hfirst]
      by_cases heq : nextFence last = next
      · subst heq
        rw [if_pos rfl]
        refine (alone_round hfirst).reaches ((ih ?_).bind fun r _ => reaches_next ?_)
        · change (popFirst s.engine.pendingFences).card ≤ rounds
          rw [popFirst_of_first hfirst, Finset.card_erase_of_mem (first_eq_some hfirst).1]
          omega
        · rw [after_after]
          exact .refl e t now _
      · rw [if_neg heq]
        by_cases hgt : nextFence last > next
        · rw [if_pos hgt]
          refine ⟨nofun, fun p hp => ⟨_, .refl e t now _, ?_⟩⟩
          cases hp
          simp [stepThread, hfirst, heq, hgt]
        · rw [if_neg hgt]
          refine reaches_next (.head (s.goto t (.nqSubmitted last)) ?_ ?_)
          · simp [stepThread, hfirst, heq, hgt]
          · simpa using Alone.refl e t now _

theorem alone_answer (e : Engine) (t : τ) (now last : ℕ) (s : State τ) :
    Alone e t now (s.goto t (.nqSubmitted last))
      ((s.after (s.engine.answerPreemption e last).1
        (s.engine.answerPreemption e last).2).release.goto t .idle) := by
  have hunlock : ∀ s : State τ, Alone e t now (s.goto t .nqUnlock) (s.release.goto t .idle) := by
    intro s
    refine .head _ ?_ (.refl e t now _)
    simp only [stepThread, pc_goto, release_goto, goto_goto]
  unfold EngineState.answerPreemption
  by_cases hlast : last = s.engine.lastSubmittedFence
  · rw [if_pos hlast]
    refine .head (s.goto t (.nqSwap last)) (by simp [stepThread, hlast]) ?_
    by_cases hzero : s.engine.lastPreemptionFence = 0
    · rw [if_neg (not_not.2 hzero)]
      refine .head _ ?_ (hunlock _)
      simp [stepThread, hzero, State.goto, State.after]
    · rw [if_pos hzero]
      refine .head (({ s with engine := { s.engine with lastPreemptionFence := 0 } } :
        State τ).goto t (.nqPreempted s.engine.lastPreemptionFence last)) ?_
          (.head _ ?_ (hunlock _))
      · simp [stepThread, hzero, State.goto]
      · simp only [stepThread, pc_goto, report_goto, goto_goto]
        rfl
  · rw [if_neg hlast, after_nil]
    exact .head _ (by simp [stepThread, hlast]) (hunlock _)

theorem reaches_notifyQueuedFences (hlock : s.lock = none) :
    Reaches e t now (s.goto t .nqLoad) (s.engine.notifyQueuedFences e now)
      fun r => (s.after r.1 r.2).goto t .idle := by
  have hstart : Alone e t now (s.goto t .nqLoad)
      (({ s with lock := some t } : State τ).goto t (.nqFirst s.engine.lastCompletedFence)) := by
    refine .head (s.goto t (.nqLock s.engine.lastCompletedFence)) (by simp [stepThread])
      (.head _ ?_ (.refl e t now _))
    simp [stepThread, State.acquire, hlock, State.goto]
  refine hstart.reaches ((reaches_drain (s := { s with lock := some t }) le_rfl).bind
    fun r _ => reaches_next ?_)
  have hrelease : ∀ engine reports, ((({ s with lock := some t } : State τ).after r.1 r.2.2).after
      engine reports).release = s.after engine (r.2.2 ++ reports) := by
    intro engine reports
    simp [State.after, State.release, hlock]
  have hanswer := alone_answer e t now r.2.1 (({ s with lock := some t } : State τ).after r.1 r.2.2)
  rw [hrelease] at hanswer
  exact hanswer

/-- **A call that runs alone.**  If no other thread holds the lock or takes a step, the steps of
`notify_fence` lead to the result of `EngineState.notifyFence`, or to its panic. -/
theorem notifyFence_alone {fence : ℕ} (hlock : s.lock = none) :
    Reaches e t now (s.goto t (.nfLoad fence)) (s.engine.notifyFence e now fence)
      fun r => (s.after r.1 r.2).goto t .idle := by
  unfold EngineState.notifyFence
  by_cases hnext : nextFence s.engine.lastCompletedFence = fence
  · rw [if_pos hnext]
    have hstart : Alone e t now (s.goto t (.nfLoad fence))
        ((s.after (s.engine.complete fence now) [.dmaCompleted e fence]).goto t .nqLoad) := by
      refine .head (s.goto t (.nfNotify fence)) (by simp [stepThread, hnext]) ?_
      refine .head ((s.report (.dmaCompleted e fence)).goto t (.nfStore fence))
        (by simp [stepThread]) ?_
      refine .head (((s.report (.dmaCompleted e fence)).storeCompleted fence).goto t .nfStamp)
        (by simp [stepThread]) (.head _ ?_ (.refl e t now _))
      simp only [stepThread, pc_goto, stampCompleted_goto, goto_goto]
      rfl
    refine hstart.reaches ((reaches_notifyQueuedFences (by exact hlock)).bind
      fun r _ => reaches_next ?_)
    rw [after_after]
    exact .refl e t now _
  · rw [if_neg hnext]
    have hstart : Alone e t now (s.goto t (.nfLoad fence))
        ((s.setPending (insert fence s.engine.pendingFences)).goto t .nqLoad) := by
      refine .head (s.goto t (.nfLock fence)) (by simp [stepThread, hnext]) ?_
      refine .head (({ s with lock := some t } : State τ).goto t (.nfInsert fence))
        (by simp [stepThread, State.acquire, hlock, State.goto]) ?_
      refine .head ((({ s with lock := some t } : State τ).setPending
        (insert fence s.engine.pendingFences)).goto t .nfUnlock) (by simp [stepThread])
        (.head _ ?_ (.refl e t now _))
      simp only [stepThread, pc_goto, release_goto, goto_goto]
      simp [State.release, State.setPending, hlock]
    exact hstart.reaches (reaches_notifyQueuedFences
      (s := s.setPending (insert fence s.engine.pendingFences)) hlock)

theorem notifyFence_alone_first :
    Reaches .graphics () 0 ((init Unit ⟨1, 0, 0, ∅, 0, 0⟩ 1).goto () (.nfLoad 1))
      ((⟨1, 0, 0, ∅, 0, 0⟩ : EngineState).notifyFence .graphics 0 1)
      fun r => ((init Unit ⟨1, 0, 0, ∅, 0, 0⟩ 1).after r.1 r.2).goto () .idle :=
  notifyFence_alone rfl

end Notify

end VirtioGpu
