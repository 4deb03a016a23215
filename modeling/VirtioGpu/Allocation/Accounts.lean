import VirtioGpu.Allocation.InFlight
import VirtioGpu.Data.Holdings

/-!
# Counters and what they count

The busy count of an `Allocation` and the strong count of a `DeviceSpecificAllocation` stand for
things that are somewhere: a mark that somebody will take back, a reference that somebody will
release.  Every step of `inFlightMachine` charges the counters in one way, and moves what they
count from place to place in agreement with it.

* `InFlight.change_of_step` : what a step does; the invariants of this and later files are
  consequences of it.
* `InFlight.busy_of_run` : the busy count of an allocation is the number of times somebody has yet
  to mark it free.
* `InFlight.refsInv_step` : the strong count of a `DeviceSpecificAllocation` is the number of its
  handles and of the references held elsewhere.
-/

namespace VirtioGpu

/-! ### What a step does -/

/-- What a step does to the counters. -/
inductive Charge where
  | none
  /-- An allocation or a device goes. -/
  | gone
  | markBusy (d : ℕ)
  | markFree (d : ℕ)
  | clone (d : ℕ)
  | release (onHandler : Bool) (d : ℕ)
  | openHandle (d : ℕ)
  | takeHandle (d : ℕ)

namespace Charge

@[simp] def marked : Charge → List ℕ
  | markBusy d => [d]
  | _ => []

@[simp] def freed : Charge → List ℕ
  | markFree d => [d]
  | _ => []

@[simp] def cloned : Charge → List ℕ
  | clone d => [d]
  | _ => []

@[simp] def released : Charge → List ℕ
  | release _ d => [d]
  | _ => []

@[simp] def opened : Charge → List ℕ
  | openHandle d => [d]
  | _ => []

/-- The handles whose references are taken. -/
@[simp] def taken : Charge → List ℕ
  | takeHandle d => [d]
  | _ => []

end Charge

namespace Counters

variable {α β : Type} [DecidableEq α] {alloc : ℕ → α} {device : ℕ → β} {c c' : Counters α β}
  {d : ℕ}

/-- The effect of a step on the counters.  An allocation that is gone is not counted. -/
structure Change (alloc : ℕ → α) (k : Charge) (c c' : Counters α β) : Prop where
  busy : (∀ a, c.allocationGone a = false) → ∀ a,
    c'.busy a + k.freed.countP (alloc · = a) = c.busy a + k.marked.countP (alloc · = a)
  refs : ∀ d, k.released.countP (· = d) ≤ c.refs d → c'.refs d + k.released.countP (· = d) =
    c.refs d + k.cloned.countP (· = d) + k.opened.countP (· = d)
  handles : ∀ d,
    c'.handles d + k.taken.countP (· = d) = c.handles d + k.opened.countP (· = d)
  /-- Only open handles are cloned. -/
  cloned : ∀ d ∈ k.cloned, 0 < c.handles d
  gone : k ≠ .gone → c'.allocationGone = c.allocationGone
  /-- Only the release of the last reference detaches. -/
  detaches : c'.detaches = c.detaches ∨ ∃ onHandler d, k = .release onHandler d ∧ c.refs d = 1 ∧
    c'.detaches = c.detaches ++ [(onHandler, d)]

theorem change_refl (c : Counters α β) : Change alloc .none c c :=
  ⟨fun _ _ => rfl, fun _ _ => rfl, fun _ => rfl, by simp, fun _ => rfl, .inl rfl⟩

theorem change_openHandle (c : Counters α β) (d : ℕ) :
    Change alloc (.openHandle d) c (c.openHandle d) := by
  refine ⟨fun _ _ => rfl, fun e _ => ?_, fun e => ?_, by simp, fun _ => rfl,
    .inl rfl⟩
  all_goals
    by_cases he : d = e
    · subst he
      simp [openHandle]
    · simp [openHandle, he, Ne.symm he]

theorem change_takeHandle (h : c.takeHandle d = .next c') : Change alloc (.takeHandle d) c c' := by
  unfold takeHandle at h
  split_ifs at h with hd
  cases h
  refine ⟨fun _ _ => rfl, fun _ _ => rfl, fun e => ?_, by simp, fun _ => rfl,
    .inl rfl⟩
  by_cases he : d = e
  · subst he
    simp only [Function.update_self, Charge.taken, Charge.opened, List.countP_cons,
      List.countP_nil, decide_true, if_true]
    omega
  · simp [he, Ne.symm he]

theorem change_cloneHandle (h : c.cloneHandle d = .next c') : Change alloc (.clone d) c c' := by
  unfold cloneHandle at h
  split_ifs at h with hd
  cases h
  refine ⟨fun _ _ => rfl, fun e _ => ?_, fun _ => rfl, by simpa using hd,
    fun _ => rfl, .inl rfl⟩
  by_cases he : d = e
  · subst he
    simp
  · simp [he, Ne.symm he]

theorem change_markBusy (c : Counters α β) (d : ℕ) :
    Change alloc (.markBusy d) c (c.markBusy alloc d) := by
  unfold markBusy
  split_ifs with hgone
  · exact ⟨fun h => by simp [h] at hgone, fun _ _ => rfl, fun _ => rfl, by simp,
      fun _ => rfl, .inl rfl⟩
  · refine ⟨fun _ a => ?_, fun _ _ => rfl, fun _ => rfl, by simp, fun _ => rfl,
      .inl rfl⟩
    by_cases ha : alloc d = a
    · subst ha
      simp
    · simp [ha, Ne.symm ha]

theorem change_markFree (h : c.markFree alloc device d = .next c') :
    Change alloc (.markFree d) c c' := by
  unfold markFree at h
  split_ifs at h with hdevice hgone
  · cases h
    exact ⟨fun h => by simp [h] at hgone, fun _ _ => rfl, fun _ => rfl, by simp,
      fun _ => rfl, .inl rfl⟩
  · cases h
    refine ⟨fun _ a => ?_, fun _ _ => rfl, fun _ => rfl, by simp, fun _ => rfl,
      .inl rfl⟩
    by_cases ha : alloc d = a
    · subst ha
      simp
    · simp [ha, Ne.symm ha]

theorem change_release (onHandler : Bool) (c : Counters α β) (d : ℕ) :
    Change alloc (.release onHandler d) c (c.release alloc device onHandler d) := by
  refine ⟨fun _ _ => rfl, fun e he => ?_, fun _ => rfl, by simp, fun _ => rfl, ?_⟩
  · by_cases hde : d = e
    · subst hde
      simp only [Charge.released, List.countP_cons, List.countP_nil, decide_true, if_true] at he
      simp only [release, Function.update_self, Charge.released, Charge.cloned, Charge.opened,
        List.countP_cons, List.countP_nil, decide_true, if_true]
      omega
    · simp [release, hde, Ne.symm hde]
  · simp only [release]
    split_ifs with hlast
    · exact .inr ⟨onHandler, d, rfl, hlast.1, rfl⟩
    · exact .inl rfl

end Counters

namespace InFlight

variable {α β : Type} {s t : InFlight α β} {i : ℕ} {c c' : Call} {k : Charge}

/-- What a step does to what is held where, if `k` is what it does to the counters. -/
structure Moves (k : Charge) (s t : InFlight α β) : Prop where
  marks : ∀ p, t.marks.countP p + k.freed.countP p = s.marks.countP p + k.marked.countP p
  held : ∀ p, t.pinned.countP p + t.releasing.countP p + k.released.countP p =
    s.pinned.countP p + s.releasing.countP p + k.cloned.countP p + k.taken.countP p
  pinned : ∀ p, t.pinned.countP p ≤ s.pinned.countP p + k.cloned.countP p
  /-- The handler thread releases what it has. -/
  handler : ∀ d, k = .release true d → d ∈ s.pinned

/-- A call goes from `c` to `c'`; before that the state has become `t`, with the same calls and the
same handler thread. -/
theorem moves_setCall (hcalls : t.calls = s.calls) (hhandler : t.handler = s.handler)
    (hi : s.calls[i]? = some c) (hk : ∀ d, k ≠ .release true d)
    (h : ∀ p, t.waiting.countP p + c'.marks.countP p + k.freed.countP p =
        s.waiting.countP p + c.marks.countP p + k.marked.countP p ∧
      t.waiting.countP p + c'.pinned.countP p + c'.releasing.countP p + k.released.countP p =
        s.waiting.countP p + c.pinned.countP p + c.releasing.countP p + k.cloned.countP p +
          k.taken.countP p ∧
      t.waiting.countP p + c'.pinned.countP p ≤
        s.waiting.countP p + c.pinned.countP p + k.cloned.countP p) :
    Moves k s (t.setCall i c') := by
  have hwaiting : (t.setCall i c').waiting = t.waiting := rfl
  have hhandler : (t.setCall i c').handler = s.handler := hhandler
  have hset : ∀ (f : Call → List ℕ) p, ((t.setCall i c').calls.flatMap f).countP p +
      (f c).countP p = (s.calls.flatMap f).countP p + (f c').countP p := by
    intro f p
    rw [setCall, hcalls]
    exact countP_flatMap_set p f hi c'
  refine ⟨fun p => ?_, fun p => ?_, fun p => ?_, fun d hd => absurd hd (hk d)⟩
  · have := h p
    have := hset Call.marks p
    simp only [InFlight.marks, List.countP_append, hwaiting, hhandler]
    omega
  · have := h p
    have := hset Call.pinned p
    have := hset Call.releasing p
    simp only [InFlight.pinned, InFlight.releasing, List.countP_append, hwaiting, hhandler]
    omega
  · have := h p
    have := hset Call.pinned p
    simp only [InFlight.pinned, List.countP_append, hwaiting, hhandler]
    omega

/-- The handler thread goes on at `x`; before that the state has become `t`. -/
theorem moves_setHandler {x : HandlerCall} (hcalls : t.calls = s.calls)
    (hk : ∀ d, k = .release true d → d ∈ s.handler.held) (hkind : k.cloned = [] ∧ k.taken = [])
    (h : ∀ p, t.waiting.countP p + x.marks.countP p + k.freed.countP p =
        s.waiting.countP p + s.handler.marks.countP p + k.marked.countP p ∧
      t.waiting.countP p + x.held.countP p + k.released.countP p =
        s.waiting.countP p + s.handler.held.countP p) :
    Moves k s (t.setHandler x) := by
  have hwaiting : (t.setHandler x).waiting = t.waiting := rfl
  have hcalls : (t.setHandler x).calls = s.calls := hcalls
  have hhandler : (t.setHandler x).handler = x := rfl
  refine ⟨fun p => ?_, fun p => ?_, fun p => ?_, fun d hd => ?_⟩
  · have := h p
    simp only [InFlight.marks, List.countP_append, hwaiting, hcalls, hhandler]
    omega
  · have := h p
    simp only [InFlight.pinned, InFlight.releasing, List.countP_append, hwaiting, hcalls, hhandler,
      hkind, List.countP_nil]
    omega
  · have := h p
    simp only [InFlight.pinned, List.countP_append, hwaiting, hcalls, hhandler, hkind,
      List.countP_nil]
    omega
  · exact List.mem_append_right _ (List.mem_append_left _ (hk d hd))

/-- A call begins at `c`; before that the state has become `t`. -/
theorem moves_begin (hcalls : t.calls = s.calls) (hhandler : t.handler = s.handler)
    (hk : ∀ d, k ≠ .release true d)
    (h : ∀ p, t.waiting.countP p + c.marks.countP p + k.freed.countP p =
        s.waiting.countP p + k.marked.countP p ∧
      t.waiting.countP p + c.pinned.countP p + c.releasing.countP p + k.released.countP p =
        s.waiting.countP p + k.cloned.countP p + k.taken.countP p ∧
      t.waiting.countP p + c.pinned.countP p ≤ s.waiting.countP p + k.cloned.countP p) :
    Moves k s (t.begin c) := by
  have hwaiting : (t.begin c).waiting = t.waiting := rfl
  have hhandler : (t.begin c).handler = s.handler := hhandler
  have hconcat : ∀ (f : Call → List ℕ) p, ((t.begin c).calls.flatMap f).countP p =
      (s.calls.flatMap f).countP p + (f c).countP p := by
    intro f p
    rw [InFlight.begin, hcalls]
    exact countP_flatMap_concat p f s.calls c
  refine ⟨fun p => ?_, fun p => ?_, fun p => ?_, fun d hd => absurd hd (hk d)⟩
  · have := h p
    simp only [InFlight.marks, List.countP_append, hwaiting, hhandler, hconcat]
    omega
  · have := h p
    simp only [InFlight.pinned, InFlight.releasing, List.countP_append, hwaiting, hhandler, hconcat]
    omega
  · have := h p
    simp only [InFlight.pinned, List.countP_append, hwaiting, hhandler, hconcat]
    omega

theorem moves_setCounters (hk : k.marked = [] ∧ k.freed = [] ∧ k.cloned = [] ∧ k.released = [] ∧
    k.taken = []) (x : Counters α β) : Moves k s (s.setCounters x) := by
  obtain ⟨hm, hf, hc, hr, ht⟩ := hk
  refine ⟨fun p => ?_, fun p => ?_, fun p => ?_, fun d hd => ?_⟩
  · rw [hm, hf]
    rfl
  · rw [hc, hr, ht]
    rfl
  · rw [hc]
    exact le_rfl
  · rw [hd] at hr
    cases hr

/-! #### Private data, requests and batches -/

section
variable (s : InFlight α β) (p : ℕ → Bool)

@[simp] theorem toCounters_setCall (i : ℕ) (c : Call) :
    (s.setCall i c).toCounters = s.toCounters := rfl

@[simp] theorem toCounters_setHandler (x : HandlerCall) :
    (s.setHandler x).toCounters = s.toCounters := rfl

theorem releaseBatch_frame (batch : ℕ) : (s.releaseBatch batch).1.toCounters = s.toCounters ∧
    (s.releaseBatch batch).1.calls = s.calls ∧ (s.releaseBatch batch).1.handler = s.handler := by
  unfold releaseBatch
  cases s.batches[batch]? with
  | none => simp
  | some =>
    simp only
    split_ifs <;> simp

@[simp] theorem waiting_setCounters (c : Counters α β) :
    (s.setCounters c).waiting = s.waiting := rfl

theorem countP_waiting_write (block : CommandDmaPrivate) :
    (s.write block).waiting.countP p = s.waiting.countP p + block.allocations.countP p := by
  simp only [waiting, write, List.countP_append, countP_flatMap_concat]
  omega

theorem countP_waiting_request (c : DmaCallback) :
    (s.request c).waiting.countP p = s.waiting.countP p + c.allocations.countP p := by
  simp only [waiting, request, List.countP_append, countP_flatMap_concat]
  omega

theorem countP_waiting_share (allocations : List ℕ) :
    (s.share allocations).waiting.countP p = s.waiting.countP p + allocations.countP p := by
  simp only [waiting, share, List.countP_append, countP_flatMap_concat]
  omega

theorem waiting_setStrong (batch : ℕ) (f : ℕ → ℕ) : (s.setStrong batch f).waiting = s.waiting := by
  have hmodify : ∀ (l : List SharedBatch) n,
      (l.modify n fun x => ⟨f x.strong, x.allocations⟩).flatMap SharedBatch.allocations =
        l.flatMap SharedBatch.allocations := by
    intro l
    induction l with
    | nil => simp
    | cons x l ih =>
      intro n
      cases n with
      | zero => simp
      | succ => simp [ih]
  simp only [waiting, setStrong, hmodify]

theorem countP_waiting_releaseBatch (batch : ℕ) :
    (s.releaseBatch batch).1.waiting.countP p +
        (Dropping.markingOf (s.releaseBatch batch).2).countP p = s.waiting.countP p ∧
      Dropping.releasingOf (s.releaseBatch batch).2 =
        Dropping.markingOf (s.releaseBatch batch).2 := by
  unfold releaseBatch
  cases hx : s.batches[batch]? with
  | none => simp [Dropping.markingOf, Dropping.releasingOf]
  | some x =>
    simp only
    split_ifs
    · have := countP_flatMap_set p SharedBatch.allocations hx ⟨0, []⟩
      refine ⟨?_, rfl⟩
      simp only [waiting, List.countP_append, Dropping.markingOf, Dropping.batch,
        List.countP_nil] at this ⊢
      omega
    · have := countP_flatMap_set p SharedBatch.allocations hx ⟨x.strong - 1, x.allocations⟩
      refine ⟨?_, rfl⟩
      simp only [waiting, List.countP_append, Dropping.markingOf, List.countP_nil] at this ⊢
      omega

theorem countP_waiting_take {k : ℕ} {block : CommandDmaPrivate} (h : s.blocks[k]? = some block) :
    (s.take k).waiting.countP p + block.allocations.countP p = s.waiting.countP p := by
  have := countP_flatMap_eraseIdx p CommandDmaPrivate.allocations h
  simp only [waiting, take, List.countP_append]
  omega

theorem countP_waiting_unqueue {k : ℕ} {c : DmaCallback} (h : s.queued[k]? = some c) :
    (s.unqueue k).waiting.countP p + c.allocations.countP p = s.waiting.countP p := by
  have := countP_flatMap_eraseIdx p DmaCallback.allocations h
  simp only [waiting, unqueue, List.countP_append]
  omega

end

/-! #### Every step -/

variable [DecidableEq α] {alloc : ℕ → α} {device : ℕ → β}

/-- What a step does, with `k` its effect on the counters. -/
structure Change (alloc : ℕ → α) (k : Charge) (s t : InFlight α β) : Prop where
  counters : Counters.Change alloc k s.toCounters t.toCounters
  moves : Moves k s t

theorem change_setCall (hcounters : t.toCounters = s.toCounters) (hcalls : t.calls = s.calls)
    (hhandler : t.handler = s.handler) (hi : s.calls[i]? = some c)
    (h : ∀ p, t.waiting.countP p + c'.marks.countP p = s.waiting.countP p + c.marks.countP p ∧
      t.waiting.countP p + c'.pinned.countP p + c'.releasing.countP p =
        s.waiting.countP p + c.pinned.countP p + c.releasing.countP p ∧
      t.waiting.countP p + c'.pinned.countP p ≤ s.waiting.countP p + c.pinned.countP p) :
    Change alloc .none s (t.setCall i c') := by
  refine ⟨?_, moves_setCall hcalls hhandler hi (by simp) fun p => ?_⟩
  · rw [toCounters_setCall, hcounters]
    exact Counters.change_refl _
  · simpa using h p

theorem change_setHandler {x : HandlerCall} (hcounters : t.toCounters = s.toCounters)
    (hcalls : t.calls = s.calls)
    (h : ∀ p, t.waiting.countP p + x.marks.countP p =
        s.waiting.countP p + s.handler.marks.countP p ∧
      t.waiting.countP p + x.held.countP p = s.waiting.countP p + s.handler.held.countP p) :
    Change alloc .none s (t.setHandler x) := by
  refine ⟨?_, moves_setHandler hcalls (by simp) (by simp) fun p => ?_⟩
  · rw [toCounters_setHandler, hcounters]
    exact Counters.change_refl _
  · simpa using h p

theorem change_begin (hcounters : t.toCounters = s.toCounters) (hcalls : t.calls = s.calls)
    (hhandler : t.handler = s.handler)
    (h : ∀ p, t.waiting.countP p + c.marks.countP p = s.waiting.countP p ∧
      t.waiting.countP p + c.pinned.countP p + c.releasing.countP p = s.waiting.countP p) :
    Change alloc .none s (t.begin c) := by
  refine ⟨?_, moves_begin hcalls hhandler (by simp) fun p => ?_⟩
  · rw [show (t.begin c).toCounters = t.toCounters from rfl, hcounters]
    exact Counters.change_refl _
  · have := h p
    simp only [Charge.freed, Charge.marked, Charge.released, Charge.cloned, Charge.taken,
      List.countP_nil]
    omega

theorem change_stepSubmit {stops : Bool} {block : CommandDmaPrivate}
    (hi : s.calls[i]? = some (.submit block)) :
    Change alloc .none s (s.stepSubmit i stops block) := by
  have hdrop : Change alloc .none s (s.setCall i (.dropping (.batch block.allocations))) :=
    change_setCall rfl rfl rfl hi fun p => by simp [Dropping.batch]
  unfold stepSubmit
  split
  · exact hdrop
  · split_ifs
    · exact hdrop
    · exact change_setCall rfl rfl rfl hi fun p => by simp [countP_waiting_request]
  · exact change_setCall rfl rfl rfl hi fun p => by simp [countP_waiting_share]

theorem change_stepDropping {onHandler : Bool} {x : Dropping} {c : Counters α β}
    {r : Counters α β × Option Dropping} (h : c.stepDropping alloc device onHandler x = .next r) :
    ∃ k, Counters.Change alloc k c r.1 ∧ (k.marked = [] ∧ k.cloned = [] ∧ k.taken = []) ∧
      (∀ b d, k = .release b d → b = onHandler ∧ d ∈ x.releasing) ∧ k ≠ .gone ∧
      ∀ p, (Dropping.markingOf r.2).countP p + k.freed.countP p = x.marking.countP p ∧
        (Dropping.releasingOf r.2).countP p + k.released.countP p = x.releasing.countP p := by
  obtain ⟨marking, releasing⟩ := x
  cases marking with
  | cons d =>
    obtain ⟨c', hc', hr⟩ := Outcome.bind_eq_next.1 h
    cases hr
    refine ⟨.markFree d, Counters.change_markFree hc', by simp, by simp, by simp, fun p => ?_⟩
    simp [Dropping.markingOf, Dropping.releasingOf, List.countP_cons]
  | nil =>
    cases releasing with
    | cons d =>
      cases h
      refine ⟨.release onHandler d, Counters.change_release onHandler c d, by simp, ?_, by simp,
        fun p => ?_⟩
      · rintro b e h
        cases h
        simp
      · simp [Dropping.markingOf, Dropping.releasingOf, List.countP_cons]
    | nil =>
      cases h
      exact ⟨.none, Counters.change_refl c, by simp, by simp, by simp,
        by simp [Dropping.markingOf, Dropping.releasingOf]⟩

theorem change_stepCall {stops : Bool} (hi : s.calls[i]? = some c)
    (h : s.stepCall alloc device i stops c = .next t) :
    ∃ k, Change alloc k s t ∧ k ≠ .gone ∧ ∀ d, k ≠ .takeHandle d := by
  cases c with
  | render rest block =>
    cases rest with
    | nil =>
      cases h
      exact ⟨.none, change_setCall rfl rfl rfl hi fun p => by simp [countP_waiting_write], by simp⟩
    | cons d rest =>
      obtain ⟨c, hc, h⟩ := Outcome.bind_eq_next.1 h
      cases h
      refine ⟨.clone d, ⟨Counters.change_cloneHandle hc,
        moves_setCall rfl rfl hi (by simp) fun p => ?_⟩, by simp⟩
      simp [List.countP_cons]
      omega
  | renderMark d rest block =>
    cases h
    refine ⟨.markBusy d, ⟨Counters.change_markBusy _ d,
      moves_setCall rfl rfl hi (by simp) fun p => ?_⟩, by simp⟩
    simp [List.countP_append, List.countP_cons]
    omega
  | presentSource src =>
    obtain ⟨c, hc, h⟩ := Outcome.bind_eq_next.1 h
    cases h
    refine ⟨.clone src, ⟨Counters.change_cloneHandle hc,
      moves_setCall rfl rfl hi (by simp) fun p => ?_⟩, by simp⟩
    simp
  | presentDestination src dst commands =>
    unfold stepCall at h
    split_ifs at h
    · cases h
      exact ⟨.none, change_setCall rfl rfl rfl hi fun p => by simp, by simp⟩
    · obtain ⟨c, hc, h⟩ := Outcome.bind_eq_next.1 h
      cases h
      refine ⟨.clone dst, ⟨Counters.change_cloneHandle hc,
        moves_setCall rfl rfl hi (by simp) fun p => ?_⟩, by simp⟩
      simp [List.countP_cons]
      omega
  | presentChecks src dst commands =>
    unfold stepCall at h
    split_ifs at h
    · cases h
      refine ⟨.none, change_setCall rfl rfl rfl hi fun p => ?_, by simp⟩
      simp [List.countP_cons]
      omega
    · cases h
      refine ⟨.markBusy dst, ⟨Counters.change_markBusy _ dst,
        moves_setCall rfl rfl hi (by simp) fun p => ?_⟩, by simp⟩
      simp
  | presentMarkSource src dst commands =>
    cases h
    refine ⟨.markBusy src, ⟨Counters.change_markBusy _ src,
      moves_setCall rfl rfl hi (by simp) fun p => ?_⟩, by simp⟩
    simp [List.countP_cons]
    omega
  | presentWrite =>
    cases h
    exact ⟨.none, change_setCall rfl rfl rfl hi fun p => by simp [countP_waiting_write], by simp⟩
  | submit =>
    cases h
    exact ⟨.none, change_stepSubmit hi, by simp⟩
  | batchClone batch commands =>
    cases commands with
    | nil =>
      cases h
      exact ⟨.none, change_setCall rfl rfl rfl hi fun p => by simp, by simp⟩
    | cons =>
      simp only [stepCall] at h
      split_ifs at h
      cases h
      exact ⟨.none, change_setCall rfl rfl rfl hi fun p => by simp [waiting_setStrong], by simp⟩
  | batchPush =>
    unfold stepCall at h
    split_ifs at h
    · cases h
      exact ⟨.none, change_setCall rfl rfl rfl hi fun p => by simp [waiting_setStrong], by simp⟩
    · cases h
      refine ⟨.none, change_setCall rfl rfl rfl hi fun p => ?_, by simp⟩
      simp [countP_waiting_request, DmaCallback.allocations]
  | batchRelease batch =>
    cases h
    obtain ⟨hcounters, hcalls, hhandler⟩ := releaseBatch_frame s batch
    refine ⟨.none, change_setCall hcounters hcalls hhandler hi fun p => ?_, by simp⟩
    obtain ⟨hwaiting, heq⟩ := countP_waiting_releaseBatch s p batch
    rw [Call.marks_elim, Call.pinned_elim, Call.releasing_elim, heq]
    simp only [Call.marks, Call.pinned, Call.releasing, List.countP_nil]
    omega
  | dropping x =>
    obtain ⟨r, hr, h⟩ := Outcome.bind_eq_next.1 h
    cases h
    obtain ⟨k, hk, ⟨hm, hc, ht⟩, hrelease, hgone, hcount⟩ := change_stepDropping hr
    refine ⟨k, ⟨hk, moves_setCall rfl rfl hi (fun d hd => ?_) fun p => ?_⟩, hgone, fun d hd => ?_⟩
    · cases (hrelease true d hd).1
    · have := hcount p
      rw [Call.marks_elim, Call.pinned_elim, Call.releasing_elim, hm, hc, ht, waiting_setCounters]
      simp only [Call.marks, Call.pinned, Call.releasing, List.countP_nil]
      omega
    · rw [hd] at ht
      cases ht
  | returned => cases h

theorem change_stepHandler (h : s.stepHandler alloc device = .next t) :
    ∃ k, Change alloc k s t ∧ k ≠ .gone ∧ ∀ d, k ≠ .takeHandle d := by
  unfold stepHandler at h
  split at h
  · cases h
  · rename_i hx
    cases h
    refine ⟨.none, change_setHandler rfl rfl fun p => ?_, by simp⟩
    simp [hx, DmaCallback.allocations]
  · rename_i l hx
    cases h
    refine ⟨.none, change_setHandler rfl rfl fun p => ?_, by simp⟩
    simp [hx, DmaCallback.allocations, Dropping.batch]
  · rename_i batch hx
    cases h
    obtain ⟨hcounters, hcalls, -⟩ := releaseBatch_frame s batch
    refine ⟨.none, change_setHandler hcounters hcalls fun p => ?_, by simp⟩
    obtain ⟨hwaiting, heq⟩ := countP_waiting_releaseBatch s p batch
    rw [HandlerCall.marks_elim, HandlerCall.held_elim, heq, hx]
    simp only [HandlerCall.marks, HandlerCall.held, DmaCallback.allocations, List.countP_nil]
    omega
  · rename_i x hx
    obtain ⟨r, hr, h⟩ := Outcome.bind_eq_next.1 h
    cases h
    obtain ⟨k, hk, ⟨hm, hc, ht⟩, hrelease, hgone, hcount⟩ := change_stepDropping hr
    refine ⟨k, ⟨hk, moves_setHandler rfl (fun d hd => ?_) ⟨hc, ht⟩ fun p => ?_⟩, hgone,
      fun d hd => ?_⟩
    · rw [hx]
      exact (hrelease true d hd).2
    · have := hcount p
      rw [HandlerCall.marks_elim, HandlerCall.held_elim, hm, hx, waiting_setCounters]
      simp only [HandlerCall.marks, HandlerCall.held, List.countP_nil]
      omega
    · rw [hd] at ht
      cases ht

variable [DecidableEq β] {a : InFlightAct α β}

/-- **What a step does.**  It has one effect on the counters, which agrees with what it does to what
is held where.  Allocations and devices only go by themselves, and only `close_allocation` takes the
reference of a handle. -/
theorem change_of_step (h : step alloc device s a = .next t) :
    ∃ k, Change alloc k s t ∧ (k = .gone → a.drops) ∧ ∀ d, k = .takeHandle d → a = .close d := by
  cases a with
  | attach d | attachAgain d =>
    simp only [step] at h
    split_ifs at h
    cases h
    exact ⟨.openHandle d, ⟨Counters.change_openHandle _ d, moves_setCounters (by simp) _⟩, by simp⟩
  | close d =>
    obtain ⟨c, hc, h⟩ := Outcome.bind_eq_next.1 h
    cases h
    refine ⟨.takeHandle d, ⟨Counters.change_takeHandle hc,
      moves_begin rfl rfl (by simp) fun p => ?_⟩, by simp, by simp⟩
    simp
  | dropAllocation a | dropDevice a =>
    cases h
    refine ⟨.gone, ⟨⟨fun _ _ => rfl, fun _ _ => rfl, fun _ => rfl, by simp, by simp, .inl rfl⟩, ?_⟩,
      fun _ => trivial, by simp⟩
    exact moves_setCounters (by simp) _
  | render =>
    simp only [step] at h
    split at h
    · cases h
      refine ⟨.none, change_begin rfl rfl rfl fun p => ?_, by simp⟩
      simp
    · cases h
  | present =>
    cases h
    refine ⟨.none, change_begin rfl rfl rfl fun p => ?_, by simp⟩
    simp
  | submit k =>
    simp only [step] at h
    split at h
    · rename_i block hblock
      cases h
      refine ⟨.none, change_begin rfl rfl rfl fun p => ?_, by simp⟩
      have := countP_waiting_take s p hblock
      simp
      omega
    · cases h
  | call i stops =>
    simp only [step] at h
    split at h
    · rename_i c hi
      obtain ⟨k, hk, hgone, htake⟩ := change_stepCall hi h
      exact ⟨k, hk, fun hk => absurd hk hgone, fun d hd => absurd hd (htake d)⟩
    · cases h
  | complete k =>
    simp only [step] at h
    split at h
    · rename_i c hidle hk
      cases h
      refine ⟨.none, change_setHandler rfl rfl fun p => ?_, by simp⟩
      have := countP_waiting_unqueue s p hk
      simp [hidle]
      omega
    · cases h
  | handler =>
    obtain ⟨k, hk, hgone, htake⟩ := change_stepHandler h
    exact ⟨k, hk, fun hk => absurd hk hgone, fun d hd => absurd hd (htake d)⟩

/-! ### The counters along a run -/

/-- The strong count of a `DeviceSpecificAllocation` is the number of the references. -/
def RefsInv (s : InFlight α β) : Prop :=
  ∀ d, s.refs d = s.handles d + s.pinned.countP (· = d) + s.releasing.countP (· = d)

theorem refsInv_step (hinv : RefsInv s) (h : step alloc device s a = .next t) : RefsInv t := by
  obtain ⟨k, ⟨hcounters, hmoves⟩, -⟩ := change_of_step h
  intro d
  have hheld := hmoves.held fun e => decide (e = d)
  have hhandles := hcounters.handles d
  have hs := hinv d
  have hle : k.released.countP (· = d) ≤ s.refs d := by
    -- A step that releases a reference clones none and takes none from a handle.
    cases k <;> simp only [Charge.released, Charge.cloned, Charge.taken, List.countP_nil,
      Nat.zero_le] at hheld ⊢
    omega
  have hrefs := hcounters.refs d hle
  omega

/-- Nothing is gone, and the busy count of an allocation is the number of marks. -/
structure BusyInv (alloc : ℕ → α) (s : InFlight α β) : Prop where
  alive : ∀ a, s.allocationGone a = false
  busy : ∀ a, s.busy a = s.marks.countP (alloc · = a)

theorem busyInv_step (hinv : BusyInv alloc s) (ha : ¬ a.drops)
    (h : step alloc device s a = .next t) : BusyInv alloc t := by
  obtain ⟨k, ⟨hcounters, hmoves⟩, hgone, -⟩ := change_of_step h
  have halive := hcounters.gone fun hk => ha (hgone hk)
  refine ⟨fun b => by rw [halive]; exact hinv.alive b, fun b => ?_⟩
  have hmarks := hmoves.marks fun d => decide (alloc d = b)
  have hcount := hcounters.busy hinv.alive b
  have hs := hinv.busy b
  omega

theorem busy_of_run {as : List (InFlightAct α β)} (has : ∀ a ∈ as, ¬ a.drops)
    (h : (inFlightMachine alloc device).run init as = some s) : BusyInv alloc s :=
  Machine.run_induction (I := BusyInv alloc)
    (fun _ a _ hinv (ha : ¬ a.drops) hstep => busyInv_step hinv ha hstep)
    ⟨fun _ => rfl, fun _ => rfl⟩ (Machine.meets_of_forall_mem has) h

end InFlight

end VirtioGpu
