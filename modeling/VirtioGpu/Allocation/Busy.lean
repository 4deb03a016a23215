import VirtioGpu.Allocation.Accounts

/-!
# The busy count

`render` and `present` raise the busy count of an allocation, and `AllocationsBatch::drop` lowers
it, in another thread and after the allocation has been in private data and in callbacks of
requests.  While nobody is in the middle of raising or lowering a count, it is the number of times
the allocation occurs in private data and in batches.

That no batch is forgotten once its requests have completed is a matter of the strong counts of the
shared batches: each is the number of the references that calls, requests and the handler thread
have, and there are no allocations in a batch without a reference.

* `busy_eq_occurrences` : the busy count along every run.
-/

namespace VirtioGpu

/-! ### The strong counts of the shared batches -/

/-- `n` is the number of references to each of the batches. -/
structure Counted (batches : List SharedBatch) (n : ℕ → ℕ) : Prop where
  strong : ∀ {b : ℕ} {x : SharedBatch}, batches[b]? = some x → x.strong = n b
  /-- The allocations leave with the last reference. -/
  empty : ∀ {b : ℕ} {x : SharedBatch}, batches[b]? = some x → x.strong = 0 → x.allocations = []
  unknown : ∀ {b : ℕ}, batches.length ≤ b → n b = 0

namespace Counted

variable {batches : List SharedBatch} {n n' : ℕ → ℕ} {b : ℕ} {x y : SharedBatch}

theorem congr (h : Counted batches n) (hn : ∀ b, n' b = n b) : Counted batches n' :=
  (funext hn : n' = n) ▸ h

theorem exists_batch (h : Counted batches n) (hb : 0 < n b) : ∃ x, batches[b]? = some x := by
  cases hx : batches[b]? with
  | some x => exact ⟨x, rfl⟩
  | none =>
    have := h.unknown (List.getElem?_eq_none_iff.1 hx)
    omega

theorem concat (h : Counted batches n) (allocations : List ℕ)
    (hn : ∀ b, n' b = n b + if b = batches.length then 1 else 0) :
    Counted (batches ++ [⟨1, allocations⟩]) n' := by
  have hlast := h.unknown le_rfl
  have hcases : ∀ {b x}, (batches ++ [⟨1, allocations⟩])[b]? = some x →
      (b < batches.length ∧ batches[b]? = some x) ∨
        (b = batches.length ∧ x = ⟨1, allocations⟩) := by
    intro b x hx
    rw [List.getElem?_append] at hx
    split_ifs at hx with hb
    · exact .inl ⟨hb, hx⟩
    · obtain ⟨h0, hx⟩ := List.getElem?_eq_some_iff.1 hx
      simp only [List.length_singleton] at h0
      refine .inr ⟨by omega, ?_⟩
      rw [← hx, List.getElem_singleton]
  refine ⟨fun {b x} hx => ?_, fun {b x} hx hzero => ?_, fun {b} hb => ?_⟩
  · rcases hcases hx with ⟨hb, hx⟩ | ⟨rfl, rfl⟩
    · rw [hn, if_neg (by omega), h.strong hx]
      rfl
    · rw [hn, if_pos rfl, hlast]
  · rcases hcases hx with ⟨-, hx⟩ | ⟨-, rfl⟩
    · exact h.empty hx hzero
    · cases hzero
  · rw [List.length_append, List.length_singleton] at hb
    rw [hn, if_neg (by omega), h.unknown (by omega)]

theorem set (h : Counted batches n) (hb : batches[b]? = some x) (hy : y.strong = n' b)
    (hempty : y.strong = 0 → y.allocations = []) (hn : ∀ c, c ≠ b → n' c = n c) :
    Counted (batches.set b y) n' := by
  obtain ⟨hlt, -⟩ := List.getElem?_eq_some_iff.1 hb
  have hcases : ∀ {c z}, (batches.set b y)[c]? = some z →
      (c = b ∧ z = y) ∨ (c ≠ b ∧ batches[c]? = some z) := by
    intro c z hz
    by_cases hc : c = b
    · subst hc
      rw [List.getElem?_set_self hlt] at hz
      exact .inl ⟨rfl, (Option.some.inj hz).symm⟩
    · rw [List.getElem?_set_ne (Ne.symm hc)] at hz
      exact .inr ⟨hc, hz⟩
  refine ⟨fun {c z} hz => ?_, fun {c z} hz hzero => ?_, fun {c} hc => ?_⟩
  · rcases hcases hz with ⟨rfl, rfl⟩ | ⟨hc, hz⟩
    · exact hy
    · rw [hn c hc]
      exact h.strong hz
  · rcases hcases hz with ⟨rfl, rfl⟩ | ⟨-, hz⟩
    · exact hempty hzero
    · exact h.empty hz hzero
  · rw [List.length_set] at hc
    rw [hn c (by omega), h.unknown hc]

end Counted

namespace InFlight

variable {α β : Type} {s t : InFlight α β} {i : ℕ} {c c' : Call} {n' : ℕ → ℕ} {b : ℕ}

theorem counted_clone {n : ℕ → ℕ} (h : Counted s.batches n) (hb : 0 < n b)
    (hn : ∀ c, n' c = n c + if c = b then 1 else 0) :
    Counted (s.setStrong b (· + 1)).batches n' := by
  obtain ⟨x, hx⟩ := h.exists_batch hb
  have hstrong := h.strong hx
  have hself := hn b
  rw [if_pos rfl] at hself
  simp only [setStrong, List.modify_eq_set_getElem?, hx]
  refine h.set hx ?_ (fun hzero => ?_) fun c hc => by rw [hn c, if_neg hc, Nat.add_zero]
  · exact (congrArg (· + 1) hstrong).trans hself.symm
  · cases hzero

theorem counted_unclone {n : ℕ → ℕ} (h : Counted s.batches n) (hb : 2 ≤ n b)
    (hn : ∀ c, n' c + (if c = b then 1 else 0) = n c) :
    Counted (s.setStrong b (· - 1)).batches n' := by
  obtain ⟨x, hx⟩ := h.exists_batch (by omega : 0 < n b)
  have hstrong := h.strong hx
  have hself := hn b
  rw [if_pos rfl] at hself
  simp only [setStrong, List.modify_eq_set_getElem?, hx]
  refine h.set hx ?_ (fun hzero => ?_) fun c hc => ?_
  · exact (congrArg (· - 1) hstrong).trans (by omega)
  · have hzero : x.strong - 1 = 0 := hzero
    omega
  · rw [← hn c, if_neg hc, Nat.add_zero]

theorem counted_releaseBatch {n : ℕ → ℕ} (h : Counted s.batches n) (hb : 0 < n b)
    (hn : ∀ c, n' c + (if c = b then 1 else 0) = n c) :
    Counted (s.releaseBatch b).1.batches n' := by
  obtain ⟨x, hx⟩ := h.exists_batch hb
  have hstrong := h.strong hx
  have hself := hn b
  rw [if_pos rfl] at hself
  have hother : ∀ c, c ≠ b → n' c = n c := fun c hc => by rw [← hn c, if_neg hc, Nat.add_zero]
  simp only [releaseBatch, hx]
  split_ifs with hone
  · exact h.set hx (by simp only; omega) (fun _ => rfl) hother
  · exact h.set hx (by simp only; omega) (fun hzero => by simp only at hzero; omega) hother

/-- The strong counts are the numbers of references. -/
def ArcsInv (s : InFlight α β) : Prop := Counted s.batches fun b => s.arcs.countP (· = b)

variable (p : ℕ → Bool)

theorem countP_arcs_setCall (hi : t.calls[i]? = some c) (c' : Call) :
    (t.setCall i c').arcs.countP p + c.arcs.countP p = t.arcs.countP p + c'.arcs.countP p := by
  have := countP_flatMap_set p Call.arcs hi c'
  simp only [arcs, setCall, List.countP_append]
  omega

theorem countP_arcs_le (hi : s.calls[i]? = some c) : c.arcs.countP p ≤ s.arcs.countP p := by
  have := countP_le_countP_flatMap p Call.arcs hi
  simp only [arcs, List.countP_append]
  omega

theorem countP_arcs_setHandler (x : HandlerCall) :
    (t.setHandler x).arcs.countP p + t.handler.arcs.countP p =
      t.arcs.countP p + x.arcs.countP p := by
  simp only [arcs, setHandler, List.countP_append]
  omega

theorem countP_arcs_request (c : DmaCallback) :
    (s.request c).arcs.countP p = s.arcs.countP p + c.arcs.countP p := by
  simp only [arcs, request, List.countP_append, countP_flatMap_concat]
  omega

theorem countP_arcs_unqueue {k : ℕ} {c : DmaCallback} (h : s.queued[k]? = some c) :
    (s.unqueue k).arcs.countP p + c.arcs.countP p = s.arcs.countP p := by
  have := countP_flatMap_eraseIdx p DmaCallback.arcs h
  simp only [arcs, unqueue, List.countP_append]
  omega

theorem countP_arcs_begin (c : Call) :
    (s.begin c).arcs.countP p = s.arcs.countP p + c.arcs.countP p := by
  simp only [arcs, InFlight.begin, List.countP_append, countP_flatMap_concat]
  omega

theorem arcs_releaseBatch (s : InFlight α β) (b : ℕ) :
    (s.releaseBatch b).1.arcs = s.arcs := by
  unfold releaseBatch
  cases s.batches[b]? with
  | none => rfl
  | some =>
    simp only
    split_ifs <;> rfl

theorem arcsInv_setCall (h : ArcsInv s) (hi : s.calls[i]? = some c) (hcalls : t.calls = s.calls)
    (hbatches : t.batches = s.batches) (harcs : t.arcs = s.arcs) (hc : c.arcs = c'.arcs) :
    ArcsInv (t.setCall i c') := by
  have hset := fun b => countP_arcs_setCall (t := t) (fun x => decide (x = b)) (hcalls ▸ hi) c'
  have h' : Counted (t.setCall i c').batches fun b => s.arcs.countP (· = b) := by
    rw [show (t.setCall i c').batches = s.batches from hbatches]
    exact h
  refine h'.congr fun b => ?_
  have := hset b
  rw [harcs, hc] at this
  omega

theorem arcsInv_stepSubmit (h : ArcsInv s) {stops : Bool} {block : CommandDmaPrivate}
    (hi : s.calls[i]? = some (.submit block)) : ArcsInv (s.stepSubmit i stops block) := by
  have hdrop : ArcsInv (s.setCall i (.dropping (.batch block.allocations))) :=
    arcsInv_setCall h hi rfl rfl rfl rfl
  unfold stepSubmit
  split
  · exact hdrop
  · split_ifs
    · exact hdrop
    · refine Counted.congr (n := fun b => s.arcs.countP (· = b)) h fun b => ?_
      have hset := countP_arcs_setCall (t := s.request (.single block.allocations))
        (fun x => decide (x = b)) hi .returned
      simp only [countP_arcs_request, DmaCallback.arcs_single, Call.arcs, List.countP_nil] at hset
      omega
  · refine Counted.concat (n := fun b => s.arcs.countP (· = b)) h block.allocations fun b => ?_
    have hset := countP_arcs_setCall (t := s.share block.allocations) (fun x => decide (x = b)) hi
      (.batchClone s.batches.length block.commands)
    have hshare : (s.share block.allocations).arcs = s.arcs := rfl
    simp only [hshare, Call.arcs, List.countP_nil, List.countP_cons, decide_eq_true_eq] at hset
    simp only [eq_comm (a := b)]
    omega

theorem batches_empty (h : ArcsInv s) (harcs : s.arcs = []) :
    s.batches.flatMap SharedBatch.allocations = [] := by
  refine List.flatMap_eq_nil_iff.2 fun x hx => ?_
  obtain ⟨b, hb⟩ := List.getElem?_of_mem hx
  refine h.empty hb ?_
  rw [h.strong hb, harcs, List.countP_nil]

section
variable [DecidableEq α] {alloc : ℕ → α} {device : ℕ → β}

theorem arcsInv_stepCall (h : ArcsInv s) {stops : Bool} (hi : s.calls[i]? = some c)
    (hstep : s.stepCall alloc device i stops c = .next t) : ArcsInv t := by
  cases c with
  | render rest =>
    cases rest with
    | nil =>
      cases hstep
      exact arcsInv_setCall h hi rfl rfl rfl rfl
    | cons =>
      obtain ⟨c, -, hstep⟩ := Outcome.bind_eq_next.1 hstep
      cases hstep
      exact arcsInv_setCall h hi rfl rfl rfl rfl
  | renderMark d rest block | presentMarkSource src dst commands
  | presentWrite =>
    cases hstep
    exact arcsInv_setCall h hi rfl rfl rfl rfl
  | presentSource =>
    obtain ⟨c, -, hstep⟩ := Outcome.bind_eq_next.1 hstep
    cases hstep
    exact arcsInv_setCall h hi rfl rfl rfl rfl
  | presentDestination =>
    simp only [stepCall] at hstep
    split_ifs at hstep
    · cases hstep
      exact arcsInv_setCall h hi rfl rfl rfl rfl
    · obtain ⟨c, -, hstep⟩ := Outcome.bind_eq_next.1 hstep
      cases hstep
      exact arcsInv_setCall h hi rfl rfl rfl rfl
  | presentChecks =>
    simp only [stepCall] at hstep
    split_ifs at hstep
    all_goals
      cases hstep
      exact arcsInv_setCall h hi rfl rfl rfl rfl
  | submit =>
    cases hstep
    exact arcsInv_stepSubmit h hi
  | batchClone batch commands =>
    cases commands with
    | nil =>
      cases hstep
      exact arcsInv_setCall h hi rfl rfl rfl rfl
    | cons cmd commands =>
      simp only [stepCall] at hstep
      split_ifs at hstep
      cases hstep
      have harcs : (s.setStrong batch (· + 1)).arcs = s.arcs := rfl
      refine counted_clone h (b := batch) ?_ fun b => ?_
      · have := countP_arcs_le (fun x => decide (x = batch)) hi
        simpa using this
      · have := countP_arcs_setCall (t := s.setStrong batch (· + 1)) (fun x => decide (x = b)) hi
          (.batchPush batch commands)
        simp only [harcs, Call.arcs, List.countP_cons, List.countP_nil, decide_eq_true_eq,
          eq_comm (a := batch)] at this
        omega
  | batchPush batch commands =>
    simp only [stepCall] at hstep
    split_ifs at hstep
    · cases hstep
      have harcs : (s.setStrong batch (· - 1)).arcs = s.arcs := rfl
      refine counted_unclone h (b := batch) ?_ fun b => ?_
      · have := countP_arcs_le (fun x => decide (x = batch)) hi
        simpa using this
      · have := countP_arcs_setCall (t := s.setStrong batch (· - 1)) (fun x => decide (x = b)) hi
          (.batchRelease batch)
        simp only [harcs, Call.arcs, List.countP_cons, List.countP_nil, decide_eq_true_eq,
          eq_comm (a := batch)] at this
        omega
    · cases hstep
      refine Counted.congr (n := fun b => s.arcs.countP (· = b)) h fun b => ?_
      have := countP_arcs_setCall (t := s.request (.batched batch)) (fun x => decide (x = b)) hi
        (.batchClone batch commands)
      simp only [countP_arcs_request, DmaCallback.arcs, Call.arcs, List.countP_cons,
        List.countP_nil] at this
      omega
  | batchRelease batch =>
    cases hstep
    refine counted_releaseBatch h (b := batch) ?_ fun b => ?_
    · have := countP_arcs_le (fun x => decide (x = batch)) hi
      simpa using this
    · have := countP_arcs_setCall (t := (s.releaseBatch batch).1) (fun x => decide (x = b))
        ((releaseBatch_frame s batch).2.1 ▸ hi)
        ((s.releaseBatch batch).2.elim .returned .dropping)
      rw [arcs_releaseBatch, Call.arcs_elim] at this
      simp only [Call.arcs, List.countP_cons, List.countP_nil, decide_eq_true_eq,
        eq_comm (a := batch)] at this
      omega
  | dropping =>
    obtain ⟨r, -, hstep⟩ := Outcome.bind_eq_next.1 hstep
    cases hstep
    exact arcsInv_setCall h hi rfl rfl rfl (by rw [Call.arcs_elim]; rfl)
  | returned => cases hstep

theorem arcsInv_stepHandler (h : ArcsInv s) (hstep : s.stepHandler alloc device = .next t) :
    ArcsInv t := by
  have hkeep : ∀ {u : InFlight α β} {x : HandlerCall}, u.batches = s.batches → u.arcs = s.arcs →
      u.handler.arcs = [] → x.arcs = [] → ArcsInv (u.setHandler x) := by
    intro u x hbatches harcs hu hx
    have h' : Counted (u.setHandler x).batches fun b => s.arcs.countP (· = b) := by
      rw [show (u.setHandler x).batches = s.batches from hbatches]
      exact h
    refine h'.congr fun b => ?_
    have := countP_arcs_setHandler (t := u) (fun y => decide (y = b)) x
    rw [harcs, hu, hx] at this
    exact this
  unfold stepHandler at hstep
  split at hstep
  · cases hstep
  · rename_i hx
    cases hstep
    exact hkeep rfl rfl (by rw [hx]; rfl) rfl
  · rename_i l hx
    cases hstep
    exact hkeep rfl rfl (by rw [hx]; rfl) rfl
  · rename_i batch hx
    cases hstep
    have hcount := fun b => countP_arcs_setHandler (t := (s.releaseBatch batch).1)
      (fun x => decide (x = b)) ((s.releaseBatch batch).2.elim .idle .dropping)
    simp only [arcs_releaseBatch, (releaseBatch_frame s batch).2.2, hx,
      HandlerCall.arcs_elim] at hcount
    refine counted_releaseBatch h (b := batch) ?_ fun b => ?_
    · have := hcount batch
      simp only [HandlerCall.arcs, DmaCallback.arcs, List.countP_cons, List.countP_nil, decide_true,
        if_true] at this
      omega
    · have := hcount b
      simp only [HandlerCall.arcs, DmaCallback.arcs, List.countP_cons, List.countP_nil,
        decide_eq_true_eq, eq_comm (a := batch)] at this
      omega
  · rename_i x hx
    obtain ⟨r, -, hstep⟩ := Outcome.bind_eq_next.1 hstep
    cases hstep
    refine hkeep rfl rfl (by rw [show (s.setCounters r.1).handler = s.handler from rfl, hx]; rfl) ?_
    rw [HandlerCall.arcs_elim]

variable [DecidableEq β]

theorem arcsInv_step {a : InFlightAct α β} (h : ArcsInv s)
    (hstep : step alloc device s a = .next t) : ArcsInv t := by
  have hbegin : ∀ {u : InFlight α β} {c : Call}, u.batches = s.batches → u.arcs = s.arcs →
      c.arcs = [] → ArcsInv (u.begin c) := by
    intro u c hbatches harcs hc
    have h' : Counted (u.begin c).batches fun b => s.arcs.countP (· = b) := by
      rw [show (u.begin c).batches = s.batches from hbatches]
      exact h
    refine h'.congr fun b => ?_
    rw [countP_arcs_begin, harcs, hc, List.countP_nil, Nat.add_zero]
  cases a with
  | attach d | attachAgain d =>
    simp only [step] at hstep
    split_ifs at hstep
    cases hstep
    exact h
  | close =>
    obtain ⟨c, -, hstep⟩ := Outcome.bind_eq_next.1 hstep
    cases hstep
    exact hbegin rfl rfl rfl
  | dropAllocation a | dropDevice a =>
    cases hstep
    exact h
  | render =>
    simp only [step] at hstep
    split at hstep
    · cases hstep
      exact hbegin rfl rfl rfl
    · cases hstep
  | present =>
    cases hstep
    exact hbegin rfl rfl rfl
  | submit =>
    simp only [step] at hstep
    split at hstep
    · cases hstep
      exact hbegin rfl rfl rfl
    · cases hstep
  | call i stops =>
    simp only [step] at hstep
    split at hstep
    · exact arcsInv_stepCall h ‹_› hstep
    · cases hstep
  | complete k =>
    simp only [step] at hstep
    split at hstep
    · rename_i c hidle hk
      cases hstep
      refine Counted.congr (n := fun b => s.arcs.countP (· = b)) h fun b => ?_
      have hset := countP_arcs_setHandler (t := s.unqueue k) (fun x => decide (x = b)) (.callback c)
      have hcount := countP_arcs_unqueue (fun x => decide (x = b)) hk
      rw [show (s.unqueue k).handler = .idle from hidle] at hset
      simp only [HandlerCall.arcs, List.countP_nil] at hset
      omega
    · cases hstep
  | handler => exact arcsInv_stepHandler h hstep

end

/-! ### Moments of rest -/

/-- Nobody is in `render`, `present` or a submission, and nobody is marking the allocations of a
batch free. -/
structure Quiet (s : InFlight α β) : Prop where
  calls : ∀ c ∈ s.calls, c = .returned ∨ ∃ l, c = .dropping ⟨[], l⟩
  handler : ∀ x, s.handler = .dropping x → x.marking = []

/-- The allocations in batches that have been taken and not been dropped: with the callbacks of
requests, shared between them, and with the handler thread. -/
def inBatches (s : InFlight α β) : List ℕ :=
  s.queued.flatMap DmaCallback.allocations ++ (s.batches.flatMap SharedBatch.allocations ++
    s.handler.marks)

theorem Quiet.marks_calls (h : s.Quiet) : s.calls.flatMap Call.marks = [] := by
  refine List.flatMap_eq_nil_iff.2 fun c hc => ?_
  rcases h.calls c hc with rfl | ⟨l, rfl⟩ <;> rfl

theorem Quiet.arcs_calls (h : s.Quiet) : s.calls.flatMap Call.arcs = [] := by
  refine List.flatMap_eq_nil_iff.2 fun c hc => ?_
  rcases h.calls c hc with rfl | ⟨l, rfl⟩ <;> rfl

theorem Quiet.countP_marks (h : s.Quiet) (p : ℕ → Bool) : s.marks.countP p =
    (s.blocks.flatMap CommandDmaPrivate.allocations).countP p + s.inBatches.countP p := by
  simp only [marks, waiting, inBatches, h.marks_calls, List.countP_append, List.countP_nil]
  omega

end InFlight

/-- **The busy count** never falls below 0.  When nobody is in the middle of such a call or of
marking a batch free, it is the number of occurrences in private data that is not taken yet, and in
batches that have been taken and not been dropped.  When nothing of this is left, it is 0. -/
theorem busy_eq_occurrences {α β : Type} [DecidableEq α] [DecidableEq β] (alloc : ℕ → α)
    (device : ℕ → β) (as : List (InFlightAct α β)) (has : ∀ a ∈ as, ¬ a.drops) {s : InFlight α β}
    (hrun : (inFlightMachine alloc device).run .init as = some s) (a : α) :
    0 ≤ s.busy a ∧
    (s.Quiet → s.busy a =
      (s.blocks.flatMap CommandDmaPrivate.allocations).countP (alloc · = a) +
        s.inBatches.countP (alloc · = a)) ∧
    (s.Quiet → s.blocks = [] → s.queued = [] → s.handler = .idle → s.busy a = 0) := by
  have hbusy := (InFlight.busy_of_run has hrun).busy a
  have harcs : InFlight.ArcsInv s := Machine.run_invariant (I := InFlight.ArcsInv)
    (fun _ _ _ => InFlight.arcsInv_step) ⟨by simp [InFlight.init], by simp [InFlight.init],
      by simp [InFlight.init, InFlight.arcs]⟩ hrun
  refine ⟨by omega, fun hquiet => ?_, fun hquiet hblocks hqueued hidle => ?_⟩
  · rw [hbusy, hquiet.countP_marks]
    rfl
  · have hempty : s.arcs = [] := by
      simp [InFlight.arcs, hquiet.arcs_calls, hqueued, hidle]
    rw [hbusy, hquiet.countP_marks]
    simp [InFlight.inBatches, hblocks, hqueued, hidle, InFlight.batches_empty harcs hempty]

/-- After `render` the allocation is busy once; it is in one block.  After the submission, when the
request has completed, it is not busy any more. -/
theorem busy_eq_occurrences_render :
    (∃ s, (inFlightMachine (fun _ => ()) fun _ => ()).run .init renderOnce = some s ∧
      s.calls = [.returned] ∧ s.Quiet ∧
      s.blocks.flatMap CommandDmaPrivate.allocations = [0] ∧ s.inBatches = [] ∧
      s.busy () = 1) ∧
    ∃ s, (inFlightMachine (fun _ => ()) fun _ => ()).run .init
        (renderOnce ++ submitOnce ++ completeOnce) = some s ∧
      s.calls = [.returned, .returned] ∧ s.Quiet ∧ s.busy () = 0 := by
  have hquiet : ∀ {s : InFlight Unit Unit} (n : ℕ), s.calls = List.replicate n .returned →
      s.handler = .idle → s.Quiet := fun n hcalls hidle =>
    ⟨fun c hc => .inl (List.eq_of_mem_replicate (hcalls ▸ hc)), fun x hx => by
      rw [hidle] at hx
      cases hx⟩
  constructor
  · refine ⟨_, rfl, rfl, hquiet 1 rfl rfl, rfl, rfl, ?_⟩
    exact (busy_eq_occurrences _ (fun _ => ()) renderOnce
      (by simp [renderOnce, InFlightAct.drops]) rfl ()).2.1 (hquiet 1 rfl rfl)
  · refine ⟨_, rfl, rfl, hquiet 2 rfl rfl, ?_⟩
    exact (busy_eq_occurrences _ (fun _ => ()) (renderOnce ++ submitOnce ++ completeOnce)
      (by simp [renderOnce, submitOnce, completeOnce, InFlightAct.drops]) rfl ()).2.2
      (hquiet 2 rfl rfl) rfl rfl rfl

end VirtioGpu
