import VirtioGpu.Allocation.InFlight
import VirtioGpu.Device.RenderPanics

/-!
# Busy counts of a `render` that fails

`render` marks its allocations busy when it has encoded the commands, and then looks at the private
data.  If that is too small, or not there, it returns an error and drops the `CommandDmaPrivate`,
which releases the references to the allocations but does not mark them free.  Nobody else will: the
allocations stay busy for ever, and whoever waits for one of them never comes back.

* `RenderEnv.renderCounted` : `render` with the counters of the allocations.
* `busy_kept_iff` : an error leaves the counts alone exactly if there is room for the private data,
  the commands were not encoded, or none of the allocations in the list exists any more.
* `busy_after_error` : a call that leaves an allocation busy.
-/

namespace VirtioGpu

section Mark

variable {α β : Type} [DecidableEq α] (alloc : ℕ → α)

/-- The last loop of `render`. -/
def Counters.markAll (c : Counters α β) (ds : List ℕ) : Counters α β :=
  ds.foldl (Counters.markBusy alloc) c

/-- The `DeviceSpecificAllocation` is one of `a`, which still exists. -/
def Counters.Marks (c : Counters α β) (a : α) (d : ℕ) : Prop :=
  alloc d = a ∧ c.allocationGone (alloc d) = false

instance (c : Counters α β) (a : α) (d : ℕ) : Decidable (c.Marks alloc a d) :=
  inferInstanceAs (Decidable (_ ∧ _))

variable {alloc} {c : Counters α β} {a : α} {d : ℕ} {ds : List ℕ}

theorem Counters.allocationGone_markBusy :
    (c.markBusy alloc d).allocationGone = c.allocationGone := by
  unfold Counters.markBusy
  split_ifs <;> rfl

theorem Counters.busy_markBusy : (c.markBusy alloc d).busy a =
    c.busy a + if c.Marks alloc a d then 1 else 0 := by
  unfold Counters.markBusy Counters.Marks
  by_cases hgone : c.allocationGone (alloc d) = true
  · simp [hgone]
  · by_cases ha : alloc d = a
    · subst ha
      simp [hgone]
    · simp [hgone, ha, Function.update_of_ne (Ne.symm ha)]

theorem Counters.busy_markAll : (c.markAll alloc ds).busy a =
    c.busy a + ds.countP fun d => c.Marks alloc a d := by
  induction ds generalizing c with
  | nil => simp [Counters.markAll]
  | cons d ds ih =>
    have hmarks : ∀ d', (c.markBusy alloc d).Marks alloc a d' ↔ c.Marks alloc a d' := fun d' => by
      unfold Counters.Marks
      rw [Counters.allocationGone_markBusy]
    have hrest := ih (c := c.markBusy alloc d)
    simp only [hmarks] at hrest
    rw [Counters.markAll, List.foldl_cons]
    refine hrest.trans ?_
    rw [Counters.busy_markBusy, List.countP_cons]
    by_cases hd : c.Marks alloc a d
    · simp only [hd, if_true, decide_true]
      omega
    · simp [hd]

theorem Counters.busy_markAll_eq_iff :
    (∀ a, (c.markAll alloc ds).busy a = c.busy a) ↔
      ∀ d ∈ ds, c.allocationGone (alloc d) = true := by
  simp only [Counters.busy_markAll]
  constructor
  · intro h d hd
    have hnone := h (alloc d)
    have hzero : ds.countP (fun d' => c.Marks alloc (alloc d) d') = 0 := by omega
    have := List.countP_eq_zero.1 hzero d hd
    simpa [Counters.Marks] using this
  · intro h a
    have hzero : ds.countP (fun d => c.Marks alloc a d) = 0 := by
      refine List.countP_eq_zero.2 fun d hd => ?_
      simp [Counters.Marks, h d hd]
    omega

end Mark

namespace RenderEnv

variable {α β : Type} [DecidableEq α]

/-- `Device::render` with the counters of the allocations. -/
def renderCounted (alloc : ℕ → α) (env : RenderEnv) (fence : FenceTracker) (b : UserBuffer)
    (c : Counters α β) : Except RenderStop (CommandDmaPrivate × DmaWriter) × Counters α β :=
  if env.allocations.any Option.isNone then (.error (.status .invalidParameter), c)
  else match (Reads.whileLoop (more b) (env.step b) b.len (env.start fence)).result with
    | .error (.status _) | .error (.fault _) => (.error (.status .invalidParameter), c)
    | .error stop => (.error stop, c)
    | .ok st =>
      let marked := c.markAll alloc (env.allocations.filterMap id)
      if env.privateDataSize < commandDmaPrivateSize then
        (.error (.status .graphicsInsufficientDmaBuffer), marked)
      else if !env.hasPrivateData then (.error (.status .invalidParameter), marked)
      else (.ok (⟨finish st, env.allocations.filterMap id⟩, st.writer), marked)

variable {alloc : ℕ → α} {env : RenderEnv} {fence : FenceTracker} {b : UserBuffer}
  {c : Counters α β}

theorem renderCounted_fst :
    (env.renderCounted alloc fence b c).1 = (env.render fence b).result := by
  unfold renderCounted render
  by_cases halloc : env.allocations.any Option.isNone = true
  · rw [if_pos halloc, if_pos halloc]
    rfl
  rw [if_neg halloc, if_neg halloc]
  cases hloop : (Reads.whileLoop (more b) (env.step b) b.len (env.start fence)).result with
  | error stop =>
    symm
    cases stop <;>
      exact Reads.result_bind_of_error (by simp only [Reads.mapErr, hloop, Except.mapError])
  | ok st =>
    rw [Reads.result_bind_of_ok (Reads.result_mapErr_eq_ok.2 hloop)]
    dsimp only
    split_ifs <;> rfl

theorem renderCounted_snd (alloc : ℕ → α) (env : RenderEnv) (fence : FenceTracker)
    (b : UserBuffer) (c : Counters α β) :
    (env.Encodes b ∧ (env.renderCounted alloc fence b c).2 =
      c.markAll alloc (env.allocations.filterMap id)) ∨
    (¬ env.Encodes b ∧ (env.renderCounted alloc fence b c).2 = c) := by
  unfold renderCounted Encodes
  rw [← loop_ok_iff env b fence]
  by_cases halloc : env.allocations.any Option.isNone = true
  · rw [if_pos halloc]
    exact .inr ⟨by simp [halloc], rfl⟩
  rw [if_neg halloc]
  cases (Reads.whileLoop (more b) (env.step b) b.len (env.start fence)).result with
  | error stop => exact .inr ⟨by simp, by cases stop <;> rfl⟩
  | ok st =>
    refine .inl ⟨⟨eq_false_of_ne_true halloc, st, rfl⟩, ?_⟩
    dsimp only
    split_ifs <;> rfl

end RenderEnv

/-- **When a failing `render` leaves the busy counts alone**: exactly if there is room for the
private data, or a handle is not valid or a command that the headers lead to cannot be encoded, or
the list names no allocation that still exists. -/
theorem busy_kept_iff {α β : Type} [DecidableEq α] (alloc : ℕ → α) (env : RenderEnv)
    (fence : FenceTracker) (b : UserBuffer) (c : Counters α β) (e : NtStatus)
    (herr : (env.renderCounted alloc fence b c).1 = .error (.status e)) :
    (∀ a, (env.renderCounted alloc fence b c).2.busy a = c.busy a) ↔
      (commandDmaPrivateSize ≤ env.privateDataSize ∧ env.hasPrivateData = true) ∨
        ¬ env.Encodes b ∨
        ∀ d, some d ∈ env.allocations → c.allocationGone (alloc d) = true := by
  have hlist : (∀ d ∈ env.allocations.filterMap id, c.allocationGone (alloc d) = true) ↔
      ∀ d, some d ∈ env.allocations → c.allocationGone (alloc d) = true := by simp
  rcases RenderEnv.renderCounted_snd alloc env fence b c with
    ⟨henc, hc⟩ | ⟨henc, hc⟩
  · rw [hc, Counters.busy_markAll_eq_iff, hlist]
    constructor
    · exact fun h => .inr (.inr h)
    · rintro (⟨hsize, hpriv⟩ | hno | h)
      · obtain ⟨x, hx⟩ := (env.render_ok_iff fence b).2 ⟨henc, hsize, hpriv⟩
        rw [RenderEnv.renderCounted_fst, hx] at herr
        cases herr
      · exact absurd henc hno
      · exact h
  · rw [hc]
    exact ⟨fun _ => .inr (.inl henc), fun _ _ => rfl⟩

/-- Nothing is busy and everything exists. -/
def idleCounters : Counters ℕ ℕ where
  busy _ := 0
  handles _ := 1
  refs _ := 1
  allocationGone _ := false
  deviceGone _ := false
  detaches := []

/-- A call for one allocation. -/
def listedRender (dmaSize privateDataSize : ℕ) : RenderEnv :=
  ⟨some 1, none, ⟨0, dmaSize⟩, [some 7], true, privateDataSize⟩

/-- A DMA buffer that is too small: the call fails before it marks anything. -/
theorem busy_kept_iff_smallDma :
    ((listedRender 16 112).renderCounted id ⟨0, []⟩ emptySubmit idleCounters).1 =
        .error (.status .invalidParameter) ∧
      ∀ a,
        ((listedRender 16 112).renderCounted id ⟨0, []⟩ emptySubmit idleCounters).2.busy a = 0 := by
  have herr : ((listedRender 16 112).renderCounted id ⟨0, []⟩ emptySubmit idleCounters).1 =
      .error (.status .invalidParameter) := rfl
  exact ⟨herr, (busy_kept_iff id _ _ _ idleCounters _ herr).2 (.inl (by decide))⟩

/-- **A failing `render` leaves an allocation busy.**  The private data has no room: `render`
returns `GRAPHICS_INSUFFICIENT_DMA_BUFFER` after it has marked its allocation. -/
theorem busy_after_error :
    ((listedRender 64 0).renderCounted id ⟨0, []⟩ emptySubmit idleCounters).1 =
        .error (.status .graphicsInsufficientDmaBuffer) ∧
      ((listedRender 64 0).renderCounted id ⟨0, []⟩ emptySubmit idleCounters).2.busy 7 = 1 :=
  ⟨rfl, rfl⟩

end VirtioGpu
