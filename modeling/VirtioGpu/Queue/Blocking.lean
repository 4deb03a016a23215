import VirtioGpu.Device.Command
import VirtioGpu.Queue.Slots
import Mathlib.Algebra.Order.BigOperators.Group.Finset
import Mathlib.Data.List.Perm.Basic

/-!
# Waiting for an answer

`request_blocking_buf` queues a request with a `SetEvent` callback and waits for the event.  If the
wait times out it sets the `cancel` flag of the `BlockingBuffer` and returns an error.  The flag
tells the handler not to store the answer; it does not take the request back.  That is harmless
where the queue owns the buffers of the request, but `submit_command_sync` lends it a DMA buffer of
its caller, who frees or reuses it when the call has returned.

`syncMachine` is the queue of `Queue.Device` together with the threads that wait.  A call is known
by the number of its `BlockingBuffer`, which no other call has.

* `lent_kept_iff` : all along a run no request with the DMA buffer of a finished call is in the
  channel or at the device, exactly if no call gives up while its request is there.
* `lent_outlives_call` : a call that times out leaves its request in the channel.

## Implementation notes

A call that is woken has its answer because a `BlockingBuffer` is set once.  `waitCount` counts the
requests of a call, in the channel or added, together with the times its event has been set; no step
of the queue increases it (`waitCount_step`), so it stays at one.
-/

namespace VirtioGpu

section Requests

variable {size maxIn maxOut : ℕ}

/-- The callback of the request wakes the call `block`. -/
def Buffer.waitsFor (block : ℕ) (b : Buffer maxIn maxOut) : Bool := b.callback == .setEvent block

/-- The input of the request is a DMA buffer of the caller of `block`. -/
def Buffer.lentBy (block : ℕ) (b : Buffer maxIn maxOut) : Bool := b.input.isDma && b.waitsFor block

/-- The effect is `BlockingBuffer::set` of `block`. -/
def Effect.sets (block : ℕ) : Effect maxOut → Bool
  | .setEvent k => k == block
  | _ => false

/-- A request with a DMA buffer of the caller of `block` is in the channel, or the device has it
and has not returned it. -/
def QueueState.Lends (s : QueueState size maxIn maxOut) (block : ℕ) : Prop :=
  s.chan.any (·.lentBy block) ∨
    ∃ t : Fin size, t.val ∉ s.q.queue.returned ∧ (s.added t).any (·.lentBy block)
  deriving Decidable

/-- Steps of the queue that other threads, the handler and the device take: `SetEvent` requests are
made, and cancelled, only by blocking calls. -/
def QueueAct.NonBlocking : QueueAct size maxIn maxOut → Prop
  | .push b => ∀ block, b.callback ≠ .setEvent block
  | .cancel _ => False
  | _ => True

instance : ∀ a : QueueAct size maxIn maxOut, Decidable a.NonBlocking
  | .push b => match h : b.callback with
    | .setEvent block => isFalse fun hb => hb block h
    | .none | .freeResourceId _ | .freeContextId _ | .dmaCompleted .. |
      .dmaCompletedWithAllocations .. | .dmaCompletedBatched .. =>
      isTrue fun block hb => by simp [h] at hb
  | .cancel _ => isFalse id
  | .request _ | .response | .complete .. | .issueFence | .setArc ..
  | .elsewhere _ => isTrue trivial

end Requests

/-! ### The machine -/

/-- Where a blocking call is. -/
inductive CallPhase where
  | notCalled
  | waiting
  /-- The wait has timed out and the call is cancelled. -/
  | cancelled
  | returned
  deriving DecidableEq

/-- The control queue and the blocking calls. -/
structure SyncState (size : ℕ) where
  queue : QueueState size maxCommandSize maxResponseSize
  calls : ℕ → CallPhase

/-- The panics of the queue, and `assert!(cmd.id != CommandId::Nop)`. -/
inductive SyncPanic where
  | nop
  | queue (p : QueuePanic)

/-- What the threads and the device can do. -/
inductive SyncAct (size : ℕ) where
  /-- `submit_command_sync`, up to the wait. -/
  | submitCommandSync (block : ℕ) (cmd : Command) (alloc : Allocs)
  /-- `request_blocking_buf` for another caller, up to the wait. -/
  | requestBlockingBuf (block : ℕ) (input : MaybeInlineBuffer maxCommandSize)
      (output : MaybeInlineBuffer maxResponseSize)
  | queue (a : QueueAct size maxCommandSize maxResponseSize)
  /-- The wait of a call times out, and the call cancels its `BlockingBuffer`. -/
  | timeout (block : ℕ)
  /-- A cancelled call returns. -/
  | returnErr (block : ℕ)
  /-- The wait of a call ends because the event is set, and the call returns. -/
  | wake (block : ℕ)

namespace SyncState

variable {size : ℕ}

/-- `request_blocking_buf`, up to the wait: `BlockingBuffer::new` makes a new one. -/
def requestBlocking (s : SyncState size) (block : ℕ)
    (b : Buffer maxCommandSize maxResponseSize) : Outcome (SyncState size) SyncPanic :=
  if s.calls block = .notCalled then
    .next ⟨{ s.queue with chan := s.queue.chan ++ [b] }, Function.update s.calls block .waiting⟩
  else .stuck

def step (env : QueueEnv maxCommandSize maxResponseSize) (s : SyncState size) :
    SyncAct size → Outcome (SyncState size) SyncPanic
  | .submitCommandSync block cmd alloc =>
    if cmd.id = .nop then .panic .nop
    else match cmd.getDma with
      | none => .next s -- `UNSUCCESSFUL`
      | some dma => match (ControlCall.submitCommandSync dma block).buffer alloc with
        | .error _ => .next s
        | .ok b => s.requestBlocking block b
  | .requestBlockingBuf block input output =>
    s.requestBlocking block ⟨input, output, .setEvent block⟩
  | .queue a =>
    if a.NonBlocking then match (queueMachine env).step s.queue a with
      | .next queue => .next { s with queue := queue }
      | .stuck => .stuck
      | .panic p => .panic (.queue p)
    else .stuck
  | .timeout block =>
    if s.calls block = .waiting then
      .next ⟨{ s.queue with cancelled := Function.update s.queue.cancelled block true },
        Function.update s.calls block .cancelled⟩
    else .stuck
  | .returnErr block =>
    if s.calls block = .cancelled then
      .next { s with calls := Function.update s.calls block .returned }
    else .stuck
  | .wake block =>
    if s.calls block = .waiting ∧ s.queue.effects.any (·.sets block) then
      .next { s with calls := Function.update s.calls block .returned }
    else .stuck

/-- No call has been made. -/
def init (h : 0 < size) (indirect : Bool) : SyncState size :=
  ⟨.init _ _ h indirect, fun _ => .notCalled⟩

/-- A DMA buffer is in use only as long as the call that lent it has not returned. -/
def LentKept (s : SyncState size) : Prop :=
  ∀ block, s.calls block = .returned → ¬ s.queue.Lends block

/-- A call that has timed out returns only if its DMA buffer is no longer in use. -/
def GivenBack (s : SyncState size) : SyncAct size → Prop
  | .returnErr block => ¬ s.queue.Lends block
  | _ => True

instance (s : SyncState size) : ∀ a, Decidable (s.GivenBack a)
  | .returnErr _ => inferInstanceAs (Decidable (¬ _))
  | .submitCommandSync .. | .requestBlockingBuf .. | .queue _ | .timeout _ | .wake _ =>
    isTrue trivial

end SyncState

/-- The control queue at work, with the threads that wait for it. -/
def syncMachine {size : ℕ} (env : QueueEnv maxCommandSize maxResponseSize) :
    Machine (SyncState size) (SyncAct size) SyncPanic := ⟨SyncState.step env⟩

/-! ### The requests of a call -/

theorem sum_update_add {ι α : Type*} [Fintype ι] [DecidableEq ι] (f : ι → α) (g : α → ℕ) (i : ι)
    (x : α) : ∑ t, g (Function.update f i x t) + g (f i) = ∑ t, g (f t) + g x := by
  rw [← Finset.add_sum_erase _ _ (Finset.mem_univ i),
    ← Finset.add_sum_erase _ (fun t => g (f t)) (Finset.mem_univ i), Function.update_self]
  have hrest : ∑ t ∈ Finset.univ.erase i, g (Function.update f i x t) =
      ∑ t ∈ Finset.univ.erase i, g (f t) := by
    refine Finset.sum_congr rfl fun t ht => ?_
    rw [Function.update_of_ne (Finset.ne_of_mem_erase ht)]
  omega

namespace QueueState

variable {size maxIn maxOut : ℕ} {env : QueueEnv maxIn maxOut}
  {s s' : QueueState size maxIn maxOut} {a : QueueAct size maxIn maxOut} {block : ℕ}

/-- One if the request waits for `block`. -/
def waits (block : ℕ) (b : Option (Buffer maxIn maxOut)) : ℕ := (b.any (·.waitsFor block)).toNat

/-- How many requests of `block` there are, and how often its event has been set. -/
def waitCount (block : ℕ) (s : QueueState size maxIn maxOut) : ℕ :=
  s.chan.countP (·.waitsFor block) + ∑ t, waits block (s.added t) +
    s.effects.countP (·.sets block)

theorem countP_eraseIdx {α : Type*} {p : α → Bool} {l : List α} {i : ℕ} {x : α}
    (h : l[i]? = some x) : l.countP p = (l.eraseIdx i).countP p + (p x).toNat := by
  obtain ⟨hi, rfl⟩ := List.getElem?_eq_some_iff.1 h
  rw [← (List.getElem_cons_eraseIdx_perm hi).countP_eq p, List.countP_cons]
  cases p l[i] <;> rfl

theorem countP_sets_recordEffects (block : ℕ) (s : QueueState size maxIn maxOut)
    (output : MaybeInlineBuffer maxOut) (callback : Callback) :
    (s.recordEffects output callback).effects.countP (·.sets block) =
      s.effects.countP (·.sets block) + (callback == .setEvent block).toNat := by
  cases callback with
  | setEvent k =>
    simp only [recordEffects, Callback.effects, List.countP_append]
    split_ifs <;> by_cases hk : k = block <;> simp [Effect.sets, hk]
  | dmaCompletedBatched =>
    simp only [recordEffects, Callback.effects, List.countP_append]
    split_ifs <;> simp [Effect.sets]
  | none | freeResourceId id | freeContextId id | dmaCompleted engine fence
  | dmaCompletedWithAllocations =>
    simp [recordEffects, Callback.effects, Effect.sets]

theorem countP_sets_signal {f : Option ℕ} (h : s.signal f = .next s') :
    s'.effects.countP (·.sets block) = s.effects.countP (·.sets block) := by
  cases f with
  | none =>
    cases h
    rfl
  | some =>
    simp only [signal] at h
    split at h
    · cases h
    · cases h
      simp [Effect.sets]

/-- **A call is answered once.**  No step of the queue that is not a new request of the call makes
another request or answer of it. -/
theorem waitCount_step (hinv : SlotInv s.q s.added) (ha : a.NonBlocking)
    (hstep : (queueMachine env).step s a = .next s') :
    s'.waitCount block ≤ s.waitCount block := by
  cases a with
  | push b =>
    cases hstep
    have hb : b.waitsFor block = false := by simpa [Buffer.waitsFor] using ha block
    simp [waitCount, hb]
  | cancel => exact ha.elim
  | issueFence | setArc batch count | elsewhere rest =>
    cases hstep
    exact le_rfl
  | request pick =>
    obtain ⟨r, hcase⟩ := step_request hstep
    cases hcase with
    | noSlot hfree hs' => rw [hs']
    | noRequest i rest free hfree hchan hfree' hs' =>
      subst hs'
      exact le_rfl
    | lost i rest free b hfree hfree' hpick hfull hs' =>
      subst hs'
      have hchan := countP_eraseIdx (p := (·.waitsFor block)) hpick
      simp only [waitCount]
      omega
    | added i rest free b token queue hfree hfree' hpick hfull htake hs' =>
      subst hs'
      have hchan := countP_eraseIdx (p := (·.waitsFor block)) hpick
      have hadded := sum_update_add s.added (waits block) token (some b)
      simp only [waits, Option.any_some] at hadded
      simp only [waitCount, waits]
      omega
  | response =>
    obtain ⟨r, hcase⟩ := step_response hstep
    cases hcase with
    | nothing hused hs' | unknown token hpeek hlost hs' => rw [hs']
    | completed token i c b free hpeek hindex hchain hin hout hcall hfree hq hch hpo hadded hran
        heff =>
      -- The request leaves its token, and its callback sets the event, cancelled or not.
      obtain ⟨f, s₁, hsignal, heffects⟩ := heff
      obtain ⟨b', hb', -, -, hcall'⟩ := hinv.request token c hchain
      rw [hinv.index token c hchain] at hindex
      rw [Option.some.inj hindex, hcall] at hcall'
      have hsum := sum_update_add s.added (waits block) token none
      have hset := countP_sets_recordEffects block s₁ b.output b.callback
      rw [countP_sets_signal hsignal] at hset
      simp only [waits, hb', Option.any_some, Buffer.waitsFor, ← hcall', Option.any_none,
        Bool.toNat_false] at hsum
      simp only [waitCount, hch, hadded, heffects, hset]
      simp only [waits, Buffer.waitsFor]
      omega
  | complete token len data =>
    obtain ⟨c, -, -, rfl⟩ := step_complete hstep
    have hsame : waits block
        ((s.added token).map fun b => { b with output := b.output.write data }) =
        waits block (s.added token) := by
      cases s.added token <;> rfl
    have hsum := sum_update_add s.added (waits block) token
      ((s.added token).map fun b => { b with output := b.output.write data })
    rw [hsame] at hsum
    simp only [waitCount]
    omega

theorem any_of_any_eraseIdx {α : Type*} {p : α → Bool} {l : List α} (i : ℕ)
    (h : (l.eraseIdx i).any p = true) : l.any p = true := by
  obtain ⟨x, hx, hp⟩ := List.any_eq_true.1 h
  exact List.any_eq_true.2 ⟨x, List.mem_of_mem_eraseIdx hx, hp⟩

theorem waits_of_lent {b : Option (Buffer maxIn maxOut)}
    (h : b.any (·.lentBy block) = true) : waits block b = 1 := by
  cases b with
  | none => cases h
  | some b =>
    have hwaits : b.waitsFor block = true := (Bool.and_eq_true_iff.1 h).2
    simp [waits, hwaits]

theorem pos_of_lends (h : s.Lends block) :
    0 < s.chan.countP (·.waitsFor block) + ∑ t, waits block (s.added t) := by
  rcases h with h | ⟨t, -, ht⟩
  · obtain ⟨b, hb, hlent⟩ := List.any_eq_true.1 h
    have hpos : 0 < s.chan.countP (·.waitsFor block) :=
      List.countP_pos_iff.2 ⟨b, hb, (Bool.and_eq_true_iff.1 hlent).2⟩
    omega
  · have hone := waits_of_lent ht
    have hle : waits block (s.added t) ≤ ∑ t, waits block (s.added t) :=
      Finset.single_le_sum (f := fun t => waits block (s.added t)) (fun _ _ => Nat.zero_le _)
        (Finset.mem_univ t)
    omega

theorem lends_of_step (hsize : size ≤ 2 ^ 16) (hinv : SlotInv s.q s.added) (ha : a.NonBlocking)
    (hstep : (queueMachine env).step s a = .next s') (h : s'.Lends block) : s.Lends block := by
  cases a with
  | push b =>
    cases hstep
    have hb : b.lentBy block = false := by
      have hb : b.waitsFor block = false := by simpa [Buffer.waitsFor] using ha block
      simp [Buffer.lentBy, hb]
    refine h.imp_left fun hchan => ?_
    simpa [hb] using hchan
  | cancel => exact ha.elim
  | issueFence | setArc batch count | elsewhere rest =>
    cases hstep
    exact h
  | request =>
    obtain ⟨r, hcase⟩ := step_request hstep
    cases hcase with
    | noSlot hfree hs' => rwa [← hs']
    | noRequest i rest free hfree hchan hfree' hs' =>
      subst hs'
      exact h
    | lost i rest free b hfree hfree' hpick hfull hs' =>
      subst hs'
      exact h.imp_left (any_of_any_eraseIdx _)
    | added i rest free b token queue hfree hfree' hpick hfull htake hs' =>
      subst hs'
      rcases h with h | ⟨t, hreturned, ht⟩
      · exact .inl (any_of_any_eraseIdx _ h)
      · by_cases htoken : t = token
        · -- The request that was added has come from the channel.
          subst htoken
          simp only [Function.update_self, Option.any_some] at ht
          exact .inl (List.any_eq_true.2 ⟨b, List.mem_of_getElem? hpick, ht⟩)
        · simp only [Function.update_of_ne htoken] at ht
          obtain ⟨head, rest', htake', -⟩ := hinv.wf.take hfull i
          cases htake.symm.trans htake'
          exact .inr ⟨t, hreturned, ht⟩
  | response =>
    obtain ⟨r, hcase⟩ := step_response hstep
    cases hcase with
    | nothing hused hs' | unknown token hpeek hlost hs' => rwa [← hs']
    | completed token i c b free hpeek hindex hchain hin hout hcall hfree hq hch hpo hadded =>
      obtain ⟨len, rest, -, hused, -⟩ := hinv.used_of_peek hsize hpeek
      rcases h with h | ⟨t, hreturned, ht⟩
      · rw [hch] at h
        exact .inl h
      · have htoken : t ≠ token := by
          rintro rfl
          rw [hadded, Function.update_self] at ht
          cases ht
        rw [hadded, Function.update_of_ne htoken] at ht
        refine .inr ⟨t, fun hmem => hreturned ?_, ht⟩
        -- only the answer of `token` has left the ring
        simp only [Virtq.returned, hused, List.map_cons, List.mem_cons] at hmem
        rcases hmem with hmem | hmem
        · exact absurd (Fin.ext hmem) htoken
        · rw [hq]
          simpa [Virtq.returned, Virtq.recycle, hused] using hmem
  | complete token =>
    obtain ⟨c, -, -, rfl⟩ := step_complete hstep
    refine h.imp_right ?_
    rintro ⟨t, hreturned, ht⟩
    refine ⟨t, ?_, ?_⟩
    · simp only [Virtq.returned, List.map_append, List.mem_append, not_or] at hreturned
      exact hreturned.1
    · by_cases htoken : t = token
      · -- The device writes to the output; the input and the callback stay.
        subst htoken
        simp only [Function.update_self] at ht
        cases hadded : s.added t with
        | none => simp [hadded] at ht
        | some => simpa [hadded, Buffer.lentBy, Buffer.waitsFor] using ht
      · simpa only [Function.update_of_ne htoken] using ht

end QueueState

/-! ### Runs -/

namespace SyncState

variable {size : ℕ} {env : QueueEnv maxCommandSize maxResponseSize} {s s' : SyncState size}
  {a : SyncAct size}

/-- The slots are in order, a call has at most one request or answer, and none before it is made;
the buffers of calls that have returned are not in use. -/
structure Inv (s : SyncState size) : Prop where
  slots : SlotInv s.queue.q s.queue.added
  once : ∀ block, s.queue.waitCount block ≤ if s.calls block = .notCalled then 0 else 1
  kept : s.LentKept

theorem inv_init (h : 0 < size) (indirect : Bool) : (init h indirect).Inv where
  slots := slotInv_init h indirect
  once block := by simp [init, QueueState.init, QueueState.waitCount, QueueState.waits]
  kept block hblock := by cases hblock

theorem Inv.not_lends_of_set (hs : s.Inv) {block : ℕ}
    (hset : s.queue.effects.any (·.sets block) = true) : ¬ s.queue.Lends block := by
  intro hlends
  have hpos := QueueState.pos_of_lends hlends
  have honce := hs.once block
  have hset : 0 < s.queue.effects.countP (·.sets block) := by
    obtain ⟨e, he, hse⟩ := List.any_eq_true.1 hset
    exact List.countP_pos_iff.2 ⟨e, he, hse⟩
  unfold QueueState.waitCount at honce
  split_ifs at honce <;> omega

theorem Inv.setCall (hs : s.Inv) {block : ℕ} {p : CallPhase} {cancelled : ℕ → Bool}
    (hcall : s.calls block ≠ .notCalled) (hpcall : p ≠ .notCalled)
    (hp : p = .returned → ¬ s.queue.Lends block) :
    Inv ⟨{ s.queue with cancelled := cancelled }, Function.update s.calls block p⟩ := by
  refine ⟨hs.slots, fun k => ?_, fun k hk hlends => ?_⟩
  · have honce := hs.once k
    change s.queue.waitCount k ≤ if Function.update s.calls block p k = .notCalled then 0 else 1
    by_cases hkb : k = block
    · subst hkb
      rw [if_neg hcall] at honce
      simpa only [Function.update_self, if_neg hpcall] using honce
    · simpa only [Function.update_of_ne hkb] using honce
  · by_cases hkb : k = block
    · subst hkb
      simp only [Function.update_self] at hk
      exact hp hk hlends
    · simp only [Function.update_of_ne hkb] at hk
      exact hs.kept k hk hlends

theorem Inv.requestBlocking (hs : s.Inv) {block : ℕ} {b : Buffer maxCommandSize maxResponseSize}
    (hb : b.callback = .setEvent block) (h : s.requestBlocking block b = .next s') : s'.Inv := by
  unfold SyncState.requestBlocking at h
  split_ifs at h with hcall
  cases h
  refine ⟨hs.slots, fun k => ?_, fun k hk hlends => ?_⟩
  · have honce := hs.once k
    by_cases hk : k = block
    · subst hk
      rw [if_pos hcall] at honce
      have hwaits : b.waitsFor k = true := by simp [Buffer.waitsFor, hb]
      simp only [QueueState.waitCount] at honce ⊢
      simp only [List.countP_append, List.countP_singleton, hwaits, Function.update_self,
        if_true, reduceCtorEq, if_false]
      omega
    · have hwaits : b.waitsFor k = false := by
        simp [Buffer.waitsFor, hb, Ne.symm hk]
      simpa [QueueState.waitCount, hwaits, Function.update_of_ne hk] using honce
  · by_cases hkb : k = block
    · subst hkb
      simp at hk
    · simp only [Function.update_of_ne hkb] at hk
      refine hs.kept k hk (hlends.imp_left fun hchan => ?_)
      have hlent : b.lentBy k = false := by simp [Buffer.lentBy, Buffer.waitsFor, hb, Ne.symm hkb]
      simpa [hlent] using hchan

theorem Inv.step (hsize : size ≤ 2 ^ 16) (hs : s.Inv) (hok : s.GivenBack a)
    (hstep : (syncMachine env).step s a = .next s') : s'.Inv := by
  cases a with
  | submitCommandSync block cmd alloc =>
    simp only [syncMachine, SyncState.step] at hstep
    split_ifs at hstep
    split at hstep
    · cases hstep
      exact hs
    · split at hstep
      · cases hstep
        exact hs
      · rename_i b hb
        obtain ⟨output, -, hb⟩ := bind_eq_ok.1 hb
        cases hb
        exact hs.requestBlocking rfl hstep
  | requestBlockingBuf => exact hs.requestBlocking rfl hstep
  | queue a =>
    simp only [syncMachine, SyncState.step] at hstep
    split_ifs at hstep with ha
    split at hstep
    · rename_i queue hqueue
      cases hstep
      refine ⟨slotInv_step hsize hs.slots hqueue, fun block => ?_, fun block hblock hlends => ?_⟩
      · exact (QueueState.waitCount_step hs.slots ha hqueue).trans (hs.once block)
      · exact hs.kept block hblock (QueueState.lends_of_step hsize hs.slots ha hqueue hlends)
    · cases hstep
    · cases hstep
  | timeout =>
    simp only [syncMachine, SyncState.step] at hstep
    split_ifs at hstep with hcall
    cases hstep
    exact hs.setCall (by simp [hcall]) nofun nofun
  | returnErr =>
    simp only [syncMachine, SyncState.step] at hstep
    split_ifs at hstep with hcall
    cases hstep
    exact hs.setCall (by simp [hcall]) nofun fun _ => hok
  | wake =>
    simp only [syncMachine, SyncState.step] at hstep
    split_ifs at hstep with hcall
    cases hstep
    exact hs.setCall (by simp [hcall.1]) nofun fun _ => hs.not_lends_of_set hcall.2

theorem not_lentKept_of_bad (hbad : ¬ s.GivenBack a)
    (hstep : (syncMachine env).step s a = .next s') : ¬ s'.LentKept := by
  cases a with
  | returnErr block =>
    simp only [syncMachine, SyncState.step] at hstep
    split_ifs at hstep
    cases hstep
    exact fun hkept => hbad (hkept block (Function.update_self ..))
  | submitCommandSync block cmd alloc | requestBlockingBuf block input output | queue a
  | timeout block | wake block => exact absurd trivial hbad

end SyncState

/-- **When a DMA buffer is kept as long as it is in use.**  All along, no request whose DMA buffer
belongs to a call that has returned is in the channel or at the device, exactly if no call that has
timed out returns while its own request is. -/
theorem lent_kept_iff {size : ℕ} (env : QueueEnv maxCommandSize maxResponseSize) (h : 0 < size)
    (hsize : size ≤ 2 ^ 16) (indirect : Bool) (as : List (SyncAct size)) (s : SyncState size)
    (hrun : (syncMachine env).run (.init h indirect) as = some s) :
    (syncMachine env).Always SyncState.LentKept (.init h indirect) as ↔
      (syncMachine env).Meets SyncState.GivenBack (.init h indirect) as :=
  Machine.always_iff_meets (fun _ _ _ hs => hs.step hsize) (fun _ hs => hs.kept)
    (fun _ _ _ _ => SyncState.not_lentKept_of_bad) (SyncState.inv_init h indirect) hrun

/-- A command of 32 bytes for `submit_command_sync`. -/
def syncCommand : Command := .new .submit none 0 (some ⟨0x1000, 32⟩)

/-- A control queue, and zeroes in DMA memory. -/
def syncEnv : QueueEnv maxCommandSize maxResponseSize := ⟨controlInputs, controlOutputs, fun _ => 0⟩

/-- The pages a call could be given. -/
def syncAllocs : Allocs := ⟨⟨0x2000, by decide⟩, ⟨0x3000, by decide⟩⟩

/-- The call times out while its answer is on the way. -/
def lateAnswer : List (SyncAct 2) :=
  [.submitCommandSync 0 syncCommand syncAllocs, .queue (.request 0), .timeout 0,
    .queue (.complete 0 24 []), .returnErr 0, .queue .response]

theorem lent_kept_iff_lateAnswer :
    ((syncMachine syncEnv).run (.init (by decide) true) lateAnswer).map (·.calls 0) =
        some .returned ∧
      (syncMachine syncEnv).Always SyncState.LentKept (.init (by decide) true) lateAnswer := by
  have hrun : ((syncMachine syncEnv).run (.init (by decide) true) lateAnswer).map (·.calls 0) =
      some .returned := by decide
  obtain ⟨s, hs, -⟩ := Option.map_eq_some_iff.1 hrun
  exact ⟨hrun, (lent_kept_iff syncEnv (by decide) (by decide) true _ s hs).2 (by decide)⟩

/-- **A request can outlive its call.**  `submit_command_sync` times out and returns; its request is
still in the channel, and refers to the DMA buffer of the caller. -/
theorem lent_outlives_call :
    ∃ s : SyncState 256, (syncMachine syncEnv).run (.init (by decide) true)
        [.submitCommandSync 0 syncCommand syncAllocs, .timeout 0, .returnErr 0] = some s ∧
      s.calls 0 = .returned ∧ s.queue.Lends 0 :=
  ⟨_, rfl, by decide, .inl (by decide)⟩

end VirtioGpu
