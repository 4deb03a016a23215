import VirtioGpu.Fence.Wrap
import VirtioGpu.Queue.Delivery

/-!
# Responses from any device

`handle_responses` takes entries off the used ring until it is empty.  The ids, the lengths and the
contents of the output buffers are the device's, and nothing in the loop makes sure that they make
sense:

* an id that is not that of an outstanding request makes `pop_from_device` return an error *before*
  the entry is consumed, so the loop finds it again and never ends;
* an id that is not below the size of the queue is an index out of bounds;
* the id is cut to 16 bits, so that an id from `2 ^ 16` on names another request;
* a response may carry a virtio fence that was never issued, which fails an assertion;
* the callbacks run in the order of the entries, and `notify_dma_completed` takes a fence after the
  wrap-around that comes before its turn for one it has missed;
* the callbacks drop their allocations, and the device of each of them has to be there still.

`handleResponses_iff` says that these are the only ways for the loop to go wrong, for every state
the driver can be in and everything the device can write.  That the requests start with a header,
and have room for one in their output, is the driver's own doing (`Buffer.Headed`,
`ControlCall.headed`, `CursorCall.headed`).
-/

namespace VirtioGpu

/-! ### Headers -/

section Headers

variable {maxIn maxOut : ℕ}

theorem MaybeInlineBuffer.length_bytes {maxInline : ℕ} (mem : ℕ → UInt8)
    (b : MaybeInlineBuffer maxInline) : (b.bytes mem).length = b.length := by
  cases b with
  | inline len data h hle => simp [bytes, length, h, hle]
  | boxed => rfl
  | dma => simp [bytes, length]

theorem MaybeInlineBuffer.length_write {maxInline : ℕ} (data : List UInt8)
    (b : MaybeInlineBuffer maxInline) : (b.write data).length = b.length := by
  cases b with
  | inline => rfl
  | boxed => exact length_overwrite _ _
  | dma => rfl

theorem CtrlHeader.readFromPrefix_of_le (bytes : List UInt8) (h : ctrlHeaderSize ≤ bytes.length) :
    ∃ hdr, readFromPrefix bytes = some hdr := by
  rw [readFromPrefix, if_neg (not_lt.2 h)]
  exact ⟨_, rfl⟩

namespace Buffer

/-- The request starts with a `CtrlHeader` and leaves room for one in the response, and if it is a
`ResourceUnref` it has the length of one. -/
def Headed (env : QueueEnv maxIn maxOut) (b : Buffer maxIn maxOut) : Prop :=
  ctrlHeaderSize ≤ b.input.length ∧ ctrlHeaderSize ≤ b.output.length ∧
    ∀ req, CtrlHeader.readFromPrefix (b.input.bytes env.mem) = some req →
      req.isResourceUnref = true → 32 ≤ b.input.length

/-- `read_completed_fence`: the virtio fence of the response, or else that of the request. -/
def completedFence (env : QueueEnv maxIn maxOut) (b : Buffer maxIn maxOut) : Option ℕ :=
  match CtrlHeader.readFromPrefix (b.output.bytes env.mem),
    CtrlHeader.readFromPrefix (b.input.bytes env.mem) with
  | some rsp, some req =>
    if rsp.fenced then some rsp.fenceId else if req.fenced then some req.fenceId else none
  | _, _ => none

theorem Headed.write {env : QueueEnv maxIn maxOut} {b : Buffer maxIn maxOut} (h : b.Headed env)
    (data : List UInt8) : Headed env { b with output := b.output.write data } :=
  ⟨h.1, by rw [MaybeInlineBuffer.length_write]; exact h.2.1, h.2.2⟩

end Buffer

variable {size : ℕ} {env : QueueEnv maxIn maxOut} {q : Queue size maxIn maxOut} {i : Fin size}
  {b : Buffer maxIn maxOut}

theorem readCompletedFence_of_headed (hb : b.Headed env) (hin : q.inputs i = some b.input)
    (hout : q.outputs i = some b.output) :
    QueueState.readCompletedFence env q i = .next (b.completedFence env) := by
  obtain ⟨rsp, hrsp⟩ := CtrlHeader.readFromPrefix_of_le (b.output.bytes env.mem)
    (by rw [MaybeInlineBuffer.length_bytes]; exact hb.2.1)
  obtain ⟨req, hreq⟩ := CtrlHeader.readFromPrefix_of_le (b.input.bytes env.mem)
    (by rw [MaybeInlineBuffer.length_bytes]; exact hb.1)
  have hunref : ¬ (rsp.isError && req.isResourceUnref &&
      decide ((b.input.bytes env.mem).length < 32)) = true := by
    rw [MaybeInlineBuffer.length_bytes]
    simp only [Bool.and_eq_true, decide_eq_true_eq, not_and, not_lt]
    exact fun h => hb.2.2 req hreq h.2
  simp only [QueueState.readCompletedFence, Buffer.completedFence, hin, hout, hrsp, hreq,
    if_neg hunref]
  split_ifs <;> rfl

end Headers

/-! ### The effects of callbacks -/

namespace Effect

variable {maxOut : ℕ}

/-- The devices of the allocations that are dropped exist. -/
def DevicesExist (rest : Elsewhere) : Effect maxOut → Prop
  | dropAllocations allocations => ∀ a ∈ allocations, rest.deviceGone a = false
  | dropBatch batch => ∀ a ∈ rest.batches batch, rest.deviceGone a = false
  | _ => True

/-- The fence that is notified to engine `e`. -/
def fenceOn (e : Engine) : Effect maxOut → Option ℕ
  | notifyDmaCompleted e' f => if e' = e then some f else none
  | _ => none

theorem runAll_append (rest : Elsewhere) (xs ys : List (Effect maxOut)) :
    runAll rest (xs ++ ys) = (runAll rest xs).bind fun rest => runAll rest ys := by
  induction xs generalizing rest with
  | nil => rfl
  | cons x xs ih =>
    simp only [List.cons_append, runAll]
    cases x.run rest with
    | next rest => exact ih rest
    | stuck => rfl
    | panic => rfl

theorem run_eq_next {rest rest' : Elsewhere} {x : Effect maxOut} (hx : ∀ e, fenceOn e x = none) :
    x.run rest = .next rest' ↔ x.DevicesExist rest ∧ rest' = rest := by
  cases x with
  | signal | writeBlock | setEvent | freeResourceId | freeContextId =>
    simp only [run, DevicesExist, Outcome.next.injEq, true_and, eq_comm]
  | dropAllocations | dropBatch =>
    simp only [run, DevicesExist]
    split_ifs with h
    · simp_all
    · simp only [List.any_eq_true, not_exists, not_and, Bool.not_eq_true] at h
      rw [Outcome.next.injEq, and_iff_right h, eq_comm]
  | notifyDmaCompleted e => simpa [fenceOn] using hx e

/-- The engines do not get in each other's way. -/
theorem runAll_iff (rest : Elsewhere) (xs : List (Effect maxOut)) :
    (∃ rest', runAll rest xs = .next rest') ↔ (∀ x ∈ xs, x.DevicesExist rest) ∧
      ∀ e, ∃ s, (rest.engines e).notifyAll e rest.now (xs.filterMap (fenceOn e)) = .next s := by
  induction xs generalizing rest with
  | nil => simp [runAll, EngineState.notifyAll]
  | cons x xs ih =>
    simp only [runAll, Outcome.bind_eq_next, List.forall_mem_cons]
    by_cases hx : ∀ e, fenceOn e x = none
    · simp only [run_eq_next hx, List.filterMap_cons, hx, and_assoc, ← ih, exists_and_left,
        exists_eq_left]
    · cases x with
      | notifyDmaCompleted e f =>
        have hother : ∀ e' ≠ e, (notifyDmaCompleted e f :: xs).filterMap (fenceOn e') =
            xs.filterMap (fenceOn e') := fun e' he =>
          List.filterMap_cons_none (if_neg he.symm)
        have hsame : (notifyDmaCompleted e f :: xs).filterMap (fenceOn e) =
            f :: xs.filterMap (fenceOn e) := List.filterMap_cons_some (if_pos rfl)
        cases hr : (rest.engines e).notifyFence e rest.now f with
        | next r =>
          have hrun : (notifyDmaCompleted e f : Effect maxOut).run rest = .next { rest with
              engines := Function.update rest.engines e r.1
              reports := rest.reports ++ r.2 } := by simp only [run, hr]
          simp only [hrun, Outcome.next.injEq, ↓existsAndEq, true_and, ih]
          refine and_congr (by simp [DevicesExist]) (forall_congr' fun e' => ?_)
          by_cases he : e' = e
          · subst he
            rw [hsame, EngineState.notifyAll, hr, Outcome.next_bind, Function.update_self]
          · rw [hother e' he, Function.update_of_ne he]
        | stuck | panic p =>
          refine iff_of_false ?_ fun h => ?_
          · rintro ⟨rest', r, hrun, -⟩
            simp [run, hr] at hrun
          · obtain ⟨s, hs⟩ := h.2 e
            rw [hsame, EngineState.notifyAll, hr] at hs
            cases hs
      | _ => exact absurd (fun _ => rfl) hx

end Effect

/-- What the callbacks of some requests do, one after the other. -/
def Callback.allEffects {maxIn maxOut : ℕ} (cancelled : ℕ → Bool) :
    (ℕ → ℕ) → List (Buffer maxIn maxOut) → List (Effect maxOut)
  | _, [] => []
  | arcs, b :: bs => b.callback.effects cancelled arcs b.output ++
      allEffects cancelled (b.callback.release arcs) bs

namespace QueueState

variable {size maxIn maxOut : ℕ}

/-- `Queue::handle_responses`, with at most `n` rounds; `stuck` means that they were not enough. -/
def handleResponses (env : QueueEnv maxIn maxOut) :
    ℕ → QueueState size maxIn maxOut → Outcome (QueueState size maxIn maxOut) QueuePanic
  | 0, _ => .stuck
  | n + 1, s => (s.response env).bind fun
    | (.none, s) => .next s
    | (.some, s) => handleResponses env n s
    | (.err _, s) => handleResponses env n s

variable (s : QueueState size maxIn maxOut)

/-- The device writes entries to the used ring, and `data` to the outputs. -/
def arrive (entries : List (ℕ × ℕ)) (data : Fin size → List UInt8) : QueueState size maxIn maxOut :=
  { s with
    q := { s.q with
      queue := { s.q.queue with used := s.q.queue.used ++ entries }
      outputs := fun i => (s.q.outputs i).map (MaybeInlineBuffer.write (data i)) }
    added := fun t => match s.q.indices t with
      | none => s.added t
      | some i => (s.added t).map fun b => { b with output := b.output.write (data i) } }

/-- The request under token `t` is in flight in `s'` as it was in `s`. -/
structure Keeps (s s' : QueueState size maxIn maxOut) (t : Fin size) : Prop where
  chain : s'.q.queue.chain t = s.q.queue.chain t
  index : s'.q.indices t = s.q.indices t
  added : s'.added t = s.added t
  slot : ∀ i, s.q.indices t = some i → s'.q.inputs i = s.q.inputs i ∧
    s'.q.outputs i = s.q.outputs i ∧ s'.q.callbacks i = s.q.callbacks i

/-- `handle_responses` returns, and the requests no entry names are in flight as before. -/
def HandlesResponses (env : QueueEnv maxIn maxOut) (s : QueueState size maxIn maxOut) : Prop :=
  ∃ n s', s.handleResponses env n = .next s' ∧
    ∀ t : Fin size, s.q.queue.Outstanding t → t.val ∉ s.q.queue.returned → s.Keeps s' t

/-- Every entry of the used ring has the id of an outstanding request, no two the same. -/
def ValidEntries : Prop :=
  s.q.queue.returned.Nodup ∧
    ∀ id ∈ s.q.queue.returned, ∃ t : Fin size, s.q.queue.Outstanding t ∧ id = t.val

/-- The virtio fences of the responses have been issued. -/
def FencesIssued (env : QueueEnv maxIn maxOut) (s : QueueState size maxIn maxOut) : Prop :=
  ∀ (t : Fin size) b f, t.val ∈ s.q.queue.returned → s.added t = some b →
    b.completedFence env = some f → f < s.fence.nextFence

/-- The outstanding requests with the given ids. -/
def requestsOf (ids : List ℕ) : List (Buffer maxIn maxOut) :=
  ids.filterMap fun id => if h : id < size then s.added ⟨id, h⟩ else none

/-- What the callbacks of the requests in the used ring do. -/
def callbackEffects : List (Effect maxOut) :=
  Callback.allEffects s.cancelled s.arcs (s.requestsOf s.q.queue.returned)

/-- The fences that the callbacks notify to engine `e`, in this order. -/
def completedOn (e : Engine) : List ℕ :=
  s.callbackEffects.filterMap (Effect.fenceOn e)

/-- The devices of the allocations that the callbacks drop exist. -/
def DevicesExist (s : QueueState size maxIn maxOut) : Prop :=
  ∀ x ∈ s.callbackEffects, x.DevicesExist s.rest

end QueueState

/-- The queue with other entries in its used ring. -/
def Queue.withUsed {size maxIn maxOut : ℕ} (q : Queue size maxIn maxOut) (used : List (ℕ × ℕ)) :
    Queue size maxIn maxOut :=
  { q with queue := { q.queue with used := used } }

namespace QueueState

variable {size maxIn maxOut : ℕ} {env : QueueEnv maxIn maxOut} {s s' : QueueState size maxIn maxOut}
  {t : Fin size} {c : Chain size (Fin size)} {b : Buffer maxIn maxOut} {rest : List (ℕ × ℕ)}

/-! ### One round -/

/-- The driver's side of the queue is in order, whatever is in the used ring. -/
structure Ready (env : QueueEnv maxIn maxOut) (s : QueueState size maxIn maxOut) : Prop where
  slots : SlotInv (s.q.withUsed []) s.added
  headed : ∀ t b, s.added t = some b → b.Headed env

/-- The request under token `t` has been answered and its slot freed; `rest` is what is left of the
used ring. -/
structure Took (env : QueueEnv maxIn maxOut) (s s' : QueueState size maxIn maxOut) (t : Fin size)
    (rest : List (ℕ × ℕ)) : Prop where
  ready : Ready env s'
  used : s'.q.queue.used = rest
  nextFence : s'.fence.nextFence = s.fence.nextFence
  gone : s'.q.queue.chain t = none
  keeps : ∀ u, u ≠ t → s.q.queue.Outstanding u → s.Keeps s' u
  outstanding : ∀ u, s'.q.queue.Outstanding u → u ≠ t ∧ s.q.queue.Outstanding u
  ran : ∃ b, s.added t = some b ∧ s'.cancelled = s.cancelled ∧
    s'.arcs = b.callback.release s.arcs ∧
    Effect.runAll s.rest (b.callback.effects s.cancelled s.arcs b.output) = .next s'.rest

theorem signal_of_issued {f : Option ℕ} (h : ∀ v, f = some v → v < s.fence.nextFence) :
    ∃ s₁, s.signal f = .next s₁ := by
  cases f with
  | none => exact ⟨s, rfl⟩
  | some v =>
    simp only [signal, FenceTracker.signal, if_pos (h v rfl)]
    split
    · rename_i hnone
      split at hnone <;> cases hnone
    · exact ⟨_, rfl⟩

section

variable (hs : Ready env s) (hpeek : s.q.queue.peekUsed = some t.val)
  (hc : s.q.queue.chain t = some c) (hb : s.added t = some b)
include hs hpeek hc hb

theorem popFromDevice_outstanding :
    s.q.popFromDevice = .next (.ok (some (t, c.buffers)), { s.q with
      queue := s.q.queue.recycle t c
      indices := Function.update s.q.indices t none }) := by
  obtain ⟨b', hb', hin, hout, -⟩ := hs.slots.request t c hc
  cases hb.symm.trans hb'
  have hindex : s.q.indices t = some c.buffers := hs.slots.index t c hc
  replace hin : s.q.inputs c.buffers = some b.input := hin
  replace hout : s.q.outputs c.buffers = some b.output := hout
  obtain ⟨hlin, hlout, -⟩ := hs.headed t b hb
  have hne : ¬ (b.input.length = 0 ∨ b.output.length = 0) := by
    unfold ctrlHeaderSize at hlin hlout
    omega
  unfold Queue.popFromDevice
  simp only [hpeek, t.isLt, dif_pos, hindex, hin, hout, hc, if_neg hne]

theorem response_not_issued {f : ℕ} (hf : b.completedFence env = some f)
    (hlt : s.fence.nextFence ≤ f) :
    s.response env = .panic .fenceNotIssued := by
  obtain ⟨b', hb', hin, hout, -⟩ := hs.slots.request t c hc
  cases hb.symm.trans hb'
  have hread := readCompletedFence_of_headed (q := { s.q with
    queue := s.q.queue.recycle t c
    indices := Function.update s.q.indices t none }) (hs.headed t b hb) hin hout
  have hsignal : s.signal (b.completedFence env) = .panic .fenceNotIssued := by
    simp [signal, FenceTracker.signal, hf, not_lt.2 hlt]
  unfold response
  rw [popFromDevice_outstanding hs hpeek hc hb, Outcome.next_bind]
  simp only [hread, Outcome.next_bind, hsignal]
  rfl

end

theorem Ready.push_free (hs : Ready env s) (hc : s.q.queue.chain t = some c) :
    ∃ free, s.q.free.push c.buffers = .ok free ∧ free.items = s.q.free.items ++ [c.buffers] := by
  have hbusy : c.buffers ∉ s.q.free.items := hs.slots.busy t c hc
  refine ArrayQueue.push_of_lt (q := s.q.free) ?_ c.buffers
  have hnodup : (c.buffers :: s.q.free.items).Nodup := List.nodup_cons.2 ⟨hbusy, hs.slots.nodup⟩
  have hcard := hnodup.length_le_card
  rw [List.length_cons, Fintype.card_fin] at hcard
  omega

theorem response_issued (hs : Ready env s) (hpeek : s.q.queue.peekUsed = some t.val)
    (hc : s.q.queue.chain t = some c) (hb : s.added t = some b)
    (hf : ∀ f, b.completedFence env = some f → f < s.fence.nextFence) {rest : Elsewhere}
    (hrest : Effect.runAll s.rest (b.callback.effects s.cancelled s.arcs b.output) = .next rest) :
    ∃ s', s.response env = .next (.some, s') := by
  obtain ⟨b', hb', hin, hout, hcall⟩ := hs.slots.request t c hc
  cases hb.symm.trans hb'
  replace hin : s.q.inputs c.buffers = some b.input := hin
  replace hout : s.q.outputs c.buffers = some b.output := hout
  replace hcall : s.q.callbacks c.buffers = b.callback := hcall
  have hread := readCompletedFence_of_headed (q := { s.q with
    queue := s.q.queue.recycle t c
    indices := Function.update s.q.indices t none }) (hs.headed t b hb) hin hout
  obtain ⟨s₁, hsignal⟩ := signal_of_issued hf
  obtain ⟨fence, effects, rfl, -⟩ := signal_frame hsignal
  obtain ⟨free, hpush, -⟩ := hs.push_free hc
  unfold response
  rw [popFromDevice_outstanding hs hpeek hc hb, Outcome.next_bind]
  simp only [hread, Outcome.next_bind, hsignal, hin, hout, hcall, runEffects, hrest,
    Queue.markFree, hpush]
  exact ⟨_, rfl⟩

theorem Ready.pop (hs : Ready env s) (hc : s.q.queue.chain t = some c)
    {free : ArrayQueue (Fin size) size} (hfree : free.items = s.q.free.items ++ [c.buffers])
    (hq : s'.q = {
      queue := s.q.queue.recycle t c
      inputs := Function.update s.q.inputs c.buffers none
      outputs := Function.update s.q.outputs c.buffers none
      callbacks := Function.update s.q.callbacks c.buffers .none
      indices := Function.update s.q.indices t none
      free := free })
    (hadded : s'.added = Function.update s.added t none) : Ready env s' := by
  constructor
  · -- The ring with the one entry of `t` is in order, and so it is when that has been taken off.
    have hwf := hs.slots.wf.complete (t := t) (by rw [Virtq.Outstanding, Queue.withUsed, hc]; rfl)
      (by simp [Virtq.returned, Queue.withUsed]) 0
    have hslots : SlotInv (s.q.withUsed [(t.val, 0)]) s.added := { hs.slots with wf := hwf }
    rw [hadded, hq]
    exact hslots.pop hc rfl (hs.slots.index t c hc) hfree
  · intro u b hb
    rw [hadded, Function.update_apply] at hb
    split_ifs at hb
    exact hs.headed u b hb

theorem took_of_response (hs : Ready env s) (hpeek : s.q.queue.peekUsed = some t.val)
    (hresponse : s.response env = .next (.some, s')) :
    Took env s s' t s.q.queue.used.tail := by
  cases response_cases hresponse with
  | completed u i c b free hpeek' hindex hc hin hout hcall hfree hq hchan hpopped hadded hran
      heff hfence hcancelled harcs hrest =>
    obtain rfl : u = t := Fin.ext (Option.some.inj (hpeek'.symm.trans hpeek))
    have hbuf : c.buffers = i := Option.some.inj ((hs.slots.index u c hc).symm.trans hindex)
    subst hbuf
    refine ⟨hs.pop hc hfree hq hadded, by rw [hq]; rfl, hfence, by rw [hq]; simp, ?_, ?_, ?_⟩
    · intro v hv hout
      obtain ⟨d, hd⟩ := Option.isSome_iff_exists.1 hout
      refine ⟨?_, ?_, ?_, ?_⟩
      · rw [hq]
        exact Virtq.recycle_chain_of_ne _ hv c
      · rw [hq]
        exact Function.update_of_ne hv ..
      · rw [hadded]
        exact Function.update_of_ne hv ..
      · intro i hi
        have hi' : d.buffers = i := Option.some.inj ((hs.slots.index v d hd).symm.trans hi)
        have hne : i ≠ c.buffers := by
          rw [← hi']
          exact fun heq => hv (hs.slots.own_slot v d u c hd hc heq)
        rw [hq]
        simp only [Function.update_of_ne hne, and_self]
    · intro v hv
      obtain ⟨d, hd⟩ := Option.isSome_iff_exists.1 hv
      rw [hq] at hd
      obtain ⟨hne, hd⟩ := Virtq.chain_of_recycle hd
      exact ⟨hne, by rw [Virtq.Outstanding, hd]; rfl⟩
    · -- the request in the slot is the one that was added
      obtain ⟨b', hb', hin', hout', hcall'⟩ := hs.slots.request u c hc
      have hinput : b.input = b'.input := Option.some.inj (hin.symm.trans hin')
      have houtput : b.output = b'.output := Option.some.inj (hout.symm.trans hout')
      have hcallback : b.callback = b'.callback := hcall.symm.trans hcall'
      exact ⟨b', hb', hcancelled, hcallback ▸ harcs, hcallback ▸ houtput ▸ hrest⟩

/-! ### The loop -/

theorem response_nothing (hused : s.q.queue.used = []) : s.response env = .next (.none, s) := by
  have hpop : s.q.popFromDevice = .next (.ok none, s.q) := by
    simp [Queue.popFromDevice, Virtq.peekUsed, hused]
  unfold response
  rw [hpop]
  rfl

theorem handleResponses_of_err {e : NtStatus} (h : s.response env = .next (.err e, s)) (n : ℕ) :
    s.handleResponses env n = .stuck := by
  induction n with
  | zero => rfl
  | succ n ih =>
    rw [handleResponses, h]
    exact ih

theorem Keeps.refl (s : QueueState size maxIn maxOut) (t : Fin size) : s.Keeps s t :=
  ⟨rfl, rfl, rfl, fun _ _ => ⟨rfl, rfl, rfl⟩⟩

theorem Keeps.trans {s₁ : QueueState size maxIn maxOut} (h : s.Keeps s₁ t) (h' : s₁.Keeps s' t) :
    s.Keeps s' t where
  chain := h'.chain.trans h.chain
  index := h'.index.trans h.index
  added := h'.added.trans h.added
  slot i hi := by
    obtain ⟨hin, hout, hcall⟩ := h.slot i hi
    obtain ⟨hin', hout', hcall'⟩ := h'.slot i (h.index.trans hi)
    exact ⟨hin'.trans hin, hout'.trans hout, hcall'.trans hcall⟩

theorem Keeps.of_left {s₁ : QueueState size maxIn maxOut} (h : s.Keeps s₁ t) (h' : s.Keeps s' t) :
    s₁.Keeps s' t where
  chain := h'.chain.trans h.chain.symm
  index := h'.index.trans h.index.symm
  added := h'.added.trans h.added.symm
  slot i hi := by
    rw [h.index] at hi
    obtain ⟨hin, hout, hcall⟩ := h.slot i hi
    obtain ⟨hin', hout', hcall'⟩ := h'.slot i hi
    exact ⟨hin'.trans hin.symm, hout'.trans hout.symm, hcall'.trans hcall.symm⟩

theorem Keeps.outstanding (h : s.Keeps s' t) :
    s'.q.queue.Outstanding t ↔ s.q.queue.Outstanding t := by
  rw [Virtq.Outstanding, Virtq.Outstanding, h.chain]

theorem peekUsed_of_cons {id len : ℕ} (hused : s.q.queue.used = (id, len) :: rest) :
    s.q.queue.peekUsed = some (id % 2 ^ 16) := by
  simp [Virtq.peekUsed, hused]

theorem returned_of_cons {id len : ℕ} (hused : s.q.queue.used = (id, len) :: rest) :
    s.q.queue.returned = id :: rest.map Prod.fst := by
  simp [Virtq.returned, hused]

theorem response_valid (hs : Ready env s) (ht : s.q.queue.Outstanding t)
    (hpeek : s.q.queue.peekUsed = some t.val)
    (hf : ∀ b f, s.added t = some b → b.completedFence env = some f → f < s.fence.nextFence)
    (hb : s.added t = some b) {rest : Elsewhere}
    (hrest : Effect.runAll s.rest (b.callback.effects s.cancelled s.arcs b.output) = .next rest) :
    ∃ s', s.response env = .next (.some, s') ∧ Took env s s' t s.q.queue.used.tail := by
  obtain ⟨c, hc⟩ := Option.isSome_iff_exists.1 ht
  obtain ⟨s', hresponse⟩ := response_issued hs hpeek hc hb (fun f => hf b f hb) hrest
  exact ⟨s', hresponse, took_of_response hs hpeek hresponse⟩

theorem requestsOf_cons (hb : s.added t = some b) (ids : List ℕ) :
    s.requestsOf (t.val :: ids) = b :: s.requestsOf ids :=
  List.filterMap_cons_some (by rw [dif_pos t.isLt, hb])

theorem mem_requestsOf {ids : List ℕ} (ht : t.val ∈ ids) (hb : s.added t = some b) :
    b ∈ s.requestsOf ids :=
  List.mem_filterMap.2 ⟨t.val, ht, by rw [dif_pos t.isLt, hb]⟩

theorem requestsOf_congr {ids : List ℕ}
    (h : ∀ u : Fin size, u.val ∈ ids → s'.added u = s.added u) :
    s'.requestsOf ids = s.requestsOf ids := by
  refine List.filterMap_congr fun id hid => ?_
  by_cases hlt : id < size
  · rw [dif_pos hlt, dif_pos hlt, h ⟨id, hlt⟩ hid]
  · rw [dif_neg hlt, dif_neg hlt]

/-- After a round the other callbacks go on where the first one has stopped. -/
theorem Took.runAll_eq (h : Took env s s' t rest)
    (hreturned : s.q.queue.returned = t.val :: rest.map Prod.fst)
    (hkeeps : ∀ u : Fin size, u.val ∈ rest.map Prod.fst → s'.added u = s.added u) :
    Effect.runAll s.rest s.callbackEffects = Effect.runAll s'.rest s'.callbackEffects := by
  obtain ⟨b, hb, hcancelled, harcs, hrun⟩ := h.ran
  rw [callbackEffects, callbackEffects, hreturned, requestsOf_cons hb, Callback.allEffects,
    Effect.runAll_append, hrun, Outcome.next_bind, hcancelled, harcs,
    show s'.q.queue.returned = rest.map Prod.fst by rw [Virtq.returned, h.used],
    requestsOf_congr hkeeps]

theorem handlesResponses_of_valid (hsize : size ≤ 2 ^ 16) (hs : Ready env s)
    (hvalid : s.ValidEntries) (hissued : s.FencesIssued env)
    (hruns : ∃ rest, Effect.runAll s.rest s.callbackEffects = .next rest) :
    s.HandlesResponses env := by
  -- Induction on the entries: each round takes one off and leaves the rest valid.
  induction hused : s.q.queue.used generalizing s with
  | nil =>
    refine ⟨1, s, ?_, fun t _ _ => Keeps.refl s t⟩
    rw [handleResponses, response_nothing hused]
    rfl
  | cons entry rest ih =>
    obtain ⟨id, len⟩ := entry
    obtain ⟨hnodup, hout⟩ := hvalid
    have hpeek := peekUsed_of_cons hused
    rw [returned_of_cons hused] at hnodup hout
    rw [List.nodup_cons] at hnodup
    obtain ⟨hnew, hnodup⟩ := hnodup
    obtain ⟨t, ht, rfl⟩ := hout id List.mem_cons_self
    rw [Nat.mod_eq_of_lt (lt_of_lt_of_le t.isLt hsize)] at hpeek
    have hmem : t.val ∈ s.q.queue.returned := by simp [returned_of_cons hused]
    obtain ⟨c, hc⟩ := Option.isSome_iff_exists.1 ht
    obtain ⟨b, hb, -⟩ := hs.slots.request t c hc
    obtain ⟨after, hfirst⟩ := id hruns
    rw [callbackEffects, returned_of_cons hused, requestsOf_cons hb, Callback.allEffects,
      Effect.runAll_append] at hfirst
    obtain ⟨rest₁, hrun, -⟩ := Outcome.bind_eq_next.1 hfirst
    obtain ⟨s₁, hresponse, htook⟩ :=
      response_valid hs ht hpeek (fun b f => hissued t b f hmem) hb hrun
    rw [hused, List.tail_cons] at htook
    have hrest : s₁.q.queue.returned = rest.map Prod.fst := by rw [Virtq.returned, htook.used]
    have hkeeps : ∀ u : Fin size, u.val ∈ rest.map Prod.fst → s.q.queue.Outstanding u →
        s.Keeps s₁ u := by
      rintro u hu hout
      refine htook.keeps u ?_ hout
      rintro rfl
      exact hnew hu
    have hvalid₁ : s₁.ValidEntries := by
      rw [ValidEntries, hrest]
      refine ⟨hnodup, fun id hid => ?_⟩
      obtain ⟨u, hu, rfl⟩ := hout id (.tail _ hid)
      exact ⟨u, (hkeeps u hid hu).outstanding.2 hu, rfl⟩
    have hissued₁ : s₁.FencesIssued env := by
      intro u b f hu hb hf
      rw [hrest] at hu
      obtain ⟨v, hv, huv⟩ := hout u.val (.tail _ hu)
      obtain rfl := Fin.ext huv
      rw [(hkeeps u hu hv).added] at hb
      rw [htook.nextFence]
      exact hissued u b f (by simp [returned_of_cons hused, hu]) hb hf
    have hruns₁ : ∃ rest, Effect.runAll s₁.rest s₁.callbackEffects = .next rest := by
      rw [← htook.runAll_eq (returned_of_cons hused) fun u hu => ?_]
      · exact hruns
      · obtain ⟨v, hv, huv⟩ := hout u.val (.tail _ hu)
        obtain rfl := Fin.ext huv
        exact (hkeeps u hu hv).added
    obtain ⟨n, s', hloop, hkeep⟩ := ih htook.ready hvalid₁ hissued₁ hruns₁ htook.used
    refine ⟨n + 1, s', ?_, fun u hu hmem => ?_⟩
    · rw [handleResponses, hresponse]
      exact hloop
    · rw [returned_of_cons hused, List.mem_cons, not_or] at hmem
      have hne : u ≠ t := fun heq => hmem.1 (by rw [heq])
      have hfirst := htook.keeps u hne hu
      exact hfirst.trans (hkeep u (hfirst.outstanding.2 hu) (by rw [hrest]; exact hmem.2))

theorem chain_of_handleResponses {n : ℕ} (h : s.handleResponses env n = .next s')
    (hc : s.q.queue.chain t = none) : s'.q.queue.chain t = none := by
  induction n generalizing s with
  | zero => cases h
  | succ n ih =>
    rw [handleResponses] at h
    obtain ⟨⟨r, s₁⟩, hresponse, hnext⟩ := Outcome.bind_eq_next.1 h
    cases response_cases hresponse with
    | nothing hused hs =>
      cases hnext
      rwa [hs]
    | unknown token hpeek hlost hs =>
      subst hs
      exact ih hnext hc
    | completed u i c b free hpeek hindex hchain hin hout hcall hfree hq =>
      refine ih hnext ?_
      rw [hq]
      by_cases htu : t = u
      · subst htu
        exact Virtq.recycle_chain_self _ t c
      · exact (Virtq.recycle_chain_of_ne _ htu c).trans hc

theorem first_round (hs : Ready env s) {id len n : ℕ} (hused : s.q.queue.used = (id, len) :: rest)
    (h : s.handleResponses env n = .next s') :
    ∃ (t : Fin size) (s₁ : QueueState size maxIn maxOut) (m : ℕ), id % 2 ^ 16 = t.val ∧
      s.q.queue.Outstanding t ∧
      (∀ b f, s.added t = some b → b.completedFence env = some f → f < s.fence.nextFence) ∧
      Took env s s₁ t rest ∧ s₁.handleResponses env m = .next s' := by
  cases n with
  | zero => cases h
  | succ n =>
    have hloop := h
    rw [handleResponses] at h
    obtain ⟨⟨r, s₁⟩, hresponse, hnext⟩ := Outcome.bind_eq_next.1 h
    cases response_cases hresponse with
    | nothing hnil =>
      rw [hused] at hnil
      cases hnil
    | unknown token hpeek hlost hs₁ =>
      -- the entry is still there in the next round
      subst hs₁
      rw [handleResponses_of_err hresponse] at hloop
      cases hloop
    | completed t i c b free hpeek hindex hc =>
      have hid : id % 2 ^ 16 = t.val := Option.some.inj ((peekUsed_of_cons hused).symm.trans hpeek)
      have htook := took_of_response hs hpeek hresponse
      rw [hused, List.tail_cons] at htook
      refine ⟨t, s₁, n, hid, by rw [Virtq.Outstanding, hc]; rfl, fun b' f hb' hf => ?_, htook,
        hnext⟩
      by_contra hlt
      rw [response_not_issued hs hpeek hc hb' hf (not_lt.1 hlt)] at hresponse
      cases hresponse

theorem valid_of_handlesResponses (hsize : size ≤ 2 ^ 16) (hs : Ready env s)
    (h : s.HandlesResponses env) : s.ValidEntries ∧ s.FencesIssued env ∧
      ∃ rest, Effect.runAll s.rest s.callbackEffects = .next rest := by
  obtain ⟨n, s', hloop, hkeep⟩ := h
  -- Induction on the entries: the loop has come to an end, so it has taken the first one off.
  induction hused : s.q.queue.used generalizing s n with
  | nil =>
    have hnil : s.q.queue.returned = [] := by rw [Virtq.returned, hused, List.map_nil]
    refine ⟨by simp [ValidEntries, hnil], by simp [FencesIssued, hnil], s.rest, ?_⟩
    rw [callbackEffects, hnil]
    rfl
  | cons entry rest ih =>
    obtain ⟨id, len⟩ := entry
    obtain ⟨t, s₁, m, hid, ht, hissued, htook, hloop₁⟩ := first_round hs hused hloop
    have hreturned := returned_of_cons hused
    have hrest : s₁.q.queue.returned = rest.map Prod.fst := by rw [Virtq.returned, htook.used]
    -- A request that is left, and that the other entries do not name, is not named by the first one
    -- either, which would have named `t`.
    have hkeep₁ : ∀ u : Fin size, s₁.q.queue.Outstanding u → u.val ∉ s₁.q.queue.returned →
        s₁.Keeps s' u := by
      intro u hu hmem
      obtain ⟨hne, hu'⟩ := htook.outstanding u hu
      refine (htook.keeps u hne hu').of_left (hkeep u hu' ?_)
      rw [hreturned, List.mem_cons, not_or, ← hrest]
      refine ⟨fun heq => hne (Fin.ext ?_), hmem⟩
      rw [← hid, ← heq, Nat.mod_eq_of_lt (lt_of_lt_of_le u.isLt hsize)]
    obtain ⟨⟨hnodup, hout⟩, hissued₁, hruns⟩ := ih htook.ready m hloop₁ hkeep₁ htook.used
    rw [hrest] at hnodup hout
    have hnew : t.val ∉ rest.map Prod.fst := by
      intro hmem
      obtain ⟨u, hu, huv⟩ := hout t.val hmem
      exact (htook.outstanding u hu).1 (Fin.ext huv.symm)
    -- The id is that of `t` also above 16 bits: else no entry names `t`, which is gone.
    have hid' : id = t.val := by
      by_contra hne
      have hkept := hkeep t ht (by
        rw [hreturned, List.mem_cons, not_or]
        exact ⟨fun heq => hne heq.symm, hnew⟩)
      rw [← hkept.outstanding, Virtq.Outstanding, chain_of_handleResponses hloop₁ htook.gone] at ht
      cases ht
    subst hid'
    have hadded : ∀ u : Fin size, u.val ∈ rest.map Prod.fst → s₁.added u = s.added u := by
      intro u hu
      obtain ⟨v, hv, huv⟩ := hout u.val hu
      obtain rfl := Fin.ext huv
      obtain ⟨hne, hv'⟩ := htook.outstanding u hv
      exact (htook.keeps u hne hv').added
    refine ⟨⟨?_, ?_⟩, ?_, by rwa [htook.runAll_eq hreturned hadded]⟩
    · rw [hreturned]
      exact List.nodup_cons.2 ⟨hnew, hnodup⟩
    · intro id hmem
      rw [hreturned, List.mem_cons] at hmem
      rcases hmem with rfl | hmem
      · exact ⟨t, ht, rfl⟩
      · obtain ⟨u, hu, rfl⟩ := hout id hmem
        exact ⟨u, (htook.outstanding u hu).2, rfl⟩
    · intro u b f hmem hb hf
      rw [hreturned, List.mem_cons] at hmem
      rcases hmem with heq | hmem
      · obtain rfl := Fin.ext heq
        exact hissued b f hb hf
      · rw [← htook.nextFence]
        exact hissued₁ u b f (by rwa [hrest]) ((hadded u hmem).trans hb) hf

/-! ### Runs -/

/-- Every request in the channel and in flight has its headers. -/
def AllHeaded (env : QueueEnv maxIn maxOut) (s : QueueState size maxIn maxOut) : Prop :=
  (∀ b ∈ s.chan, b.Headed env) ∧ ∀ t b, s.added t = some b → b.Headed env

/-- The producers push requests with headers. -/
def PushesHeaded (env : QueueEnv maxIn maxOut) (a : QueueAct size maxIn maxOut) : Prop :=
  ∀ b, a = .push b → b.Headed env

theorem allHeaded_step {a : QueueAct size maxIn maxOut} (hs : s.AllHeaded env)
    (ha : PushesHeaded env a) (hstep : (queueMachine env).step s a = .next s') :
    s'.AllHeaded env := by
  obtain ⟨hchan, hadded⟩ := hs
  cases a with
  | cancel block | issueFence | setArc batch count | elsewhere rest =>
    cases hstep
    exact ⟨hchan, hadded⟩
  | push b =>
    cases hstep
    refine ⟨fun b' hb' => ?_, hadded⟩
    rcases List.mem_append.1 hb' with hb' | hb'
    · exact hchan b' hb'
    · rw [List.mem_singleton.1 hb']
      exact ha b rfl
  | request =>
    obtain ⟨r, hcase⟩ := step_request hstep
    cases hcase with
    | noSlot hfree hs' =>
      subst hs'
      exact ⟨hchan, hadded⟩
    | noRequest i rest free hfree hnil hfree' hs' =>
      subst hs'
      exact ⟨hchan, hadded⟩
    | lost i rest free b hfree hfree' hpick hfull hs' =>
      subst hs'
      exact ⟨fun b' hb' => hchan b' (List.mem_of_mem_eraseIdx hb'), hadded⟩
    | added i rest free b token queue hfree hfree' hpick hfull htake hs' =>
      subst hs'
      refine ⟨fun b' hb' => hchan b' (List.mem_of_mem_eraseIdx hb'), fun t b' hb' => ?_⟩
      simp only [Function.update_apply] at hb'
      split_ifs at hb'
      · -- what is added comes from the channel
        cases hb'
        exact hchan b (List.mem_of_getElem? hpick)
      · exact hadded t b' hb'
  | response =>
    obtain ⟨r, hcase⟩ := step_response hstep
    cases hcase with
    | nothing hused hs' =>
      subst hs'
      exact ⟨hchan, hadded⟩
    | unknown token hpeek hlost hs' =>
      subst hs'
      exact ⟨hchan, hadded⟩
    | completed t i c b free hpeek hindex hc hin hout hcall hfree hq hch hpo hadd =>
      refine ⟨by rw [hch]; exact hchan, fun u b' hb' => ?_⟩
      rw [hadd, Function.update_apply] at hb'
      split_ifs at hb'
      exact hadded u b' hb'
  | complete token len data =>
    obtain ⟨c, -, -, rfl⟩ := step_complete hstep
    refine ⟨hchan, fun u b' hb' => ?_⟩
    simp only [Function.update_apply] at hb'
    split_ifs at hb'
    · obtain ⟨b, hb, rfl⟩ := Option.map_eq_some_iff.1 hb'
      exact (hadded token b hb).write data
    · exact hadded u b' hb'

theorem ready_arrive (hs : SlotInv s.q s.added) (hheaded : s.AllHeaded env)
    (entries : List (ℕ × ℕ)) (data : Fin size → List UInt8) :
    Ready env (s.arrive entries data) := by
  constructor
  · have hwf : (s.q.withUsed []).queue.Wf := { hs.wf with
      nodup_returned := List.nodup_nil
      returned_outstanding := fun id hid => absurd hid List.not_mem_nil }
    refine { hs with wf := hwf, unknown := ?_, request := ?_ }
    · intro t hc
      obtain ⟨hindex, hnone⟩ := hs.unknown t hc
      exact ⟨hindex, by simp [arrive, hindex, hnone]⟩
    · intro t c hc
      obtain ⟨b, hb, hin, hout, hcall⟩ := hs.request t c hc
      refine ⟨{ b with output := b.output.write (data c.buffers) }, ?_, hin, ?_, hcall⟩
      · simp [arrive, hs.index t c hc, hb]
      · simp [arrive, Queue.withUsed, hout]
  · intro t b hb
    simp only [arrive] at hb
    split at hb
    · exact hheaded.2 t b hb
    · obtain ⟨b', hb', rfl⟩ := Option.map_eq_some_iff.1 hb
      exact (hheaded.2 t b' hb').write _

end QueueState

/-! ### The requests of the driver have headers -/

section Driver

open QueueChannel

variable {maxIn maxOut : ℕ} {alloc : Allocs} {b : Buffer maxIn maxOut}

theorem MaybeInlineBuffer.length_of_tryFromBytes {maxInline : ℕ} (hmax : maxInline < 2 ^ 16)
    {addr : PageAddr} {bytes : List UInt8} {b : MaybeInlineBuffer maxInline}
    (h : tryFromBytes addr bytes = .ok b) : b.length = bytes.length := by
  rw [← length_bytes fun _ => 0, bytes_of_tryFromBytes _ hmax h]

theorem MaybeInlineBuffer.length_of_tryNewZeroedSize {maxInline : ℕ} (hmax : maxInline < 2 ^ 16)
    {addr : PageAddr} {n : ℕ} {b : MaybeInlineBuffer maxInline}
    (h : tryNewZeroedSize addr n = .ok b) : b.length = n := by
  rw [length_of_tryFromBytes hmax h, List.length_replicate]

theorem Buffer.headed_of_le {env : QueueEnv maxIn maxOut} (hin : 32 ≤ b.input.length)
    (hout : ctrlHeaderSize ≤ b.output.length) : b.Headed env :=
  ⟨le_trans (by decide) hin, hout, fun _ _ _ => hin⟩

namespace ControlCall

/-- What a call is given by its caller: the structures that are shorter than a `ResourceUnref` are
not of its type, and a command in a DMA buffer is no shorter than it. -/
def Titled : ControlCall → Prop
  | fixed r cmd _ => r.size < 32 → leNat (cmd.1.take 4) ≠ 0x102
  | submitCommandSync dma _ | submitCommand dma _ => 32 ≤ dma.len
  | _ => True

theorem headed (env : QueueEnv maxCommandSize maxResponseSize) {alloc : Allocs} {c : ControlCall}
    {b : Buffer maxCommandSize maxResponseSize} (hc : c.Titled) (h : c.buffer alloc = .ok b) :
    b.Headed env := by
  have hmaxIn : maxCommandSize < 2 ^ 16 := by decide
  obtain ⟨hin, hout, -⟩ := buffer_eq_ok_iff.1 h
  have hrsp : ctrlHeaderSize ≤ b.output.length := by
    rw [MaybeInlineBuffer.length_of_tryNewZeroedSize (by decide) hout]
    cases c with
    | fixed r => cases r <;> exact Nat.le_of_ble_eq_true rfl
    | getCapset => exact Nat.le_add_right _ _
    | _ => exact le_rfl
  cases c with
  | fixed r cmd =>
    have hlen : b.input.length = r.size :=
      (MaybeInlineBuffer.length_of_tryFromBytes hmaxIn hin).trans cmd.2
    refine ⟨hlen ▸ r.ctrlHeaderSize_le, hrsp, fun req hreq hunref => ?_⟩
    by_contra hlt
    have hsize : r.size < 32 := hlen ▸ not_le.1 hlt
    rw [MaybeInlineBuffer.bytes_of_tryFromBytes env.mem hmaxIn hin,
      CtrlHeader.readFromPrefix] at hreq
    split_ifs at hreq
    cases hreq
    exact hc hsize (beq_iff_eq.1 hunref)
  | getCapset cmd =>
    exact Buffer.headed_of_le
      ((MaybeInlineBuffer.length_of_tryFromBytes hmaxIn hin).trans cmd.2).ge hrsp
  | contextSubmit3d hdr =>
    refine Buffer.headed_of_le ?_ hrsp
    rw [← Except.ok.inj hin]
    simp [MaybeInlineBuffer.length, hdr.2, cmdSubmit3DSize]
  | submitCommandSync dma | submitCommand dma =>
    refine Buffer.headed_of_le ?_ hrsp
    rw [← Except.ok.inj hin]
    exact hc
  | submitCommandBuffer hdr =>
    refine Buffer.headed_of_le ?_ hrsp
    rw [MaybeInlineBuffer.length_of_tryFromBytes hmaxIn hin, List.length_append, hdr.2]
    exact Nat.le_add_right _ _

end ControlCall

theorem CursorCall.headed (env : QueueEnv cursorCommandSize cursorResponseSize) {alloc : Allocs}
    {c : CursorCall} {b : Buffer cursorCommandSize cursorResponseSize}
    (h : c.buffer alloc = .ok b) : b.Headed env := by
  obtain ⟨cmd⟩ := c
  obtain ⟨hin, hout, -⟩ := buffer_eq_ok_iff.1 h
  refine Buffer.headed_of_le ?_ (MaybeInlineBuffer.length_of_tryNewZeroedSize (by decide) hout).ge
  rw [MaybeInlineBuffer.length_of_tryFromBytes (by decide) hin, cmd.2]
  decide

end Driver

/-! ### When the loop ends -/

section Loop

variable {size maxIn maxOut : ℕ}

/-- **When `handle_responses` copes with a device.**  From every state of a run, whatever the device
writes, it returns, with the other requests still in flight, exactly when the entries have the ids
of outstanding requests, no two the same; no response has a virtio fence that was not issued; the
devices of the allocations that are dropped exist; and no fence crosses the wrap-around before its
turn. -/
theorem handleResponses_iff (env : QueueEnv maxIn maxOut) (h : 0 < size) (hsize : size ≤ 2 ^ 16)
    (indirect : Bool) (as : List (QueueAct size maxIn maxOut))
    (hpush : ∀ b, .push b ∈ as → b.Headed env) (s : QueueState size maxIn maxOut)
    (hrun : (queueMachine env).run (QueueState.init maxIn maxOut h indirect) as = some s)
    (entries : List (ℕ × ℕ)) (data : Fin size → List UInt8)
    (hawaits : (s.arrive entries data).ValidEntries →
      ∀ e, (s.rest.engines e).Awaits ((s.arrive entries data).completedOn e)) :
    (s.arrive entries data).HandlesResponses env ↔
      (s.arrive entries data).ValidEntries ∧ (s.arrive entries data).FencesIssued env ∧
        (s.arrive entries data).DevicesExist ∧
        ∀ e, (s.rest.engines e).InTurn ((s.arrive entries data).completedOn e) := by
  have hinit : SlotInv (QueueState.init maxIn maxOut h indirect).q
      (QueueState.init maxIn maxOut h indirect).added ∧
      (QueueState.init maxIn maxOut h indirect).AllHeaded env :=
    ⟨slotInv_init h indirect, fun _ hb => absurd hb List.not_mem_nil, fun _ _ hb => nomatch hb⟩
  have hmeets : (queueMachine env).Meets (fun _ a => QueueState.PushesHeaded env a)
      (QueueState.init maxIn maxOut h indirect) as :=
    Machine.meets_of_forall_mem fun a ha b hb => hpush b (hb ▸ ha)
  have hinv := Machine.run_induction (I := fun s => SlotInv s.q s.added ∧ s.AllHeaded env)
    (fun s a s' ⟨hslots, hheaded⟩ hok hstep =>
      ⟨slotInv_step hsize hslots hstep, QueueState.allHeaded_step hheaded hok hstep⟩)
    hinit hmeets hrun
  have hready := QueueState.ready_arrive hinv.1 hinv.2 entries data
  have heffects : (s.arrive entries data).ValidEntries →
      ((∃ rest, Effect.runAll (s.arrive entries data).rest (s.arrive entries data).callbackEffects =
          .next rest) ↔ (s.arrive entries data).DevicesExist ∧
        ∀ e, (s.rest.engines e).InTurn ((s.arrive entries data).completedOn e)) := fun hvalid =>
    (Effect.runAll_iff _ _).trans (and_congr_right fun _ =>
      forall_congr' fun e => (hawaits hvalid e).notifyAll_iff e _)
  constructor
  · intro hhandles
    obtain ⟨hvalid, hissued, hruns⟩ := QueueState.valid_of_handlesResponses hsize hready hhandles
    exact ⟨hvalid, hissued, (heffects hvalid).1 hruns⟩
  · rintro ⟨hvalid, hissued, hrest⟩
    exact QueueState.handlesResponses_of_valid hsize hready hvalid hissued
      ((heffects hvalid).2 hrest)

end Loop

/-- The surroundings of the control queue; the DMA memory is zero. -/
def controlEnv : QueueEnv maxCommandSize maxResponseSize :=
  ⟨controlInputs, controlOutputs, fun _ => 0⟩

/-- A command of zeroes. -/
def blankCommand (callback : Callback) : Buffer maxCommandSize maxResponseSize where
  input := .inline 32 (List.replicate maxCommandSize 0) (by simp) (by decide)
  output := .inline ctrlHeaderSize (List.replicate maxResponseSize 0) (by simp) (by decide)
  callback := callback

/-- The commands with the fences `2 ^ 32 - 1` and `0` are in flight, the first one with an
allocation. -/
def aroundWrap : List (QueueAct 4 maxCommandSize maxResponseSize) :=
  [.push (blankCommand (.dmaCompletedWithAllocations .graphics (2 ^ 32 - 1) [7])), .request 0,
    .push (blankCommand (.dmaCompleted .graphics 0)), .request 0]

/-- All fences up to `2 ^ 32 - 2` have completed on every engine. -/
def beforeWrap : EngineState := ⟨0, 2 ^ 32 - 2, 0, ∅, 0, 0⟩

/-- `gone` says whether the devices have been destroyed. -/
def elsewhereBeforeWrap (gone : Bool) : Elsewhere :=
  ⟨fun _ => beforeWrap, fun _ => [], fun _ => gone, 0, []⟩

theorem beforeWrap_awaits {fs : List ℕ} (h : fs.Sublist [2 ^ 32 - 1, 0]) :
    beforeWrap.Awaits fs where
  lt := by decide
  ahead g hg := absurd hg (Finset.notMem_empty g)
  nodup := h.nodup (by decide)
  fresh f hf := by
    refine ⟨Finset.notMem_empty f, ?_⟩
    rcases List.mem_pair.1 (h.subset hf) with rfl | rfl
    · exact ⟨0, by decide, by decide⟩
    · exact ⟨1, by decide, by decide⟩

theorem beforeWrap_inTurn : beforeWrap.InTurn [2 ^ 32 - 1, 0] := by
  have hnext : nextFence beforeWrap.lastCompletedFence = 2 ^ 32 - 1 := by decide
  intro before f after heq hbelow g hg hg'
  rw [hnext] at hbelow hg
  cases before with
  | nil =>
    obtain ⟨rfl, -⟩ := List.cons.inj heq
    exact absurd hbelow (lt_irrefl _)
  | cons b before =>
    obtain ⟨rfl, -⟩ := List.cons.inj heq
    obtain rfl : g = 2 ^ 32 - 1 := by omega
    exact .inr List.mem_cons_self

theorem aroundWrap_arrive (rest : Elsewhere) : ∃ s b b',
    (queueMachine controlEnv).run (.init _ _ (by decide) true) (aroundWrap ++ [.elsewhere rest]) =
        some s ∧ s.rest = rest ∧
      let t := s.arrive [(0, 24), (1, 24)] fun _ => []
      (t.q.queue.returned = [0, 1] ∧ t.q.queue.Outstanding 0 ∧ t.q.queue.Outstanding 1) ∧
      t.requestsOf [0, 1] = [b, b'] ∧
      (b.callback = .dmaCompletedWithAllocations .graphics (2 ^ 32 - 1) [7] ∧
        b'.callback = .dmaCompleted .graphics 0) ∧
      b.completedFence controlEnv = none ∧ b'.completedFence controlEnv = none := by
  have hrun : ((queueMachine controlEnv).run (.init _ _ (by decide) true) aroundWrap).map (fun s =>
      let t := s.arrive [(0, 24), (1, 24)] fun _ => []
      ((t.q.queue.returned, decide (t.q.queue.Outstanding 0), decide (t.q.queue.Outstanding 1)),
        (t.requestsOf [0, 1]).map fun b => (b.callback, b.completedFence controlEnv))) =
      some (([0, 1], true, true),
        [(.dmaCompletedWithAllocations .graphics (2 ^ 32 - 1) [7], none),
          (.dmaCompleted .graphics 0, none)]) := by decide +kernel
  obtain ⟨s, hs, hstate⟩ := Option.map_eq_some_iff.1 hrun
  simp only [Prod.mk.injEq, decide_eq_true_eq, List.map_eq_cons_iff, List.map_eq_nil_iff] at hstate
  obtain ⟨hqueue, b, bs, hbs, ⟨hb, hf⟩, b', bs', rfl, ⟨hb', hf'⟩, rfl⟩ := hstate
  exact ⟨{ s with rest := rest }, b, b', Machine.run_append hs, rfl, hqueue, hbs, ⟨hb, hb'⟩, hf,
    hf'⟩

/-- The two commands are answered in order. -/
theorem handleResponses_iff_aroundWrap :
    ∃ s, (queueMachine controlEnv).run (.init _ _ (by decide) true)
        (aroundWrap ++ [.elsewhere (elsewhereBeforeWrap false)]) = some s ∧
      (s.arrive [(0, 24), (1, 24)] fun _ => []).HandlesResponses controlEnv := by
  have hpush : ∀ b, .push b ∈ aroundWrap ++ [.elsewhere (elsewhereBeforeWrap false)] →
      b.Headed controlEnv := by
    intro b hb
    simp only [aroundWrap, List.cons_append, List.nil_append, List.mem_cons, QueueAct.push.injEq,
      reduceCtorEq, false_or, or_false, List.not_mem_nil] at hb
    rcases hb with rfl | rfl <;> exact Buffer.headed_of_le (by decide) (by decide)
  obtain ⟨s, b, b', hs, hrest, ⟨hreturned, hout₀, hout₁⟩, hbs, ⟨hb, hb'⟩, hf, hf'⟩ :=
    aroundWrap_arrive (elsewhereBeforeWrap false)
  have heffects : (s.arrive [(0, 24), (1, 24)] fun _ => []).callbackEffects =
      [.dropAllocations [7], .notifyDmaCompleted .graphics (2 ^ 32 - 1),
        .notifyDmaCompleted .graphics 0] := by
    simp [QueueState.callbackEffects, hreturned, hbs, Callback.allEffects, Callback.effects, hb,
      hb']
  have hon : ∀ e, (s.arrive [(0, 24), (1, 24)] fun _ => []).completedOn e =
      if e = .graphics then [2 ^ 32 - 1, 0] else [] := by
    intro e
    rw [QueueState.completedOn, heffects]
    split_ifs with he
    · subst he
      rfl
    · simp [Effect.fenceOn, Ne.symm he]
  refine ⟨s, hs, (handleResponses_iff controlEnv (by decide) (by decide) true _ hpush s hs _ _
    fun _ e => ?_).2 ⟨⟨?_, fun id hid => ?_⟩, fun u c f hu hc hcf => ?_, ?_, fun e => ?_⟩⟩
  · rw [hrest, hon]
    split_ifs
    · exact beforeWrap_awaits (List.Sublist.refl _)
    · exact beforeWrap_awaits (List.nil_sublist _)
  · rw [hreturned]
    decide
  · rw [hreturned] at hid
    rcases List.mem_pair.1 hid with rfl | rfl
    · exact ⟨0, hout₀, rfl⟩
    · exact ⟨1, hout₁, rfl⟩
  · have hmem := QueueState.mem_requestsOf (hreturned ▸ hu) hc
    rw [hbs] at hmem
    rcases List.mem_pair.1 hmem with rfl | rfl <;> simp_all
  · rw [QueueState.DevicesExist, heffects]
    simp [Effect.DevicesExist, QueueState.arrive, hrest, elsewhereBeforeWrap]
  · rw [hrest, hon]
    split_ifs
    · exact beforeWrap_inTurn
    · rintro (_ | _) f after heq <;> cases heq

/-- **A device can hang or crash the loop.**  An entry with the id of a free descriptor is never
consumed, and an id out of the queue is an index out of bounds.  Answers out of order around the
wrap-around are taken for a missed fence, and an allocation without its device fails an `unwrap`. -/
theorem handleResponses_hangs :
    (∀ n, ((QueueState.init _ _ (by decide) true : QueueState 16 _ _).arrive [(3, 0)]
      fun _ => []).handleResponses cursorEnv n = .stuck) ∧
    ((QueueState.init _ _ (by decide) true : QueueState 16 _ _).arrive [(16, 0)]
      fun _ => []).handleResponses cursorEnv 1 = .panic .outOfBounds ∧
    (∃ s, (queueMachine controlEnv).run (.init _ _ (by decide) true)
        (aroundWrap ++ [.elsewhere (elsewhereBeforeWrap false)]) = some s ∧
      (s.arrive [(1, 24), (0, 24)] fun _ => []).handleResponses controlEnv 1 =
        .panic (.missedFence 0 (2 ^ 32 - 2))) ∧
    ∃ s, (queueMachine controlEnv).run (.init _ _ (by decide) true)
        (aroundWrap ++ [.elsewhere (elsewhereBeforeWrap true)]) = some s ∧
      (s.arrive [(0, 24)] fun _ => []).handleResponses controlEnv 1 = .panic .deviceGone := by
  refine ⟨fun n => QueueState.handleResponses_of_err (e := .invalidDeviceState) rfl n, rfl, ?_, ?_⟩
  · have hrun : ((queueMachine controlEnv).run (.init _ _ (by decide) true)
        (aroundWrap ++ [.elsewhere (elsewhereBeforeWrap false)])).map (fun s =>
          ((s.arrive [(1, 24), (0, 24)] fun _ => []).handleResponses controlEnv 1).panic?) =
        some (some (.missedFence 0 (2 ^ 32 - 2))) := by decide +kernel
    obtain ⟨s, hs, hpanic⟩ := Option.map_eq_some_iff.1 hrun
    exact ⟨s, hs, Outcome.panic?_eq_some.1 hpanic⟩
  · have hrun : ((queueMachine controlEnv).run (.init _ _ (by decide) true)
        (aroundWrap ++ [.elsewhere (elsewhereBeforeWrap true)])).map (fun s =>
          ((s.arrive [(0, 24)] fun _ => []).handleResponses controlEnv 1).panic?) =
        some (some .deviceGone) := by decide +kernel
    obtain ⟨s, hs, hpanic⟩ := Option.map_eq_some_iff.1 hrun
    exact ⟨s, hs, Outcome.panic?_eq_some.1 hpanic⟩

end VirtioGpu
