import VirtioGpu.Queue.Device

/-!
# Slots, tokens and the ring

A request in flight is known by two numbers: the slot that owns its buffers and the token under
which the ring has it.  The two are chosen independently, the slot from the queue's own free list
and the token from the ring's, and `indices` leads from one to the other.

The first half of this file says once what `request` and `response` can do (`RequestCase`,
`ResponseCase`) and on what they can panic.  The second half is the invariant: every outstanding
token has its own slot, which is not free and holds the request that was added under the token
(`SlotInv`).  It holds in every run, whether or not requests are lost on the way.
-/

namespace VirtioGpu

namespace QueueState

variable {size maxIn maxOut : ℕ} {env : QueueEnv maxIn maxOut} {s s' : QueueState size maxIn maxOut}
  {r : Returned} {pick : ℕ} {p : QueuePanic} {q : Queue size maxIn maxOut}

/-! ### What the two operations can do -/

/-- What `request` has done when it returns: nothing, because all slots are taken or the channel is
empty; lost the request `b`, because the ring was full; or added `b` under a new token. -/
inductive RequestCase (s s' : QueueState size maxIn maxOut) (pick : ℕ) : Returned → Prop
  | noSlot (hfree : s.q.free.items = []) (hs : s' = s) : RequestCase s s' pick .none
  | noRequest (i : Fin size) (rest : List (Fin size)) (free : ArrayQueue (Fin size) size)
      (hfree : s.q.free.items = i :: rest) (hchan : s.chan = []) (hfree' : free.items = rest ++ [i])
      (hs : s' = { s with q := { s.q with free := free } }) : RequestCase s s' pick .none
  | lost (i : Fin size) (rest : List (Fin size)) (free : ArrayQueue (Fin size) size)
      (b : Buffer maxIn maxOut) (hfree : s.q.free.items = i :: rest) (hfree' : free.items = rest)
      (hpick : s.chan[pick]? = some b) (hfull : s.q.queue.Full)
      (hs : s' = { s with
        q := { s.q with free := free }.store i b
        chan := s.chan.eraseIdx pick
        popped := s.popped ++ [b] }) : RequestCase s s' pick (.err .queueFull)
  | added (i : Fin size) (rest : List (Fin size)) (free : ArrayQueue (Fin size) size)
      (b : Buffer maxIn maxOut) (token : Fin size) (queue : Virtq size (Fin size))
      (hfree : s.q.free.items = i :: rest) (hfree' : free.items = rest)
      (hpick : s.chan[pick]? = some b) (hfull : ¬ s.q.queue.Full)
      (htake : s.q.queue.take i = some (token, queue))
      (hs : s' = { s with
        q := { { s.q with free := free }.store i b with
          queue := queue
          indices := Function.update s.q.indices token (some i) }
        chan := s.chan.eraseIdx pick
        popped := s.popped ++ [b]
        added := Function.update s.added token (some b) }) : RequestCase s s' pick .some

theorem request_cases (h : s.request env pick = .next (r, s')) : RequestCase s s' pick r := by
  unfold request at h
  obtain ⟨hnil, free, hpop, -⟩ | ⟨i, rest, free, hcons, hpop, hfree⟩ := s.q.free.pop_cases
  · simp only [hpop, Outcome.next.injEq, Prod.mk.injEq] at h
    obtain ⟨rfl, rfl⟩ := h
    exact .noSlot hnil rfl
  · simp only [hpop] at h
    split_ifs at h with hchan
    · split at h
      · cases h
      · rename_i free' hpush
        simp only [Outcome.next.injEq, Prod.mk.injEq] at h
        obtain ⟨rfl, rfl⟩ := h
        refine .noRequest i rest free' hcons hchan ?_ rfl
        rw [(ArrayQueue.items_of_push hpush).1, hfree]
    · split at h
      · cases h
      · rename_i b hpick
        obtain ⟨⟨res, q⟩, hpush, h⟩ := Outcome.bind_eq_next.1 h
        unfold Queue.pushToDevice at hpush
        simp only at hpush
        split_ifs at hpush with hsound hfull hempty
        · simp only [Outcome.next.injEq, Prod.mk.injEq] at hpush
          obtain ⟨rfl, rfl⟩ := hpush
          simp only [Outcome.next.injEq, Prod.mk.injEq] at h
          obtain ⟨rfl, rfl⟩ := h
          exact .lost i rest free b hcons hfree hpick hfull rfl
        · split at hpush
          · cases hpush
          · rename_i token queue htake
            simp only [Outcome.next.injEq, Prod.mk.injEq] at hpush
            obtain ⟨rfl, rfl⟩ := hpush
            simp only [Outcome.next.injEq, Prod.mk.injEq] at h
            obtain ⟨rfl, rfl⟩ := h
            exact .added i rest free b token queue hcons hfree hpick hfull htake rfl

/-- What `response` has done when it returns: nothing, because the device has returned nothing or
an unknown token; or run the callback of the token the device returned first. -/
inductive ResponseCase (s s' : QueueState size maxIn maxOut) : Returned → Prop
  | nothing (hused : s.q.queue.used = []) (hs : s' = s) : ResponseCase s s' .none
  | unknown (token : Fin size) (hpeek : s.q.queue.peekUsed = some token.val)
      (hlost : ∀ i, s.q.indices token = some i → s.q.inputs i = none ∨ s.q.outputs i = none)
      (hs : s' = s) : ResponseCase s s' (.err .invalidDeviceState)
  | completed (token i : Fin size) (c : Chain size (Fin size)) (b : Buffer maxIn maxOut)
      (free : ArrayQueue (Fin size) size) (hpeek : s.q.queue.peekUsed = some token.val)
      (hindex : s.q.indices token = some i) (hchain : s.q.queue.chain token = some c)
      (hin : s.q.inputs i = some b.input) (hout : s.q.outputs i = some b.output)
      (hcall : s.q.callbacks i = b.callback) (hfree : free.items = s.q.free.items ++ [i])
      (hq : s'.q = {
        queue := s.q.queue.recycle token c
        inputs := Function.update s.q.inputs i none
        outputs := Function.update s.q.outputs i none
        callbacks := Function.update s.q.callbacks i .none
        indices := Function.update s.q.indices token none
        free := free })
      (hchan : s'.chan = s.chan) (hpopped : s'.popped = s.popped)
      (hadded : s'.added = Function.update s.added token none)
      (hran : s'.ran = s.ran ++ [b])
      (heffects : ∃ virtioFence s₁, s.signal virtioFence = .next s₁ ∧
        s'.effects = (s₁.recordEffects b.output b.callback).effects)
      (hfence : s'.fence.nextFence = s.fence.nextFence) (hcancelled : s'.cancelled = s.cancelled)
      (harcs : s'.arcs = b.callback.release s.arcs)
      (hrest : Effect.runAll s.rest (b.callback.effects s.cancelled s.arcs b.output) =
        .next s'.rest) : ResponseCase s s' .some

theorem signal_frame {f : Option ℕ} (h : s.signal f = .next s') :
    ∃ fence effects, s' = { s with fence := fence, effects := effects } ∧
      fence.nextFence = s.fence.nextFence := by
  cases f with
  | none =>
    cases h
    exact ⟨_, _, rfl, rfl⟩
  | some f =>
    simp only [signal, FenceTracker.signal] at h
    split_ifs at h
    split at h
    · cases h
    · rename_i fence hfence
      cases h
      refine ⟨_, _, rfl, ?_⟩
      split at hfence <;> cases hfence <;> rfl

theorem popFromDevice_cases {q q' : Queue size maxIn maxOut}
    {res : Except NtStatus (Option (Fin size × Fin size))}
    (h : q.popFromDevice = .next (res, q')) :
    (q.queue.used = [] ∧ res = .ok none ∧ q' = q) ∨
    (∃ token : Fin size, q.queue.peekUsed = some token.val ∧
      (∀ i, q.indices token = some i → q.inputs i = none ∨ q.outputs i = none) ∧
      res = .error .invalidDeviceState ∧ q' = q) ∨
    (∃ (token i : Fin size) (c : Chain size (Fin size)) (input : MaybeInlineBuffer maxIn)
      (output : MaybeInlineBuffer maxOut), q.queue.peekUsed = some token.val ∧
      q.indices token = some i ∧ q.queue.chain token = some c ∧ q.inputs i = some input ∧
      q.outputs i = some output ∧ res = .ok (some (token, i)) ∧
      q' = { q with
        queue := q.queue.recycle token c
        indices := Function.update q.indices token none }) := by
  unfold Queue.popFromDevice at h
  cases hpeek : q.queue.peekUsed with
  | none =>
    simp only [hpeek, Outcome.next.injEq, Prod.mk.injEq] at h
    exact .inl ⟨by simpa [Virtq.peekUsed] using hpeek, h.1.symm, h.2.symm⟩
  | some token =>
    simp only [hpeek] at h
    split_ifs at h with hlt
    split at h
    · rename_i hindex
      simp only [Outcome.next.injEq, Prod.mk.injEq] at h
      exact .inr (.inl ⟨⟨token, hlt⟩, rfl, by simp [hindex], h.1.symm, h.2.symm⟩)
    · rename_i i hindex
      split at h
      · rename_i input output hin hout
        split at h
        · cases h
        · rename_i c hchain
          split_ifs at h
          simp only [Outcome.next.injEq, Prod.mk.injEq] at h
          exact .inr (.inr ⟨⟨token, hlt⟩, i, c, input, output, rfl, hindex, hchain, hin, hout,
            h.1.symm, h.2.symm⟩)
      · rename_i hnone
        simp only [Outcome.next.injEq, Prod.mk.injEq] at h
        refine .inr (.inl ⟨⟨token, hlt⟩, rfl, fun j hj => ?_, h.1.symm, h.2.symm⟩)
        cases hindex.symm.trans hj
        cases hin : q.inputs i with
        | none => exact .inl rfl
        | some input =>
          cases hout : q.outputs i with
          | none => exact .inr rfl
          | some output => exact absurd hout (hnone input output hin)

theorem response_cases (h : s.response env = .next (r, s')) : ResponseCase s s' r := by
  unfold response at h
  obtain ⟨⟨res, q⟩, hpop, h⟩ := Outcome.bind_eq_next.1 h
  obtain ⟨hused, rfl, rfl⟩ | ⟨token, hpeek, hlost, rfl, rfl⟩ |
    ⟨token, i, c, input, output, hpeek, hindex, hchain, hin, hout, rfl, rfl⟩ :=
    popFromDevice_cases hpop
  · cases h
    exact .nothing hused rfl
  · cases h
    exact .unknown token hpeek hlost rfl
  · simp only at h
    obtain ⟨virtioFence, -, h⟩ := Outcome.bind_eq_next.1 h
    obtain ⟨s₁, hsignal, h⟩ := Outcome.bind_eq_next.1 h
    obtain ⟨fence, effects, rfl, hfence⟩ := signal_frame hsignal
    simp only [hin, hout] at h
    obtain ⟨s₂, hrun, h⟩ := Outcome.bind_eq_next.1 h
    obtain ⟨rest, hrest, hs₂⟩ := Outcome.bind_eq_next.1 hrun
    cases hs₂
    obtain ⟨q', hmark, h⟩ := Outcome.bind_eq_next.1 h
    simp only [Outcome.next.injEq, Prod.mk.injEq] at h
    obtain ⟨rfl, rfl⟩ := h
    unfold Queue.markFree at hmark
    split at hmark
    · cases hmark
    · rename_i free hpush
      cases hmark
      exact .completed token i c ⟨input, output, s.q.callbacks i⟩ free hpeek hindex hchain hin hout
        rfl (ArrayQueue.items_of_push hpush).1 rfl rfl rfl rfl rfl ⟨virtioFence, _, hsignal, rfl⟩
        hfence rfl rfl hrest

/-! ### Panics -/

theorem effects_panic {rest : Elsewhere} {effects : List (Effect maxOut)}
    (h : Effect.runAll rest effects = .panic p) : p.isEffect = true := by
  induction effects generalizing rest with
  | nil => cases h
  | cons effect effects ih =>
    obtain hrun | ⟨rest', -, h⟩ := Outcome.bind_eq_panic.1 h
    · unfold Effect.run at hrun
      split at hrun
      · split at hrun <;> cases hrun
        rfl
      · split_ifs at hrun
        cases hrun
        rfl
      · split_ifs at hrun
        cases hrun
        rfl
      all_goals cases hrun
    · exact ih h

theorem pushToDevice_panic {i : Fin size} {b : Buffer maxIn maxOut}
    (h : Queue.pushToDevice env q i b = .panic p) :
    p = .multiPage ∨ p = .emptyBuffer := by
  unfold Queue.pushToDevice at h
  simp only at h
  split_ifs at h
  · cases h
    exact .inr rfl
  · split at h <;> cases h
  · cases h
    exact .inl rfl

/-- `request` puts a slot back into the list it has just taken it from. -/
theorem request_panic (h : s.request env pick = .panic p) :
    p = .multiPage ∨ p = .emptyBuffer := by
  unfold request at h
  obtain ⟨-, free, hpop, -⟩ | ⟨i, rest, free, hcons, hpop, hfree⟩ := s.q.free.pop_cases
  · simp [hpop] at h
  · simp only [hpop] at h
    split_ifs at h with hchan
    · have hlen := s.q.free.length_le
      rw [hcons, List.length_cons] at hlen
      obtain ⟨free', hpush, -⟩ := ArrayQueue.push_of_lt (q := free) (by rw [hfree]; omega) i
      simp [hpush] at h
    · split at h
      · cases h
      · obtain hpanic | ⟨⟨res, q⟩, -, h⟩ := Outcome.bind_eq_panic.1 h
        · exact pushToDevice_panic hpanic
        · cases res <;> cases h

theorem popFromDevice_panic (h : q.popFromDevice = .panic p) : p = .outOfBounds ∨ p = .emptyBuffer ∨
      (p = .unwrapNone ∧ ∃ t i, q.indices t = some i ∧ q.queue.chain t = none) := by
  unfold Queue.popFromDevice at h
  split at h
  · cases h
  · rename_i token hpeek
    split_ifs at h with hlt
    · split at h
      · cases h
      · rename_i i hindex
        split at h
        · split at h
          · rename_i hchain
            cases h
            exact .inr (.inr ⟨rfl, ⟨token, hlt⟩, i, hindex, hchain⟩)
          · split_ifs at h
            cases h
            exact .inr (.inl rfl)
        · cases h
    · cases h
      exact .inl rfl

theorem readCompletedFence_panic {i : Fin size} {input : MaybeInlineBuffer maxIn}
    {output : MaybeInlineBuffer maxOut} (hin : q.inputs i = some input)
    (hout : q.outputs i = some output) (h : readCompletedFence env q i = .panic p) :
    p = .shortBuffer := by
  unfold readCompletedFence at h
  simp only [hin, hout] at h
  split at h
  · split_ifs at h
    cases h
    rfl
  · cases h
    rfl

/-- Apart from the assertions on lengths and fences and the panics of the callbacks, `response`
panics only for a token that has a slot but no chain, or if the slot of a token is freed into a full
list. -/
theorem response_panic (h : s.response env = .panic p) :
    p = .outOfBounds ∨ p = .emptyBuffer ∨ p = .shortBuffer ∨ p = .fenceNotIssued ∨
      p.isEffect = true ∨
      (p = .unwrapNone ∧ ∃ t i, s.q.indices t = some i ∧ s.q.queue.chain t = none) ∨
      (p = .freeFull ∧ ∃ t i, s.q.indices t = some i ∧ size ≤ s.q.free.items.length) := by
  unfold response at h
  obtain hpop | ⟨⟨res, q⟩, hpop, h⟩ := Outcome.bind_eq_panic.1 h
  · obtain rfl | rfl | hunwrap := popFromDevice_panic hpop
    · exact .inl rfl
    · exact .inr (.inl rfl)
    · exact .inr (.inr (.inr (.inr (.inr (.inl hunwrap)))))
  · obtain ⟨-, rfl, rfl⟩ | ⟨-, -, -, rfl, rfl⟩ |
      ⟨token, i, c, input, output, -, hindex, -, hin, hout, rfl, rfl⟩ := popFromDevice_cases hpop
    · cases h
    · cases h
    simp only at h
    obtain hread | ⟨virtioFence, -, h⟩ := Outcome.bind_eq_panic.1 h
    · exact .inr (.inr (.inl (readCompletedFence_panic (q := { s.q with
        queue := s.q.queue.recycle token c
        indices := Function.update s.q.indices token none }) hin hout hread)))
    obtain hsignal | ⟨s₁, hsignal, h⟩ := Outcome.bind_eq_panic.1 h
    · refine .inr (.inr (.inr (.inl ?_)))
      cases virtioFence with
      | none => cases hsignal
      | some =>
        simp only [signal] at hsignal
        split at hsignal <;> cases hsignal
        rfl
    simp only [hin, hout] at h
    obtain hrun | ⟨s₂, -, h⟩ := Outcome.bind_eq_panic.1 h
    · obtain hpanic | ⟨rest, -, hnext⟩ := Outcome.bind_eq_panic.1 hrun
      · exact .inr (.inr (.inr (.inr (.inl (effects_panic hpanic)))))
      · cases hnext
    obtain hmark | ⟨q', -, h⟩ := Outcome.bind_eq_panic.1 h
    · unfold Queue.markFree at hmark
      split at hmark
      · rename_i hpush
        cases hmark
        exact .inr (.inr (.inr (.inr (.inr (.inr ⟨rfl, token, i, hindex,
          (ArrayQueue.of_push_error hpush).2.ge⟩)))))
      · cases hmark
    · cases h

theorem step_request (h : (queueMachine env).step s (.request pick) = .next s') :
    ∃ r, RequestCase s s' pick r := by
  obtain ⟨⟨r, s₁⟩, hreq, hs₁⟩ := Outcome.bind_eq_next.1 h
  cases hs₁
  exact ⟨r, request_cases hreq⟩

theorem step_response (h : (queueMachine env).step s .response = .next s') :
    ∃ r, ResponseCase s s' r := by
  obtain ⟨⟨r, s₁⟩, hresp, hs₁⟩ := Outcome.bind_eq_next.1 h
  cases hs₁
  exact ⟨r, response_cases hresp⟩

theorem step_complete {token : Fin size} {len : ℕ} {data : List UInt8}
    (h : (queueMachine env).step s (.complete token len data) = .next s') :
    ∃ c, s.q.queue.chain token = some c ∧ token.val ∉ s.q.queue.returned ∧ s' = { s with
      q := { s.q with
        queue := { s.q.queue with used := s.q.queue.used ++ [(token.val, len)] }
        outputs := Function.update s.q.outputs c.buffers
          ((s.q.outputs c.buffers).map (MaybeInlineBuffer.write data)) }
      added := Function.update s.added token
        ((s.added token).map fun b => { b with output := b.output.write data }) } := by
  simp only [queueMachine, complete] at h
  split at h
  · cases h
  · rename_i c hc
    split_ifs at h with hnew
    cases h
    exact ⟨c, hc, hnew, rfl⟩

end QueueState

/-! ### The invariant -/

section Invariant

variable {size maxIn maxOut : ℕ}

/-- Slot `i` holds the buffers of an outstanding token. -/
def Queue.InFlight (q : Queue size maxIn maxOut) (i : Fin size) : Prop :=
  ∃ token, q.queue.Outstanding token ∧ q.indices token = some i
  deriving Decidable

/-- The slots and the ring agree: every outstanding token has its own slot, which is not free and
holds the request that was added under the token. -/
structure SlotInv (q : Queue size maxIn maxOut) (added : Fin size → Option (Buffer maxIn maxOut)) :
    Prop where
  wf : q.queue.Wf
  nodup : q.free.items.Nodup
  index : ∀ t c, q.queue.chain t = some c → q.indices t = some c.buffers
  unknown : ∀ t, q.queue.chain t = none → q.indices t = none ∧ added t = none
  request : ∀ t c, q.queue.chain t = some c → ∃ b, added t = some b ∧
    q.inputs c.buffers = some b.input ∧ q.outputs c.buffers = some b.output ∧
    q.callbacks c.buffers = b.callback
  busy : ∀ t c, q.queue.chain t = some c → c.buffers ∉ q.free.items
  own_slot : ∀ t c t' c', q.queue.chain t = some c → q.queue.chain t' = some c' →
    c.buffers = c'.buffers → t = t'

variable {q : Queue size maxIn maxOut} {added : Fin size → Option (Buffer maxIn maxOut)}

theorem slotInv_init (h : 0 < size) (indirect : Bool) :
    SlotInv (.new maxIn maxOut h indirect) (fun _ => none) where
  wf := Virtq.wf_new indirect
  nodup := List.nodup_finRange size
  index := by simp [Queue.new, Virtq.new]
  unknown := by simp [Queue.new]
  request := by simp [Queue.new, Virtq.new]
  busy := by simp [Queue.new, Virtq.new]
  own_slot := by simp [Queue.new, Virtq.new]

section

variable (hq : SlotInv q added)
include hq

theorem SlotInv.inFlight_iff (i : Fin size) :
    q.InFlight i ↔ ∃ t c, q.queue.chain t = some c ∧ c.buffers = i := by
  constructor
  · rintro ⟨t, ht, hi⟩
    obtain ⟨c, hc⟩ := Option.isSome_iff_exists.1 ht
    rw [hq.index t c hc] at hi
    exact ⟨t, c, hc, Option.some.inj hi⟩
  · rintro ⟨t, c, hc, rfl⟩
    exact ⟨t, by rw [Virtq.Outstanding, hc]; rfl, hq.index t c hc⟩

theorem SlotInv.chain_of_index {t i : Fin size} (hi : q.indices t = some i) :
    ∃ c, q.queue.chain t = some c ∧ c.buffers = i := by
  cases hc : q.queue.chain t with
  | none =>
    rw [(hq.unknown t hc).1] at hi
    cases hi
  | some c =>
    rw [hq.index t c hc] at hi
    exact ⟨c, rfl, Option.some.inj hi⟩

theorem SlotInv.shrink {free : ArrayQueue (Fin size) size} (hnodup : free.items.Nodup)
    (hsub : ∀ i ∈ free.items, i ∈ q.free.items) :
    SlotInv { q with free := free } added :=
  { hq with
    nodup := hnodup
    busy := fun t c hc hmem => hq.busy t c hc (hsub _ hmem) }

theorem SlotInv.store {i : Fin size} (hi : ¬ q.InFlight i) (b : Buffer maxIn maxOut) :
    SlotInv (q.store i b) added :=
  { hq with
    request := by
      intro t c hc
      have hne : c.buffers ≠ i := fun heq => hi ((hq.inFlight_iff i).2 ⟨t, c, hc, heq⟩)
      simpa only [Queue.store, Function.update_of_ne hne] using hq.request t c hc }

theorem SlotInv.take {i token : Fin size} {queue : Virtq size (Fin size)} {b : Buffer maxIn maxOut}
    (hfree : i ∉ q.free.items) (hi : ¬ q.InFlight i) (hin : q.inputs i = some b.input)
    (hout : q.outputs i = some b.output) (hcall : q.callbacks i = b.callback)
    (hfull : ¬ q.queue.Full) (htake : q.queue.take i = some (token, queue)) :
    SlotInv { q with queue := queue, indices := Function.update q.indices token (some i) }
      (Function.update added token (some b)) := by
  obtain ⟨head, rest, htake', hnone, hwf⟩ := hq.wf.take hfull i
  rw [htake] at htake'
  simp only [Option.some.injEq, Prod.mk.injEq] at htake'
  obtain ⟨rfl, rfl⟩ := htake'
  have hchain : ∀ t c, (q.queue.link token rest i).chain t = some c →
      (t = token ∧ c.buffers = i) ∨ (t ≠ token ∧ q.queue.chain t = some c) := by
    intro t c hc
    by_cases ht : t = token
    · subst ht
      rw [Virtq.link_chain_self] at hc
      exact .inl ⟨rfl, by rw [← Option.some.inj hc]⟩
    · rw [Virtq.link_chain_of_ne _ ht] at hc
      exact .inr ⟨ht, hc⟩
  have hother : ∀ t c, q.queue.chain t = some c → c.buffers ≠ i := fun t c hc heq =>
    hi ((hq.inFlight_iff i).2 ⟨t, c, hc, heq⟩)
  refine ⟨hwf, hq.nodup, ?_, ?_, ?_, ?_, ?_⟩
  · intro t c hc
    obtain ⟨rfl, hbuf⟩ | ⟨ht, hc⟩ := hchain t c hc
    · simp [hbuf]
    · simp only [Function.update_of_ne ht]
      exact hq.index t c hc
  · intro t hc
    have ht : t ≠ token := by
      rintro rfl
      simp at hc
    simp only [Function.update_of_ne ht]
    rw [Virtq.link_chain_of_ne _ ht] at hc
    exact hq.unknown t hc
  · intro t c hc
    obtain ⟨rfl, hbuf⟩ | ⟨ht, hc⟩ := hchain t c hc
    · exact ⟨b, Function.update_self .., by rw [hbuf]; exact ⟨hin, hout, hcall⟩⟩
    · simp only [Function.update_of_ne ht]
      exact hq.request t c hc
  · intro t c hc
    obtain ⟨-, hbuf⟩ | ⟨-, hc⟩ := hchain t c hc
    · rwa [hbuf]
    · exact hq.busy t c hc
  · intro t c t' c' hc hc' heq
    obtain ⟨rfl, hbuf⟩ | ⟨-, hold⟩ := hchain t c hc
    · obtain ⟨rfl, -⟩ | ⟨-, hold'⟩ := hchain t' c' hc'
      · rfl
      · exact absurd (heq.symm.trans hbuf) (hother t' c' hold')
    · obtain ⟨-, hbuf'⟩ | ⟨-, hold'⟩ := hchain t' c' hc'
      · exact absurd (heq.trans hbuf') (hother t c hold)
      · exact hq.own_slot t c t' c' hold hold' heq

theorem SlotInv.complete {t : Fin size} {c : Chain size (Fin size)} (hc : q.queue.chain t = some c)
    (hnew : t.val ∉ q.queue.returned) (len : ℕ) (data : List UInt8) :
    SlotInv { q with
        queue := { q.queue with used := q.queue.used ++ [(t.val, len)] }
        outputs := Function.update q.outputs c.buffers
          ((q.outputs c.buffers).map (MaybeInlineBuffer.write data)) }
      (Function.update added t
        ((added t).map fun b => { b with output := b.output.write data })) := by
  refine ⟨hq.wf.complete (by rw [Virtq.Outstanding, hc]; rfl) hnew len, hq.nodup, hq.index, ?_, ?_,
    hq.busy, hq.own_slot⟩
  · intro u hu
    have hne : u ≠ t := by
      rintro rfl
      rw [hc] at hu
      cases hu
    rw [Function.update_of_ne hne]
    exact hq.unknown u hu
  · intro u d hd
    obtain ⟨b, hadd, hin, hout, hcall⟩ := hq.request u d hd
    by_cases hut : u = t
    · subst hut
      rw [hc] at hd
      cases hd
      refine ⟨{ b with output := b.output.write data }, ?_, hin, ?_, hcall⟩
      · rw [Function.update_self, hadd]
        rfl
      · simp only [Function.update_self, hout, Option.map_some]
    · have hslot : d.buffers ≠ c.buffers := fun heq => hut (hq.own_slot u d t c hd hc heq)
      refine ⟨b, ?_, hin, ?_, hcall⟩
      · rw [Function.update_of_ne hut, hadd]
      · simp only [Function.update_of_ne hslot, hout]

theorem SlotInv.pop {t i : Fin size} {c : Chain size (Fin size)} {len : ℕ} {rest : List (ℕ × ℕ)}
    {free : ArrayQueue (Fin size) size} (hc : q.queue.chain t = some c)
    (hused : q.queue.used = (t.val, len) :: rest) (hi : q.indices t = some i)
    (hfree : free.items = q.free.items ++ [i]) :
    SlotInv {
        queue := q.queue.recycle t c
        inputs := Function.update q.inputs i none
        outputs := Function.update q.outputs i none
        callbacks := Function.update q.callbacks i .none
        indices := Function.update q.indices t none
        free := free }
      (Function.update added t none) := by
  have hbuf : c.buffers = i := by
    rw [hq.index t c hc] at hi
    exact Option.some.inj hi
  have hslot : ∀ u d, u ≠ t → q.queue.chain u = some d → d.buffers ≠ i := by
    intro u d hu hd heq
    exact hu (hq.own_slot u d t c hd hc (heq.trans hbuf.symm))
  refine ⟨hq.wf.recycle hc hused, ?_, ?_, ?_, ?_, ?_, ?_⟩
  · rw [hfree, List.nodup_append']
    refine ⟨hq.nodup, List.nodup_singleton i, List.disjoint_singleton.2 ?_⟩
    rw [← hbuf]
    exact hq.busy t c hc
  · intro u d hd
    obtain ⟨hu, hd⟩ := Virtq.chain_of_recycle hd
    simp only [Function.update_of_ne hu]
    exact hq.index u d hd
  · intro u hu
    by_cases hut : u = t
    · subst hut
      simp
    · simp only [Function.update_of_ne hut]
      rw [Virtq.recycle_chain_of_ne _ hut] at hu
      exact hq.unknown u hu
  · intro u d hd
    obtain ⟨hu, hd⟩ := Virtq.chain_of_recycle hd
    simp only [Function.update_of_ne hu, Function.update_of_ne (hslot u d hu hd)]
    exact hq.request u d hd
  · intro u d hd
    obtain ⟨hu, hd⟩ := Virtq.chain_of_recycle hd
    rw [hfree, List.mem_append, List.mem_singleton, not_or]
    exact ⟨hq.busy u d hd, hslot u d hu hd⟩
  · intro u d u' d' hd hd'
    exact hq.own_slot u d u' d' (Virtq.chain_of_recycle hd).2
      (Virtq.chain_of_recycle hd').2

/-- The entry of the used ring that `peek_used` shows is that of an outstanding token. -/
theorem SlotInv.used_of_peek (hsize : size ≤ 2 ^ 16) {t : Fin size}
    (hpeek : q.queue.peekUsed = some t.val) :
    ∃ len rest c, q.queue.used = (t.val, len) :: rest ∧ q.queue.chain t = some c := by
  cases hused : q.queue.used with
  | nil => simp [Virtq.peekUsed, hused] at hpeek
  | cons entry rest =>
    obtain ⟨id, len⟩ := entry
    obtain ⟨u, hout, rfl⟩ := hq.wf.returned_outstanding id (by simp [Virtq.returned, hused])
    have hlt : u.val < 2 ^ 16 := lt_of_lt_of_le u.isLt hsize
    simp only [Virtq.peekUsed, hused, List.head?_cons, Option.map_some, Option.some.injEq,
      Nat.mod_eq_of_lt hlt] at hpeek
    obtain ⟨c, hc⟩ := Option.isSome_iff_exists.1 hout
    cases Fin.ext hpeek
    exact ⟨len, rest, c, rfl, hc⟩

theorem SlotInv.not_inFlight {i : Fin size} (hi : i ∈ q.free.items) : ¬ q.InFlight i := by
  rw [hq.inFlight_iff]
  rintro ⟨t, c, hc, rfl⟩
  exact hq.busy t c hc hi

end

end Invariant

/-! ### Steps -/

section Step

variable {size maxIn maxOut : ℕ} {env : QueueEnv maxIn maxOut}
  {s s' : QueueState size maxIn maxOut}

theorem SlotInv.popSlot (hs : SlotInv s.q s.added) {i : Fin size} {rest : List (Fin size)}
    {free : ArrayQueue (Fin size) size} (hfree : s.q.free.items = i :: rest)
    (hfree' : free.items = rest) :
    SlotInv { s.q with free := free } s.added ∧ i ∉ free.items := by
  have hnodup := hs.nodup
  rw [hfree, List.nodup_cons] at hnodup
  refine ⟨hs.shrink (by rw [hfree']; exact hnodup.2) ?_, by rw [hfree']; exact hnodup.1⟩
  intro j hj
  rw [hfree]
  exact .tail _ (hfree' ▸ hj)

theorem slotInv_step (hsize : size ≤ 2 ^ 16) {a : QueueAct size maxIn maxOut}
    (hs : SlotInv s.q s.added) (hstep : (queueMachine env).step s a = .next s') :
    SlotInv s'.q s'.added := by
  cases a with
  | push b | cancel block | issueFence | setArc batch count | elsewhere rest =>
    cases hstep
    exact hs
  | request =>
    obtain ⟨r, hcase⟩ := QueueState.step_request hstep
    cases hcase with
    | noSlot hfree hs' => rwa [hs']
    | noRequest i rest free hfree hchan hfree' hs' =>
      subst hs'
      have hperm : (rest ++ [i]).Perm s.q.free.items := by
        rw [hfree]
        exact List.perm_append_singleton i rest
      refine hs.shrink ?_ fun j hj => ?_
      · rw [hfree']
        exact hperm.nodup_iff.2 hs.nodup
      · rw [hfree'] at hj
        exact hperm.subset hj
    | lost i rest free b hfree hfree' hpick hfull hs' =>
      subst hs'
      have hi := hs.not_inFlight (hfree ▸ List.mem_cons_self : i ∈ s.q.free.items)
      exact (hs.popSlot hfree hfree').1.store hi b
    | added i rest free b token queue hfree hfree' hpick hfull htake hs' =>
      subst hs'
      have hi := hs.not_inFlight (hfree ▸ List.mem_cons_self : i ∈ s.q.free.items)
      obtain ⟨hpop, hmem⟩ := hs.popSlot hfree hfree'
      refine (hpop.store hi b).take hmem hi ?_ ?_ ?_ hfull htake <;>
        exact Function.update_self ..
  | response =>
    obtain ⟨r, hcase⟩ := QueueState.step_response hstep
    cases hcase with
    | nothing hused hs' => rwa [hs']
    | unknown token hpeek hlost hs' => rwa [hs']
    | completed token i c b free hpeek hindex hchain hin hout hcall hfree hq hch hpo hadded =>
      obtain ⟨len, rest, -, hused, -⟩ := hs.used_of_peek hsize hpeek
      rw [hq, hadded]
      exact hs.pop hchain hused hindex hfree
  | complete token len data =>
    obtain ⟨c, hc, hnew, rfl⟩ := QueueState.step_complete hstep
    exact hs.complete hc hnew len data

end Step

end VirtioGpu
