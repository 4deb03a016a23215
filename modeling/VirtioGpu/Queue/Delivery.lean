import VirtioGpu.Queue.Slots
import Mathlib.Algebra.Order.Group.Multiset
import Mathlib.Data.Fintype.EquivFin

/-!
# Every request is answered or lost

`request` moves a request from the channel into a slot before it knows whether the ring has room
for it.  If it has not, `handle_requests` logs the error and goes on: the request stays in a slot
that nobody will free.  With indirect descriptors a request takes one descriptor and the ring has
one for each slot, so this cannot happen; without them a request takes two, and half the slots are
enough to fill the ring.

* `requests_kept_iff` : no request and no slot is lost (`NoLoss`) exactly in the runs that take no
  request while the ring is full (`Room`), and with indirect descriptors that is every run.
* `cursorUpdate_lost` : nine cursor updates without indirect descriptors lose one.
* `slots_sound` : with indirect descriptors, the free list, the slots in flight and the outstanding
  tokens agree, and every completion runs the callback of the request it answers.

## Implementation notes

The device may write to the output of a request in flight, so the multiset equation of `NoLoss`
compares requests by their input and callback.  That a callback gets the output of its own request
is part of `Delivers`.
-/

namespace VirtioGpu

variable {size maxIn maxOut : ℕ} {env : QueueEnv maxIn maxOut} {s s' : QueueState size maxIn maxOut}
  {a : QueueAct size maxIn maxOut} {q : Queue size maxIn maxOut} {b : Buffer maxIn maxOut}
  {i : Fin size}

/-- What identifies a request while the device may write to its output. -/
abbrev RequestKey (maxIn : ℕ) := Option (MaybeInlineBuffer maxIn) × Callback

/-- The requests of a list. -/
def keys (l : List (Buffer maxIn maxOut)) : Multiset (RequestKey maxIn) :=
  l.map fun b => (some b.input, b.callback)

/-- The request in slot `i`. -/
def Queue.slotKey (q : Queue size maxIn maxOut) (i : Fin size) : RequestKey maxIn :=
  (q.inputs i, q.callbacks i)

/-- The slots in flight. -/
def Queue.inFlight (q : Queue size maxIn maxOut) : Finset (Fin size) :=
  Finset.univ.filter q.InFlight

/-- Every request taken from the channel is in a slot in flight or has had its callback run, and
every slot is free or in flight. -/
structure QueueState.NoLoss (s : QueueState size maxIn maxOut) : Prop where
  requests : keys s.popped = keys s.ran + s.q.inFlight.val.map s.q.slotKey
  slots : s.q.free.items.length + s.q.inFlight.card = size

/-- The step does not take a request from the channel while the ring is full. -/
def QueueState.Room (s : QueueState size maxIn maxOut) : QueueAct size maxIn maxOut → Prop
  | .request _ => s.q.free.items ≠ [] → s.chan ≠ [] → ¬ s.q.queue.Full
  | _ => True

instance (s : QueueState size maxIn maxOut) : ∀ a, Decidable (s.Room a)
  | .request _ => inferInstanceAs (Decidable (_ → _ → ¬ _))
  | .push _ | .response | .complete .. | .cancel _ | .issueFence | .setArc ..
  | .elsewhere _ => isTrue trivial

theorem noLoss_init (h : 0 < size) (indirect : Bool) :
    (QueueState.init maxIn maxOut h indirect).NoLoss := by
  have hempty : (QueueState.init maxIn maxOut h indirect).q.inFlight = ∅ := by
    refine Finset.filter_eq_empty_iff.2 ?_
    rintro i - ⟨t, -, hi⟩
    simp [QueueState.init, Queue.new] at hi
  refine ⟨?_, ?_⟩
  · rw [hempty]
    simp [QueueState.init]
  · rw [hempty]
    simp [QueueState.init, Queue.new]

theorem mem_inFlight :
    i ∈ q.inFlight ↔ q.InFlight i := by
  simp [Queue.inFlight]

theorem inFlight_added {added : Fin size → Option (Buffer maxIn maxOut)} (hq : SlotInv q added)
    {free : ArrayQueue (Fin size) size} {i token : Fin size} {queue : Virtq size (Fin size)}
    (hfull : ¬ q.queue.Full) (htake : q.queue.take i = some (token, queue)) :
    ({ { q with free := free }.store i b with
        queue := queue
        indices := Function.update q.indices token (some i) } : Queue size maxIn maxOut).inFlight =
      insert i q.inFlight := by
  obtain ⟨head, rest, htake', hnone, -⟩ := hq.wf.take hfull i
  rw [htake] at htake'
  simp only [Option.some.injEq, Prod.mk.injEq] at htake'
  obtain ⟨rfl, rfl⟩ := htake'
  ext j
  rw [Finset.mem_insert, mem_inFlight, mem_inFlight]
  constructor
  · rintro ⟨t, ht, hj⟩
    by_cases htok : t = token
    · subst htok
      simp only [Function.update_self, Option.some.injEq] at hj
      exact .inl hj.symm
    · simp only [Function.update_of_ne htok] at hj
      rw [Virtq.Outstanding, Virtq.link_chain_of_ne _ htok] at ht
      exact .inr ⟨t, ht, hj⟩
  · rintro (rfl | ⟨t, ht, hj⟩)
    · exact ⟨token, by simp [Virtq.Outstanding], Function.update_self ..⟩
    · have htok : t ≠ token := by
        rintro rfl
        simp [Virtq.Outstanding, hnone] at ht
      refine ⟨t, ?_, ?_⟩
      · rwa [Virtq.Outstanding, Virtq.link_chain_of_ne _ htok]
      · simpa only [Function.update_of_ne htok] using hj

theorem inFlight_popped {added : Fin size → Option (Buffer maxIn maxOut)} (hq : SlotInv q added)
    (q' : Queue size maxIn maxOut) {i token : Fin size} {c : Chain size (Fin size)}
    (hc : q.queue.chain token = some c) (hi : q.indices token = some i)
    (hqueue : q'.queue = q.queue.recycle token c)
    (hindices : q'.indices = Function.update q.indices token none) :
    q.inFlight = insert i q'.inFlight ∧ i ∉ q'.inFlight := by
  have hmem : ∀ j, q'.InFlight j ↔ q.InFlight j ∧ j ≠ i := by
    intro j
    constructor
    · rintro ⟨t, ht, hj⟩
      rw [hindices] at hj
      have htok : t ≠ token := by
        rintro rfl
        simp at hj
      rw [Function.update_of_ne htok] at hj
      rw [hqueue, Virtq.Outstanding, Virtq.recycle_chain_of_ne _ htok] at ht
      refine ⟨⟨t, ht, hj⟩, ?_⟩
      rintro rfl
      obtain ⟨d, hd, hbuf⟩ := hq.chain_of_index hj
      obtain ⟨d', hd', hbuf'⟩ := hq.chain_of_index hi
      exact htok (hq.own_slot t d token d' hd hd' (hbuf.trans hbuf'.symm))
    · rintro ⟨⟨t, ht, hj⟩, hne⟩
      have htok : t ≠ token := by
        rintro rfl
        rw [hi] at hj
        exact hne (Option.some.inj hj).symm
      refine ⟨t, ?_, ?_⟩
      · rwa [hqueue, Virtq.Outstanding, Virtq.recycle_chain_of_ne _ htok]
      · rwa [hindices, Function.update_of_ne htok]
  refine ⟨?_, ?_⟩
  · ext j
    rw [Finset.mem_insert, mem_inFlight, mem_inFlight, hmem]
    by_cases hj : j = i
    · subst hj
      simpa using ⟨token, by rw [Virtq.Outstanding, hc]; rfl, hi⟩
    · simp [hj]
  · rw [mem_inFlight, hmem]
    simp

theorem keys_snoc (l : List (Buffer maxIn maxOut)) (b : Buffer maxIn maxOut) :
    keys (l ++ [b]) = keys l + {(some b.input, b.callback)} := by
  simp only [keys, List.map_append, List.map_cons, List.map_nil, ← Multiset.coe_add]
  rfl

theorem map_insert_slot {ι κ : Type*} [DecidableEq ι] {f g : ι → κ} {S : Finset ι} {i : ι}
    (hi : i ∉ S) (hfg : ∀ j ∈ S, g j = f j) :
    (insert i S).val.map g = S.val.map f + {g i} := by
  rw [Finset.insert_val_of_notMem hi, Multiset.map_cons, Multiset.map_congr rfl hfg,
    ← Multiset.singleton_add, add_comm]

/-! ### Steps -/

theorem QueueState.NoLoss.add (hs : s.NoLoss) {rest : List (Fin size)} (hi : i ∉ s.q.inFlight)
    (hfree : s.q.free.items = i :: rest) (hfree' : s'.q.free.items = rest)
    (hflight : s'.q.inFlight = insert i s.q.inFlight)
    (hkey : s'.q.slotKey i = (some b.input, b.callback))
    (hkeys : ∀ j, j ≠ i → s'.q.slotKey j = s.q.slotKey j) (hpopped : s'.popped = s.popped ++ [b])
    (hran : s'.ran = s.ran) : s'.NoLoss where
  requests := by
    have hold : ∀ j ∈ s.q.inFlight, s'.q.slotKey j = s.q.slotKey j := fun j hj =>
      hkeys j fun heq => hi (heq ▸ hj)
    rw [hpopped, keys_snoc, hs.requests, hran, hflight, map_insert_slot hi hold, hkey, add_assoc]
  slots := by
    have hslots := hs.slots
    rw [hfree, List.length_cons] at hslots
    rw [hfree', hflight, Finset.card_insert_of_notMem hi]
    omega

theorem QueueState.NoLoss.finish (hs : s.NoLoss) (hi : i ∉ s'.q.inFlight)
    (hfree : s'.q.free.items = s.q.free.items ++ [i])
    (hflight : s.q.inFlight = insert i s'.q.inFlight)
    (hkey : s.q.slotKey i = (some b.input, b.callback))
    (hkeys : ∀ j, j ≠ i → s.q.slotKey j = s'.q.slotKey j) (hpopped : s'.popped = s.popped)
    (hran : s'.ran = s.ran ++ [b]) : s'.NoLoss where
  requests := by
    have hold : ∀ j ∈ s'.q.inFlight, s.q.slotKey j = s'.q.slotKey j := fun j hj =>
      hkeys j fun heq => hi (heq ▸ hj)
    rw [hpopped, hs.requests, hran, keys_snoc, hflight, map_insert_slot hi hold, hkey]
    ac_rfl
  slots := by
    have hslots := hs.slots
    rw [hflight, Finset.card_insert_of_notMem hi] at hslots
    rw [hfree, List.length_append, List.length_singleton]
    omega

theorem noLoss_step (hinv : SlotInv s.q s.added) (hstep : (queueMachine env).step s a = .next s')
    (hroom : s.Room a) (hs : s.NoLoss) : s'.NoLoss := by
  cases a with
  | push b | cancel block | issueFence | setArc batch count | elsewhere rest =>
    cases hstep
    exact ⟨hs.requests, hs.slots⟩
  | request =>
    obtain ⟨r, hcase⟩ := QueueState.step_request hstep
    cases hcase with
    | noSlot hfree hs' => rwa [hs']
    | noRequest i rest free hfree hchan hfree' hs' =>
      have hslots := hs.slots
      rw [hfree, List.length_cons] at hslots
      subst hs'
      refine ⟨hs.requests, ?_⟩
      rw [hfree', List.length_append, List.length_singleton]
      exact hslots
    | lost i rest free b hfree hfree' hpick hfull =>
      have hne : s.chan ≠ [] := by
        rintro hnil
        simp [hnil] at hpick
      exact absurd hfull (hroom (by simp [hfree]) hne)
    | added i rest free b token queue hfree hfree' hpick hfull htake hs' =>
      have hi : i ∉ s.q.inFlight := by
        rw [mem_inFlight]
        exact hinv.not_inFlight (by simp [hfree])
      subst hs'
      refine hs.add (b := b) hi hfree hfree' (inFlight_added hinv hfull htake) ?_ ?_ rfl rfl
      · simp [Queue.slotKey, Queue.store]
      · intro j hj
        simp [Queue.slotKey, Queue.store, Function.update_of_ne hj]
  | response =>
    obtain ⟨r, hcase⟩ := QueueState.step_response hstep
    cases hcase with
    | nothing hused hs' => rwa [hs']
    | unknown token hpeek hlost hs' => rwa [hs']
    | completed token i c b free hpeek hindex hchain hin hout hcall hfree hq hch hpo hadded hran =>
      obtain ⟨hflight, hi⟩ := inFlight_popped hinv s'.q hchain hindex (by rw [hq]) (by rw [hq])
      refine hs.finish hi (by rw [hq, hfree]) hflight ?_ ?_ hpo hran
      · simp [Queue.slotKey, hin, hcall]
      · intro j hj
        rw [hq]
        simp [Queue.slotKey, Function.update_of_ne hj]
  | complete =>
    obtain ⟨c, -, -, rfl⟩ := QueueState.step_complete hstep
    exact ⟨hs.requests, hs.slots⟩

/-- A request taken from the channel while the ring is full is lost, and its slot with it. -/
theorem room_of_noLoss (hstep : (queueMachine env).step s a = .next s') (hs : s.NoLoss)
    (hs' : s'.NoLoss) :
    s.Room a := by
  cases a with
  | request pick =>
    intro hfree hchan hfull
    obtain ⟨r, hcase⟩ := QueueState.step_request hstep
    cases hcase with
    | noSlot hnil => exact hfree hnil
    | noRequest i rest free hcons hnil => exact hchan hnil
    | lost i rest free b hcons hfree' hpick hfull heq =>
      -- The slot is no longer free, and no token has been added for it.
      have hbefore := hs.slots
      have hafter := hs'.slots
      have hflight : s'.q.inFlight = s.q.inFlight := by
        rw [heq]
        rfl
      have hitems : s'.q.free.items = rest := by
        rw [heq]
        exact hfree'
      rw [hcons, List.length_cons] at hbefore
      rw [hflight, hitems] at hafter
      omega
    | added i rest free b token queue hcons hfree' hpick hroom => exact hroom hfull
  | push b | response | complete token len data | cancel block | issueFence | setArc batch count
  | elsewhere => trivial

/-- With indirect descriptors a request takes one descriptor, and there are as many descriptors as
slots: as long as a slot is free, so is a descriptor. -/
theorem room_of_indirect (hsize : 2 ≤ size) (hinv : SlotInv s.q s.added)
    (hind : s.q.queue.indirect = true) (a : QueueAct size maxIn maxOut) : s.Room a := by
  cases a with
  | request pick =>
    intro hfree _ hfull
    obtain ⟨i, rest, hcons⟩ := List.exists_cons_of_ne_nil hfree
    have hempty : s.q.queue.free = [] := by
      have hlen := hinv.wf.length_free
      simp only [Virtq.Full, hind, Bool.true_eq_false, false_and, or_false] at hfull
      exact List.eq_nil_of_length_eq_zero (by omega)
    have hout : ∀ t, ∃ c, s.q.queue.chain t = some c := by
      intro t
      by_contra hnone
      have hmem := hinv.wf.free_of_indirect hind (t := t) fun hsome =>
        hnone (Option.isSome_iff_exists.1 hsome)
      simp [hempty] at hmem
    choose c hc using hout
    -- All tokens are outstanding, each with its own slot, so no slot can be free.
    have hinj : Function.Injective fun t => (c t).buffers := fun t t' heq =>
      hinv.own_slot t (c t) t' (c t') (hc t) (hc t') heq
    obtain ⟨t, ht⟩ := Finite.injective_iff_surjective.1 hinj i
    exact hinv.busy t (c t) (hc t) (by simp [ht, hcons])
  | push b | response | complete token len data | cancel block | issueFence | setArc batch count
  | elsewhere => trivial

theorem indirect_step (hinv : SlotInv s.q s.added)
    (hstep : (queueMachine env).step s a = .next s') :
    s'.q.queue.indirect = s.q.queue.indirect := by
  cases a with
  | push b | cancel block | issueFence | setArc batch count | elsewhere rest =>
    cases hstep
    rfl
  | request =>
    obtain ⟨r, hcase⟩ := QueueState.step_request hstep
    cases hcase with
    | noSlot _ hs' | noRequest _ _ _ _ _ _ hs' | lost _ _ _ _ _ _ _ _ hs' =>
      subst hs'
      rfl
    | added i rest free b token queue hfree hfree' hpick hfull htake hs' =>
      obtain ⟨head, rest', htake', -⟩ := hinv.wf.take hfull i
      rw [htake] at htake'
      cases htake'
      rw [hs']
      rfl
  | response =>
    obtain ⟨r, hcase⟩ := QueueState.step_response hstep
    cases hcase with
    | nothing _ hs' | unknown _ _ _ hs' => rw [hs']
    | completed token i c b free hpeek hindex hchain hin hout hcall hfree hq =>
      rw [hq]
      rfl
  | complete =>
    obtain ⟨c, -, -, rfl⟩ := QueueState.step_complete hstep
    rfl

/-! ### Whole runs -/

theorem always_noLoss_iff (hsize : size ≤ 2 ^ 16) {as : List (QueueAct size maxIn maxOut)}
    {t : QueueState size maxIn maxOut} (hinv : SlotInv s.q s.added) (hs : s.NoLoss)
    (hrun : (queueMachine env).run s as = some t) :
    (queueMachine env).Always QueueState.NoLoss s as ↔
      (queueMachine env).Meets QueueState.Room s as := by
  refine Machine.always_iff_meets (I := fun s => SlotInv s.q s.added ∧ s.NoLoss) ?_
    (fun _ hs => hs.2) ?_ ⟨hinv, hs⟩ hrun
  · rintro s a s' ⟨hinv, hs⟩ hroom hstep
    exact ⟨slotInv_step hsize hinv hstep, noLoss_step hinv hstep hroom hs⟩
  · -- A request that finds no room is lost at once.
    rintro s a s' ⟨-, hs⟩ hroom hstep hs'
    exact hroom (room_of_noLoss hstep hs hs')

theorem meets_room_of_indirect (hsize : 2 ≤ size) (hsize' : size ≤ 2 ^ 16)
    (as : List (QueueAct size maxIn maxOut)) (h : 0 < size) :
    (queueMachine env).Meets QueueState.Room (QueueState.init maxIn maxOut h true) as := by
  refine Machine.meets_of_invariant
    (I := fun s => SlotInv s.q s.added ∧ s.q.queue.indirect = true) ?_ ?_
    ⟨slotInv_init h true, rfl⟩
  · rintro s a s' ⟨hinv, hind⟩ hstep
    exact ⟨slotInv_step hsize' hinv hstep, (indirect_step hinv hstep).trans hind⟩
  · rintro s a ⟨hinv, hind⟩
    exact room_of_indirect hsize hinv hind a

/-- **When requests are lost.**  Every request taken from the channel is in flight or has had its
callback run, and every slot is free or in flight, exactly if `request` never takes one while the
ring has too few free descriptors for it.  With indirect descriptors that never happens. -/
theorem requests_kept_iff (env : QueueEnv maxIn maxOut) (h : 0 < size) (hsize : 2 ≤ size)
    (hsize' : size < 2 ^ 16) (indirect : Bool) (as : List (QueueAct size maxIn maxOut))
    (s : QueueState size maxIn maxOut)
    (hrun : (queueMachine env).run (QueueState.init maxIn maxOut h indirect) as = some s) :
    ((queueMachine env).Always QueueState.NoLoss (QueueState.init maxIn maxOut h indirect) as ↔
      (queueMachine env).Meets QueueState.Room (QueueState.init maxIn maxOut h indirect) as) ∧
    (indirect = true →
      (queueMachine env).Meets QueueState.Room (QueueState.init maxIn maxOut h indirect) as) := by
  refine ⟨always_noLoss_iff hsize'.le (slotInv_init h indirect) (noLoss_init h indirect) hrun, ?_⟩
  rintro rfl
  exact meets_room_of_indirect hsize hsize'.le as h

/-- The surroundings of the cursor queue: input slots of 64 bytes, output slots of 32. -/
def cursorEnv : QueueEnv cursorCommandSize cursorResponseSize where
  inputs := cursorInputs
  outputs := cursorOutputs
  mem := fun _ => 0

/-- A cursor update of zeroes. -/
def cursorUpdate : Buffer cursorCommandSize cursorResponseSize where
  input := .inline cursorCommandSize (List.replicate cursorCommandSize 0) (by simp) le_rfl
  output := .inline cursorResponseSize (List.replicate cursorResponseSize 0) (by simp) le_rfl
  callback := .none

/-- `n` cursor updates, each pushed and taken at once. -/
def cursorUpdates (n : ℕ) : List (QueueAct 16 cursorCommandSize cursorResponseSize) :=
  (List.replicate n [.push cursorUpdate, .request 0]).flatten

/-- With indirect descriptors sixteen updates go into flight and none of them is lost. -/
theorem requests_kept_iff_sixteen :
    (queueMachine cursorEnv).Always QueueState.NoLoss (.init _ _ (by decide) true)
      (cursorUpdates 16) := by
  have hrun : ((queueMachine cursorEnv).run (.init _ _ (by decide) true)
      (cursorUpdates 16)).isSome = true := by decide
  obtain ⟨s, hs⟩ := Option.isSome_iff_exists.1 hrun
  obtain ⟨hiff, hroom⟩ :=
    requests_kept_iff cursorEnv (by decide) (by decide) (by decide) true (cursorUpdates 16) s hs
  exact hiff.2 (hroom rfl)

/-- **A request can be lost.**  Without indirect descriptors, eight updates take all 16 of the
cursor queue.  The ninth is taken from the channel into a free slot and stays there, and its
callback is never run. -/
theorem cursorUpdate_lost :
    ∃ s, (queueMachine cursorEnv).run (.init _ _ (by decide) false) (cursorUpdates 9) = some s ∧
      ¬ s.NoLoss := by
  have hrun : ((queueMachine cursorEnv).run (.init _ _ (by decide) false) (cursorUpdates 9)).map
      (fun s => (s.q.free.items.length, s.q.inFlight.card)) = some (7, 8) := by decide
  obtain ⟨s, hs, hcount⟩ := Option.map_eq_some_iff.1 hrun
  refine ⟨s, hs, fun hloss => ?_⟩
  have hslots := hloss.slots
  simp only [Prod.mk.injEq] at hcount
  omega

/-! ### Slots, tokens and callbacks -/

/-- The free list, the slots in flight and the outstanding tokens agree. -/
structure QueueState.Consistent (s : QueueState size maxIn maxOut) : Prop where
  free_nodup : s.q.free.items.Nodup
  /-- Every slot is free or in flight, and not both. -/
  free_iff : ∀ i, i ∈ s.q.free.items ↔ ¬ s.q.InFlight i
  /-- The tokens that `indices` knows are the outstanding ones. -/
  outstanding_iff : ∀ t, s.q.queue.Outstanding t ↔ (s.q.indices t).isSome
  /-- Two tokens never share a slot. -/
  indices_injective : ∀ t t' i, s.q.indices t = some i → s.q.indices t' = some i → t = t'

/-- What a queue does with requests in its next step: `request` adds one under a token that was not
outstanding, `response` runs the callback of the request that was added under the token which the
device has returned first, on that request's output, and nothing else runs a callback. -/
structure QueueState.Delivers (env : QueueEnv maxIn maxOut) (s : QueueState size maxIn maxOut) :
    Prop where
  request : ∀ pick r s', s.request env pick = .next (r, s') →
    s'.ran = s.ran ∧ (s'.added = s.added ∨ ∃ t b, s.chan[pick]? = some b ∧
      ¬ s.q.queue.Outstanding t ∧ s'.added = Function.update s.added t (some b))
  response : ∀ r s', s.response env = .next (r, s') →
    (s.q.queue.used = [] ∧ r = .none ∧ s' = s) ∨
    ∃ t len rest b virtioFence s₁, s.q.queue.used = (t.val, len) :: rest ∧ r = .some ∧
      s'.q.queue.used = rest ∧ s.added t = some b ∧ s'.added = Function.update s.added t none ∧
      s'.ran = s.ran ++ [b] ∧ s.signal virtioFence = .next s₁ ∧
      s'.effects = (s₁.recordEffects b.output b.callback).effects
  others : ∀ a s', (queueMachine env).step s a = .next s' → (∀ pick, a ≠ .request pick) →
    a ≠ .response → s'.ran = s.ran ∧ s'.effects = s.effects

theorem consistent_of_noLoss (hinv : SlotInv s.q s.added) (hs : s.NoLoss) : s.Consistent where
  free_nodup := hinv.nodup
  free_iff := by
    -- The free slots and those in flight are disjoint, and there are `size` of them.
    intro i
    refine ⟨hinv.not_inFlight, fun hi => ?_⟩
    have hdisj : Disjoint s.q.free.items.toFinset s.q.inFlight := by
      rw [Finset.disjoint_left]
      intro j hj hflight
      exact hinv.not_inFlight (List.mem_toFinset.1 hj) (mem_inFlight.1 hflight)
    have hcard : (s.q.free.items.toFinset ∪ s.q.inFlight).card = Fintype.card (Fin size) := by
      rw [Finset.card_union_of_disjoint hdisj, List.toFinset_card_of_nodup hinv.nodup, hs.slots,
        Fintype.card_fin]
    have hmem := Finset.mem_univ i
    rw [← Finset.eq_univ_of_card _ hcard, Finset.mem_union, List.mem_toFinset] at hmem
    exact hmem.resolve_right fun h => hi (mem_inFlight.1 h)
  outstanding_iff := by
    intro t
    constructor
    · intro ht
      obtain ⟨c, hc⟩ := Option.isSome_iff_exists.1 ht
      rw [hinv.index t c hc]
      rfl
    · intro ht
      obtain ⟨i, hi⟩ := Option.isSome_iff_exists.1 ht
      obtain ⟨c, hc, -⟩ := hinv.chain_of_index hi
      rw [Virtq.Outstanding, hc]
      rfl
  indices_injective := by
    intro t t' i hi hi'
    obtain ⟨c, hc, hbuf⟩ := hinv.chain_of_index hi
    obtain ⟨c', hc', hbuf'⟩ := hinv.chain_of_index hi'
    exact hinv.own_slot t c t' c' hc hc' (hbuf.trans hbuf'.symm)

theorem delivers_of_slotInv (hsize : size ≤ 2 ^ 16) (hinv : SlotInv s.q s.added) :
    s.Delivers env where
  request := by
    intro pick r s' hreq
    cases QueueState.request_cases hreq with
    | noSlot _ hs' | noRequest _ _ _ _ _ _ hs' | lost _ _ _ _ _ _ _ _ hs' =>
      subst hs'
      exact ⟨rfl, .inl rfl⟩
    | added i rest free b token queue hfree hfree' hpick hfull htake hs' =>
      obtain ⟨head, rest', htake', hnone, -⟩ := hinv.wf.take hfull i
      rw [htake] at htake'
      cases htake'
      subst hs'
      exact ⟨rfl, .inr ⟨token, b, hpick, by simp [Virtq.Outstanding, hnone], rfl⟩⟩
  response := by
    intro r s' hresp
    cases QueueState.response_cases hresp with
    | nothing hused hs' => exact .inl ⟨hused, rfl, hs'⟩
    | unknown token hpeek hlost =>
      -- The device has returned an outstanding token, whose slot is filled.
      obtain ⟨len, rest, c, -, hc⟩ := hinv.used_of_peek hsize hpeek
      obtain ⟨b, -, hin, hout, -⟩ := hinv.request token c hc
      have := hlost c.buffers (hinv.index token c hc)
      simp [hin, hout] at this
    | completed token i c b free hpeek hindex hchain hin hout hcall hfree hq hch hpo hadded hran
        heffects =>
      obtain ⟨len, rest, -, hused, -⟩ := hinv.used_of_peek hsize hpeek
      have hbuf : c.buffers = i := by
        rw [hinv.index token c hchain] at hindex
        exact Option.some.inj hindex
      obtain ⟨b', hadd, hin', hout', hcall'⟩ := hinv.request token c hchain
      obtain ⟨virtioFence, s₁, hsignal, heffects⟩ := heffects
      refine .inr ⟨token, len, rest, b, virtioFence, s₁, hused, rfl, ?_, ?_, hadded, hran, hsignal,
        heffects⟩
      · rw [hq]
        simp [Virtq.recycle, hused]
      · -- The buffers in the slot are those of the request added under the token.
        rw [hbuf] at hin' hout' hcall'
        rw [hadd, Option.some.injEq]
        cases b
        cases b'
        rw [Buffer.mk.injEq]
        exact ⟨Option.some.inj (hin'.symm.trans hin), Option.some.inj (hout'.symm.trans hout),
          hcall'.symm.trans hcall⟩
  others := by
    intro a s' hstep hreq hresp
    cases a with
    | push b | cancel block | issueFence | setArc batch count | elsewhere rest =>
      cases hstep
      exact ⟨rfl, rfl⟩
    | request pick => exact absurd rfl (hreq pick)
    | response => exact absurd rfl hresp
    | complete =>
      obtain ⟨c, -, -, rfl⟩ := QueueState.step_complete hstep
      exact ⟨rfl, rfl⟩

theorem no_unwrap_panic (hinv : SlotInv s.q s.added) {p : QueuePanic}
    (hpanic : (queueMachine env).step s a = .panic p) :
    p ≠ .unwrapNone ∧ p ≠ .freeFull := by
  cases a with
  | push b | cancel block | issueFence | setArc batch count | elsewhere rest => cases hpanic
  | request =>
    obtain hreq | ⟨r, -, hnext⟩ := Outcome.bind_eq_panic.1 hpanic
    · obtain rfl | rfl := QueueState.request_panic hreq <;> simp
    · cases hnext
  | response =>
    obtain hresp | ⟨r, -, hnext⟩ := Outcome.bind_eq_panic.1 hpanic
    · obtain rfl | rfl | rfl | rfl | heffect | ⟨rfl, t, i, hindex, hchain⟩ |
          ⟨rfl, t, i, hindex, hlen⟩ := QueueState.response_panic hresp
      · simp
      · simp
      · simp
      · simp
      · cases p <;> simp_all [QueuePanic.isEffect]
      · obtain ⟨c, hc, -⟩ := hinv.chain_of_index hindex
        simp [hc] at hchain
      · -- The slot of an outstanding token is not free, so the list has room for it.
        obtain ⟨c, hc, rfl⟩ := hinv.chain_of_index hindex
        have hnodup : (c.buffers :: s.q.free.items).Nodup :=
          List.nodup_cons.2 ⟨hinv.busy t c hc, hinv.nodup⟩
        have hle := hnodup.length_le_card
        rw [List.length_cons, Fintype.card_fin] at hle
        omega
    · cases hnext
  | complete =>
    simp only [queueMachine, QueueState.complete] at hpanic
    split at hpanic
    · cases hpanic
    · split_ifs at hpanic

/-- **Slots and callbacks.**  With indirect descriptors, the free list has no duplicates and holds
exactly the slots that are not in flight, `indices` maps the outstanding tokens injectively to the
slots in flight, every request is in flight or has had its callback run, the next completion runs
the callback of the request added under its token, and no step panics. -/
theorem slots_sound (env : QueueEnv maxIn maxOut) (h : 0 < size) (hsize : 2 ≤ size)
    (hsize' : size < 2 ^ 16) (as : List (QueueAct size maxIn maxOut))
    (s : QueueState size maxIn maxOut)
    (hrun : (queueMachine env).run (QueueState.init maxIn maxOut h true) as = some s) :
    s.Consistent ∧ s.NoLoss ∧ s.Delivers env ∧
      ∀ a p, (queueMachine env).step s a = .panic p → p ≠ .unwrapNone ∧ p ≠ .freeFull := by
  have hinit : SlotInv (QueueState.init maxIn maxOut h true).q
      (QueueState.init maxIn maxOut h true).added := slotInv_init h true
  obtain ⟨hinv, -, hloss⟩ := Machine.run_invariant
    (I := fun s => SlotInv s.q s.added ∧ s.q.queue.indirect = true ∧ s.NoLoss)
    (fun s a s' ⟨hinv, hind, hloss⟩ hstep => ⟨slotInv_step hsize'.le hinv hstep,
      (indirect_step hinv hstep).trans hind,
      noLoss_step hinv hstep (room_of_indirect hsize hinv hind a) hloss⟩)
    ⟨hinit, rfl, noLoss_init h true⟩ hrun
  exact ⟨consistent_of_noLoss hinv hloss, hloss, delivers_of_slotInv hsize'.le hinv,
    fun a p => no_unwrap_panic hinv⟩

/-- Two updates are answered in the other order; the token of the second is then used again. -/
theorem slots_sound_reused :
    ∃ s : QueueState 16 cursorCommandSize cursorResponseSize,
      (queueMachine cursorEnv).run (.init _ _ (by decide) true)
        (cursorUpdates 2 ++ [.complete 1 24 [0, 0x11], .response, .push cursorUpdate, .request 0,
          .complete 0 24 [], .response]) = some s ∧
      s.ran.length = 2 ∧ s.q.queue.Outstanding 1 ∧ s.Consistent := by
  have hrun : ((queueMachine cursorEnv).run (.init _ _ (by decide) true)
      (cursorUpdates 2 ++ [.complete 1 24 [0, 0x11], .response, .push cursorUpdate, .request 0,
        .complete 0 24 [], .response])).map
      (fun s => (s.ran.length, decide (s.q.queue.Outstanding 1))) = some (2, true) := by decide
  obtain ⟨s, hs, hval⟩ := Option.map_eq_some_iff.1 hrun
  simp only [Prod.mk.injEq, decide_eq_true_eq] at hval
  exact ⟨s, hs, hval.1, hval.2,
    (slots_sound cursorEnv (by decide) (by decide) (by decide) _ s hs).1⟩

end VirtioGpu
