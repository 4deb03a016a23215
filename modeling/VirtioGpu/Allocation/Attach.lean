import VirtioGpu.Machine.Basic

/-!
# Attaching an allocation to a device

An allocation is attached to the context of a device by a `DeviceSpecificAllocation`, which is
shared: the map `device_specific` of the allocation holds a weak reference to it, and
`attach_to_device` upgrades that reference if it can.  Otherwise it sends `CTX_ATTACH_RESOURCE`,
waits for the answer and puts a new weak reference into the map, all with the map locked.  The
detaching half is not under the lock.  When the last strong reference is let go the weak one can no
longer be upgraded, but `CTX_DETACH_RESOURCE` is only sent by the destructor, which starts some time
later on whatever thread dropped that reference.

The module follows one allocation and one context.  Requests pass through the control channel, which
hands them out in any order, and the host may process any request that has been sent.

* `attached_of_meets` : while a returned `DeviceSpecificAllocation` is referenced the host has the
  resource attached, in every run that sends no attach before all earlier detaches have been sent
  and processed.
* `unattached_of_not_allDetached` : an attach that is sent before that can always go wrong.
* `attach_undone` : the detach of the old `DeviceSpecificAllocation` undoes the new attachment.
-/

namespace VirtioGpu

/-- Where a `DeviceSpecificAllocation` is in its life. -/
inductive DsaPhase where
  /-- There are `others + 1` strong references. -/
  | alive (others : ℕ)
  /-- The last strong reference is gone, and `drop` has not sent the detach yet. -/
  | dropped
  /-- `drop` has sent the detach, or will not send one. -/
  | gone
  deriving DecidableEq

/-- Requests about the resource and the context in the control channel. -/
inductive AttachReq where
  /-- `CTX_ATTACH_RESOURCE` of the `call`-th call that sent one. -/
  | attach (call : ℕ)
  /-- `CTX_DETACH_RESOURCE`. -/
  | detach
  deriving DecidableEq

/-- Where `attach_to_device` is, which has the map locked unless it is `idle`. -/
inductive AttachPc where
  | idle
  /-- There was nothing to upgrade; `DeviceSpecificAllocation::new` has begun. -/
  | creating
  /-- It waits for the answer to its request. -/
  | requested (call : ℕ)
  | accepted
  | refused
  deriving DecidableEq

/-- An allocation, a context, and the host. -/
structure AttachState where
  /-- The `DeviceSpecificAllocation`s made so far. -/
  dsas : List DsaPhase
  /-- The weak reference of the map, as an index into `dsas`. -/
  entry : Option ℕ
  pc : AttachPc
  /-- The number of attach requests sent so far. -/
  calls : ℕ
  /-- The requests that the host has not processed yet. -/
  chan : List AttachReq
  /-- The host has the resource attached to the context. -/
  host : Bool

/-- The steps of the threads and of the host. -/
inductive AttachAct where
  /-- `attach_to_device` locks the map and upgrades the weak reference, or goes on to attach. -/
  | attachToDevice
  /-- `context_attach_resource` sends its request. -/
  | contextAttachResource
  /-- `attach_to_device` fails: before the request, by a time-out, or by a refusal. -/
  | attachFails
  /-- `attach_to_device` puts the weak reference into the map and returns. -/
  | attachReturns
  /-- A strong reference to the `i`-th `DeviceSpecificAllocation` is cloned. -/
  | clone (i : ℕ)
  /-- A strong reference to it is let go, by `detach_from_device` or anywhere else. -/
  | dropRef (i : ℕ)
  /-- Its `drop` sends the detach, or does not (the allocation or the device is gone, or the detach
  from the shadow context has failed). -/
  | drop (i : ℕ) (send : Bool)
  /-- The second half of `detach_from_device`, with the map locked. -/
  | removeEntry
  /-- The host processes the request at position `pick`; an attach is accepted or not. -/
  | host (pick : ℕ) (accept : Bool)

namespace AttachState

variable (s : AttachState)

/-- Upgrade the weak reference of the map. -/
def upgrade : Option (ℕ × ℕ) :=
  s.entry.bind fun i => match s.dsas[i]? with
    | some (.alive n) => some (i, n)
    | _ => none

/-- The host takes `req` off the channel, where `rest` is left. -/
def hostStep (accept : Bool) (req : AttachReq) (rest : List AttachReq) : AttachState :=
  match req with
  | .detach => { s with chan := rest, host := false }
  | .attach k =>
    { s with
      chan := rest
      host := s.host || accept
      pc := if s.pc = .requested k then (if accept then .accepted else .refused) else s.pc }

def step : AttachAct → Outcome AttachState Empty
  | .attachToDevice =>
    if s.pc = .idle then
      match s.upgrade with
      | some (i, n) => .next { s with dsas := s.dsas.set i (.alive (n + 1)) }
      | none => .next { s with pc := .creating }
    else .stuck
  | .contextAttachResource =>
    if s.pc = .creating then
      .next { s with
        pc := .requested s.calls
        calls := s.calls + 1
        chan := s.chan ++ [.attach s.calls] }
    else .stuck
  | .attachFails => if s.pc = .idle then .stuck else .next { s with pc := .idle }
  | .attachReturns =>
    if s.pc = .accepted then
      .next { s with
        pc := .idle
        dsas := s.dsas ++ [.alive 0]
        entry := some s.dsas.length }
    else .stuck
  | .clone i => match s.dsas[i]? with
    | some (.alive n) => .next { s with dsas := s.dsas.set i (.alive (n + 1)) }
    | _ => .stuck
  | .dropRef i => match s.dsas[i]? with
    | some (.alive 0) => .next { s with dsas := s.dsas.set i .dropped }
    | some (.alive (n + 1)) => .next { s with dsas := s.dsas.set i (.alive n) }
    | _ => .stuck
  | .drop i send =>
    if s.dsas[i]? = some .dropped then
      .next { s with
        dsas := s.dsas.set i .gone
        chan := if send then s.chan ++ [.detach] else s.chan }
    else .stuck
  | .removeEntry =>
    if s.pc = .idle then
      -- without an entry the call fails, with a strong reference left the entry stays
      match s.upgrade with
      | some _ => .next s
      | none => .next { s with entry := none }
    else .stuck
  | .host pick accept => match s.chan[pick]? with
    | none => .stuck
    -- the channel does not keep the order in which the requests were sent
    | some req => .next (s.hostStep accept req (s.chan.eraseIdx pick))

/-- A new allocation, which the host does not know in the context. -/
def init : AttachState := ⟨[], none, .idle, 0, [], false⟩

/-- The `i`-th `DeviceSpecificAllocation` has a strong reference. -/
def Alive (i : ℕ) : Prop := ∃ n, s.dsas[i]? = some (.alive n)

/-- With no attach pending, the host has the resource attached as long as a
`DeviceSpecificAllocation` is referenced. -/
def Attached : Prop := s.pc = .idle → ∀ i, s.Alive i → s.host = true

/-- An attach is sent only if no destructor has yet to send a detach, and the host has processed
every detach that was sent. -/
def AllDetached : AttachAct → Prop
  | .contextAttachResource => .dropped ∉ s.dsas ∧ .detach ∉ s.chan
  | _ => True

end AttachState

/-- An allocation, a context, and the host. -/
def attachMachine : Machine AttachState AttachAct Empty := ⟨AttachState.step⟩

namespace AttachState

/-- What holds in every run. -/
structure Inv (s : AttachState) : Prop where
  /-- The map knows the one that is referenced. -/
  entry : ∀ i, s.Alive i → s.entry = some i
  /-- While `attach_to_device` makes a new one, none is referenced. -/
  busy : s.pc ≠ .idle → ∀ i, ¬ s.Alive i

/-- What holds in addition if attaches are sent only when all is detached. -/
structure Settled (s : AttachState) : Prop where
  /-- While an attach is pending there is no detach, and no destructor will send one. -/
  requested : ∀ k, s.pc = .requested k → .dropped ∉ s.dsas ∧ .detach ∉ s.chan
  /-- Once attached, nothing in sight detaches the resource. -/
  attached : s.pc = .accepted ∨ (∃ i, s.Alive i) →
    .dropped ∉ s.dsas ∧ .detach ∉ s.chan ∧ s.host = true

variable {s s' : AttachState} {a : AttachAct} {p : DsaPhase}

theorem upgrade_eq_some {i n : ℕ} :
    s.upgrade = some (i, n) ↔ s.entry = some i ∧ s.dsas[i]? = some (.alive n) := by
  unfold upgrade
  cases s.entry with
  | none => simp
  | some j =>
    simp only [Option.bind_some, Option.some.injEq]
    split
    · rename_i m hm
      simp only [Option.some.injEq, Prod.mk.injEq]
      constructor
      · rintro ⟨rfl, rfl⟩
        exact ⟨rfl, hm⟩
      · rintro ⟨rfl, h⟩
        rw [h] at hm
        cases hm
        exact ⟨rfl, rfl⟩
    · rename_i hm
      simp only [reduceCtorEq, false_iff, not_and]
      rintro rfl
      exact hm n

theorem Inv.not_alive_of_upgrade (hs : s.Inv) (h : s.upgrade = none) (i : ℕ) : ¬ s.Alive i := by
  rintro ⟨n, hn⟩
  have := upgrade_eq_some.2 ⟨hs.entry i ⟨n, hn⟩, hn⟩
  rw [h] at this
  cases this

theorem Inv.idle_of_alive (hs : s.Inv) {i : ℕ} (hi : s.Alive i) : s.pc = .idle := by
  by_contra hpc
  exact hs.busy hpc i hi

theorem settled_of_not_alive (hpc : s.pc = .idle ∨ s.pc = .creating) (h : ∀ i, ¬ s.Alive i) :
    s.Settled := by
  constructor
  · intro k hk
    rcases hpc with hpc | hpc <;> simp [hpc] at hk
  · rintro (haccepted | ⟨i, hi⟩)
    · rcases hpc with hpc | hpc <;> simp [hpc] at haccepted
    · exact absurd hi (h i)

theorem inv_init : init.Inv := by
  constructor <;> simp [init, Alive]

theorem settled_init : init.Settled :=
  settled_of_not_alive (.inl rfl) (by simp [init, Alive])

/-! ### What a step can do -/

/-- The effect of a step on references, in the words of the invariants. -/
inductive StepCase (s s' : AttachState) : AttachAct → Prop
  /-- A reference is added, or one of several is let go. -/
  | share (a i n m) (hi : s.dsas[i]? = some (.alive n))
      (hs' : s' = { s with dsas := s.dsas.set i (.alive m) }) : StepCase s s' a
  | last (i) (hi : s.dsas[i]? = some (.alive 0))
      (hs' : s' = { s with dsas := s.dsas.set i .dropped }) : StepCase s s' (.dropRef i)
  | create (hpc : s.pc = .idle) (hup : s.upgrade = none) (hs' : s' = { s with pc := .creating }) :
      StepCase s s' .attachToDevice
  | send (hpc : s.pc = .creating)
      (hs' : s' = { s with
        pc := .requested s.calls
        calls := s.calls + 1
        chan := s.chan ++ [.attach s.calls] }) :
      StepCase s s' .contextAttachResource
  | fail (hpc : s.pc ≠ .idle) (hs' : s' = { s with pc := .idle }) : StepCase s s' .attachFails
  | insert (hpc : s.pc = .accepted)
      (hs' : s' = { s with
        pc := .idle
        dsas := s.dsas ++ [.alive 0]
        entry := some s.dsas.length }) :
      StepCase s s' .attachReturns
  | detach (i send) (hi : s.dsas[i]? = some .dropped)
      (hs' : s' = { s with
        dsas := s.dsas.set i .gone
        chan := if send then s.chan ++ [.detach] else s.chan }) :
      StepCase s s' (.drop i send)
  | keep (hs' : s' = s) : StepCase s s' .removeEntry
  | remove (hup : s.upgrade = none) (hs' : s' = { s with entry := none }) :
      StepCase s s' .removeEntry
  | host (pick accept req) (hreq : s.chan[pick]? = some req)
      (hs' : s' = s.hostStep accept req (s.chan.eraseIdx pick)) :
      StepCase s s' (.host pick accept)

theorem stepCase (h : attachMachine.step s a = .next s') : StepCase s s' a := by
  cases a with
  | attachToDevice =>
    simp only [attachMachine, step] at h
    split_ifs at h with hpc
    split at h
    · rename_i i n hup
      cases h
      exact .share _ i n _ (upgrade_eq_some.1 hup).2 rfl
    · rename_i hup
      cases h
      exact .create hpc hup rfl
  | contextAttachResource =>
    simp only [attachMachine, step] at h
    split_ifs at h with hpc
    cases h
    exact .send hpc rfl
  | attachFails =>
    simp only [attachMachine, step] at h
    split_ifs at h with hpc
    cases h
    exact .fail hpc rfl
  | attachReturns =>
    simp only [attachMachine, step] at h
    split_ifs at h with hpc
    cases h
    exact .insert hpc rfl
  | clone i =>
    simp only [attachMachine, step] at h
    split at h
    · cases h
      exact .share _ i _ _ ‹_› rfl
    · cases h
  | dropRef i =>
    simp only [attachMachine, step] at h
    split at h
    · cases h
      exact .last i ‹_› rfl
    · cases h
      exact .share _ i _ _ ‹_› rfl
    · cases h
  | drop i send =>
    simp only [attachMachine, step] at h
    by_cases hi : s.dsas[i]? = some .dropped
    · rw [if_pos hi] at h
      cases h
      exact .detach i send hi rfl
    · rw [if_neg hi] at h
      cases h
  | removeEntry =>
    simp only [attachMachine, step] at h
    split_ifs at h with hpc
    split at h
    · cases h
      exact .keep rfl
    · cases h
      exact .remove ‹_› rfl
  | host pick accept =>
    simp only [attachMachine, step] at h
    split at h
    · cases h
    · cases h
      exact .host pick accept _ ‹_› rfl

/-! ### References along a step -/

theorem alive_set {i j : ℕ} (h : j ≠ i) :
    ({ s with dsas := s.dsas.set i p } : AttachState).Alive j ↔ s.Alive j := by
  simp only [Alive, List.getElem?_set_ne h.symm]

theorem alive_of_set {i j n m : ℕ} (hi : s.dsas[i]? = some (.alive n)) :
    ({ s with dsas := s.dsas.set i (.alive m) } : AttachState).Alive j ↔ s.Alive j := by
  by_cases h : j = i
  · subst h
    have hlt := (List.getElem?_eq_some_iff.1 hi).1
    simp [Alive, List.getElem?_set_self hlt, hi]
  · exact alive_set h

theorem alive_of_set_dead {i j : ℕ} (hp : ∀ n, p ≠ .alive n)
    (h : ({ s with dsas := s.dsas.set i p } : AttachState).Alive j) : j ≠ i ∧ s.Alive j := by
  by_cases hj : j = i
  · subst hj
    obtain ⟨n, hn⟩ := h
    rw [List.getElem?_set_self'] at hn
    obtain ⟨_, -, hn⟩ := Option.map_eq_some_iff.1 hn
    exact absurd hn (hp n)
  · exact ⟨hj, (alive_set hj).1 h⟩

theorem alive_append {i : ℕ} :
    ({ s with dsas := s.dsas ++ [.alive 0] } : AttachState).Alive i ↔
      s.Alive i ∨ i = s.dsas.length := by
  simp only [Alive, List.getElem?_append]
  split
  · rename_i h
    simp [h.ne]
  · rename_i h
    have hnone : s.dsas[i]? = none := List.getElem?_eq_none (not_lt.1 h)
    rcases Nat.eq_zero_or_pos (i - s.dsas.length) with h0 | h0
    · simp [show i = s.dsas.length by omega]
    · simp [hnone, show i - s.dsas.length ≠ 0 by omega, show i ≠ s.dsas.length by omega]

theorem dropped_notMem_set {i : ℕ} (hp : p ≠ .dropped) (h : .dropped ∉ s.dsas) :
    .dropped ∉ s.dsas.set i p := by
  intro hmem
  rcases List.mem_or_eq_of_mem_set hmem with hmem | rfl
  · exact h hmem
  · exact hp rfl

section

variable (accept : Bool) (req : AttachReq) (rest : List AttachReq)

@[simp] theorem hostStep_dsas : (s.hostStep accept req rest).dsas = s.dsas := by
  cases req <;> rfl

@[simp] theorem hostStep_entry : (s.hostStep accept req rest).entry = s.entry := by
  cases req <;> rfl

@[simp] theorem hostStep_chan : (s.hostStep accept req rest).chan = rest := by
  cases req <;> rfl

end

theorem hostStep_pc {accept : Bool} {req : AttachReq} {rest : List AttachReq}
    (h : ∀ k, s.pc = .requested k → req ≠ .attach k) :
    (s.hostStep accept req rest).pc = s.pc := by
  cases req with
  | detach => rfl
  | attach k => exact if_neg fun hk => h k hk rfl

/-! ### Invariants -/

theorem Inv.step (hs : s.Inv) (hstep : attachMachine.step s a = .next s') : s'.Inv := by
  cases stepCase hstep with
  | share _ i n m hi hs' =>
    subst hs'
    exact ⟨fun j hj => hs.entry j ((alive_of_set hi).1 hj),
      fun hpc j hj => hs.busy hpc j ((alive_of_set hi).1 hj)⟩
  | last i hi hs' =>
    subst hs'
    exact ⟨fun j hj => hs.entry j (alive_of_set_dead (by simp) hj).2,
      fun hpc j hj => hs.busy hpc j (alive_of_set_dead (by simp) hj).2⟩
  | create hpc hup hs' =>
    subst hs'
    exact ⟨hs.entry, fun _ i => hs.not_alive_of_upgrade hup i⟩
  | send hpc hs' =>
    subst hs'
    exact ⟨hs.entry, fun _ => hs.busy (by simp [hpc])⟩
  | fail hpc hs' =>
    subst hs'
    exact ⟨hs.entry, fun h => absurd rfl h⟩
  | insert hpc hs' =>
    subst hs'
    refine ⟨fun i hi => ?_, fun h => absurd rfl h⟩
    rcases alive_append.1 hi with hi | rfl
    · exact absurd hi (hs.busy (by simp [hpc]) i)
    · rfl
  | detach i send hi hs' =>
    subst hs'
    exact ⟨fun j hj => hs.entry j (alive_of_set_dead (p := .gone) (by simp) hj).2,
      fun hpc j hj => hs.busy hpc j (alive_of_set_dead (p := .gone) (by simp) hj).2⟩
  | keep hs' =>
    subst hs'
    exact hs
  | remove hup hs' =>
    subst hs'
    exact ⟨fun i hi => absurd hi (hs.not_alive_of_upgrade hup i), hs.busy⟩
  | host pick accept req hreq hs' =>
    subst hs'
    have halive : ∀ i, (s.hostStep accept req (s.chan.eraseIdx pick)).Alive i ↔ s.Alive i := by
      simp [Alive]
    refine ⟨fun i hi => ?_, fun hpc i hi => ?_⟩
    · rw [hostStep_entry]
      exact hs.entry i ((halive i).1 hi)
    · refine hs.busy (fun hidle => hpc ?_) i ((halive i).1 hi)
      rw [hostStep_pc (by simp [hidle]), hidle]

theorem Settled.host (hs : s.Settled) {accept : Bool} {req : AttachReq} {rest : List AttachReq}
    (hreq : req ∈ s.chan) (hrest : ∀ q ∈ rest, q ∈ s.chan) :
    (s.hostStep accept req rest).Settled := by
  by_cases hanswer : ∃ k, s.pc = .requested k ∧ req = .attach k
  · -- The answer the call waits for: there is no detach left, so whatever it says is final.
    obtain ⟨k, hpc, rfl⟩ := hanswer
    obtain ⟨hdropped, hdetach⟩ := hs.requested k hpc
    refine ⟨fun j hj => ?_, fun h => ⟨by simpa using hdropped, ?_, ?_⟩⟩
    · simp only [hostStep, if_pos hpc] at hj
      split_ifs at hj
    · rw [hostStep_chan]
      exact fun hmem => hdetach (hrest _ hmem)
    · rcases h with h | ⟨i, n, hi⟩
      · simp only [hostStep, if_pos hpc] at h
        split_ifs at h with haccept
        simp [hostStep, haccept]
      · have hhost := (hs.attached (.inr ⟨i, n, by simpa using hi⟩)).2.2
        simp [hostStep, hhost]
  · -- A request of somebody who no longer waits, or a detach.
    have hpc : (s.hostStep accept req rest).pc = s.pc :=
      hostStep_pc fun k hk hreq => hanswer ⟨k, hk, hreq⟩
    constructor
    · intro k hk
      rw [hpc] at hk
      obtain ⟨hdropped, hdetach⟩ := hs.requested k hk
      rw [hostStep_dsas, hostStep_chan]
      exact ⟨hdropped, fun hmem => hdetach (hrest _ hmem)⟩
    · intro h
      rw [hpc] at h
      simp only [Alive, hostStep_dsas] at h
      obtain ⟨hdropped, hdetach, hhost⟩ := hs.attached h
      rw [hostStep_dsas, hostStep_chan]
      refine ⟨hdropped, fun hmem => hdetach (hrest _ hmem), ?_⟩
      cases req with
      | detach => exact absurd hreq hdetach
      | attach => simp [hostStep, hhost]

theorem Settled.step (hs : s.Settled) (hinv : s.Inv) (hok : s.AllDetached a)
    (hstep : attachMachine.step s a = .next s') : s'.Settled := by
  cases stepCase hstep with
  | share _ i n m hi hs' =>
    subst hs'
    have hidle := hinv.idle_of_alive ⟨n, hi⟩
    obtain ⟨hdropped, hdetach, hhost⟩ := hs.attached (.inr ⟨i, n, hi⟩)
    exact ⟨fun k hk => by simp [hidle] at hk,
      fun _ => ⟨dropped_notMem_set (by simp) hdropped, hdetach, hhost⟩⟩
  | last i hi hs' =>
    subst hs'
    have hidle := hinv.idle_of_alive ⟨0, hi⟩
    -- it was the only one with a reference
    refine ⟨fun k hk => by simp [hidle] at hk, ?_⟩
    rintro (hpc | ⟨j, hj⟩)
    · simp [hidle] at hpc
    · obtain ⟨hji, hj⟩ := alive_of_set_dead (by simp) hj
      have hentry := hinv.entry i ⟨0, hi⟩
      rw [hinv.entry j hj] at hentry
      exact absurd (Option.some.inj hentry) hji
  | create hpc hup hs' =>
    subst hs'
    exact settled_of_not_alive (.inr rfl) (hinv.not_alive_of_upgrade hup)
  | send hpc hs' =>
    subst hs'
    refine ⟨fun k hk => ?_, ?_⟩
    · -- The condition is used here: no detach can come after this attach.
      exact ⟨hok.1, by simpa using hok.2⟩
    · rintro (h | ⟨i, hi⟩)
      · cases h
      · exact absurd hi (hinv.busy (by simp [hpc]) i)
  | fail hpc hs' =>
    subst hs'
    exact settled_of_not_alive (.inl rfl) (hinv.busy hpc)
  | insert hpc hs' =>
    subst hs'
    obtain ⟨hdropped, hdetach, hhost⟩ := hs.attached (.inl hpc)
    exact ⟨nofun, fun _ => ⟨by simpa using hdropped, hdetach, hhost⟩⟩
  | detach i send hi hs' =>
    subst hs'
    -- a destructor is pending, so nothing is requested or attached
    have hmem : DsaPhase.dropped ∈ s.dsas := List.mem_of_getElem? hi
    refine ⟨fun k hk => absurd hmem (hs.requested k hk).1, fun h => absurd hmem (hs.attached ?_).1⟩
    refine h.imp_right ?_
    rintro ⟨j, hj⟩
    exact ⟨j, (alive_of_set_dead (p := .gone) (by simp) hj).2⟩
  | keep hs' =>
    subst hs'
    exact hs
  | remove hup hs' =>
    subst hs'
    exact ⟨hs.requested, hs.attached⟩
  | host pick accept req hreq hs' =>
    subst hs'
    exact hs.host (List.mem_of_getElem? hreq) fun q hq => List.mem_of_mem_eraseIdx hq

theorem Settled.toAttached (hs : s.Settled) : s.Attached :=
  fun _ i hi => (hs.attached (.inr ⟨i, hi⟩)).2.2

end AttachState

open AttachState

/-- **While it is referenced it is attached.**  If an attach is only sent when no destructor has yet
to send its detach and no detach is waiting to be processed, then the host has the resource attached
in every state in which no attach is pending and a `DeviceSpecificAllocation` has a strong
reference. -/
theorem attached_of_meets (as : List AttachAct)
    (hok : attachMachine.Meets AllDetached .init as) :
    attachMachine.Always Attached .init as :=
  Machine.always_of_meets (I := fun s => s.Inv ∧ s.Settled)
    (fun _ _ _ hs hok hstep => ⟨hs.1.step hstep, hs.2.step hs.1 hok hstep⟩)
    (fun _ hs => hs.2.toAttached) ⟨inv_init, settled_init⟩ hok

instance (s : AttachState) (a : AttachAct) : Decidable (s.AllDetached a) := by
  cases a <;> unfold AllDetached <;> infer_instance

/-- A handle is closed and opened again; the host has processed the detach before the second attach
is sent. -/
def reopened : List AttachAct :=
  [.attachToDevice, .contextAttachResource, .host 0 true, .attachReturns, .clone 0, .dropRef 0,
    .dropRef 0, .attachToDevice, .drop 0 true, .host 0 true, .contextAttachResource, .host 0 true,
    .attachReturns]

theorem attached_of_meets_reopened :
    (attachMachine.run .init reopened).map (fun s => (s.dsas, s.host)) =
        some ([.gone, .alive 0], true) ∧
      attachMachine.Always Attached .init reopened :=
  ⟨by decide, attached_of_meets reopened (by decide)⟩

/-- **A detach can undo a later attachment.**  The last reference is let go, another thread attaches
the allocation anew, and only then the destructor sends its detach: there is a reference, and the
host does not have the resource attached. -/
theorem attach_undone :
    (attachMachine.run .init
      [.attachToDevice, .contextAttachResource, .host 0 true, .attachReturns, .dropRef 0,
        .attachToDevice, .contextAttachResource, .host 0 true, .attachReturns,
        .drop 0 true, .host 0 true]).map (fun s => (s.pc, s.dsas, s.host)) =
      some (.idle, [.gone, .alive 0], false) := by
  decide

namespace AttachState

/-! ### The condition is needed -/

/-- The state after an attach has been sent and accepted, ahead of all requests that were sent
before, and has returned. -/
def reattached (s : AttachState) : AttachState :=
  { s with
    pc := .idle
    calls := s.calls + 1
    host := true
    dsas := s.dsas ++ [.alive 0]
    entry := some s.dsas.length }

variable {s : AttachState}

theorem run_reattached (hpc : s.pc = .creating) :
    attachMachine.run s [.contextAttachResource, .host s.chan.length true, .attachReturns] =
      some s.reattached := by
  simp [Machine.run, attachMachine, step, hpc, hostStep, reattached,
    List.eraseIdx_append_of_length_le]

theorem not_attached {i n : ℕ} (hpc : s.pc = .idle) (hhost : s.host = false)
    (hi : s.dsas[i]? = some (.alive n)) : ¬ s.Attached := by
  intro h
  have := h hpc i ⟨n, hi⟩
  rw [hhost] at this
  cases this

/-- The pending destructor sends its detach after the attach. -/
theorem exists_run_of_dropped (hdropped : .dropped ∈ s.dsas) :
    ∃ bs t, attachMachine.run s.reattached bs = some t ∧ ¬ t.Attached := by
  obtain ⟨i, hi⟩ := List.mem_iff_getElem?.1 hdropped
  have hlt : i < s.dsas.length := (List.getElem?_eq_some_iff.1 hi).1
  have hi' : (s.dsas ++ [DsaPhase.alive 0])[i]? = some .dropped := by
    rw [List.getElem?_append_left hlt, hi]
  have hrun : attachMachine.run s.reattached [.drop i true, .host s.chan.length true] =
      some { s.reattached with
        dsas := (s.dsas ++ [DsaPhase.alive 0]).set i .gone
        host := false } := by
    simp [Machine.run, attachMachine, step, reattached, hi', hostStep,
      List.eraseIdx_append_of_length_le]
  refine ⟨_, _, hrun, not_attached (i := s.dsas.length) (n := 0) rfl rfl ?_⟩
  rw [List.getElem?_set_ne hlt.ne, List.getElem?_concat_length]

/-- The attach has overtaken a detach. -/
theorem exists_run_of_detach (hdetach : .detach ∈ s.chan) :
    ∃ bs t, attachMachine.run s.reattached bs = some t ∧ ¬ t.Attached := by
  obtain ⟨i, hi⟩ := List.mem_iff_getElem?.1 hdetach
  have hrun : attachMachine.run s.reattached [.host i true] =
      some { s.reattached with
        chan := s.chan.eraseIdx i
        host := false } := by
    simp [Machine.run, attachMachine, step, reattached, hi, hostStep]
  exact ⟨_, _, hrun, not_attached (i := s.dsas.length) (n := 0) rfl rfl
    List.getElem?_concat_length⟩

end AttachState

/-- **The condition is needed.**  From every attach that is sent while a destructor has yet to send
its detach, or the host to process one, the run can go on to a state in which a
`DeviceSpecificAllocation` is referenced and the host does not have the resource attached. -/
theorem unattached_of_not_allDetached {s : AttachState} (hpc : s.pc = .creating)
    (hnot : ¬ s.AllDetached .contextAttachResource) :
    ∃ bs t, attachMachine.run s (.contextAttachResource :: bs) = some t ∧ ¬ t.Attached := by
  have hafter : ∃ bs t, attachMachine.run s.reattached bs = some t ∧ ¬ t.Attached := by
    rcases not_and_or.1 hnot with hdropped | hdetach
    · exact exists_run_of_dropped (not_not.1 hdropped)
    · exact exists_run_of_detach (not_not.1 hdetach)
  obtain ⟨bs, t, ht, hunattached⟩ := hafter
  refine ⟨[.host s.chan.length true, .attachReturns] ++ bs, t, ?_, hunattached⟩
  rw [← List.cons_append, Machine.run_append (run_reattached hpc), ht]

/-- A handle is closed, and opened again while the detach is in the channel. -/
def overtaking : List AttachAct :=
  [.attachToDevice, .contextAttachResource, .host 0 true, .attachReturns, .dropRef 0, .drop 0 true,
    .attachToDevice]

theorem unattached_of_not_allDetached_overtaking :
    ∃ s bs t, attachMachine.run .init overtaking = some s ∧ .dropped ∉ s.dsas ∧
      attachMachine.run s (.contextAttachResource :: bs) = some t ∧ ¬ t.Attached := by
  obtain ⟨bs, t, ht⟩ := @unattached_of_not_allDetached ⟨[.gone], some 0, .creating, 1, [.detach],
    true⟩ rfl (by decide)
  exact ⟨_, bs, t, rfl, by decide, ht⟩

end VirtioGpu
