import VirtioGpu.Queue.Delivery

/-!
# The handler thread

One thread serves both queues.  It waits for any of six events, all of them auto-reset
(`handler_thread_routine`); a push into a channel stores the request and then sets the channel's
event, and every interrupt of the device sets both interrupt events.  What the thread does when it
wakes up depends on the event.  The branch of `cursor_msg` calls `handle_responses` where that of
`control_msg` calls `handle_requests`: a request that arrives in the cursor channel is not picked up
until an interrupt arrives.

* `handler_serves` : when the thread sleeps with nothing to wake it, the control channel is empty or
  all control slots are in flight.  For the cursor channel the same holds in the runs where
  `cursor_msg` never goes by unheard (`CursorHeard`).
* `cursor_request_stranded` : a single cursor update is enough for the contrary.

## Implementation notes

`ArraySegQueue::pop` is not atomic, and may miss requests that were stored after it began
(`ArraySegQueue.machine_conserves`).  The program counter of `handle_requests` therefore counts the
requests stored since the current call of `request` began, and `requestMissed` is a call that finds
no others.
-/

namespace VirtioGpu

/-- The two queues of the device. -/
inductive QueueId where
  | control
  | cursor
  deriving DecidableEq

/-- The events `handler_thread_routine` waits for. -/
inductive Event where
  | controlIrq
  | controlMsg
  | cursorIrq
  | cursorMsg
  | configIrq
  | stop
  deriving DecidableEq

instance : Fintype QueueId := ⟨{.control, .cursor}, fun w => by cases w <;> decide⟩

instance : Fintype Event :=
  ⟨{.controlIrq, .controlMsg, .cursorIrq, .cursorMsg, .configIrq, .stop},
    fun e => by cases e <;> decide⟩

namespace QueueId

/-- `CONTROL_QUEUE_SIZE` and `CURSOR_QUEUE_SIZE`. -/
def size : QueueId → ℕ
  | control => 256
  | cursor => 16

def maxIn : QueueId → ℕ
  | control => maxCommandSize
  | cursor => cursorCommandSize

def maxOut : QueueId → ℕ
  | control => maxResponseSize
  | cursor => cursorResponseSize

/-- The event an interrupt sets for the queue. -/
def irq : QueueId → Event
  | control => .controlIrq
  | cursor => .cursorIrq

/-- The event of the queue's channel. -/
def msg : QueueId → Event
  | control => .controlMsg
  | cursor => .cursorMsg

theorem size_pos (w : QueueId) : 0 < w.size := by cases w <;> decide

theorem size_le (w : QueueId) : w.size ≤ 2 ^ 16 := by cases w <;> decide

end QueueId

/-- Where the handler thread is. -/
inductive HandlerPc where
  /-- Waiting in `select!`. -/
  | select
  /-- In `handle_responses`, which `handle_requests` may follow. -/
  | responses (w : QueueId) (andRequests : Bool)
  /-- In `handle_requests`; `stored` requests were pushed since this call of `request` began. -/
  | requests (w : QueueId) (stored : ℕ)
  /-- In `handle_fence_submissions`, which does not touch the queues. -/
  | fences
  /-- Returned. -/
  | stopped
  deriving DecidableEq

/-- The branch of `select!` for an event. -/
def Event.branch : Event → HandlerPc
  | controlIrq => .responses .control true
  | controlMsg => .requests .control 0
  | cursorIrq => .responses .cursor true
  | cursorMsg => .responses .cursor false
  | configIrq => .fences
  | stop => .stopped

/-- The queues, the events and the threads that use them. -/
structure HandlerState where
  queues : (w : QueueId) → QueueState w.size w.maxIn w.maxOut
  signalled : Event → Bool
  /-- The pushes that have stored their request and not yet set the event. -/
  storing : QueueId → ℕ
  pc : HandlerPc

/-- The parts of the driver both queues use, as the other queue has left them. -/
def QueueState.share {size maxIn maxOut size' maxIn' maxOut' : ℕ}
    (s : QueueState size maxIn maxOut) (t : QueueState size' maxIn' maxOut') :
    QueueState size maxIn maxOut :=
  { s with
    fence := t.fence
    cancelled := t.cancelled
    arcs := t.arcs
    rest := t.rest }

/-- `Queue::request` if `pop` sees none of the requests in the channel. -/
def QueueState.requestMissed {size maxIn maxOut : ℕ} (env : QueueEnv maxIn maxOut)
    (s : QueueState size maxIn maxOut) :
    Outcome (Returned × QueueState size maxIn maxOut) QueuePanic :=
  (QueueState.request env { s with chan := [] } 0).bind fun r =>
    .next (r.1, { r.2 with chan := s.chan })

/-- A request is stored while the thread is at `pc`. -/
def HandlerPc.stored (w : QueueId) : HandlerPc → HandlerPc
  | .requests v n => if v = w then .requests v (n + 1) else .requests v n
  | pc => pc

namespace HandlerState

def setQueue (s : HandlerState) (w : QueueId) (q : QueueState w.size w.maxIn w.maxOut) :
    HandlerState :=
  { s with queues := Function.update (fun v => (s.queues v).share q) w q }

def signal (s : HandlerState) (e : Event) : HandlerState :=
  { s with signalled := Function.update s.signalled e true }

/-- One round of `handle_responses`. -/
def stepResponses (env : (w : QueueId) → QueueEnv w.maxIn w.maxOut) (s : HandlerState)
    (w : QueueId) (andRequests : Bool) : Outcome HandlerState QueuePanic :=
  ((s.queues w).response (env w)).bind fun r => .next { s.setQueue w r.2 with
    pc := if r.1 = .none then (if andRequests then .requests w 0 else .fences)
      else .responses w andRequests }

/-- One round of `handle_requests`, in which `request` has done `out`. -/
def stepRequests (s : HandlerState) (w : QueueId)
    (out : Outcome (Returned × QueueState w.size w.maxIn w.maxOut) QueuePanic) :
    Outcome HandlerState QueuePanic :=
  out.bind fun r => .next { s.setQueue w r.2 with
    pc := if r.1 = .none then .fences else .requests w 0 }

/-- Both queues empty, and the handler thread about to wait. -/
def init (indirect : Bool) : HandlerState where
  queues w := .init _ _ w.size_pos indirect
  signalled := fun _ => false
  storing := fun _ => 0
  pc := .select

end HandlerState

/-- What can happen to the handler thread and around it. -/
inductive HandlerAct where
  /-- A producer stores a request in a channel. -/
  | push (w : QueueId) (b : Buffer w.maxIn w.maxOut)
  /-- The producer sets the channel's event. -/
  | signal (w : QueueId)
  /-- An event is set for another reason: an interrupt, `kick`, or the end of the thread. -/
  | set (e : Event)
  | complete (w : QueueId) (token : Fin w.size) (len : ℕ) (data : List UInt8)
  | cancel (block : ℕ)
  | issueFence
  | setArc (batch count : ℕ)
  | elsewhere (rest : Elsewhere)
  /-- `select!` returns the event `e` and resets it. -/
  | wake (e : Event)
  /-- `select!` fails. -/
  | waitFailed
  | response
  | request (pick : ℕ)
  | requestMissed
  | fences

/-- The handler thread, its producers and the device. -/
def handlerMachine (env : (w : QueueId) → QueueEnv w.maxIn w.maxOut) :
    Machine HandlerState HandlerAct QueuePanic where
  step s
    | .push w b =>
        let q := s.queues w
        .next { s.setQueue w { q with chan := q.chan ++ [b] } with
          storing := Function.update s.storing w (s.storing w + 1)
          pc := s.pc.stored w }
    | .signal w =>
        if s.storing w = 0 then .stuck
        else .next { s.signal w.msg with
          storing := Function.update s.storing w (s.storing w - 1) }
    | .set e => .next (s.signal e)
    | .complete w token len data =>
        ((s.queues w).complete token len data).bind fun q => .next (s.setQueue w q)
    | .cancel block =>
        let q := s.queues .control
        .next (s.setQueue .control { q with cancelled := Function.update q.cancelled block true })
    | .issueFence =>
        let q := s.queues .control
        .next (s.setQueue .control { q with fence := q.fence.issue.2 })
    | .setArc batch count =>
        let q := s.queues .control
        .next (s.setQueue .control { q with arcs := Function.update q.arcs batch count })
    | .elsewhere rest => .next (s.setQueue .control { s.queues .control with rest := rest })
    | .wake e =>
        if s.pc = .select ∧ s.signalled e = true then
          .next { s with signalled := Function.update s.signalled e false, pc := e.branch }
        else .stuck
    | .waitFailed => if s.pc = .select then .next { s with pc := .fences } else .stuck
    | .response => match s.pc with
      | .responses w andRequests => s.stepResponses env w andRequests
      | _ => .stuck
    | .request pick => match s.pc with
      | .requests w _ => s.stepRequests w ((s.queues w).request (env w) pick)
      | _ => .stuck
    | .requestMissed => match s.pc with
      | .requests w stored =>
          if (s.queues w).chan.length ≤ stored then
            s.stepRequests w ((s.queues w).requestMissed (env w))
          else .stuck
      | _ => .stuck
    | .fences => if s.pc = .fences then .next { s with pc := .select } else .stuck

/-! ### The slots of both queues -/

/-- The slots agree with the ring, and nothing has been lost. -/
structure QueueState.Good {size maxIn maxOut : ℕ} (s : QueueState size maxIn maxOut) : Prop where
  slots : SlotInv s.q s.added
  noLoss : s.NoLoss

namespace QueueState.Good

variable {size maxIn maxOut : ℕ} {env : QueueEnv maxIn maxOut}
  {s s' : QueueState size maxIn maxOut}

theorem init (h : 0 < size) (indirect : Bool) : (QueueState.init maxIn maxOut h indirect).Good :=
  ⟨slotInv_init h indirect, noLoss_init h indirect⟩

theorem of_eq (hs : s.Good) (hq : s'.q = s.q) (hadded : s'.added = s.added)
    (hpopped : s'.popped = s.popped) (hran : s'.ran = s.ran) : s'.Good := by
  refine ⟨by rw [hq, hadded]; exact hs.slots, ?_, by rw [hq]; exact hs.noLoss.slots⟩
  rw [hq, hpopped, hran]
  exact hs.noLoss.requests

theorem share {size' maxIn' maxOut' : ℕ} (hs : s.Good) (t : QueueState size' maxIn' maxOut') :
    (s.share t).Good :=
  hs.of_eq rfl rfl rfl rfl

theorem step (env : QueueEnv maxIn maxOut) (hsize : size ≤ 2 ^ 16) (hs : s.Good)
    {a : QueueAct size maxIn maxOut} (hroom : s.Room a)
    (hstep : (queueMachine env).step s a = .next s') : s'.Good :=
  ⟨slotInv_step hsize hs.slots hstep, noLoss_step hs.slots hstep hroom hs.noLoss⟩

theorem response (hsize : size ≤ 2 ^ 16) (hs : s.Good) {r : Returned}
    (h : s.response env = .next (r, s')) : s'.Good :=
  hs.step env hsize (a := .response) trivial (by simp [queueMachine, h])

theorem request (hsize : size ≤ 2 ^ 16) (hs : s.Good) {r : Returned} {pick : ℕ}
    (hroom : s.Room (.request pick)) (h : s.request env pick = .next (r, s')) : s'.Good :=
  hs.step env hsize hroom (by simp [queueMachine, h])

theorem requestMissed (hsize : size ≤ 2 ^ 16) (hs : s.Good) {r : Returned}
    (h : s.requestMissed env = .next (r, s')) : s'.Good := by
  obtain ⟨⟨r', s₁⟩, hreq, hnext⟩ := Outcome.bind_eq_next.1 h
  cases hnext
  have hs₀ : ({ s with chan := [] } : QueueState size maxIn maxOut).Good :=
    hs.of_eq rfl rfl rfl rfl
  have hroom : ({ s with chan := [] } : QueueState size maxIn maxOut).Room (.request 0) :=
    fun _ hchan => absurd rfl hchan
  exact (hs₀.request hsize hroom hreq).of_eq rfl rfl rfl rfl

theorem complete (env : QueueEnv maxIn maxOut) (hsize : size ≤ 2 ^ 16) (hs : s.Good)
    {t : Fin size} {len : ℕ} {data : List UInt8} (h : s.complete t len data = .next s') : s'.Good :=
  hs.step env hsize (a := .complete t len data) trivial h

theorem inFlight_of_free (hs : s.Good) (hfree : s.q.free.items = []) (i : Fin size) :
    s.q.InFlight i := by
  by_contra hi
  have hmem := ((consistent_of_noLoss hs.slots hs.noLoss).free_iff i).2 hi
  simp [hfree] at hmem

end QueueState.Good

/-! ### What the thread leaves behind -/

namespace HandlerState

/-- The thread waits, none of its events is signalled, and no push is about to signal one. -/
def Quiet (s : HandlerState) : Prop :=
  s.pc = .select ∧ (∀ e, s.signalled e = false) ∧ ∀ w, s.storing w = 0
  deriving Decidable

/-- The channel of `w` is empty, or all its slots are in flight. -/
def Served (s : HandlerState) (w : QueueId) : Prop :=
  (s.queues w).chan = [] ∨ ∀ i, (s.queues w).q.InFlight i

instance (s : HandlerState) (w : QueueId) : Decidable (s.Served w) :=
  decidable_of_iff ((s.queues w).chan.length = 0 ∨ ∀ i, (s.queues w).q.InFlight i) (by
    rw [List.length_eq_zero_iff]
    rfl)

/-- `VirtQueue::add` succeeds whenever a slot is free. -/
def AddSucceeds (s : HandlerState) : HandlerAct → Prop
  | .request pick => match s.pc with
    | .requests w _ => (s.queues w).Room (.request pick)
    | _ => True
  | _ => True

/-- When `cursor_msg` wakes the thread, and when the `handle_responses` it calls frees a slot, the
cursor channel is empty, or something else will make the thread look into it. -/
def CursorHeard (s : HandlerState) : HandlerAct → Prop
  | .wake .cursorMsg => (s.queues .cursor).chan = [] ∨ (s.queues .cursor).q.free.items = [] ∨
      s.signalled .cursorIrq = true ∨ 0 < s.storing .cursor
  | .response => s.pc = .responses .cursor false → (s.queues .cursor).chan = [] ∨
      (s.queues .cursor).q.queue.used = [] ∨ s.signalled .cursorIrq = true ∨
      s.signalled .cursorMsg = true ∨ 0 < s.storing .cursor
  | _ => True

instance (s : HandlerState) : ∀ a, Decidable (s.AddSucceeds a)
  | .request pick => match h : s.pc with
    | .requests w _ =>
        decidable_of_iff ((s.queues w).Room (.request pick)) (by simp [AddSucceeds, h])
    | .select | .responses .. | .fences | .stopped => isTrue (by simp [AddSucceeds, h])
  | .push .. | .signal _ | .set _ | .complete .. | .cancel _ | .issueFence | .setArc ..
  | .elsewhere _ | .wake _ | .waitFailed | .response | .requestMissed | .fences => isTrue trivial

instance (s : HandlerState) : ∀ a, Decidable (s.CursorHeard a)
  | .wake .cursorMsg => inferInstanceAs (Decidable (_ ∨ _ ∨ _ ∨ _))
  | .response => inferInstanceAs (Decidable (_ → _ ∨ _ ∨ _ ∨ _ ∨ _))
  | .wake .controlIrq | .wake .controlMsg | .wake .cursorIrq | .wake .configIrq | .wake .stop
  | .push .. | .signal _ | .set _ | .complete .. | .cancel _ | .issueFence | .setArc ..
  | .elsewhere _ | .waitFailed | .request _ | .requestMissed | .fences => isTrue trivial

end HandlerState

/-- The thread will call `handle_requests` for the queue before it waits again. -/
def HandlerPc.Draining (w : QueueId) : HandlerPc → Prop
  | .responses v andRequests => v = w ∧ andRequests = true
  | .requests v _ => v = w
  | _ => False

namespace HandlerState

/-- Something will make the thread look into the channel of `w`. -/
def Due (s : HandlerState) (w : QueueId) : Prop :=
  s.signalled w.irq = true ∨ s.signalled w.msg = true ∨ 0 < s.storing w ∨ s.pc.Draining w

/-- The requests in the channel of `w` wait for a slot, or the thread will look at them. -/
def Announced (s : HandlerState) (w : QueueId) : Prop :=
  (s.queues w).chan = [] ∨ (s.queues w).q.free.items = [] ∨ s.Due w

/-- The requests stored since the current call of `request` began will be, or have been,
signalled; and the control queue is never left without a call of `handle_requests`. -/
structure PcInv (s : HandlerState) : Prop where
  fresh : ∀ w n, s.pc = .requests w n → 0 < n → s.signalled w.msg = true ∨ 0 < s.storing w
  control : s.pc ≠ .responses .control false

variable {s s' : HandlerState} {w v : QueueId} {q : QueueState w.size w.maxIn w.maxOut}

@[simp] theorem setQueue_queues_self : (s.setQueue w q).queues w = q := by
  simp [setQueue]

theorem setQueue_queues_of_ne (h : v ≠ w) : (s.setQueue w q).queues v = (s.queues v).share q := by
  simp [setQueue, h]

theorem good_setQueue (hs : ∀ v, (s.queues v).Good) (hq : q.Good) (v : QueueId) :
    ((s.setQueue w q).queues v).Good := by
  by_cases h : v = w
  · subst h
    rwa [setQueue_queues_self]
  · rw [setQueue_queues_of_ne h]
    exact (hs v).share q

/-- What an action does, and what it needs. -/
inductive StepCase (env : (w : QueueId) → QueueEnv w.maxIn w.maxOut) (s : HandlerState) :
    HandlerAct → HandlerState → Prop
  | push (w : QueueId) (b : Buffer w.maxIn w.maxOut) :
      StepCase env s (.push w b)
        { s.setQueue w { s.queues w with chan := (s.queues w).chan ++ [b] } with
          storing := Function.update s.storing w (s.storing w + 1)
          pc := s.pc.stored w }
  | signal (w : QueueId) :
      StepCase env s (.signal w)
        { s.signal w.msg with storing := Function.update s.storing w (s.storing w - 1) }
  | set (e : Event) : StepCase env s (.set e) (s.signal e)
  | complete {w : QueueId} {token : Fin w.size} {len : ℕ} {data : List UInt8}
      (q : QueueState w.size w.maxIn w.maxOut)
      (hq : (s.queues w).complete token len data = .next q) :
      StepCase env s (.complete w token len data) (s.setQueue w q)
  /-- The parts that are not of the queue itself change. -/
  | shared {a : HandlerAct} (fence : FenceTracker) (cancelled : ℕ → Bool) (arcs : ℕ → ℕ)
      (rest : Elsewhere) : StepCase env s a (s.setQueue .control { s.queues .control with
        fence := fence, cancelled := cancelled, arcs := arcs, rest := rest })
  | wake (e : Event) (hpc : s.pc = .select) :
      StepCase env s (.wake e)
        { s with signalled := Function.update s.signalled e false, pc := e.branch }
  | waitFailed (hpc : s.pc = .select) : StepCase env s .waitFailed { s with pc := .fences }
  | response (w : QueueId) (andRequests : Bool) (r : Returned)
      (q : QueueState w.size w.maxIn w.maxOut) (hpc : s.pc = .responses w andRequests)
      (hq : (s.queues w).response (env w) = .next (r, q)) :
      StepCase env s .response { s.setQueue w q with
        pc := if r = .none then (if andRequests then .requests w 0 else .fences)
          else .responses w andRequests }
  | request {pick : ℕ} (w : QueueId) (n : ℕ) (r : Returned)
      (q : QueueState w.size w.maxIn w.maxOut) (hpc : s.pc = .requests w n)
      (hq : (s.queues w).request (env w) pick = .next (r, q)) :
      StepCase env s (.request pick)
        { s.setQueue w q with pc := if r = .none then .fences else .requests w 0 }
  | requestMissed (w : QueueId) (n : ℕ) (r : Returned)
      (q : QueueState w.size w.maxIn w.maxOut) (hpc : s.pc = .requests w n)
      (hlen : (s.queues w).chan.length ≤ n)
      (hq : (s.queues w).requestMissed (env w) = .next (r, q)) :
      StepCase env s .requestMissed
        { s.setQueue w q with pc := if r = .none then .fences else .requests w 0 }
  | fences (hpc : s.pc = .fences) : StepCase env s .fences { s with pc := .select }

section Step

variable {env : (w : QueueId) → QueueEnv w.maxIn w.maxOut} {a : HandlerAct}

theorem stepCase (h : (handlerMachine env).step s a = .next s') : s.StepCase env a s' := by
  cases a with
  | push w b =>
    cases h
    exact .push w b
  | signal w =>
    simp only [handlerMachine] at h
    split_ifs at h
    cases h
    exact .signal w
  | set e =>
    cases h
    exact .set e
  | complete =>
    obtain ⟨q, hq, h⟩ := Outcome.bind_eq_next.1 h
    cases h
    exact .complete q hq
  | cancel block | issueFence | setArc batch count | elsewhere rest =>
    cases h
    exact .shared _ _ _ _
  | wake e =>
    simp only [handlerMachine] at h
    split_ifs at h with hwake
    cases h
    exact .wake e hwake.1
  | waitFailed =>
    simp only [handlerMachine] at h
    split_ifs at h with hpc
    cases h
    exact .waitFailed hpc
  | response =>
    simp only [handlerMachine] at h
    split at h
    · obtain ⟨r, hq, h⟩ := Outcome.bind_eq_next.1 h
      cases h
      exact .response _ _ r.1 r.2 ‹_› hq
    · cases h
  | request pick =>
    simp only [handlerMachine] at h
    split at h
    · obtain ⟨r, hq, h⟩ := Outcome.bind_eq_next.1 h
      cases h
      exact .request _ _ r.1 r.2 ‹_› hq
    · cases h
  | requestMissed =>
    simp only [handlerMachine] at h
    split at h
    · split_ifs at h with hlen
      obtain ⟨r, hq, h⟩ := Outcome.bind_eq_next.1 h
      cases h
      exact .requestMissed _ _ r.1 r.2 ‹_› hlen hq
    · cases h
  | fences =>
    simp only [handlerMachine] at h
    split_ifs at h with hpc
    cases h
    exact .fences hpc

theorem good_step (hs : ∀ w, (s.queues w).Good) (hadd : s.AddSucceeds a)
    (hstep : (handlerMachine env).step s a = .next s') (v : QueueId) : (s'.queues v).Good := by
  cases stepCase hstep with
  | push w =>
    refine good_setQueue hs ?_ v
    exact (hs w).of_eq rfl rfl rfl rfl
  | @complete w token len data q hq =>
    exact good_setQueue hs ((hs w).complete (env w) w.size_le hq) v
  | shared _ _ _ _ =>
    refine good_setQueue hs ?_ v
    exact (hs .control).of_eq rfl rfl rfl rfl
  | signal _ | set _ | wake _ _ | waitFailed _ | fences _ => exact hs v
  | response w _ _ _ _ hq => exact good_setQueue hs ((hs w).response w.size_le hq) v
  | request w n r q hpc hq =>
    simp only [AddSucceeds, hpc] at hadd
    exact good_setQueue hs ((hs w).request w.size_le hadd hq) v
  | requestMissed w n r q hpc _ hq =>
    exact good_setQueue hs ((hs w).requestMissed w.size_le hq) v

end Step

theorem signal_mono {e e' : Event} (h : s.signalled e' = true) :
    (s.signal e).signalled e' = true := by
  by_cases he : e' = e
  · simp [signal, he]
  · simpa [signal, he] using h

theorem pcInv_of_pc (h : ∀ w n, s.pc = .requests w n → n = 0)
    (hcontrol : s.pc ≠ .responses .control false) : s.PcInv where
  fresh := by
    intro w n hpc hn
    rw [h w n hpc] at hn
    exact absurd hn (lt_irrefl 0)
  control := hcontrol

theorem pcInv_step {env : (w : QueueId) → QueueEnv w.maxIn w.maxOut} {a : HandlerAct}
    (hs : s.PcInv) (hstep : (handlerMachine env).step s a = .next s') : s'.PcInv := by
  cases stepCase hstep with
  | push w b =>
    refine ⟨fun v n hpc hn => ?_, ?_⟩
    · by_cases hv : v = w
      · subst hv
        exact .inr (by simp)
      · simp only [Function.update_of_ne hv]
        refine hs.fresh v n ?_ hn
        revert hpc
        cases s.pc <;> simp only [HandlerPc.stored] <;> grind
    · have := hs.control
      revert this
      cases s.pc <;> simp only [HandlerPc.stored] <;> grind
  | signal w =>
    refine ⟨fun v n hpc hn => ?_, hs.control⟩
    by_cases hv : v = w
    · subst hv
      exact .inl (by simp [HandlerState.signal])
    · simp only [Function.update_of_ne hv]
      exact (hs.fresh v n hpc hn).imp_left signal_mono
  | set => exact ⟨fun v n hpc hn => (hs.fresh v n hpc hn).imp_left signal_mono, hs.control⟩
  | complete _ _ | shared _ _ _ _ => exact ⟨hs.fresh, hs.control⟩
  | wake e _ =>
    refine pcInv_of_pc (fun w n hpc => ?_) ?_
    · cases e <;> cases hpc
      rfl
    · cases e <;> simp [Event.branch]
  | waitFailed _ | fences _ => exact pcInv_of_pc (by simp) (by simp)
  | response w andRequests r q hpc hq =>
    have hcontrol := hs.control
    rw [hpc] at hcontrol
    refine pcInv_of_pc (fun v n => ?_) ?_
    · simp only
      split_ifs <;> simp +contextual
    · simp only
      split_ifs <;> simp_all
  | request _ _ _ _ _ _ | requestMissed _ _ _ _ _ _ _ =>
    refine pcInv_of_pc (fun v n => ?_) ?_ <;> simp only <;> split_ifs <;> simp +contextual

/-- The channel and the free slots of `v` stay as they are, and so do the reasons to look at it. -/
theorem Announced.frame (hs : s.Announced v) (hchan : (s'.queues v).chan = (s.queues v).chan)
    (hfree : (s'.queues v).q.free.items = (s.queues v).q.free.items)
    (hdue : s.Due v → s'.Due v) : s'.Announced v := by
  unfold Announced at *
  rw [hchan, hfree]
  exact hs.imp_right (Or.imp_right hdue)

theorem Announced.setQueue_of_ne (hs : s.Announced v) (h : v ≠ w) (hqueues : s'.queues =
    (s.setQueue w q).queues) (hdue : s.Due v → s'.Due v) : s'.Announced v := by
  refine hs.frame ?_ ?_ hdue <;> rw [hqueues, setQueue_queues_of_ne h] <;> rfl

theorem Announced.setQueue (hs : s.Announced v) (hchan : q.chan = (s.queues w).chan)
    (hfree : q.q.free.items = (s.queues w).q.free.items) : (s.setQueue w q).Announced v := by
  by_cases h : v = w
  · subst h
    exact hs.frame (by rw [setQueue_queues_self, hchan]) (by rw [setQueue_queues_self, hfree]) id
  · exact hs.setQueue_of_ne h rfl id

theorem due_signal {e : Event} (h : s.Due v) : (s.signal e).Due v :=
  h.imp signal_mono (Or.imp_left signal_mono)

theorem draining_stored {pc : HandlerPc} (h : pc.Draining v) : (pc.stored w).Draining v := by
  cases pc <;> simp only [HandlerPc.stored] <;> try exact h
  split_ifs <;> exact h

/-- Waking up for any event but `cursor_msg` leaves no channel unattended. -/
theorem due_wake {e : Event} (hpc : s.pc = .select) (hv : v = .cursor → e ≠ .cursorMsg)
    (h : s.Due v) :
    ({ s with signalled := Function.update s.signalled e false, pc := e.branch } :
      HandlerState).Due v := by
  unfold Due at *
  rw [hpc] at h
  cases v <;> cases e <;>
    simp_all [QueueId.irq, QueueId.msg, Event.branch, HandlerPc.Draining, Function.update]

theorem announced_requests {n : ℕ} {r : Returned} (hs : s.Announced v)
    (hpc : s.pc = .requests w n)
    (hq : r = .none → q.chan = [] ∨ q.q.free.items = [] ∨ s.signalled w.msg = true ∨
      0 < s.storing w) :
    ({ s.setQueue w q with pc := if r = .none then .fences else .requests w 0 } :
      HandlerState).Announced v := by
  by_cases hv : v = w
  · subst hv
    by_cases hr : r = .none
    · obtain hchan | hfree | hmsg | hstoring := hq hr
      · exact .inl (by simpa using hchan)
      · exact .inr (.inl (by simpa using hfree))
      · exact .inr (.inr (.inr (.inl hmsg)))
      · exact .inr (.inr (.inr (.inr (.inl hstoring))))
    · exact .inr (.inr (.inr (.inr (.inr (by simp [hr, HandlerPc.Draining])))))
  · refine hs.setQueue_of_ne hv rfl ?_
    unfold Due
    rw [hpc]
    rintro (hirq | hmsg | hstoring | hdraining)
    · exact .inl hirq
    · exact .inr (.inl hmsg)
    · exact .inr (.inr (.inl hstoring))
    · exact absurd hdraining.symm hv

theorem announced_responses {env : QueueEnv w.maxIn w.maxOut} {b : Bool} {r : Returned}
    (hs : s.Announced v) (hpc : s.pc = .responses w b) (hcontrol : w = .control → b = true)
    (hheard : v = .cursor → s.CursorHeard .response)
    (hresp : (s.queues w).response env = .next (r, q)) :
    ({ s.setQueue w q with
        pc := if r = .none then (if b then .requests w 0 else .fences) else .responses w b } :
      HandlerState).Announced v := by
  -- As long as the thread is not draining the channel of `v`, the reasons are elsewhere.
  have hdue : ∀ pc, ¬ (v = w ∧ b = true) → s.Due v →
      ({ s.setQueue w q with pc := pc } : HandlerState).Due v := by
    unfold Due
    rw [hpc]
    rintro pc hv (hirq | hmsg | hstoring | hdraining)
    · exact .inl hirq
    · exact .inr (.inl hmsg)
    · exact .inr (.inr (.inl hstoring))
    · exact absurd ⟨hdraining.1.symm, hdraining.2⟩ hv
  by_cases hv : v = w
  · subst hv
    cases b with
    | true =>
      refine .inr (.inr (.inr (.inr (.inr ?_))))
      simp only
      split_ifs <;> simp [HandlerPc.Draining]
    | false =>
      have hcase := QueueState.response_cases hresp
      cases hcase with
      | nothing _ hq | unknown _ _ _ hq =>
        subst hq
        exact hs.frame (by simp) (by simp) (hdue _ (by simp))
      | completed token i c b free hpeek hindex hchain hin hout hcall hfree hq hchan =>
        have hv : v = .cursor := by
          cases v with
          | control => exact absurd (hcontrol rfl) (by simp)
          | cursor => rfl
        subst hv
        obtain hempty | hused | hirq | hmsg | hstoring := hheard rfl hpc
        · exact .inl (by simpa [hchan] using hempty)
        · simp [Virtq.peekUsed, hused] at hpeek
        · exact .inr (.inr (.inl hirq))
        · exact .inr (.inr (.inr (.inl hmsg)))
        · exact .inr (.inr (.inr (.inr (.inl hstoring))))
  · exact hs.setQueue_of_ne hv rfl (hdue _ fun h => hv h.1)

theorem announced_step {env : (w : QueueId) → QueueEnv w.maxIn w.maxOut} {a : HandlerAct}
    (hpcInv : s.PcInv) (hheard : v = .cursor → s.CursorHeard a) (hs : s.Announced v)
    (hstep : (handlerMachine env).step s a = .next s') : s'.Announced v := by
  cases stepCase hstep with
  | push w =>
    by_cases hv : v = w
    · subst hv
      exact .inr (.inr (.inr (.inr (.inl (by simp)))))
    · refine hs.setQueue_of_ne hv rfl fun hdue => ?_
      refine hdue.imp_right (Or.imp_right (Or.imp ?_ draining_stored))
      simp [Function.update_of_ne hv]
  | signal w =>
    by_cases hv : v = w
    · subst hv
      exact .inr (.inr (.inr (.inl (by simp [HandlerState.signal]))))
    · refine hs.frame rfl rfl fun hdue => ?_
      have hdue' := due_signal (e := w.msg) hdue
      unfold Due at *
      simp only [Function.update_of_ne hv]
      exact hdue'
  | set => exact hs.frame rfl rfl due_signal
  | complete q hq =>
    unfold QueueState.complete at hq
    split at hq
    · cases hq
    · split_ifs at hq
      cases hq
      exact hs.setQueue rfl rfl
  | shared => exact hs.setQueue rfl rfl
  | wake e hpc =>
    by_cases hmsg : v = .cursor ∧ e = .cursorMsg
    · obtain ⟨rfl, rfl⟩ := hmsg
      obtain hchan | hfree | hirq | hstoring := hheard rfl
      · exact .inl hchan
      · exact .inr (.inl hfree)
      · exact .inr (.inr (.inl (by simpa [QueueId.irq] using hirq)))
      · exact .inr (.inr (.inr (.inr (.inl hstoring))))
    · exact hs.frame rfl rfl (due_wake hpc fun hv he => hmsg ⟨hv, he⟩)
  | waitFailed hpc | fences hpc =>
    refine hs.frame rfl rfl fun hdue => ?_
    unfold Due at *
    rw [hpc] at hdue
    exact hdue
  | response w b r q hpc hq =>
    refine announced_responses hs hpc ?_ hheard hq
    rintro rfl
    cases b with
    | true => rfl
    | false => exact absurd hpc hpcInv.control
  | request w n r q hpc hq =>
    refine announced_requests hs hpc fun hr => ?_
    subst hr
    have hcase := QueueState.request_cases hq
    cases hcase with
    | noSlot hfree hq => exact .inr (.inl (by rw [hq, hfree]))
    | noRequest i rest free hfree hchan hfree' hq => exact .inl (by rw [hq, hchan])
  | requestMissed w n r q hpc hlen hq =>
    refine announced_requests hs hpc fun _ => ?_
    obtain ⟨⟨r', q'⟩, -, hnext⟩ := Outcome.bind_eq_next.1 hq
    cases hnext
    by_cases hchan : (s.queues w).chan = []
    · exact .inl hchan
    · -- What `pop` has missed was stored during the call.
      have hpos : 0 < n := lt_of_lt_of_le (List.length_pos_iff.2 hchan) hlen
      exact .inr (.inr (hpcInv.fresh w n hpc hpos))

theorem served_of_quiet (hgood : ∀ w, (s.queues w).Good) (hs : s.Announced v) (hquiet : s.Quiet) :
    s.Served v := by
  obtain ⟨hpc, hevents, hstoring⟩ := hquiet
  obtain hchan | hfree | hdue := hs
  · exact .inl hchan
  · exact .inr ((hgood v).inFlight_of_free hfree)
  · simp [Due, hevents, hstoring, hpc, HandlerPc.Draining] at hdue

theorem announced_init (indirect : Bool) : (init indirect).Announced v := .inl rfl

theorem pcInv_init (indirect : Bool) : (init indirect).PcInv :=
  pcInv_of_pc (by simp [init]) (by simp [init])

end HandlerState

/-- **No request is left behind, almost.**  If the thread is asleep, with none of its events
signalled and no push about to signal one, the control channel is empty or all control slots are in
flight.  If moreover `cursor_msg` never went by unheard, the same holds for the cursor channel. -/
theorem handler_serves (env : (w : QueueId) → QueueEnv w.maxIn w.maxOut) (indirect : Bool)
    (as : List HandlerAct) (s : HandlerState)
    (hrun : (handlerMachine env).run (.init indirect) as = some s) (hquiet : s.Quiet) :
    ((handlerMachine env).Meets HandlerState.AddSucceeds (.init indirect) as →
      s.Served .control) ∧
    ((handlerMachine env).Meets (fun s a => s.AddSucceeds a ∧ s.CursorHeard a) (.init indirect)
      as → ∀ w, s.Served w) := by
  have hgood : ∀ w, ((HandlerState.init indirect).queues w).Good := fun w => .init _ _
  constructor
  · intro hmeets
    obtain ⟨hgood', -, hann⟩ := Machine.run_induction
      (I := fun s => (∀ w, (s.queues w).Good) ∧ s.PcInv ∧ s.Announced .control)
      (fun s a s' ⟨hgood, hpc, hann⟩ hok hstep => ⟨HandlerState.good_step hgood hok hstep,
        HandlerState.pcInv_step hpc hstep,
        HandlerState.announced_step hpc (by simp) hann hstep⟩)
      ⟨hgood, HandlerState.pcInv_init indirect, HandlerState.announced_init indirect⟩ hmeets hrun
    exact HandlerState.served_of_quiet hgood' hann hquiet
  · intro hmeets w
    obtain ⟨hgood', -, hann⟩ := Machine.run_induction
      (I := fun s => (∀ w, (s.queues w).Good) ∧ s.PcInv ∧ s.Announced w)
      (fun s a s' ⟨hgood, hpc, hann⟩ hok hstep => ⟨HandlerState.good_step hgood hok.1 hstep,
        HandlerState.pcInv_step hpc hstep,
        HandlerState.announced_step hpc (fun _ => hok.2) hann hstep⟩)
      ⟨hgood, HandlerState.pcInv_init indirect, HandlerState.announced_init indirect⟩ hmeets hrun
    exact HandlerState.served_of_quiet hgood' hann hquiet

/-- The surroundings of the two queues. -/
def handlerEnv : (w : QueueId) → QueueEnv w.maxIn w.maxOut
  | .control => ⟨controlInputs, controlOutputs, fun _ => 0⟩
  | .cursor => cursorEnv

/-- An update whose interrupt event is set as well is picked up. -/
theorem handler_serves_interrupted :
    ∃ s, (handlerMachine handlerEnv).run (.init true)
        [.push .cursor cursorUpdate, .signal .cursor, .set .cursorIrq, .wake .cursorMsg, .response,
          .fences, .wake .cursorIrq, .response, .request 0, .request 0, .fences] = some s ∧
      s.Quiet ∧ ∀ w, s.Served w := by
  have hrun : ((handlerMachine handlerEnv).run (.init true)
        [.push .cursor cursorUpdate, .signal .cursor, .set .cursorIrq, .wake .cursorMsg, .response,
          .fences, .wake .cursorIrq, .response, .request 0, .request 0, .fences]).map
      (fun s => decide s.Quiet) = some true := by decide
  obtain ⟨s, hs, hquiet⟩ := Option.map_eq_some_iff.1 hrun
  have hquiet := of_decide_eq_true hquiet
  refine ⟨s, hs, hquiet, (handler_serves handlerEnv true _ s hs hquiet).2 ?_⟩
  decide

/-- **A cursor update can be left behind.**  It is stored and signalled; the thread wakes up, looks
for responses, and goes back to sleep. -/
theorem cursor_request_stranded :
    ∃ s, (handlerMachine handlerEnv).run (.init true)
        [.push .cursor cursorUpdate, .signal .cursor, .wake .cursorMsg, .response, .fences] =
          some s ∧
      s.Quiet ∧ ¬ s.Served .cursor := by
  have hrun : ((handlerMachine handlerEnv).run (.init true)
        [.push .cursor cursorUpdate, .signal .cursor, .wake .cursorMsg, .response, .fences]).map
      (fun s => decide (s.Quiet ∧ ¬ s.Served .cursor)) = some true := by decide
  obtain ⟨s, hs, hquiet⟩ := Option.map_eq_some_iff.1 hrun
  exact ⟨s, hs, of_decide_eq_true hquiet⟩

end VirtioGpu
