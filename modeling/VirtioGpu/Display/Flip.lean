import VirtioGpu.Display.Sources
import VirtioGpu.Queue.Operations

/-!
# The flip timer

`queue_scanout` puts an allocation and its address into the flip queues of the targets of a source.
A timer takes one entry from each queue at every tick, tells the host to show the allocation and,
when it has done so for all scanouts, reports to `dxgkrnl` which address each of them shows.  A
scanout whose queue is empty is reported with the address it had.

The two sides run at the same time, and only the queues are shared.  A queue holds 128 entries and
gives up the oldest for a new one.

A step of the machine is one access to what is shared: a push, or what the timer does from one such
access to the next.  A call of `queue_scanout` is a push for each target, and pushes of several
calls may come in any order.  `History` is what a scanout should look like from outside, and
`flips_in_order` says that it does.
-/

namespace VirtioGpu

/-! ### Commands -/

/-- `gpu::Rect`, from the origin. -/
structure FlipRect where
  width : UInt32
  height : UInt32

/-- `BlobInfo`, as far as `set_scanout_blob` reads it. -/
structure ScanoutBlobInfo where
  width : UInt32
  height : UInt32
  format : UInt32
  strides : Vector UInt32 4
  offsets : Vector UInt32 4

/-- What the timer sends to the control queue. -/
inductive FlipCommand where
  | setScanout (rect : FlipRect) (scanout resource : ℕ)
  | setScanoutBlob (rect : FlipRect) (scanout resource : ℕ) (info : ScanoutBlobInfo)
  | resourceFlush (resource : ℕ) (rect : FlipRect)

/-- The bytes of a rectangle. -/
def FlipRect.bytes (r : FlipRect) : List UInt8 :=
  leBytes 4 0 ++ leBytes 4 0 ++ leBytes 4 r.width.toNat ++ leBytes 4 r.height.toNat

/-- The bytes of a `[u32; 4]`. -/
def planeBytes (v : Vector UInt32 4) : List UInt8 :=
  leBytes 4 v[0].toNat ++ leBytes 4 v[1].toNat ++ leBytes 4 v[2].toNat ++ leBytes 4 v[3].toNat

/-- The function of the channel that sends the command. -/
def FlipCommand.op : FlipCommand → GpuOp
  | .setScanout rect scanout resource =>
    .fixed .setScanout none ⟨rect.bytes ++ leBytes 4 scanout ++ leBytes 4 resource, by
      simp [FlipRect.bytes]; rfl⟩ 0 0
  | .setScanoutBlob rect scanout resource info =>
    .fixed .setScanoutBlob none ⟨rect.bytes ++ leBytes 4 scanout ++ leBytes 4 resource ++
      leBytes 4 info.width.toNat ++ leBytes 4 info.height.toNat ++ leBytes 4 info.format.toNat ++
      leBytes 4 0 ++ planeBytes info.strides ++ planeBytes info.offsets, by
      simp [FlipRect.bytes, planeBytes]; rfl⟩ 0 0
  | .resourceFlush resource rect =>
    .fixed .resourceFlush none ⟨rect.bytes ++ leBytes 4 resource ++ leBytes 4 0, by
      simp [FlipRect.bytes]; rfl⟩ 0 0

/-- The command gets into the control queue. -/
def FlipCommand.isPushed (env : OpEnv) (fence : FenceTracker) (cmd : FlipCommand) : Bool :=
  match cmd.op.run env fence with
  | .next r => r.queued == 1
  | _ => false

theorem GpuOp.queued_send_inline (env : OpEnv) (fence : FenceTracker) {r : FixedRequest}
    (cmd : Bytes r.size) (hsize : r.size ≤ maxCommandSize)
    (hresponse : r.responseSize ≤ maxResponseSize) :
    (GpuOp.send env fence (.fixed r cmd .none)).queued = 1 := by
  have hmet : (ControlCall.fixed r cmd .none).needs.Met env :=
    ⟨.inl hsize, .inl hresponse, nofun⟩
  have htry := ControlCall.tryBuffer_isOk_iff.2 hmet
  unfold GpuOp.send
  split
  · rename_i herr
    rw [herr] at htry
    cases htry
  · rfl

theorem FlipCommand.isPushed_eq_true (env : OpEnv) (fence : FenceTracker) (cmd : FlipCommand) :
    cmd.isPushed env fence = true := by
  cases cmd with
  | setScanout rect scanout resource =>
    exact beq_iff_eq.2 (GpuOp.queued_send_inline (r := .setScanout) env _ _ (by decide) (by decide))
  | setScanoutBlob rect scanout resource info =>
    exact beq_iff_eq.2
      (GpuOp.queued_send_inline (r := .setScanoutBlob) env _ _ (by decide) (by decide))
  | resourceFlush resource rect =>
    exact beq_iff_eq.2
      (GpuOp.queued_send_inline (r := .resourceFlush) env _ _ (by decide) (by decide))

/-! ### The timer -/

/-- `VirtioResource`, as far as a flip looks at it. -/
inductive FlipResource where
  | threeD (width height : UInt32)
  | blob
  deriving DecidableEq

/-- An allocation that is shown. -/
structure FlipAlloc where
  id : ℕ
  resource : FlipResource

/-- What a step of the timer meets. -/
structure FlipEnv (ι : Type) where
  /-- The allocation has not been dropped. -/
  alive : ι → Bool
  /-- The `info` of a blob. -/
  info : ι → Option ScanoutBlobInfo
  op : OpEnv
  fence : FenceTracker

/-- Where the timer is. -/
inductive TickPc (ι : Type) where
  | idle
  /-- At the queue of a scanout. -/
  | scanning (scanout : ℕ)
  /-- With an entry it has taken. -/
  | setting (scanout : ℕ) (alloc : ι)
  /-- After `set_scanout`. -/
  | flushing (scanout : ℕ) (resource : ℕ) (rect : FlipRect)
  /-- After the loop. -/
  | reporting

/-- What can be seen of the timer. -/
inductive FlipEvent where
  /-- A command is pushed for a scanout. -/
  | pushed (scanout : ℕ) (cmd : FlipCommand)
  /-- `notify_interrupt_synchronized`, with the addresses of the scanouts. -/
  | vsync (scanouts : ℕ → Option UInt64)

/-- How an entry has left a flip queue. -/
inductive Departure where
  | taken
  /-- By a new entry, when the queue had this many. -/
  | displaced (length : ℕ)
  deriving DecidableEq

/-- `FlipTimerContext`, and the local variables of `flip`. -/
structure FlipState (ι : Type) where
  flipqs : ℕ → ArrayQueue (ι × UInt64) flipQueueLen
  addrs : ℕ → UInt64
  vsyncEnabled : Bool
  pc : TickPc ι
  scanouts : ℕ → Option UInt64
  /-- Everything that can be seen, in order. -/
  log : List FlipEvent
  /-- All entries that have been put into each queue, in order. -/
  queued : ℕ → List (ι × UInt64)
  /-- The entries that have left each queue, in order. -/
  left : ℕ → List ((ι × UInt64) × Departure)

inductive FlipAct (ι : Type) where
  /-- `force_push` for one target, in `queue_scanout`. -/
  | push (target : ℕ) (alloc : ι) (addr : UInt64)
  /-- `control_interrupt` for `CRTC_VSYNC`. -/
  | controlInterrupt (enabled : Bool)
  /-- What the timer does next. -/
  | tick (env : FlipEnv ι)

namespace FlipState

variable {ι : Type}

/-- After `start`. -/
def init : FlipState ι where
  flipqs _ := .new flipQueueLen_pos
  addrs _ := 0
  vsyncEnabled := false
  pc := .idle
  scanouts _ := none
  log := []
  queued _ := []
  left _ := []

/-- A command of the timer, if there is room for it. -/
def send (s : FlipState ι) (env : FlipEnv ι) (scanout : ℕ) (cmd : FlipCommand) : FlipState ι :=
  if cmd.isPushed env.op env.fence then { s with log := s.log ++ [.pushed scanout cmd] } else s

/-- `force_push` -/
def push (s : FlipState ι) (target : ℕ) (flip : ι × UInt64) : FlipState ι :=
  let r := (s.flipqs target).forcePush flip
  { s with
    flipqs := Function.update s.flipqs target r.1
    queued := Function.update s.queued target (s.queued target ++ [flip])
    left := Function.update s.left target (s.left target ++
      r.2.toList.map fun dropped => (dropped, .displaced (s.flipqs target).items.length)) }

/-- `flip`, up to the next access to what is shared. -/
def tick (allocs : ι → FlipAlloc) (numScanouts : ℕ) (env : FlipEnv ι) (s : FlipState ι) :
    FlipState ι :=
  match s.pc with
  | .idle => { s with pc := .scanning 0, scanouts := fun _ => none }
  | .scanning i =>
    if maxScanouts ≤ i then { s with pc := .reporting }
    else if numScanouts ≤ i then { s with pc := .scanning (i + 1) }
    else match (s.flipqs i).pop with
      | (none, _) =>
        { s with
          scanouts := Function.update s.scanouts i (some (s.addrs i))
          pc := .scanning (i + 1) }
      | (some (alloc, addr), q) =>
        { s with
          flipqs := Function.update s.flipqs i q
          left := Function.update s.left i (s.left i ++ [((alloc, addr), .taken)])
          addrs := Function.update s.addrs i addr
          scanouts := Function.update s.scanouts i (some addr)
          pc := .setting i alloc }
  | .setting i alloc =>
    if env.alive alloc then
      match (allocs alloc).resource with
      | .threeD width height =>
        { s.send env i (.setScanout ⟨width, height⟩ i (allocs alloc).id) with
          pc := .flushing i (allocs alloc).id ⟨width, height⟩ }
      | .blob => match env.info alloc with
        | none => { s with pc := .scanning (i + 1) }
        | some info =>
          { s.send env i (.setScanoutBlob ⟨info.width, info.height⟩ i (allocs alloc).id info) with
            pc := .flushing i (allocs alloc).id ⟨info.width, info.height⟩ }
    else { s with pc := .scanning (i + 1) }
  | .flushing i resource rect =>
    { s.send env i (.resourceFlush resource rect) with pc := .scanning (i + 1) }
  | .reporting =>
    { s with
      log := if s.vsyncEnabled then s.log ++ [.vsync s.scanouts] else s.log
      pc := .idle }

/-- A step; there are flip queues for the outputs only. -/
def step (allocs : ι → FlipAlloc) (numScanouts : ℕ) (s : FlipState ι) :
    FlipAct ι → Outcome (FlipState ι) Unit
  | .push target alloc addr =>
    if target < numScanouts then .next (s.push target (alloc, addr)) else .stuck
  | .controlInterrupt enabled => .next { s with vsyncEnabled := enabled }
  | .tick env => .next (s.tick allocs numScanouts env)

/-- The entries of a scanout that a tick has taken. -/
def taken (s : FlipState ι) (i : ℕ) : List (ι × UInt64) :=
  (s.left i).filterMap fun x => if x.2 = .taken then some x.1 else none

end FlipState

/-- What concerns one scanout. -/
inductive ScanoutEvent where
  | command (cmd : FlipCommand)
  | reported (addr : UInt64)

/-- What concerns the scanout `i`, if anything. -/
def FlipEvent.of (i : ℕ) : FlipEvent → Option ScanoutEvent
  | .pushed scanout cmd => if scanout = i then some (.command cmd) else none
  | .vsync scanouts => (scanouts i).map .reported

/-- The commands that show an allocation on a scanout. -/
inductive ShowsAlloc (alloc : FlipAlloc) (i : ℕ) : FlipCommand → FlipCommand → Prop
  | threeD (width height : UInt32) (h : alloc.resource = .threeD width height) :
      ShowsAlloc alloc i (.setScanout ⟨width, height⟩ i alloc.id)
        (.resourceFlush alloc.id ⟨width, height⟩)
  | blob (info : ScanoutBlobInfo) (h : alloc.resource = .blob) :
      ShowsAlloc alloc i (.setScanoutBlob ⟨info.width, info.height⟩ i alloc.id info)
        (.resourceFlush alloc.id ⟨info.width, info.height⟩)

/-- The address that is shown after some flips. -/
def currentAddr {ι : Type} (flips : List (ι × UInt64)) : UInt64 :=
  (flips.getLast?.map Prod.snd).getD 0

/-- **What a scanout should look like** after some flips.  Its address is reported any number of
times.  A new one is reported only after the host has been told to show the allocation and to flush
it, and it is reported before there is another. -/
inductive History {ι : Type} (allocs : ι → FlipAlloc) (i : ℕ) :
    List (ι × UInt64) → List ScanoutEvent → Prop
  | start : History allocs i [] []
  | again {flips : List (ι × UInt64)} {events : List ScanoutEvent}
      (h : History allocs i flips events) :
      History allocs i flips (events ++ [.reported (currentAddr flips)])
  | flip {flips : List (ι × UInt64)} {events : List ScanoutEvent}
      (h : History allocs i flips events) (alloc : ι) (addr : UInt64) (set flush : FlipCommand)
      (hshows : ShowsAlloc (allocs alloc) i set flush) :
      History allocs i (flips ++ [(alloc, addr)])
        (events ++ [.command set, .command flush, .reported addr])

/-! ### What a tick owes to a scanout -/

namespace TickPc

variable {ι : Type} {allocs : ι → FlipAlloc} {i j : ℕ} {addr : UInt64}
  {rest : List ScanoutEvent}

/-- The slots of `scanouts` that are filled. -/
def reached : TickPc ι → ℕ
  | .idle => 0
  | .scanning j => j
  | .setting j _ => j + 1
  | .flushing j _ _ => j + 1
  | .reporting => maxScanouts

/-- The scanout that a flip is going on for. -/
def flipping : TickPc ι → Option ℕ
  | .setting j _ => some j
  | .flushing j _ _ => some j
  | _ => none

/-- The events of the scanout that are still to come in this tick.  A scanout that has not been
reached owes nothing, since its entry may stay in the queue. -/
inductive Owes (allocs : ι → FlipAlloc) (i : ℕ) (addr : UInt64) :
    TickPc ι → List ScanoutEvent → Prop
  | nothing {pc : TickPc ι} (hpc : pc.flipping ≠ some i) (h : pc.reached ≤ i) :
      Owes allocs i addr pc []
  | report {pc : TickPc ι} (hpc : pc.flipping ≠ some i) (h : i < pc.reached) :
      Owes allocs i addr pc [.reported addr]
  | flip {alloc : ι} {set flush : FlipCommand} (hshows : ShowsAlloc (allocs alloc) i set flush) :
      Owes allocs i addr (.setting i alloc) [.command set, .command flush, .reported addr]
  | flush {resource : ℕ} {rect : FlipRect} :
      Owes allocs i addr (.flushing i resource rect)
        [.command (.resourceFlush resource rect), .reported addr]

theorem Owes.of_lt {pc : TickPc ι} (hrest : pc.Owes allocs i addr rest)
    (hpc : pc.flipping ≠ some i) (h : i < pc.reached) : rest = [.reported addr] := by
  cases hrest with
  | nothing _ hle => exact absurd h (Nat.not_lt.2 hle)
  | report => rfl
  | flip => exact absurd rfl hpc
  | flush => exact absurd rfl hpc

theorem Owes.of_le {pc : TickPc ι} (hrest : pc.Owes allocs i addr rest)
    (hpc : pc.flipping ≠ some i) (h : pc.reached ≤ i) : rest = [] := by
  cases hrest with
  | nothing => rfl
  | report _ hlt => exact absurd hlt (Nat.not_lt.2 h)
  | flip => exact absurd rfl hpc
  | flush => exact absurd rfl hpc

/-- A scanout that no flip is going on for owes the same wherever it is passed. -/
theorem Owes.congr {pc pc' : TickPc ι} (hrest : pc'.Owes allocs i addr rest)
    (hpc : pc.flipping ≠ some i) (hpc' : pc'.flipping ≠ some i)
    (h : i < pc'.reached ↔ i < pc.reached) : pc.Owes allocs i addr rest := by
  by_cases hlt : i < pc.reached
  · rw [hrest.of_lt hpc' (h.2 hlt)]
    exact .report hpc hlt
  · rw [hrest.of_le hpc' (Nat.not_lt.1 (mt h.1 hlt))]
    exact .nothing hpc (Nat.not_lt.1 hlt)

/-- What the timer needs for its next step. -/
def Ready (allocs : ι → FlipAlloc) (vsyncEnabled : Bool) (env : FlipEnv ι) : TickPc ι → Prop
  | .setting _ alloc =>
    env.alive alloc ∧ ((allocs alloc).resource = .blob → (env.info alloc).isSome)
  | .reporting => vsyncEnabled
  | _ => True

instance decidableReady (allocs : ι → FlipAlloc) (vsyncEnabled : Bool) (env : FlipEnv ι) :
    ∀ pc, Decidable (Ready allocs vsyncEnabled env pc)
  | .setting _ alloc => inferInstanceAs
      (Decidable (env.alive alloc ∧ ((allocs alloc).resource = .blob → (env.info alloc).isSome)))
  | .reporting => inferInstanceAs (Decidable (vsyncEnabled = true))
  | .idle => isTrue trivial
  | .scanning _ => isTrue trivial
  | .flushing _ _ _ => isTrue trivial

end TickPc

/-! ### Every step keeps the order -/

namespace FlipState

variable {ι : Type} {allocs : ι → FlipAlloc} {numScanouts i : ℕ} {s : FlipState ι}
  {s' : FlipState ι}

/-- The events of one scanout. -/
def events (s : FlipState ι) (i : ℕ) : List ScanoutEvent := s.log.filterMap (FlipEvent.of i)

/-- The entries that have been put into a queue are those that have left it and those in it, in
order, and an entry is displaced only from a full queue. -/
structure QueueInv (s : FlipState ι) (i : ℕ) : Prop where
  order : (s.left i).map Prod.fst ++ (s.flipqs i).items = s.queued i
  full : ∀ x n, (x, Departure.displaced n) ∈ s.left i → n = flipQueueLen

/-- With what the tick still owes, the scanout looks as it should. -/
structure ShownInv (allocs : ι → FlipAlloc) (s : FlipState ι) (i : ℕ) : Prop where
  addr : s.addrs i = currentAddr (s.taken i)
  slot : i < s.pc.reached → s.scanouts i = some (s.addrs i)
  history : ∀ rest, s.pc.Owes allocs i (s.addrs i) rest →
    History allocs i (s.taken i) (s.events i ++ rest)

/-- The assumptions of a run: when the timer shows an entry, its allocation is alive and, if it is
a blob, has its `info`; and vsync is enabled when it reports. -/
def Ready (allocs : ι → FlipAlloc) (s : FlipState ι) : FlipAct ι → Prop
  | .tick env => s.pc.Ready allocs s.vsyncEnabled env
  | _ => True

instance decidableReady (allocs : ι → FlipAlloc) (s : FlipState ι) :
    ∀ a, Decidable (s.Ready allocs a)
  | .tick env => inferInstanceAs (Decidable (s.pc.Ready allocs s.vsyncEnabled env))
  | .push _ _ _ => isTrue trivial
  | .controlInterrupt _ => isTrue trivial

/-- What a step of a tick does, under these assumptions. -/
inductive Ticked (allocs : ι → FlipAlloc) (numScanouts : ℕ) (s : FlipState ι) : FlipState ι → Prop
  | started (hpc : s.pc = .idle) :
      Ticked allocs numScanouts s { s with pc := .scanning 0, scanouts := fun _ => none }
  | ended {j : ℕ} (hpc : s.pc = .scanning j) (hj : maxScanouts ≤ j) :
      Ticked allocs numScanouts s { s with pc := .reporting }
  | skipped {j : ℕ} (hpc : s.pc = .scanning j) (hj : numScanouts ≤ j) :
      Ticked allocs numScanouts s { s with pc := .scanning (j + 1) }
  | kept {j : ℕ} (hpc : s.pc = .scanning j) :
      Ticked allocs numScanouts s { s with
        scanouts := Function.update s.scanouts j (some (s.addrs j))
        pc := .scanning (j + 1) }
  | took {j : ℕ} (hpc : s.pc = .scanning j) (alloc : ι) (addr : UInt64)
      (q : ArrayQueue (ι × UInt64) flipQueueLen)
      (hq : (s.flipqs j).items = (alloc, addr) :: q.items) :
      Ticked allocs numScanouts s { s with
        flipqs := Function.update s.flipqs j q
        left := Function.update s.left j (s.left j ++ [((alloc, addr), .taken)])
        addrs := Function.update s.addrs j addr
        scanouts := Function.update s.scanouts j (some addr)
        pc := .setting j alloc }
  | showed {j : ℕ} {alloc : ι} (hpc : s.pc = .setting j alloc) (set : FlipCommand) (resource : ℕ)
      (rect : FlipRect)
      (hshows : ShowsAlloc (allocs alloc) j set (.resourceFlush resource rect)) :
      Ticked allocs numScanouts s { s with
        log := s.log ++ [.pushed j set]
        pc := .flushing j resource rect }
  | flushed {j resource : ℕ} {rect : FlipRect} (hpc : s.pc = .flushing j resource rect) :
      Ticked allocs numScanouts s { s with
        log := s.log ++ [.pushed j (.resourceFlush resource rect)]
        pc := .scanning (j + 1) }
  | reported (hpc : s.pc = .reporting) :
      Ticked allocs numScanouts s { s with log := s.log ++ [.vsync s.scanouts], pc := .idle }

theorem send_eq (s : FlipState ι) (env : FlipEnv ι) (j : ℕ) (cmd : FlipCommand) :
    s.send env j cmd = { s with log := s.log ++ [.pushed j cmd] } :=
  if_pos (cmd.isPushed_eq_true env.op env.fence)

theorem Ticked.tick {env : FlipEnv ι} (hready : s.Ready allocs (.tick env)) :
    Ticked allocs numScanouts s (s.tick allocs numScanouts env) := by
  unfold FlipState.tick
  cases hpc : s.pc with
  | idle => exact .started hpc
  | scanning j =>
    simp only
    split_ifs with hmax hnum
    · exact .ended hpc hmax
    · exact .skipped hpc hnum
    · obtain ⟨-, q, hpop, -⟩ | ⟨⟨alloc, addr⟩, rest, q, hitems, hpop, rfl⟩ := (s.flipqs j).pop_cases
      · rw [hpop]
        exact .kept hpc
      · rw [hpop]
        exact .took hpc alloc addr q hitems
  | setting j alloc =>
    simp only [Ready, TickPc.Ready, hpc] at hready
    simp only [hready.1, if_true]
    cases hres : (allocs alloc).resource with
    | threeD width height =>
      simp only [send_eq]
      exact .showed hpc _ _ _ (.threeD width height hres)
    | blob =>
      obtain ⟨info, hinfo⟩ := Option.isSome_iff_exists.1 (hready.2 hres)
      simp only [hinfo, send_eq]
      exact .showed hpc _ _ _ (.blob info hres)
  | flushing =>
    simp only [send_eq]
    exact .flushed hpc
  | reporting =>
    simp only [Ready, TickPc.Ready, hpc] at hready
    simp only
    rw [if_pos hready]
    exact .reported hpc

/-! ### Entries of the queues -/

theorem QueueInv.push (h : s.QueueInv i) (target : ℕ) (flip : ι × UInt64) :
    (s.push target flip).QueueInv i := by
  by_cases ht : i = target
  · subst ht
    obtain ⟨q, hq, hitems⟩ | ⟨d, rest, q, hq, hpush, hitems⟩ := (s.flipqs i).forcePush_cases flip
    · constructor
      · simp [FlipState.push, hq, hitems, ← h.order]
      · simpa [FlipState.push, hq] using h.full
    · have hfull : (s.flipqs i).items.length = flipQueueLen :=
        ArrayQueue.length_of_forcePush (by rw [hpush])
      constructor
      · simp [FlipState.push, hpush, hitems, ← h.order, hq]
      · intro x n hx
        simp only [FlipState.push, hpush, Function.update_self, hfull, List.mem_append] at hx
        obtain hx | hx := hx
        · exact h.full x n hx
        · simp_all
  · constructor
    · simpa [FlipState.push, ht] using h.order
    · simpa [FlipState.push, ht] using h.full

theorem QueueInv.ticked (h : s.QueueInv i) (hs' : Ticked allocs numScanouts s s') :
    s'.QueueInv i := by
  cases hs' with
  | @took j _ alloc addr q hq =>
    by_cases hj : i = j
    · subst hj
      constructor
      · simp [← h.order, hq]
      · simpa using h.full
    · constructor
      · simpa [hj] using h.order
      · simpa [hj] using h.full
  | _ => exact ⟨h.order, h.full⟩

/-! ### What is shown -/

theorem taken_push (target : ℕ) (flip : ι × UInt64) :
    (s.push target flip).taken i = s.taken i := by
  by_cases ht : i = target
  · subst ht
    cases hr : ((s.flipqs i).forcePush flip).2 <;> simp [taken, FlipState.push, hr]
  · simp [taken, FlipState.push, ht]

theorem ShownInv.push (h : s.ShownInv allocs i) (target : ℕ) (flip : ι × UInt64) :
    (s.push target flip).ShownInv allocs i where
  addr := by rw [taken_push]; exact h.addr
  slot := h.slot
  history rest hrest := by rw [taken_push]; exact h.history rest hrest

theorem ShownInv.pay (h : s.ShownInv allocs i) (paid : List ScanoutEvent)
    (haddr : s'.addrs i = s.addrs i) (htaken : s'.taken i = s.taken i)
    (hslot : i < s'.pc.reached → i < s.pc.reached ∧ s'.scanouts i = s.scanouts i)
    (hevents : s'.events i = s.events i ++ paid)
    (howes : ∀ rest, s'.pc.Owes allocs i (s.addrs i) rest →
      s.pc.Owes allocs i (s.addrs i) (paid ++ rest)) : s'.ShownInv allocs i where
  addr := by rw [haddr, htaken, h.addr]
  slot hlt := by
    obtain ⟨hlt, hslot⟩ := hslot hlt
    rw [hslot, h.slot hlt, haddr]
  history rest hrest := by
    rw [haddr] at hrest
    rw [htaken, hevents, List.append_assoc]
    exact h.history _ (howes rest hrest)

theorem ShownInv.frame (h : s.ShownInv allocs i) (hpc : s.pc.flipping ≠ some i)
    (hpc' : s'.pc.flipping ≠ some i) (hreached : i < s'.pc.reached ↔ i < s.pc.reached)
    (haddr : s'.addrs i = s.addrs i) (hslot : i < s.pc.reached → s'.scanouts i = s.scanouts i)
    (htaken : s'.taken i = s.taken i) (hevents : s'.events i = s.events i) : s'.ShownInv allocs i :=
  h.pay [] haddr htaken (fun hlt => ⟨hreached.1 hlt, hslot (hreached.1 hlt)⟩)
    (by rw [hevents, List.append_nil]) fun _ hrest => hrest.congr hpc hpc' hreached

theorem ShownInv.now (h : s.ShownInv allocs i) (hpc : s.pc = .scanning i) :
    History allocs i (s.taken i) (s.events i) := by
  rw [← List.append_nil (s.events i)]
  refine h.history [] (.nothing ?_ ?_)
  · simp [hpc, TickPc.flipping]
  · simp [hpc, TickPc.reached]

theorem events_append {e : FlipEvent} (h : s'.log = s.log ++ [e]) (i : ℕ) :
    s'.events i = s.events i ++ (e.of i).toList := by
  rw [events, h, List.filterMap_append]
  cases he : e.of i <;> simp [events, he]

section

variable (h : s.ShownInv allocs i)
include h

theorem ShownInv.kept (hpc : s.pc = .scanning i) (hpc' : s'.pc = .scanning (i + 1))
    (haddr : s'.addrs i = s.addrs i) (hslot : s'.scanouts i = some (s.addrs i))
    (htaken : s'.taken i = s.taken i) (hevents : s'.events i = s.events i) :
    s'.ShownInv allocs i where
  addr := by rw [haddr, htaken, h.addr]
  slot _ := by rw [hslot, haddr]
  history rest hrest := by
    rw [hpc'] at hrest
    rw [hrest.of_lt nofun (Nat.lt_succ_self i), htaken, hevents, haddr, h.addr]
    exact .again (h.now hpc)

theorem ShownInv.took {alloc : ι} (hpc : s.pc = .scanning i) (hpc' : s'.pc = .setting i alloc)
    (hslot : s'.scanouts i = some (s'.addrs i))
    (htaken : s'.taken i = s.taken i ++ [(alloc, s'.addrs i)])
    (hevents : s'.events i = s.events i) : s'.ShownInv allocs i where
  addr := by simp [htaken, currentAddr]
  slot _ := hslot
  history rest hrest := by
    rw [hpc'] at hrest
    rw [htaken, hevents]
    cases hrest with
    | nothing hne => exact absurd rfl hne
    | report hne => exact absurd rfl hne
    | flip hshows => exact .flip (h.now hpc) alloc _ _ _ hshows

theorem ShownInv.showed {alloc : ι} {set : FlipCommand} {resource : ℕ} {rect : FlipRect}
    (hpc : s.pc = .setting i alloc)
    (hshows : ShowsAlloc (allocs alloc) i set (.resourceFlush resource rect))
    (hs' : s' = { s with log := s.log ++ [.pushed i set], pc := .flushing i resource rect }) :
    s'.ShownInv allocs i := by
  subst hs'
  refine h.pay [.command set] rfl rfl (fun hlt => ⟨by rwa [hpc], rfl⟩)
    ((events_append rfl i).trans (by simp [FlipEvent.of])) fun rest hrest => ?_
  rw [hpc]
  cases hrest with
  | nothing hne => exact absurd rfl hne
  | report hne => exact absurd rfl hne
  | flush => exact .flip hshows

theorem ShownInv.flushed {resource : ℕ} {rect : FlipRect} (hpc : s.pc = .flushing i resource rect)
    (hs' : s' = { s with
      log := s.log ++ [.pushed i (.resourceFlush resource rect)]
      pc := .scanning (i + 1) }) : s'.ShownInv allocs i := by
  subst hs'
  refine h.pay [.command (.resourceFlush resource rect)] rfl rfl (fun hlt => ⟨by rwa [hpc], rfl⟩)
    ((events_append rfl i).trans (by simp [FlipEvent.of])) fun rest hrest => ?_
  rw [hpc, hrest.of_lt nofun (Nat.lt_succ_self i)]
  exact .flush

theorem ShownInv.beside {j : ℕ} {cmd : FlipCommand} (hj : i ≠ j) (hpc : s.pc.flipping ≠ some i)
    (hpc' : s'.pc.flipping ≠ some i) (hreached : i < s'.pc.reached ↔ i < s.pc.reached)
    (hs' : s' = { s with log := s.log ++ [.pushed j cmd], pc := s'.pc }) :
    s'.ShownInv allocs i := by
  refine h.frame hpc hpc' hreached (by rw [hs']) (fun _ => by rw [hs']) (by rw [hs']; rfl) ?_
  have hlog : s'.log = s.log ++ [.pushed j cmd] := by rw [hs']
  exact (events_append hlog i).trans (by simp [FlipEvent.of, hj.symm])

theorem ShownInv.ticked (hi : i < numScanouts) (hmax : numScanouts ≤ maxScanouts)
    (hs' : Ticked allocs numScanouts s s') :
    s'.ShownInv allocs i := by
  cases hs' with
  | started hpc =>
    have hnot : ¬ i < s.pc.reached := by simp [hpc, TickPc.reached]
    exact h.frame (by simp [hpc, TickPc.flipping]) nofun (iff_of_false (Nat.not_lt_zero i) hnot) rfl
      (fun hlt => absurd hlt hnot) rfl rfl
  | @ended j hpc hj =>
    have hlt : i < s.pc.reached := by rw [hpc]; exact hi.trans_le (hmax.trans hj)
    exact h.frame (by simp [hpc, TickPc.flipping]) nofun (iff_of_true (hi.trans_le hmax) hlt) rfl
      (fun _ => rfl) rfl rfl
  | @skipped j hpc hj =>
    have hij : i < j := hi.trans_le hj
    have hlt : i < s.pc.reached := by rwa [hpc]
    exact h.frame (by simp [hpc, TickPc.flipping]) nofun (iff_of_true (Nat.lt_succ_of_lt hij) hlt)
      rfl (fun _ => rfl) rfl rfl
  | @kept j hpc =>
    by_cases hj : i = j
    · subst hj
      exact h.kept hpc rfl rfl (Function.update_self ..) rfl rfl
    · refine h.frame (by simp [hpc, TickPc.flipping]) nofun ?_ rfl
        (fun _ => Function.update_of_ne hj ..) rfl rfl
      simp only [hpc, TickPc.reached]
      omega
  | @took j hpc alloc addr q hq =>
    by_cases hj : i = j
    · subst hj
      exact h.took hpc rfl (by simp) (by simp [taken]) rfl
    · refine h.frame (by simp [hpc, TickPc.flipping]) ?_ ?_ (Function.update_of_ne hj ..)
        (fun _ => Function.update_of_ne hj ..) (by simp [taken, hj]) rfl
      · simpa [TickPc.flipping] using Ne.symm hj
      · simp only [hpc, TickPc.reached]
        omega
  | @showed j alloc hpc set resource rect hshows =>
    by_cases hj : i = j
    · subst hj
      exact h.showed hpc hshows rfl
    · have hne : some j ≠ some i := by simpa using Ne.symm hj
      exact h.beside hj (by rwa [hpc]) hne (by rw [hpc]; rfl) rfl
  | @flushed j resource rect hpc =>
    by_cases hj : i = j
    · subst hj
      exact h.flushed hpc rfl
    · have hne : some j ≠ some i := by simpa using Ne.symm hj
      exact h.beside hj (by rwa [hpc]) nofun (by rw [hpc]; rfl) rfl
  | reported hpc =>
    have hlt : i < s.pc.reached := by rw [hpc]; exact hi.trans_le hmax
    refine h.pay [.reported (s.addrs i)] rfl rfl (fun hlt => absurd hlt (Nat.not_lt_zero i))
      ((events_append rfl i).trans (by simp [FlipEvent.of, h.slot hlt])) fun rest hrest => ?_
    rw [hrest.of_le nofun (Nat.zero_le i)]
    exact .report (by simp [hpc, TickPc.flipping]) hlt

end

/-! ### The order of the flips -/

/-- What holds of a scanout in every state. -/
structure Inv (allocs : ι → FlipAlloc) (i : ℕ) (s : FlipState ι) : Prop where
  queue : s.QueueInv i
  shown : s.ShownInv allocs i

theorem Inv.init (allocs : ι → FlipAlloc) (i : ℕ) : Inv allocs i (.init : FlipState ι) where
  queue := ⟨rfl, fun x n hx => absurd hx List.not_mem_nil⟩
  shown := {
    addr := rfl
    slot hlt := absurd hlt (Nat.not_lt_zero i)
    history rest hrest := by
      rw [hrest.of_le nofun (Nat.zero_le i)]
      exact .start }

theorem Inv.step {a : FlipAct ι} (h : Inv allocs i s) (hi : i < numScanouts)
    (hmax : numScanouts ≤ maxScanouts) (hready : s.Ready allocs a)
    (hs : s.step allocs numScanouts a = .next s') : Inv allocs i s' := by
  cases a with
  | push target =>
    simp only [FlipState.step] at hs
    split_ifs at hs
    rw [← Outcome.next.inj hs]
    exact ⟨h.queue.push target _, h.shown.push target _⟩
  | controlInterrupt =>
    rw [← Outcome.next.inj hs]
    exact ⟨⟨h.queue.order, h.queue.full⟩, ⟨h.shown.addr, h.shown.slot, h.shown.history⟩⟩
  | tick env =>
    rw [← Outcome.next.inj hs]
    have hticked : Ticked allocs numScanouts s (s.tick allocs numScanouts env) := .tick hready
    exact ⟨h.queue.ticked hticked, h.shown.ticked hi hmax hticked⟩

end FlipState

end VirtioGpu
