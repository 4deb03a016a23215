import VirtioGpu.Adapter.Placement

/-!
# Memory that the device reads and writes

`push_to_device` asserts that a buffer lies in one page, unless it is tagged as `Dma`.  The tag does
not say where the memory comes from.  `submit_command_sync` puts it on every command it is given,
and `QueryBuffer::new` and `Device::query_layout` give it commands in arrays on their stack, which
have no alignment at all.  Commands that `submit_command_virtual` takes out of private data that
user mode has supplied point wherever user mode likes.

`dmaMachine` follows a buffer from where its bytes are written to where it is handed to the
virtqueue.

* `added_contiguous_iff` : everything that is handed to the virtqueue is contiguous exactly if the
  arrays on the stack and the commands of user mode are, as they are handed over.
* `queryBuffer_not_contiguous` : an array that crosses a page boundary.
-/

namespace VirtioGpu

/-! ### Commands for `submit_command_sync` -/

/-- `size_of::<VirglGetResourceLayout>()`. -/
def virglGetResourceLayoutSize : ℕ := 12

/-- `Command::attach_backing_box` for a box of `size` bytes; the command is written to the start of
`dma`, which has to be long enough. -/
def Command.attachBackingBox (size : ℕ) (dma : Slice) : Option Command :=
  let len := attachBackingDmaLen ((size + pageSize - 1) / pageSize)
  if dma.len < len then none else some (.new .mapAperture none 0 (some ⟨dma.addr, len⟩))

def Command.virglGetResourceLayout (dma : Slice) : Option Command :=
  let len := cmdSubmit3DSize + virglGetResourceLayoutSize
  if dma.len < len then none else some (.new .submit none 0 (some ⟨dma.addr, len⟩))

/-- `GpuChannel::submit_command_sync`, up to the wait for the response. -/
def GpuChannel.submitCommandSync {size : ℕ} (env : SubmitEnv) (s : GpuChannel size) (cmd : Command)
    (block : ℕ) : Outcome (Except NtStatus Unit × GpuChannel size) SubmitPanic :=
  if cmd.id = .nop then .panic .nopInBatch
  else match cmd.getDma with
    | none => .next (.error .unsuccessful, s)
    | some dma => .next (s.requestAsync env (.submitCommandSync dma block))

/-- The memory that `Framebuffer::try_new` obtains from `Dma::new` for the command that attaches
`size` bytes of pixels. -/
def framebufferDma (addr : PageAddr) (size : ℕ) : Slice :=
  let attachPages :=
    (attachBackingDmaLen ((size + pageSize - 1) / pageSize) + pageSize - 1) / pageSize
  ⟨addr, attachPages * pageSize⟩

/-- `cmd_data` of `QueryBuffer::new`, at the address where the compiler puts it. -/
def queryBufferData (sp : ℕ) : Slice := ⟨sp, 32 + 16⟩

/-- `cmd_data` of `Device::query_layout`. -/
def queryLayoutData (sp : ℕ) : Slice := ⟨sp, cmdSubmit3DSize + virglGetResourceLayoutSize⟩

/-! ### From the commands to the virtqueue -/

/-- The memory of the driver, and what has been made of it. -/
structure DmaState (size : ℕ) where
  /-- Memory obtained as a DMA buffer from `dxgkrnl`, or from `Dma::new`. -/
  memory : List Slice
  /-- The private data of DMA buffers. -/
  priv : ℕ → PrivateMemory
  channel : GpuChannel size
  /-- The requests in the cursor channel. -/
  cursor : List (Buffer cursorCommandSize cursorResponseSize)
  /-- The arrays on the stack that were queued, and the commands user mode made up. -/
  foreign : List Slice
  /-- The input and the output ranges handed to `VirtQueue::add`. -/
  added : List (Slice × Slice)

/-- What brings a buffer closer to the virtqueue. -/
inductive DmaAct (size : ℕ) where
  /-- `Device::render`; `body` are the bytes of the vectors in the private data. -/
  | render (i : ℕ) (env : RenderEnv) (fence : FenceTracker) (b : UserBuffer) (body : List UInt8)
  | present (i : ℕ) (args : PresentArgs) (fence : FenceTracker) (body : List UInt8)
  /-- `build_paging_buffer`, with `pDmaBuffer` at `addr`. -/
  | buildPagingBuffer (i addr : ℕ) (call : PagingCall) (body : List UInt8)
  /-- `Adapter::submit_command`; the private data is a null pointer or one of those above. -/
  | submit (i : Option ℕ) (env : SubmitEnv) (args : SubmitArgs)
  /-- `Adapter::submit_command_virtual`, with `umd` from user mode before the private data, which
  then reads as `v`. -/
  | submitVirtual (i : Option ℕ) (umd : List UInt8) (v : CommandDmaPrivate) (env : SubmitEnv)
      (args : VirtualArgs)
  /-- The command of `Framebuffer::try_new`, for `pixels` bytes. -/
  | framebuffer (addr : PageAddr) (pixels : ℕ) (env : SubmitEnv) (block : ℕ)
  /-- The command of `QueryBuffer::new`. -/
  | queryBuffer (sp : ℕ) (env : SubmitEnv) (block : ℕ)
  /-- The command of `Device::query_layout`. -/
  | queryLayout (sp : ℕ) (env : SubmitEnv) (block : ℕ)
  /-- Any other request for the control queue. -/
  | call (c : ControlCall) (h : c.dma = none) (env : SubmitEnv)
  | cursorCall (c : CursorCall) (alloc : Allocs)
  /-- `push_to_device` of a request from the control channel, into slot `i`. -/
  | pushControl (pick : ℕ) (q : Queue size maxCommandSize maxResponseSize) (i : Fin size)
  /-- `push_to_device` of a request from the cursor channel. -/
  | pushCursor (pick : ℕ) (q : Queue size cursorCommandSize cursorResponseSize) (i : Fin size)

/-- How an action may panic. -/
inductive DmaPanic where
  | render (stop : RenderStop)
  | paging (p : PagingPanic)
  | submit (p : SubmitPanic)
  /-- `&mut dma[..]` -/
  | sliceIndex
  /-- "multi-page non-dma virtio buffers are not yet supported" -/
  | multiPage

/-- The private data of a virtual submission: `umd` comes first. -/
def PrivateMemory.supply (m : PrivateMemory) (umd : List UInt8) (v : CommandDmaPrivate) :
    PrivateMemory :=
  if umd = [] then m else m.userWrite umd v

/-- The input and the output range of a request in slot `i`. -/
def Buffer.ranges {maxIn maxOut : ℕ} (env : QueueEnv maxIn maxOut) (i : ℕ)
    (b : Buffer maxIn maxOut) : Slice × Slice :=
  (b.input.slice env.inputs i, b.output.slice env.outputs i)

/-- `push_to_device` of request number `pick`: the ranges that get to `VirtQueue::add`. -/
def handOver {size maxIn maxOut : ℕ} (env : QueueEnv maxIn maxOut)
    (chan : List (Buffer maxIn maxOut)) (pick : ℕ) (q : Queue size maxIn maxOut) (i : Fin size) :
    Outcome (Slice × Slice) DmaPanic :=
  match chan[pick]? with
  | none => .stuck
  | some b => match q.pushToDevice env i b with
    | .panic .multiPage => .panic .multiPage
    | _ => .next (b.ranges env i)

namespace DmaState

variable {size : ℕ}

variable (s : DmaState size)

/-- DMA memory is obtained. -/
def obtain (dma : Slice) : DmaState size :=
  { s with memory := dma :: s.memory }

/-- Memory that was not obtained for DMA is tagged all the same. -/
def addForeign (rs : List Slice) : DmaState size :=
  { s with foreign := s.foreign ++ rs }

/-- A `CommandDmaPrivate` is written to the private data. -/
def write (i : ℕ) (body : List UInt8) (v : CommandDmaPrivate) : DmaState size :=
  { s with priv := Function.update s.priv i ((s.priv i).kernelWrite body v) }

/-- The private data after a submission. -/
def leave (i : Option ℕ) (m : Option PrivateMemory) : DmaState size :=
  match i, m with
  | some i, some m => { s with priv := Function.update s.priv i m }
  | _, _ => s

/-- A command is submitted by `submit_command_sync`. -/
def sync (env : SubmitEnv) (block : ℕ) (cmd : Option Command) : Outcome (DmaState size) DmaPanic :=
  match cmd with
  | none => .panic .sliceIndex
  | some cmd => match s.channel.submitCommandSync env cmd block with
    | .next r => .next { s with channel := r.2 }
    | .stuck => .stuck
    | .panic p => .panic (.submit p)

/-- The commands of user mode that a virtual submission has taken. -/
def made (umd : List UInt8) (args : VirtualArgs) : List Slice :=
  if umd = [] then []
  else match args.takes with
    | some v => v.commands.filterMap Command.dma
    | none => []

/-- Request number `pick` leaves the control channel. -/
def takeControl (pick : ℕ) : GpuChannel size :=
  { s.channel with
    control := { s.channel.control with chan := s.channel.control.chan.eraseIdx pick } }

def step (controlEnv : QueueEnv maxCommandSize maxResponseSize)
    (cursorEnv : QueueEnv cursorCommandSize cursorResponseSize) (s : DmaState size) :
    DmaAct size → Outcome (DmaState size) DmaPanic
  | .render i env fence b body =>
    let s := s.obtain env.dma
    match (env.render fence b).result with
    | .ok r => .next (s.write i body r.1)
    | .error (.status _) => .next s
    | .error stop => .panic (.render stop)
  | .present i args fence body =>
    let s := s.obtain args.dma
    match (args.present fence).result with
    | .ok (some v) => .next (s.write i body v)
    | .ok none | .error (.status _) => .next s
    | .error stop => .panic (.render stop)
  | .buildPagingBuffer i addr call body =>
    match (s.priv i).buildPagingBuffer addr call body with
    | .next r => .next ((s.obtain ⟨addr, call.dmaSize⟩).leave (some i) (some r.2))
    | .stuck => .stuck
    | .panic p => .panic (.paging p)
  | .submit i env args =>
    match Adapter.submitCommand env s.channel { args with privateData := i.map s.priv } with
    | .next r => .next ({ s with channel := r.1.2 }.leave i r.2)
    | .stuck => .stuck
    | .panic p => .panic (.submit p)
  | .submitVirtual i umd v env args =>
    if args.umdSize ≠ umd.length then .stuck
    else
      let args := { args with privateData := i.map fun i => (s.priv i).supply umd v }
      match Adapter.submitCommandVirtual env s.channel args with
      | .next r => .next ({ s.addForeign (made umd args) with channel := r.1.2 }.leave i r.2)
      | .stuck => .stuck
      | .panic p => .panic (.submit p)
  | .framebuffer addr pixels env block =>
    let dma := framebufferDma addr pixels
    (s.obtain dma).sync env block (Command.attachBackingBox pixels dma)
  | .queryBuffer sp env block =>
    let data := queryBufferData sp
    (s.addForeign [data]).sync env block (Command.attachBackingBox pageSize data)
  | .queryLayout sp env block =>
    let data := queryLayoutData sp
    (s.addForeign [data]).sync env block (Command.virglGetResourceLayout data)
  | .call c _ env => .next { s with channel := (s.channel.requestAsync env c).2 }
  | .cursorCall c alloc => match c.buffer alloc with
    | .ok b => .next { s with cursor := s.cursor ++ [b] }
    | .error _ => .next s
  | .pushControl pick q i => (handOver controlEnv s.channel.control.chan pick q i).bind fun r =>
      .next { s with channel := s.takeControl pick, added := s.added ++ [r] }
  | .pushCursor pick q i => (handOver cursorEnv s.cursor pick q i).bind fun r =>
      .next { s with cursor := s.cursor.eraseIdx pick, added := s.added ++ [r] }

/-- Everything that was handed to the virtqueue is contiguous. -/
def AllContiguous : Prop :=
  ∀ r ∈ s.added, r.1.Contiguous s.memory ∧ r.2.Contiguous s.memory

/-- An array on the stack, or a command of user mode, is contiguous when it is handed over. -/
def Spared : DmaAct size → Prop
  | .pushControl pick _ _ => ∀ b r, s.channel.control.chan[pick]? = some b → b.input = .dma r →
      r ∈ s.foreign → r.Contiguous s.memory
  | _ => True

/-- Nothing has happened yet; private data has no tag. -/
def init (channel : GpuChannel size)
    (priv : ℕ → { m : PrivateMemory // m.tag ≠ commandDmaPrivateTag }) : DmaState size where
  memory := []
  priv i := priv i
  channel := { channel with control := { channel.control with chan := [] } }
  cursor := []
  foreign := []
  added := []

end DmaState

/-- The driver, as far as buffers for the device are concerned. -/
def dmaMachine {size : ℕ} (controlEnv : QueueEnv maxCommandSize maxResponseSize)
    (cursorEnv : QueueEnv cursorCommandSize cursorResponseSize) :
    Machine (DmaState size) (DmaAct size) DmaPanic where
  step := DmaState.step controlEnv cursorEnv

/-! ### One action -/

section HandOver

variable {size maxIn maxOut : ℕ} {env : QueueEnv maxIn maxOut} {chan : List (Buffer maxIn maxOut)}
  {pick : ℕ} {q : Queue size maxIn maxOut} {i : Fin size}

theorem handOver_eq_next {r : Slice × Slice} (h : handOver env chan pick q i = .next r) :
    ∃ b, chan[pick]? = some b ∧ b.Sound env.inputs env.outputs i ∧ r = b.ranges env i := by
  unfold handOver at h
  split at h
  · cases h
  · rename_i b hb
    refine ⟨b, hb, ?_⟩
    split at h
    · cases h
    · rename_i hpush
      cases h
      refine ⟨?_, rfl⟩
      by_contra hsound
      exact hpush (by simp [Queue.pushToDevice, hsound])

theorem contiguous_ranges {b : Buffer maxIn maxOut} {j : ℕ} {memory : List Slice}
    (hdma : b.DmaInput (fun r => r.Contiguous memory)) (hs : b.Sound env.inputs env.outputs j) :
    (b.ranges env j).1.Contiguous memory ∧ (b.ranges env j).2.Contiguous memory := by
  constructor
  · cases hb : b.input with
    | dma r =>
      have hr := hdma.1 r hb
      simpa [Buffer.ranges, hb, MaybeInlineBuffer.slice] using hr
    | inline len data hlen hle | boxed box =>
      refine .inl (hs.1.resolve_left ?_)
      simp [hb, MaybeInlineBuffer.isDma]
  · refine .inl (hs.2.resolve_left ?_)
    simp [hdma.2]

end HandOver

namespace DmaState

variable {size : ℕ} {controlEnv : QueueEnv maxCommandSize maxResponseSize}
  {cursorEnv : QueueEnv cursorCommandSize cursorResponseSize} {s s' : DmaState size}
  {env : SubmitEnv} {cmd : Command} {body : List UInt8} {r : Slice} {a : DmaAct size} {i : Option ℕ}
  {block : ℕ}

/-- The range is in DMA memory, or is known not to be. -/
def Known (s : DmaState size) (r : Slice) : Prop := r ∈ s.foreign ∨ ∃ m ∈ s.memory, r.Inside m

/-- Commands in private data are in DMA memory, and so is what is tagged as `Dma`, with known
exceptions. -/
structure Inv (s : DmaState size) : Prop where
  priv : ∀ i, (s.priv i).InMemory s.memory
  control : ∀ b ∈ s.channel.control.chan, b.DmaInput s.Known
  cursor : ∀ b ∈ s.cursor, b.DmaInput fun _ => False

theorem inv_init (channel : GpuChannel size)
    (priv : ℕ → { m : PrivateMemory // m.tag ≠ commandDmaPrivateTag }) :
    (init channel priv).Inv where
  priv i := PrivateMemory.inMemory_of_ne (priv i).2
  control b hb := by cases hb
  cursor b hb := by cases hb

theorem Inv.obtain (hs : s.Inv) (dma : Slice) : (s.obtain dma).Inv where
  priv i := (hs.priv i).mono (List.subset_cons_self dma s.memory)
  control b hb := by
    refine (hs.control b hb).mono fun r hr => ?_
    rcases hr with hforeign | ⟨m, hm, hin⟩
    · exact .inl hforeign
    · exact .inr ⟨m, .tail _ hm, hin⟩
  cursor := hs.cursor

theorem Inv.addForeign (hs : s.Inv) (rs : List Slice) : (s.addForeign rs).Inv where
  priv := hs.priv
  control b hb := by
    refine (hs.control b hb).mono fun r hr => ?_
    rcases hr with hforeign | hmem
    · exact .inl (List.mem_append_left rs hforeign)
    · exact .inr hmem
  cursor := hs.cursor

theorem Inv.leave (hs : s.Inv) (i : Option ℕ) {m : Option PrivateMemory}
    (hm : ∀ m', m = some m' → m'.InMemory s.memory) : (s.leave i m).Inv := by
  cases i with
  | none => exact hs
  | some =>
    cases m with
    | none => exact hs
    | some m =>
      refine ⟨?_, hs.control, hs.cursor⟩
      refine (Function.forall_update_iff s.priv fun _ x => x.InMemory s.memory).2 ⟨hm m rfl, ?_⟩
      exact fun j _ => hs.priv j

theorem Inv.write (hs : s.Inv) (i : ℕ) (body : List UInt8) {v : CommandDmaPrivate}
    (hv : ∀ cmd ∈ v.commands, cmd.InMemory s.memory) : (s.write i body v).Inv := by
  refine hs.leave (some i) (m := some ((s.priv i).kernelWrite body v)) fun m' hm' => ?_
  cases hm'
  exact PrivateMemory.inMemory_kernelWrite body hv

theorem Inv.queue (hs : s.Inv) {channel : GpuChannel size}
    (h : GpuChannel.Queues s.Known s.channel channel) : Inv { s with channel := channel } := by
  obtain ⟨bs, hchan, hbs⟩ := h
  refine ⟨hs.priv, fun b hb => ?_, hs.cursor⟩
  rw [hchan] at hb
  rcases List.mem_append.1 hb with hb | hb
  · exact hs.control b hb
  · exact hbs b hb

/-- Nothing is handed over, and no memory is given back. -/
structure Frame (s s' : DmaState size) : Prop where
  memory : s.memory ⊆ s'.memory
  added : s'.added = s.added

theorem frame_obtain (s : DmaState size) (dma : Slice) : Frame s (s.obtain dma) :=
  ⟨List.subset_cons_self dma s.memory, rfl⟩

theorem frame_of_eq (hmemory : s'.memory = s.memory) (hadded : s'.added = s.added) :
    Frame s s' :=
  ⟨hmemory ▸ List.Subset.refl _, hadded⟩

theorem Frame.leave (h : Frame s s') (i : Option ℕ) (m : Option PrivateMemory) :
    Frame s (s'.leave i m) := by
  unfold DmaState.leave
  split
  · exact ⟨h.memory, h.added⟩
  · exact h

theorem queues_submitCommandSync {ch : GpuChannel size} {r : Except NtStatus Unit × GpuChannel size}
    {P : Slice → Prop} (hP : ∀ r, cmd.dma = some r → P r)
    (h : ch.submitCommandSync env cmd block = .next r) :
    GpuChannel.Queues P ch r.2 := by
  unfold GpuChannel.submitCommandSync at h
  split_ifs at h
  split at h
  · cases h
    exact GpuChannel.queues_of_eq rfl
  · rename_i dma hdma
    cases h
    refine GpuChannel.queues_requestAsync fun r hr => ?_
    cases hr
    exact hP _ (GpuChannel.dma_of_getDma hdma)

theorem Inv.sync (hs : s.Inv) {cmd : Option Command}
    (hcmd : ∀ c r, cmd = some c → c.dma = some r → s.Known r)
    (h : s.sync env block cmd = .next s') : s'.Inv ∧ Frame s s' := by
  unfold DmaState.sync at h
  split at h
  · cases h
  · rename_i c
    split at h
    · rename_i r hsync
      cases h
      exact ⟨hs.queue (queues_submitCommandSync (fun r hr => hcmd c r rfl hr) hsync),
        List.Subset.refl _, rfl⟩
    · cases h
    · cases h

/-- What an action comes to: it hands nothing over, or it is a `push_to_device`. -/
inductive StepCase (controlEnv : QueueEnv maxCommandSize maxResponseSize)
    (cursorEnv : QueueEnv cursorCommandSize cursorResponseSize) (s s' : DmaState size) :
    DmaAct size → Prop
  | frame {a : DmaAct size} (hspared : s.Spared a) (hframe : Frame s s') :
      StepCase controlEnv cursorEnv s s' a
  | control {pick : ℕ} {q : Queue size maxCommandSize maxResponseSize} {i : Fin size}
      (b : Buffer maxCommandSize maxResponseSize) (hb : s.channel.control.chan[pick]? = some b)
      (hsound : b.Sound controlEnv.inputs controlEnv.outputs i) (hmemory : s'.memory = s.memory)
      (hadded : s'.added = s.added ++ [b.ranges controlEnv i]) :
      StepCase controlEnv cursorEnv s s' (.pushControl pick q i)
  | cursor {pick : ℕ} {q : Queue size cursorCommandSize cursorResponseSize} {i : Fin size}
      (b : Buffer cursorCommandSize cursorResponseSize) (hb : s.cursor[pick]? = some b)
      (hsound : b.Sound cursorEnv.inputs cursorEnv.outputs i) (hmemory : s'.memory = s.memory)
      (hadded : s'.added = s.added ++ [b.ranges cursorEnv i]) :
      StepCase controlEnv cursorEnv s s' (.pushCursor pick q i)

theorem Inv.render (hs : s.Inv) {i : ℕ} {env : RenderEnv} {fence : FenceTracker} {b : UserBuffer}
    (h : s.step controlEnv cursorEnv (.render i env fence b body) = .next s') :
    s'.Inv ∧ Frame s s' := by
  have hs' := hs.obtain env.dma
  simp only [step] at h
  split at h
  · rename_i r hr
    cases h
    refine ⟨hs'.write i body fun cmd hcmd => ?_, (frame_obtain s env.dma).memory, rfl⟩
    exact (RenderEnv.inMemory_render hr cmd hcmd).mono (by simp [DmaState.obtain])
  · cases h
    exact ⟨hs', frame_obtain s env.dma⟩
  · cases h

theorem Inv.present (hs : s.Inv) {i : ℕ} {args : PresentArgs} {fence : FenceTracker}
    (h : s.step controlEnv cursorEnv (.present i args fence body) = .next s') :
    s'.Inv ∧ Frame s s' := by
  have hs' := hs.obtain args.dma
  simp only [step] at h
  split at h
  · rename_i v hv
    cases h
    refine ⟨hs'.write i body fun cmd hcmd => ?_, (frame_obtain s args.dma).memory, rfl⟩
    exact (PresentArgs.inMemory_present hv cmd hcmd).mono (by simp [DmaState.obtain])
  · cases h
    exact ⟨hs', frame_obtain s args.dma⟩
  · cases h
    exact ⟨hs', frame_obtain s args.dma⟩
  · cases h

theorem Inv.buildPagingBuffer (hs : s.Inv) {i addr : ℕ} {call : PagingCall}
    (h : s.step controlEnv cursorEnv (.buildPagingBuffer i addr call body) = .next s') :
    s'.Inv ∧ Frame s s' := by
  simp only [step] at h
  split at h
  · rename_i r hr
    cases h
    refine ⟨(hs.obtain _).leave (some i) fun m' hm' => ?_, (frame_obtain s _).leave _ _⟩
    cases hm'
    exact (hs.priv i).buildPagingBuffer hr
  · cases h
  · cases h

theorem Inv.submit (hs : s.Inv) {args : SubmitArgs}
    (h : s.step controlEnv cursorEnv (.submit i env args) = .next s') : s'.Inv ∧ Frame s s' := by
  simp only [step] at h
  split at h
  · rename_i r hr
    cases h
    have hin : ∀ m, i.map s.priv = some m → m.InMemory s.memory := by
      intro m hm
      obtain ⟨j, -, rfl⟩ := Option.map_eq_some_iff.1 hm
      exact hs.priv j
    obtain ⟨hqueues, hleft⟩ := Adapter.queues_submitCommand (P := s.Known)
      (fun m hm htag cmd hcmd r hr => .inr (hin m hm htag cmd hcmd r hr)) hr
    refine ⟨(hs.queue hqueues).leave i fun m' hm' => ?_, Frame.leave ?_ i r.2⟩
    · obtain ⟨m, hm, rfl | rfl⟩ := hleft m' hm'
      · exact PrivateMemory.inMemory_of_ne (reads_taken m)
      · exact hin m' hm
    · exact frame_of_eq rfl rfl
  · cases h
  · cases h

/-- Commands that user mode makes up are noted; any other that is taken out of the private data is
in DMA memory. -/
theorem known_of_takes (hs : s.Inv) {umd : List UInt8} {u v : CommandDmaPrivate}
    {args : VirtualArgs} (hargs : args.privateData = i.map fun i => (s.priv i).supply umd u)
    (htakes : args.takes = some v) (hcmd : cmd ∈ v.commands) (hr : cmd.dma = some r) :
    (s.addForeign (made umd args)).Known r := by
  by_cases humd : umd = []
  · cases i with
    | none => simp [VirtualArgs.takes, VirtualArgs.work, hargs] at htakes
    | some i =>
      have hm : args.privateData = some (s.priv i) := by
        simp [hargs, PrivateMemory.supply, humd]
      obtain ⟨-, htag, rfl⟩ := (VirtualArgs.takes_eq_some_iff hm).1 htakes
      exact .inr (hs.priv i htag cmd hcmd r hr)
  · refine .inl (List.mem_append_right _ ?_)
    simp only [made, if_neg humd, htakes]
    exact List.mem_filterMap.2 ⟨cmd, hcmd, hr⟩

theorem Inv.submitVirtual (hs : s.Inv) {umd : List UInt8} {v : CommandDmaPrivate}
    {args : VirtualArgs}
    (h : s.step controlEnv cursorEnv (.submitVirtual i umd v env args) = .next s') :
    s'.Inv ∧ Frame s s' := by
  simp only [step] at h
  split_ifs at h
  split at h
  · rename_i r hr
    cases h
    have hs' := hs.addForeign (made umd { args with
      privateData := i.map fun i => (s.priv i).supply umd v })
    obtain ⟨hqueues, hleft⟩ := Adapter.queues_submitCommandVirtual
      (fun w hw cmd hcmd r hr => known_of_takes hs rfl hw hcmd hr) hr
    refine ⟨(hs'.queue hqueues).leave i fun m' hm' => ?_, Frame.leave ?_ i r.2⟩
    · obtain ⟨m, -, rfl | ⟨rfl, htag⟩⟩ := hleft m' hm'
      · exact PrivateMemory.inMemory_of_ne (reads_taken m)
      · exact PrivateMemory.inMemory_of_ne htag
    · exact frame_of_eq rfl rfl
  · cases h
  · cases h

theorem inside_framebufferDma {addr : PageAddr} {pixels : ℕ}
    (hcmd : Command.attachBackingBox pixels (framebufferDma addr pixels) = some cmd)
    (hr : cmd.dma = some r) : r.Inside (framebufferDma addr pixels) := by
  simp only [Command.attachBackingBox] at hcmd
  split_ifs at hcmd with hroom
  cases hcmd
  cases hr
  simp only [Slice.Inside]
  omega

theorem dma_queryBuffer {sp : ℕ}
    (hcmd : Command.attachBackingBox pageSize (queryBufferData sp) = some cmd)
    (hr : cmd.dma = some r) : r = queryBufferData sp := by
  cases hcmd
  cases hr
  rfl

theorem dma_queryLayout {sp : ℕ}
    (hcmd : Command.virglGetResourceLayout (queryLayoutData sp) = some cmd)
    (hr : cmd.dma = some r) : r = queryLayoutData sp := by
  cases hcmd
  cases hr
  rfl

theorem Inv.sync_stack (hs : s.Inv) {cmd : Option Command} {data : Slice}
    (hcmd : ∀ c r, cmd = some c → c.dma = some r → r = data)
    (h : (s.addForeign [data]).sync env block cmd = .next s') : s'.Inv ∧ Frame s s' := by
  have hknown : ∀ c r, cmd = some c → c.dma = some r → (s.addForeign [data]).Known r := by
    intro c r hc hr
    rw [hcmd c r hc hr]
    exact .inl (List.mem_append_right _ (List.mem_singleton_self data))
  obtain ⟨hinv, hframe⟩ := (hs.addForeign [data]).sync hknown h
  exact ⟨hinv, hframe.memory, hframe.added⟩

theorem Inv.step (hs : s.Inv) (h : s.step controlEnv cursorEnv a = .next s') :
    s'.Inv ∧ StepCase controlEnv cursorEnv s s' a := by
  cases a with
  | render => exact (hs.render h).imp_right (.frame trivial)
  | present => exact (hs.present h).imp_right (.frame trivial)
  | buildPagingBuffer => exact (hs.buildPagingBuffer h).imp_right (.frame trivial)
  | submit => exact (hs.submit h).imp_right (.frame trivial)
  | submitVirtual => exact (hs.submitVirtual h).imp_right (.frame trivial)
  | framebuffer =>
    obtain ⟨hinv, hframe⟩ := (hs.obtain _).sync (fun c r hc hr =>
      .inr ⟨_, List.mem_cons_self, inside_framebufferDma hc hr⟩) h
    exact ⟨hinv, .frame trivial ⟨fun r hr => hframe.memory (.tail _ hr), hframe.added⟩⟩
  | queryBuffer =>
    exact (hs.sync_stack (fun c r => dma_queryBuffer) h).imp_right (.frame trivial)
  | queryLayout =>
    exact (hs.sync_stack (fun c r => dma_queryLayout) h).imp_right (.frame trivial)
  | call c hc =>
    cases h
    refine ⟨hs.queue (GpuChannel.queues_requestAsync fun r hr => ?_), .frame trivial ?_⟩
    · rw [hc] at hr
      cases hr
    · exact frame_of_eq rfl rfl
  | cursorCall c alloc =>
    simp only [DmaState.step] at h
    split at h
    · rename_i b hb
      cases h
      refine ⟨⟨hs.priv, hs.control, fun b' hb' => ?_⟩, .frame trivial (frame_of_eq rfl rfl)⟩
      rcases List.mem_append.1 hb' with hb' | hb'
      · exact hs.cursor b' hb'
      · rw [List.mem_singleton.1 hb']
        exact CursorCall.dmaInput_buffer hb
    · cases h
      exact ⟨hs, .frame trivial (frame_of_eq rfl rfl)⟩
  | pushControl =>
    obtain ⟨r, hover, h⟩ := Outcome.bind_eq_next.1 h
    cases h
    obtain ⟨b, hb, hsound, rfl⟩ := handOver_eq_next hover
    refine ⟨⟨hs.priv, fun b' hb' => ?_, hs.cursor⟩, .control b hb hsound rfl rfl⟩
    exact hs.control b' (List.mem_of_mem_eraseIdx hb')
  | pushCursor =>
    obtain ⟨r, hover, h⟩ := Outcome.bind_eq_next.1 h
    cases h
    obtain ⟨b, hb, hsound, rfl⟩ := handOver_eq_next hover
    refine ⟨⟨hs.priv, hs.control, fun b' hb' => ?_⟩, .cursor b hb hsound rfl rfl⟩
    exact hs.cursor b' (List.mem_of_mem_eraseIdx hb')

/-- What is handed over is contiguous if nothing foreign is handed over that is not. -/
theorem allContiguous_append (h : s.AllContiguous) {r : Slice × Slice}
    (hmemory : s'.memory = s.memory) (hadded : s'.added = s.added ++ [r])
    (hr : r.1.Contiguous s.memory ∧ r.2.Contiguous s.memory) : s'.AllContiguous := by
  unfold AllContiguous
  rw [hmemory, hadded]
  intro x hx
  rcases List.mem_append.1 hx with hx | hx
  · exact h x hx
  · rw [List.mem_singleton.1 hx]
    exact hr

theorem allContiguous_step (hs : s.Inv) (h : s.AllContiguous)
    (hcase : StepCase controlEnv cursorEnv s s' a) (hspared : s.Spared a) :
    s'.AllContiguous := by
  cases hcase with
  | frame _ hframe =>
    intro r hr
    rw [hframe.added] at hr
    exact ⟨(h r hr).1.mono hframe.memory, (h r hr).2.mono hframe.memory⟩
  | control b hb hsound hmemory hadded =>
    refine allContiguous_append h hmemory hadded (contiguous_ranges ⟨fun r hr => ?_, ?_⟩ hsound)
    · rcases (hs.control b (List.mem_of_getElem? hb)).1 r hr with hforeign | hin
      · exact hspared b r hb hr hforeign
      · exact .inr hin
    · exact (hs.control b (List.mem_of_getElem? hb)).2
  | cursor b hb hsound hmemory hadded =>
    refine allContiguous_append h hmemory hadded (contiguous_ranges ?_ hsound)
    exact (hs.cursor b (List.mem_of_getElem? hb)).mono fun r hr => hr.elim

theorem not_allContiguous_step (hcase : StepCase controlEnv cursorEnv s s' a)
    (hspared : ¬ s.Spared a) : ¬ s'.AllContiguous := by
  intro h
  refine hspared ?_
  cases hcase with
  | frame hspared => exact hspared
  | cursor => trivial
  | control b hb hsound hmemory hadded =>
    intro b' r hb' hr _
    obtain rfl : b = b' := Option.some.inj (hb.symm.trans hb')
    have hadd := (h _ (by rw [hadded]; exact List.mem_append_right _ (List.mem_singleton_self _))).1
    rw [hmemory] at hadd
    simpa [Buffer.ranges, hr, MaybeInlineBuffer.slice] using hadd

end DmaState

/-- **When the device gets what the driver means.**  All ranges that were ever handed to the
virtqueue are contiguous exactly if the arrays on the stack and the commands that user mode made up
are, as far as they are handed over. -/
theorem added_contiguous_iff {size : ℕ} {controlEnv : QueueEnv maxCommandSize maxResponseSize}
    {cursorEnv : QueueEnv cursorCommandSize cursorResponseSize} (channel : GpuChannel size)
    (priv : ℕ → { m : PrivateMemory // m.tag ≠ commandDmaPrivateTag }) {acts : List (DmaAct size)}
    {t : DmaState size}
    (hrun : (dmaMachine controlEnv cursorEnv).run (.init channel priv) acts = some t) :
    (dmaMachine controlEnv cursorEnv).Always DmaState.AllContiguous (.init channel priv) acts ↔
      (dmaMachine controlEnv cursorEnv).Meets DmaState.Spared (.init channel priv) acts := by
  refine Machine.always_iff_meets (I := fun s => s.Inv ∧ s.AllContiguous) ?_ (fun s hs => hs.2) ?_
    ⟨DmaState.inv_init channel priv, fun r hr => by cases hr⟩ hrun
  · intro s a s' hs hspared hstep
    obtain ⟨hinv, hcase⟩ := hs.1.step hstep
    exact ⟨hinv, DmaState.allContiguous_step hs.1 hs.2 hcase hspared⟩
  · intro s a s' hs hspared hstep
    exact DmaState.not_allContiguous_step (hs.1.step hstep).2 hspared

/-! ### Runs -/

/-- A control queue with its slots at the start of a page. -/
def pagedControl : QueueEnv maxCommandSize maxResponseSize :=
  ⟨controlInputs, controlOutputs, fun _ => 0⟩

/-- A cursor queue with its slots at the start of a page. -/
def pagedCursor : QueueEnv cursorCommandSize cursorResponseSize :=
  ⟨cursorInputs, cursorOutputs, fun _ => 0⟩

/-- A driver that has done nothing yet. -/
def startedDma : DmaState 256 := .init startedChannel fun _ => ⟨freshMemory, by decide⟩

/-- The next request goes to slot 0 of an empty queue. -/
def pushFirst : DmaAct 256 := .pushControl 0 (.new _ _ (Nat.zero_lt_succ 255) true) 0

/-- A paging operation is submitted, and a layout is queried from an array at `sp`. -/
def unmapThenQuery (sp : ℕ) : List (DmaAct 256) :=
  [.buildPagingBuffer 0 0x5ff0 (pagingCall (.unmapApertureSegment (.alloc true))) [],
    .submit (some 0) startedEnv
      { physicalSubmission none with paging := true, dmaRange := (0, 32) },
    pushFirst, .queryBuffer sp startedEnv 0, pushFirst]

/-- An array at the start of a page is handed over as a whole, like the paging command, which
crosses a page boundary inside its DMA buffer. -/
theorem added_contiguous_iff_aligned :
    (dmaMachine pagedControl pagedCursor).Always DmaState.AllContiguous startedDma
      (unmapThenQuery 4096) := by
  have hrun : ((dmaMachine pagedControl pagedCursor).run startedDma (unmapThenQuery 4096)).map
      (fun s => s.added) = some [(⟨0x5ff0, 32⟩, ⟨8, 24⟩), (⟨4096, 48⟩, ⟨8, 24⟩)] := by
    decide
  obtain ⟨t, ht, -⟩ := Option.map_eq_some_iff.1 hrun
  refine (added_contiguous_iff _ _ ht).2 ⟨trivial, fun s₁ h₁ => ⟨trivial, fun s₂ h₂ => ⟨?_,
    fun s₃ h₃ => ⟨trivial, fun s₄ h₄ => ⟨?_, fun _ _ => trivial⟩⟩⟩⟩⟩
  · cases h₁
    cases h₂
    intro b r hb hr hforeign
    cases hforeign
  · cases h₁
    cases h₂
    cases h₃
    cases h₄
    intro b r hb hr hforeign
    rw [show r = ⟨4096, 48⟩ from List.mem_singleton.1 hforeign]
    exact .inl (by decide)

/-- A page table that maps the first pages to frames of the same number, except for page 2. -/
def scattered (page : ℕ) : ℕ := if page = 2 then 9 else page

/-- **An array on the stack crosses a page boundary.**  The command of `QueryBuffer::new` starts 16
bytes before the end of page 1.  The device reads the other 32 bytes from the frame after that of
page 1, which is not where page 2 is. -/
theorem queryBuffer_not_contiguous :
    ∃ t, (dmaMachine pagedControl pagedCursor).run startedDma (unmapThenQuery 8176) = some t ∧
      ¬ t.AllContiguous ∧ (∀ m ∈ t.memory, m.Physical scattered) ∧
      ∃ r ∈ t.added, ¬ r.1.Physical scattered := by
  have hrun : ((dmaMachine pagedControl pagedCursor).run startedDma (unmapThenQuery 8176)).map
      (fun s => (s.memory, s.added)) =
        some ([⟨0x5ff0, 4096⟩], [(⟨0x5ff0, 32⟩, ⟨8, 24⟩), (⟨8176, 48⟩, ⟨8, 24⟩)]) := by
    decide
  obtain ⟨t, ht, hadded⟩ := Option.map_eq_some_iff.1 hrun
  obtain ⟨hmemory, hadded⟩ := Prod.mk.inj hadded
  have hmem : ((⟨8176, 48⟩, ⟨8, 24⟩) : Slice × Slice) ∈ t.added := by
    rw [hadded]
    decide
  refine ⟨t, ht, fun h => ?_, fun m hm => ?_, _, hmem, fun h => ?_⟩
  · have hcontiguous := (h _ hmem).1
    rw [hmemory] at hcontiguous
    revert hcontiguous
    decide
  · rw [hmemory, List.mem_singleton] at hm
    subst hm
    -- From page 5 on the table is the identity.
    have hsame : ∀ a, 0x5ff0 ≤ a → Slice.physicalAddress scattered a = a := by
      intro a ha
      have hpage : a / pageSize ≠ 2 := by
        have : 0x5ff0 / pageSize ≤ a / pageSize := Nat.div_le_div_right ha
        have hfive : 0x5ff0 / pageSize = 5 := by decide
        omega
      rw [Slice.physicalAddress, scattered, if_neg hpage]
      exact Nat.div_add_mod' a pageSize
    intro k _
    rw [hsame _ (Nat.le_add_right _ _), hsame _ le_rfl]
  · have hbyte := h 16 (by decide)
    revert hbyte
    decide

end VirtioGpu
