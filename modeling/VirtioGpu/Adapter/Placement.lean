import VirtioGpu.Adapter.Paging
import VirtioGpu.Device.Present
import VirtioGpu.Device.Render

/-!
# Where the memory of requests comes from

A descriptor of the virtqueue holds the physical address of the first byte of a buffer, and its
length.  The device then takes the bytes that physically follow, so the buffer has to be contiguous:
it lies in one page, or in memory that is contiguous because it was obtained for DMA, as a DMA
buffer from `dxgkrnl` or from `Dma::new`.

Three functions write commands to a DMA buffer: `Device::render`, `Device::present` and
`build_paging_buffer`.  The commands go to the device by way of the private data of the buffer and
the control channel.

* `Slice.Contiguous.physical` : what the driver takes for contiguous is contiguous for every page
  table that maps the DMA memory to consecutive frames.
* `RenderEnv.inMemory_render`, `PresentArgs.inMemory_present`,
  `PrivateMemory.InMemory.buildPagingBuffer` : the commands lie in the DMA buffer.
* `Adapter.queues_submitCommand`, `Adapter.queues_submitCommandVirtual` : the only ranges that a
  submission tags as `Dma` are those of the commands it takes out of the private data.
-/

namespace VirtioGpu

/-! ### Ranges -/

namespace Slice

/-- The range is a part of `m`. -/
def Inside (r m : Slice) : Prop := m.addr ≤ r.addr ∧ r.addr + r.len ≤ m.addr + m.len
  deriving Decidable

/-- The range lies in one page, or in DMA memory. -/
def Contiguous (memory : List Slice) (r : Slice) : Prop :=
  r.InOnePage ∨ ∃ m ∈ memory, r.Inside m
  deriving Decidable

/-- The physical address of a byte, for a table of page frames. -/
def physicalAddress (frames : ℕ → ℕ) (a : ℕ) : ℕ := frames (a / pageSize) * pageSize + a % pageSize

/-- The bytes of the range follow the first one in physical memory. -/
def Physical (frames : ℕ → ℕ) (r : Slice) : Prop :=
  ∀ k < r.len, physicalAddress frames (r.addr + k) = physicalAddress frames r.addr + k

variable {memory memory' : List Slice} {frames : ℕ → ℕ} {r m : Slice}

theorem Contiguous.mono (h : r.Contiguous memory) (hsub : memory ⊆ memory') :
    r.Contiguous memory' := by
  rcases h with hpage | ⟨m, hm, hr⟩
  · exact .inl hpage
  · exact .inr ⟨m, hsub hm, hr⟩

theorem InOnePage.physical (h : r.InOnePage) : r.Physical frames := by
  intro k hk
  rcases h with hzero | hpage
  · omega
  have hpos : 0 < pageSize := by decide
  -- Any byte of the range is in the page of the first and the last one.
  have hle : r.addr / pageSize ≤ (r.addr + k) / pageSize := Nat.div_le_div_right (by omega)
  have hge : (r.addr + k) / pageSize ≤ (r.addr + r.len - 1) / pageSize :=
    Nat.div_le_div_right (by omega)
  have hsame : (r.addr + k) / pageSize = r.addr / pageSize := by omega
  have hmod := Nat.div_add_mod (r.addr + k) pageSize
  have hmod' := Nat.div_add_mod r.addr pageSize
  rw [hsame] at hmod
  simp only [physicalAddress, hsame]
  omega

theorem Inside.physical (h : r.Inside m) (hm : m.Physical frames) : r.Physical frames := by
  intro k hk
  obtain ⟨hstart, hend⟩ := h
  have hbyte : ∀ j < r.len, physicalAddress frames (r.addr + j) =
      physicalAddress frames m.addr + (r.addr - m.addr) + j := by
    intro j hj
    have := hm (r.addr - m.addr + j) (by omega)
    rw [show m.addr + (r.addr - m.addr + j) = r.addr + j by omega] at this
    omega
  have hfirst := hbyte 0 (by omega)
  rw [Nat.add_zero] at hfirst
  rw [hbyte k hk, hfirst, Nat.add_zero]

/-- **One physical address is enough.**  If DMA memory is mapped to consecutive frames, then the
bytes of a range that lies in one page or in DMA memory follow its first byte. -/
theorem Contiguous.physical (h : r.Contiguous memory) (hmem : ∀ m ∈ memory, m.Physical frames) :
    r.Physical frames := by
  rcases h with hpage | ⟨m, hm, hr⟩
  · exact hpage.physical
  · exact hr.physical (hmem m hm)

end Slice

/-! ### Where commands are written -/

/-- The command is in DMA memory. -/
def Command.InMemory (memory : List Slice) (cmd : Command) : Prop :=
  ∀ r, cmd.dma = some r → ∃ m ∈ memory, r.Inside m

theorem Command.InMemory.mono {memory memory' : List Slice} {cmd : Command}
    (h : cmd.InMemory memory) (hsub : memory ⊆ memory') : cmd.InMemory memory' := by
  intro r hr
  obtain ⟨m, hm, hin⟩ := h r hr
  exact ⟨m, hsub hm, hin⟩

theorem Command.dma_new (id : CommandId) (ring : Option ℕ) (flags : ℕ) (dma : Option Slice) :
    (Command.new id ring flags dma).dma = dma := by
  cases ring <;> rfl

/-- Every command is written to the buffer `dma`. -/
structure DmaWriter.Placed (dma : Slice) (w : DmaWriter) : Prop where
  dma_eq : w.dma = dma
  inMemory : ∀ cmd ∈ w.commands, cmd.InMemory [dma]

namespace DmaWriter

variable {dma : Slice} {w w' : DmaWriter} {b : UserBuffer} {context ring : Option ℕ}

theorem Placed.push {id : CommandId} {bytes : List UInt8} {fence : FenceTracker}
    (hw : w.Placed dma) (h : w.push id ring bytes fence = .ok w') : w'.Placed dma := by
  unfold DmaWriter.push at h
  split_ifs at h with hroom
  cases h
  refine ⟨hw.dma_eq, fun cmd hcmd => ?_⟩
  rcases List.mem_append.1 hcmd with hcmd | hcmd
  · exact hw.inMemory cmd hcmd
  · rw [List.mem_singleton] at hcmd
    intro r hr
    rw [hcmd, Command.dma_new] at hr
    cases hr
    refine ⟨dma, List.mem_singleton_self dma, ?_⟩
    rw [← hw.dma_eq]
    constructor <;> dsimp only <;> omega

theorem Placed.fromTransfer {id : CommandId} {hdrType off : ℕ} (hw : w.Placed dma)
    (h : (w.fromTransfer b context ring id hdrType off).result = .ok w') : w'.Placed dma := by
  unfold DmaWriter.fromTransfer at h
  obtain ⟨-, -, hpush⟩ := Reads.result_bind_eq_ok.1 h
  rw [Reads.result_ofExcept] at hpush
  exact hw.push hpush

theorem Placed.fromItem {item : CommandBodyItem} (hw : w.Placed dma)
    (h : (w.fromItem b context ring item).result = .ok w') : w'.Placed dma := by
  cases item with
  | submit =>
    unfold DmaWriter.fromItem at h
    obtain ⟨w₁, hpush, h⟩ := Reads.result_bind_eq_ok.1 h
    obtain ⟨-, -, h⟩ := Reads.result_bind_eq_ok.1 h
    cases h
    rw [Reads.result_ofExcept] at hpush
    exact hw.push hpush
  | fence => cases h
  | transferToHost off | transferFromHost off => exact hw.fromTransfer h

theorem Placed.fromItems {items : List CommandBodyItem} (hw : w.Placed dma)
    (h : (DmaWriter.fromItems b context ring items w).result = .ok w') : w'.Placed dma := by
  induction items generalizing w with
  | nil =>
    cases h
    exact hw
  | cons item items ih =>
    obtain ⟨w₁, hitem, hitems⟩ := Reads.result_bind_eq_ok.1 h
    exact ih (hw.fromItem hitem) hitems

theorem Placed.encodeSteps (hw : w.Placed dma) (steps : List PresentStep) :
    (encodeSteps steps w).2.Placed dma :=
  encodeSteps_invariant hw fun _ _ _ hw h => hw.push h

end DmaWriter

theorem RenderEnv.inMemory_render {env : RenderEnv} {fence : FenceTracker} {b : UserBuffer}
    {v : CommandDmaPrivate} {w : DmaWriter} (h : (env.render fence b).result = .ok (v, w)) :
    ∀ cmd ∈ v.commands, cmd.InMemory [env.dma] := by
  have hround : ∀ st st' : RenderState, st.writer.Placed env.dma →
      Reads.Round (more b) (env.step b) st st' → st'.writer.Placed env.dma := by
    intro st st' hst hround
    obtain ⟨hdr, body, hencode⟩ := encode_of_round hround
    obtain ⟨context, w, hw, rfl⟩ := encode_eq_ok hencode
    exact hst.fromItems hw
  have hstart : (env.start fence).writer.Placed env.dma := ⟨rfl, fun cmd hcmd => by cases hcmd⟩
  unfold render at h
  by_cases halloc : env.allocations.any Option.isNone = true
  · rw [if_pos halloc] at h
    cases h
  rw [if_neg halloc] at h
  obtain ⟨st, hloop, h⟩ := Reads.result_bind_eq_ok.1 h
  have hlast := Reads.lastState_of_ok _ _ (Reads.result_mapErr_eq_ok.1 hloop)
  have hplaced := Reads.lastState_invariant (I := fun st : RenderState => st.writer.Placed env.dma)
    hround b.len _ hstart
  rw [hlast] at hplaced
  split_ifs at h
  · cases h
  · cases h
  · cases h
    intro cmd hcmd
    simp only [finish] at hcmd
    split_ifs at hcmd
    · rw [List.mem_singleton] at hcmd
      subst hcmd
      exact fun r hr => by cases hr
    · exact hplaced.inMemory cmd hcmd

theorem PresentArgs.inMemory_present {args : PresentArgs} {fence : FenceTracker}
    {v : CommandDmaPrivate} (h : (args.present fence).result = .ok (some v)) :
    ∀ cmd ∈ v.commands, cmd.InMemory [args.dma] := by
  have hencode : ∀ t requests context src dst,
      (args.encode t requests context src dst).result = .ok (some v) →
      ∀ cmd ∈ v.commands, cmd.InMemory [args.dma] := by
    intro t requests context src dst h
    have hempty : (args.emptyWriter t).Placed args.dma := ⟨rfl, fun cmd hcmd => by cases hcmd⟩
    have hplaced := hempty.encodeSteps (args.steps context src dst)
    unfold encode at h
    split at h
    · cases h
    · rename_i w hw
      rw [hw] at hplaced
      split_ifs at h
      cases h
      exact hplaced.inMemory
  unfold present at h
  split at h
  · unfold attachAndEncode at h
    simp only at h
    split at h
    · cases h
    · split at h
      · cases h
      · exact hencode _ _ _ _ _ h
  · cases h
  · cases h

/-! #### Paging buffers -/

namespace PrivateMemory

/-- The private data at the pointer of a call, as that of a paging buffer at `addr`. -/
def paging (m : PrivateMemory) (addr : ℕ) : PagingState :=
  .start addr fun i => if i = 0 ∧ m.tag = commandDmaPrivateTag then some m.value else none

/-- `build_paging_buffer` with `pDmaBuffer` at `addr` and this private data; `body` are the bytes of
the two vectors. -/
def buildPagingBuffer (m : PrivateMemory) (addr : ℕ) (call : PagingCall) (body : List UInt8) :
    Outcome (Except NtStatus Unit × PrivateMemory) PagingPanic :=
  ((m.paging addr).buildPagingBuffer call).bind fun r => .next (r.1, match r.2.blocks 0 with
    | some b => m.kernelWrite body b.toPrivate
    | none => m)

/-- If the private data is a `CommandDmaPrivate`, its commands are in DMA memory. -/
def InMemory (memory : List Slice) (m : PrivateMemory) : Prop :=
  m.tag = commandDmaPrivateTag → ∀ cmd ∈ m.value.commands, cmd.InMemory memory

variable {memory memory' : List Slice} {m : PrivateMemory}

theorem InMemory.mono (h : m.InMemory memory) (hsub : memory ⊆ memory') : m.InMemory memory' :=
  fun htag cmd hcmd => (h htag cmd hcmd).mono hsub

theorem inMemory_kernelWrite {v : CommandDmaPrivate} (body : List UInt8)
    (h : ∀ cmd ∈ v.commands, cmd.InMemory memory) : (m.kernelWrite body v).InMemory memory :=
  fun _ => h

theorem inMemory_of_ne (h : m.tag ≠ commandDmaPrivateTag) : m.InMemory memory :=
  fun htag => absurd htag h

end PrivateMemory

namespace PagingState

variable {s s' : PagingState} {call : PagingCall} {status : Except NtStatus Unit}

theorem push_of_buildPagingBuffer (h : s.buildPagingBuffer call = .next (status, s')) :
    (∀ i, s'.commandsAt i = s.commandsAt i) ∨
      ∃ id len, len < call.dmaSize ∧ s' = s.push id len := by
  have hstep : pagingMachine.step s call = .next s' := by simp [pagingMachine, h]
  cases callCase hstep with
  | none _ _ _ _ _ hcommands => exact .inl hcommands
  | command id len henc =>
    right
    simp only [encodes, Bool.and_eq_true, Bool.not_eq_eq_eq_not, Bool.not_true,
      decide_eq_true_eq] at henc
    obtain ⟨⟨hnull, hsize⟩, henc⟩ := henc
    split at henc
    · rename_i id' len' hcommand
      unfold buildPagingBuffer at h
      rw [if_neg (by simp [hnull]), if_neg (by omega), hcommand] at h
      cases h
      exact ⟨id', len', (len_of_encode hcommand).2, rfl⟩
    · cases henc

end PagingState

namespace PrivateMemory

variable {memory : List Slice} {m m' : PrivateMemory} {addr : ℕ}

theorem commandsAt_paging (hm : m.InMemory memory) :
    ∀ x ∈ (m.paging addr).commandsAt 0, x.2.InMemory memory := by
  intro x hx
  unfold paging PagingState.start PagingState.commandsAt at hx
  by_cases htag : m.tag = commandDmaPrivateTag
  · simp only [htag, and_true, if_true, Option.map_some, List.mem_map] at hx
    obtain ⟨cmd, hcmd, rfl⟩ := hx
    exact hm htag cmd hcmd
  · simp [htag] at hx

theorem InMemory.buildPagingBuffer {call : PagingCall} {body : List UInt8}
    {status : Except NtStatus Unit} (hm : m.InMemory memory)
    (h : m.buildPagingBuffer addr call body = .next (status, m')) :
    m'.InMemory (⟨addr, call.dmaSize⟩ :: memory) := by
  have hold := hm.mono (List.subset_cons_self ⟨addr, call.dmaSize⟩ memory)
  obtain ⟨⟨status', s'⟩, hbuild, hm'⟩ := Outcome.bind_eq_next.1 h
  have hcommands : ∀ x ∈ s'.commandsAt 0, x.2.InMemory (⟨addr, call.dmaSize⟩ :: memory) := by
    rcases PagingState.push_of_buildPagingBuffer hbuild with hsame | ⟨id, len, hlen, rfl⟩
    · rw [hsame]
      exact commandsAt_paging hold
    · intro x hx
      rcases PagingState.mem_commandsAt_push hx with hx | ⟨-, rfl⟩
      · exact commandsAt_paging hold x hx
      · intro r hr
        cases hr
        refine ⟨_, List.mem_cons_self, ?_⟩
        simp only [Slice.Inside, paging, PagingState.start]
        omega
  cases hblock : s'.blocks 0 with
  | none =>
    simp only [hblock] at hm'
    cases hm'
    exact hold
  | some =>
    simp only [hblock] at hm'
    cases hm'
    refine inMemory_kernelWrite body fun cmd hcmd => ?_
    obtain ⟨x, hx, rfl⟩ := List.mem_map.1 hcmd
    exact hcommands x (by simpa [PagingState.commandsAt, hblock] using hx)

end PrivateMemory

/-! ### What is queued -/

/-- `P` holds of the input if it is tagged as `Dma`, and the output is not. -/
def Buffer.DmaInput {maxIn maxOut : ℕ} (P : Slice → Prop) (b : Buffer maxIn maxOut) : Prop :=
  (∀ r, b.input = .dma r → P r) ∧ b.output.isDma = false

/-- The range a call tags as `Dma`. -/
def ControlCall.dma : ControlCall → Option Slice
  | submitCommandSync dma _ | submitCommand dma _ => some dma
  | fixed .. | getCapset .. | contextSubmit3d .. | submitCommandBuffer .. => none

section Built

variable {maxIn maxOut maxInline : ℕ} {P Q : Slice → Prop} {b : Buffer maxIn maxOut}

theorem Buffer.DmaInput.mono (h : b.DmaInput P) (hPQ : ∀ r, P r → Q r) : b.DmaInput Q :=
  ⟨fun r hr => hPQ r (h.1 r hr), h.2⟩

theorem MaybeInlineBuffer.isDma_of_tryFromBytes {alloc : PageAddr} {bytes : List UInt8}
    {x : MaybeInlineBuffer maxInline} (h : tryFromBytes alloc bytes = .ok x) :
    x.isDma = false := by
  unfold tryFromBytes at h
  split_ifs at h <;> cases h <;> rfl

end Built

theorem InputSource.eq_dma {maxInline : ℕ} {alloc : PageAddr} {source : InputSource} {r : Slice}
    (h : source.input alloc = .ok (.dma r : MaybeInlineBuffer maxInline)) : source = .dma r := by
  cases source with
  | bytes => cases MaybeInlineBuffer.isDma_of_tryFromBytes h
  | boxed => cases h
  | dma =>
    cases h
    rfl

theorem ControlCall.dmaInput_buffer {c : ControlCall} {alloc : Allocs}
    {b : Buffer maxCommandSize maxResponseSize} (h : c.buffer alloc = .ok b) :
    b.DmaInput (fun r => c.dma = some r) := by
  obtain ⟨hin, hout, -⟩ := buffer_eq_ok_iff.1 h
  refine ⟨fun r hr => ?_, MaybeInlineBuffer.isDma_of_tryFromBytes hout⟩
  rw [hr] at hin
  have hsource := InputSource.eq_dma hin
  cases c <;> cases hsource <;> rfl

theorem CursorCall.dmaInput_buffer {c : CursorCall} {alloc : Allocs} {P : Slice → Prop}
    {b : Buffer cursorCommandSize cursorResponseSize} (h : c.buffer alloc = .ok b) :
    b.DmaInput P := by
  obtain ⟨cmd⟩ := c
  obtain ⟨hin, hout, -⟩ := buffer_eq_ok_iff.1 h
  refine ⟨fun r hr => ?_, MaybeInlineBuffer.isDma_of_tryFromBytes hout⟩
  rw [hr] at hin
  cases InputSource.eq_dma hin

namespace GpuChannel

variable {size : ℕ} {env : SubmitEnv} {s s' s'' : GpuChannel size} {e : Engine} {f : ℕ}
  {P : Slice → Prop}

/-- Requests were added to the control channel, and `P` holds of what they tag as `Dma`. -/
def Queues (P : Slice → Prop) (s s' : GpuChannel size) : Prop :=
  ∃ bs, s'.control.chan = s.control.chan ++ bs ∧ ∀ b ∈ bs, b.DmaInput P

theorem queues_of_eq (h : s'.control.chan = s.control.chan) : Queues P s s' :=
  ⟨[], by rw [h, List.append_nil], fun b hb => by cases hb⟩

theorem Queues.trans (h : Queues P s s') (h' : Queues P s' s'') : Queues P s s'' := by
  obtain ⟨bs, hchan, hbs⟩ := h
  obtain ⟨bs', hchan', hbs'⟩ := h'
  refine ⟨bs ++ bs', by rw [hchan', hchan, List.append_assoc], fun b hb => ?_⟩
  rcases List.mem_append.1 hb with hb | hb
  · exact hbs b hb
  · exact hbs' b hb

theorem queues_requestAsync {call : ControlCall} (hP : ∀ r, call.dma = some r → P r) :
    Queues P s (s.requestAsync env call).2 := by
  cases hbuf : call.buffer env.alloc with
  | error =>
    rw [requestAsync_of_error hbuf]
    exact queues_of_eq rfl
  | ok b =>
    rw [requestAsync_of_ok hbuf]
    refine ⟨[b], rfl, fun b' hb' => ?_⟩
    rw [List.mem_singleton.1 hb']
    exact (ControlCall.dmaInput_buffer hbuf).mono hP

theorem dma_of_getDma {cmd : Command} {r : Slice} (h : cmd.getDma = some r) :
    cmd.dma = some r := by
  unfold Command.getDma at h
  split_ifs at h
  exact h

theorem queues_submitCommand {cmd : Command} {allocations : Option (List ℕ)}
    (hP : ∀ r, cmd.dma = some r → P r) :
    Queues P s (s.submitCommand env e f cmd allocations).2 := by
  have hrequest : ∀ {dma : Slice} (callback : Callback), cmd.getDma = some dma →
      Queues P s ((s.submit env e f).requestAsync env (.submitCommand dma callback)).2 := by
    intro dma callback hdma
    have hsubmit : Queues P s (s.submit env e f) := queues_of_eq rfl
    refine hsubmit.trans (queues_requestAsync fun r hr => ?_)
    cases hr
    exact hP _ (dma_of_getDma hdma)
  simp only [submitCommand]
  split_ifs
  · exact queues_of_eq rfl
  · split
    · exact queues_of_eq rfl
    · split
      · exact hrequest _ ‹_›
      · exact hrequest _ ‹_›

theorem queues_submitCommandBuffer {ctx : ℕ} {ring : Option ℕ} {data : List UInt8} :
    Queues P s (s.submitCommandBuffer env e f ctx ring data).2 := by
  let t := (submit3DHeader (s.submit env e f).control.fence (some ctx) ring data.length).2
  have hdraw : Queues P s ((s.submit env e f).setFence t) := queues_of_eq rfl
  exact hdraw.trans (queues_requestAsync fun r hr => by cases hr)

theorem queues_pushBatched {batch : ℕ} {cmds : List Command}
    {r : Except NtStatus Unit × GpuChannel size}
    (hP : ∀ cmd ∈ cmds, ∀ r, cmd.dma = some r → P r)
    (h : pushBatched env e f batch cmds s = .next r) : Queues P s r.2 := by
  induction cmds generalizing s with
  | nil =>
    cases h
    exact queues_of_eq rfl
  | cons cmd cmds ih =>
    simp only [pushBatched] at h
    split_ifs at h
    cases hdma : cmd.getDma with
    | none => simp [hdma] at h
    | some dma =>
      obtain ⟨b, hb, -, hinput⟩ :=
        buffer_submitCommand env.alloc dma (.dmaCompletedBatched e f batch)
      simp only [hdma, hb] at h
      have hrest := ih (fun cmd hcmd => hP cmd (.tail _ hcmd)) h
      refine Queues.trans ⟨[b], rfl, fun b' hb' => ?_⟩ hrest
      rw [List.mem_singleton.1 hb']
      refine (ControlCall.dmaInput_buffer hb).mono fun r hr => ?_
      cases hr
      exact hP cmd List.mem_cons_self _ (dma_of_getDma hdma)

theorem queues_submitCommandBatch {cmds : List Command}
    {r : Except NtStatus Unit × GpuChannel size}
    (hP : ∀ cmd ∈ cmds, ∀ r, cmd.dma = some r → P r)
    (h : s.submitCommandBatch env e f cmds = .next r) : Queues P s r.2 := by
  unfold submitCommandBatch at h
  split_ifs at h
  obtain ⟨⟨result, s₁⟩, hpush, h⟩ := Outcome.bind_eq_next.1 h
  have hqueues : Queues P s s₁ := queues_pushBatched (s := s.startBatch env e f) hP hpush
  refine hqueues.trans ?_
  cases result with
  | error =>
    cases h
    exact queues_of_eq rfl
  | ok =>
    cases h
    refine queues_of_eq ?_
    simp only [releaseBatch]
    split_ifs <;> rfl

end GpuChannel

namespace Adapter

variable {size : ℕ} {env : SubmitEnv} {s : GpuChannel size} {e : Engine} {f : ℕ}
  {P : Slice → Prop} {r : Except NtStatus Unit × GpuChannel size}

theorem queues_perform {w : Work} (hP : ∀ cmd ∈ w.list, ∀ r, cmd.dma = some r → P r)
    (h : perform env s e f w = .next r) : GpuChannel.Queues P s r.2 := by
  cases w with
  | nop =>
    rw [← Outcome.next.inj h]
    exact GpuChannel.queues_submitCommand fun r hr => by cases hr
  | user cmd =>
    cases cmd with
    | submit =>
      rw [← Outcome.next.inj h]
      exact GpuChannel.queues_submitCommandBuffer
    | fence =>
      cases h
      refine GpuChannel.queues_of_eq ?_
      simp only [GpuChannel.submitFence]
      split_ifs <;> rfl
  | commands v =>
    simp only [perform, submitTaken] at h
    by_cases hlen : v.commands.length ≤ 1
    · rw [if_pos hlen] at h
      cases h
      refine GpuChannel.queues_submitCommand fun r hr => ?_
      cases hv : v.commands with
      | nil =>
        rw [hv] at hr
        cases hr
      | cons cmd =>
        rw [hv] at hr
        exact hP cmd (by simp [Work.list, hv]) r hr
    · rw [if_neg hlen] at h
      exact GpuChannel.queues_submitCommandBatch hP h

theorem leave_cases (m : PrivateMemory) (w : Work) : leave m w = m.taken ∨ leave m w = m := by
  cases w with
  | commands => exact .inl rfl
  | nop | user cmd => exact .inr rfl

theorem queues_submitCommand {a : SubmitArgs} {o : Option PrivateMemory}
    (hP : ∀ m, a.privateData = some m → m.tag = commandDmaPrivateTag →
      ∀ cmd ∈ m.value.commands, ∀ r, cmd.dma = some r → P r)
    (h : submitCommand env s a = .next (r, o)) :
    GpuChannel.Queues P s r.2 ∧
      ∀ m', o = some m' → ∃ m, a.privateData = some m ∧ (m' = m.taken ∨ m' = m) := by
  unfold submitCommand at h
  cases hm : a.privateData with
  | none =>
    simp only [hm] at h
    cases h
    exact ⟨GpuChannel.queues_of_eq rfl, fun m' hm' => by cases hm'⟩
  | some m =>
    simp only [hm] at h
    split at h
    · cases h
    · obtain ⟨r', hperform, h⟩ := Outcome.bind_eq_next.1 h
      cases h
      refine ⟨queues_perform (fun cmd hcmd => ?_) hperform, fun m' hm' => ⟨m, rfl, ?_⟩⟩
      · unfold SubmitArgs.work at hcmd
        split_ifs at hcmd with hempty htag
        · cases hcmd
        · exact hP m hm htag cmd hcmd
        · cases hcmd
      · cases hm'
        exact leave_cases m _

/-- A virtual submission does the same; private data that it leaves as it is has another tag. -/
theorem queues_submitCommandVirtual {a : VirtualArgs} {o : Option PrivateMemory}
    (hP : ∀ v, a.takes = some v → ∀ cmd ∈ v.commands, ∀ r, cmd.dma = some r → P r)
    (h : submitCommandVirtual env s a = .next (r, o)) :
    GpuChannel.Queues P s r.2 ∧
      ∀ m', o = some m' → ∃ m, a.privateData = some m ∧
        (m' = m.taken ∨ m' = m ∧ m.tag ≠ commandDmaPrivateTag) := by
  unfold submitCommandVirtual at h
  cases he : a.engine with
  | none =>
    simp only [he] at h
    cases h
  | some =>
    simp only [he] at h
    have hkept : ∀ m, a.privateData = some m → (∀ v, a.work ≠ .ok (.commands v)) →
        m.tag ≠ commandDmaPrivateTag := fun m hm hne htag =>
      hne m.value ((VirtualArgs.work_eq_commands_iff hm).2 ⟨htag, rfl⟩)
    cases hw : a.work with
    | error =>
      simp only [hw] at h
      cases h
      refine ⟨GpuChannel.queues_of_eq rfl, fun m' hm' => ⟨m', hm', .inr ⟨rfl, ?_⟩⟩⟩
      exact hkept m' hm' fun v hv => by simp [hw] at hv
    | ok w =>
      simp only [hw] at h
      obtain ⟨r', hperform, h⟩ := Outcome.bind_eq_next.1 h
      cases h
      refine ⟨queues_perform (fun cmd hcmd => ?_) hperform, fun m' hm' => ?_⟩
      · cases w with
        | commands v => exact hP v (by simp [VirtualArgs.takes, he, hw]) cmd hcmd
        | nop | user cmd => cases hcmd
      · obtain ⟨m, hm, rfl⟩ := Option.map_eq_some_iff.1 hm'
        refine ⟨m, hm, ?_⟩
        cases w with
        | commands => exact .inl rfl
        | nop | user cmd => exact .inr ⟨rfl, hkept m hm fun v hv => by simp [hw] at hv⟩

end Adapter

end VirtioGpu
