import VirtioGpu.Queue.Submit
import VirtioGpu.Uapi.Parse

/-!
# The submission entry points

`dxgkrnl` submits a DMA buffer with `Adapter::submit_command`, or `submit_command_virtual` for a
context with virtual addresses (`adapter.rs`).  Both look into the private data of the buffer to see
what to do.

## The private data

`Device::render`, `Device::present` and `build_paging_buffer` write a `CommandDmaPrivate` there: a
tag, a vector of commands and a vector of references to allocations.  For a virtual submission user
mode may supply the first `DmaBufferUmdPrivateDataSize` bytes.  `submit_command_virtual` decides by
the tag alone which of the two it has in front of it, and user mode can write the tag as well.

* `taken_is_kernel_written_iff` : a `CommandDmaPrivate` taken from private data that starts with
  bytes of user mode is the kernel's exactly if these bytes do not make up the tag.

## The fence

* `submissions_accounted_iff` : when the status a submission returns agrees with what became of its
  fence.  It does not if `submit_command` is called without private data (`Ok`, and nobody has the
  fence), and if a submission fails after `last_submitted_fence` has been advanced.
-/

namespace VirtioGpu

/-! ### Private data -/

/-- Who wrote a byte. -/
inductive Writer where
  | user
  | kernel

/-- The memory at `pDmaBufferPrivateData`: its bytes, who wrote each of them last, and the vectors
the bytes after the tag are if they are taken for those of a `CommandDmaPrivate`. -/
structure PrivateMemory where
  addr : ℕ
  mem : ℕ → UInt8
  writer : ℕ → Writer
  value : CommandDmaPrivate

/-- `VIRTIO_GPU_INVALID_TAG`. -/
def invalidTag : List UInt8 := [0xad, 0xde, 0xad, 0xde, 0xad, 0xde, 0xad, 0xde]

namespace PrivateMemory

variable (m : PrivateMemory)

/-- `w` writes bytes to the start of the memory, which then reads as `v`. -/
def overwrite (w : Writer) (bytes : List UInt8) (v : CommandDmaPrivate) :
    PrivateMemory where
  addr := m.addr
  mem i := bytes.getD i (m.mem i)
  writer i := if i < bytes.length then w else m.writer i
  value := v

/-- User mode supplies the first bytes of the private data. -/
def userWrite (data : List UInt8) (v : CommandDmaPrivate) : PrivateMemory :=
  m.overwrite .user data v

/-- `dma_priv_ptr.write(v)` in `render`, `present` and `build_paging_buffer`; `body` are the bytes
of the two vectors. -/
def kernelWrite (body : List UInt8) (v : CommandDmaPrivate) : PrivateMemory :=
  m.overwrite .kernel (commandDmaPrivateTag ++ body) v

/-- What `core::mem::take` leaves behind: `CommandDmaPrivate::default()`. -/
def taken : PrivateMemory :=
  m.overwrite .kernel (invalidTag ++ List.replicate (commandDmaPrivateSize - 8) 0) ⟨[], []⟩

/-- The memory as a buffer of which the first `len` bytes are user mode's. -/
def buffer (len : ℕ) (h : len < 2 ^ 32) : UserBuffer :=
  ⟨m.addr, len, m.mem, fun _ => true, h⟩

/-- The tag a structure starts with, as its 8 bytes. -/
def tag : List UInt8 := (List.range 8).map m.mem

/-- Every byte of the `CommandDmaPrivate` was written by the kernel. -/
def KernelWritten : Prop := ∀ i < commandDmaPrivateSize, m.writer i = .kernel

theorem tag_buffer (len : ℕ) (h : len < 2 ^ 32) : (m.buffer len h).tag = m.tag := by
  simp [UserBuffer.tag, UserBuffer.bytesAt, buffer, tag]

theorem not_kernelWritten_userWrite {m : PrivateMemory} {data : List UInt8} (h : 0 < data.length)
    (v : CommandDmaPrivate) : ¬ (m.userWrite data v).KernelWritten := by
  intro hk
  have h0 := hk 0 (by decide)
  simp [userWrite, overwrite, h] at h0

end PrivateMemory

/-! ### The calls -/

/-- What a submission asks for. -/
inductive Work where
  | nop
  /-- The commands of a `CommandDmaPrivate`, which is taken out of the private data. -/
  | commands (v : CommandDmaPrivate)
  | user (cmd : UserCommand)

/-- `DXGKARG_SUBMITCOMMAND`: the fields `submit_command` acts upon. -/
structure SubmitArgs where
  /-- `SubmissionFenceId` -/
  fence : ℕ
  /-- The engine of the `DeviceContext` `hContext` refers to, if it does. -/
  context : Option Engine
  nodeOrdinal : ℕ
  /-- What `pDmaBufferPrivateData` points to, unless it is null. -/
  privateData : Option PrivateMemory
  /-- `DmaBufferPrivateDataSize` -/
  privateSize : ℕ
  /-- `DmaBufferPrivateDataSubmissionStartOffset` and `…EndOffset` -/
  privateRange : ℕ × ℕ
  /-- `DmaBufferSubmissionStartOffset` and `…EndOffset` -/
  dmaRange : ℕ × ℕ
  paging : Bool

/-- `DXGKARG_SUBMITCOMMANDVIRTUAL`: the fields `submit_command_virtual` acts upon. -/
structure VirtualArgs where
  /-- `SubmissionFenceId` -/
  fence : ℕ
  /-- The `DeviceContext` `hContext` refers to, if it does: its engine, and the host context of its
  device. -/
  context : Option (Engine × Option ℕ)
  nodeOrdinal : ℕ
  /-- What `pDmaBufferPrivateData` points to, unless it is null. -/
  privateData : Option PrivateMemory
  /-- `DmaBufferUmdPrivateDataSize` -/
  umdSize : ℕ
  umdSize_lt : umdSize < 2 ^ 32

namespace SubmitArgs

/-- The engine of the call; without one the `unwrap` of the node ordinal panics. -/
def engine (a : SubmitArgs) : Option Engine :=
  a.context <|> Engine.tryFromNodeOrdinal a.nodeOrdinal

/-- There is no private data for this submission. -/
def isEmpty (a : SubmitArgs) : Bool :=
  a.privateSize == 0 || (a.privateRange.1 == a.privateRange.2 && !a.paging) ||
    (a.dmaRange.1 == a.dmaRange.2 && a.paging)

/-- What the private data `m` asks for. -/
def work (a : SubmitArgs) (m : PrivateMemory) : Work :=
  if a.isEmpty then .nop
  else if m.tag = commandDmaPrivateTag then .commands m.value
  else .nop

end SubmitArgs

namespace VirtualArgs

/-- The engine of the call; without one the `unwrap` of the node ordinal panics. -/
def engine (a : VirtualArgs) : Option Engine :=
  a.context.map Prod.fst <|> Engine.tryFromNodeOrdinal a.nodeOrdinal

/-- The host context of the call. -/
def ctx (a : VirtualArgs) : Option ℕ := a.context.bind Prod.snd

/-- What the private data asks for, or the error it is rejected with. -/
def work (a : VirtualArgs) : Except NtStatus Work :=
  match a.privateData with
  | none => .ok .nop
  | some m => match ((m.buffer a.umdSize a.umdSize_lt).privateData a.ctx).result with
    | .ok .dmaPrivate => .ok (.commands m.value)
    | .ok (.usermode cmd) => .ok (.user cmd)
    | .ok .invalid => .ok .nop
    | .error err => .error err

/-- The `CommandDmaPrivate` the call takes out of the private data. -/
def takes (a : VirtualArgs) : Option CommandDmaPrivate :=
  match a.engine, a.work with
  | some _, .ok (.commands v) => some v
  | _, _ => none

end VirtualArgs

namespace Adapter

variable {size : ℕ}

/-- The end of both functions: submit what was taken out of the private data. -/
def submitTaken (env : SubmitEnv) (s : GpuChannel size) (e : Engine) (f : ℕ)
    (v : CommandDmaPrivate) : Outcome (Except NtStatus Unit × GpuChannel size) SubmitPanic :=
  if v.commands.length ≤ 1 then
    let allocBatch := if 0 < v.allocations.length then some v.allocations else none
    .next (s.submitCommand env e f (v.commands.head?.getD .nop) allocBatch)
  else s.submitCommandBatch env e f v.commands

/-- Hand the work to the channel. -/
def perform (env : SubmitEnv) (s : GpuChannel size) (e : Engine) (f : ℕ) :
    Work → Outcome (Except NtStatus Unit × GpuChannel size) SubmitPanic
  | .nop => .next (s.submitCommand env e f .nop none)
  | .commands v => submitTaken env s e f v
  | .user (.submit ctx ring data) => .next (s.submitCommandBuffer env e f ctx ring data)
  | .user (.fence virtioFence) => .next (.ok (), s.submitFence env e f virtioFence)

/-- The private data after the call. -/
def leave (m : PrivateMemory) : Work → PrivateMemory
  | .commands _ => m.taken
  | _ => m

/-- `Adapter::submit_command`: what it returns, the channel and the private data after it. -/
def submitCommand (env : SubmitEnv) (s : GpuChannel size) (a : SubmitArgs) :
    Outcome ((Except NtStatus Unit × GpuChannel size) × Option PrivateMemory) SubmitPanic :=
  match a.privateData with
  | none => .next ((.ok (), s), none)
  | some m => match a.engine with
    | none => .panic .noEngine
    | some e =>
      (perform env s e a.fence (a.work m)).bind fun r => .next (r, some (leave m (a.work m)))

def submitCommandVirtual (env : SubmitEnv) (s : GpuChannel size) (a : VirtualArgs) :
    Outcome ((Except NtStatus Unit × GpuChannel size) × Option PrivateMemory) SubmitPanic :=
  match a.engine with
  | none => .panic .noEngine
  | some e => match a.work with
    | .error err => .next ((.error err, s), a.privateData)
    | .ok w => (perform env s e a.fence w).bind fun r => .next (r, a.privateData.map (leave · w))

end Adapter

/-! ### Whose bytes a `CommandDmaPrivate` is made of -/

namespace VirtualArgs

variable {a : VirtualArgs} {m : PrivateMemory}

theorem work_eq_commands_iff (hm : a.privateData = some m) {v : CommandDmaPrivate} :
    a.work = .ok (.commands v) ↔ m.tag = commandDmaPrivateTag ∧ m.value = v := by
  have hdma := UserBuffer.privateData_eq_dmaPrivate_iff (b := m.buffer a.umdSize a.umdSize_lt) a.ctx
  rw [m.tag_buffer] at hdma
  simp only [work, hm, ← hdma]
  match ((m.buffer a.umdSize a.umdSize_lt).privateData a.ctx).result with
  | .ok .dmaPrivate => simp
  | .ok (.usermode _) | .ok .invalid | .error _ => simp

theorem takes_eq_some_iff (hm : a.privateData = some m) {v : CommandDmaPrivate} :
    a.takes = some v ↔ a.engine ≠ none ∧ m.tag = commandDmaPrivateTag ∧ m.value = v := by
  rw [← work_eq_commands_iff hm]
  unfold takes
  cases a.engine with
  | none => simp
  | some =>
    match a.work with
    | .ok (.commands w) => simp
    | .ok .nop | .ok (.user _) | .error _ => simp

end VirtualArgs

/-- **User bytes are told from a `CommandDmaPrivate` by the tag alone.**  What a virtual submission
takes was written by the kernel exactly if the user bytes before it (with what follows them, should
they be fewer than 8) do not make up the tag. -/
theorem taken_is_kernel_written_iff {a : VirtualArgs} {m : PrivateMemory} {data : List UInt8}
    {u : CommandDmaPrivate} (hm : a.privateData = some (m.userWrite data u))
    (hsize : a.umdSize = data.length) (hpos : 0 < a.umdSize) :
    (∀ v, a.takes = some v → (m.userWrite data u).KernelWritten) ↔
      (a.engine ≠ none → (m.userWrite data u).tag ≠ commandDmaPrivateTag) := by
  have hnot := PrivateMemory.not_kernelWritten_userWrite (m := m) (hsize ▸ hpos) u
  simp only [VirtualArgs.takes_eq_some_iff hm, hnot, imp_false, not_and]
  constructor
  · exact fun h he htag => h u he htag rfl
  · exact fun h v he htag => absurd htag (h he)

/-- Private data that the driver has not written to. -/
def freshMemory : PrivateMemory := ⟨0x1000, fun _ => 0, fun _ => .kernel, ⟨[], []⟩⟩

/-- A virtual submission to the copy engine with `data` from user mode, which reads as `u` if it is
taken for a `CommandDmaPrivate`. -/
def userSubmission (data : List UInt8) (h : data.length < 2 ^ 32) (u : CommandDmaPrivate) :
    VirtualArgs where
  fence := 1
  context := some (.copy, some 1)
  nodeOrdinal := 2
  privateData := some (freshMemory.userWrite data u)
  umdSize := data.length
  umdSize_lt := h

/-- With another tag the private data is not taken. -/
theorem taken_is_kernel_written_iff_other :
    (userSubmission submitCommandVirtualTag (by decide) ⟨[], []⟩).engine = some .copy ∧
      ∀ v, (userSubmission submitCommandVirtualTag (by decide) ⟨[], []⟩).takes = some v →
        (freshMemory.userWrite submitCommandVirtualTag ⟨[], []⟩).KernelWritten :=
  ⟨rfl, (taken_is_kernel_written_iff rfl rfl (by decide)).2 fun _ => by decide⟩

/-- **User mode can forge a `CommandDmaPrivate`.**  Eight bytes with the tag are enough: whatever
the memory after them holds is taken for its vectors, here for a reference to an allocation. -/
theorem userBytes_taken :
    (userSubmission commandDmaPrivateTag (by decide) ⟨[], [7]⟩).takes = some ⟨[], [7]⟩ ∧
      ¬ (freshMemory.userWrite commandDmaPrivateTag ⟨[], [7]⟩).KernelWritten :=
  ⟨rfl, PrivateMemory.not_kernelWritten_userWrite (by decide) _⟩

/-! ### What becomes of the fence -/

section Accounted

variable {size : ℕ} {env : SubmitEnv} {s : GpuChannel size} {e : Engine} {f : ℕ}

/-- The work does not fail after `last_submitted_fence` has been advanced: a single command that is
not a `Nop` has a DMA buffer, and a command of user mode fits into a page with its header. -/
def Work.Submittable (s : GpuChannel size) (e : Engine) (f : ℕ) : Work → Prop
  | .nop | .user (.fence _) => True
  | .commands v => ∀ cmd, v.commands = [cmd] → cmd.id ≠ .nop → cmd.getDma = none →
      (s.engines e).lastSubmittedFence = f
  | .user (.submit _ _ data) => cmdSubmit3DSize + data.length ≤ pageSize ∨
      (s.engines e).lastSubmittedFence = f

/-- The physical submission has private data, and its work can be submitted. -/
def SubmitArgs.Submittable (s : GpuChannel size) (e : Engine) (a : SubmitArgs) : Prop :=
  ∃ m, a.privateData = some m ∧ (a.work m).Submittable s e a.fence

/-- The virtual submission is rejected, or its work can be submitted. -/
def VirtualArgs.Submittable (s : GpuChannel size) (e : Engine) (a : VirtualArgs) : Prop :=
  ∀ w, a.work = .ok w → w.Submittable s e a.fence

namespace Adapter

open GpuChannel

theorem submitTaken_accounted_iff (env : SubmitEnv) (h : s.carriers e f = [])
    (v : CommandDmaPrivate) :
    (∀ r, submitTaken env s e f v = .next r → s.Accounted e f r) ↔
      (Work.commands v).Submittable s e f := by
  unfold submitTaken Work.Submittable
  by_cases hlen : v.commands.length ≤ 1
  · simp only [if_pos hlen, Outcome.next.injEq, forall_eq', submitCommand_accounted_iff env h]
    match hcmds : v.commands with
    | [] => simp [Command.nop, Command.new]
    | [cmd] => simp
    | _ :: _ :: _ => simp [hcmds] at hlen
  · simp only [if_neg hlen]
    refine iff_of_true (fun r hr => submitCommandBatch_accounted h hr) fun cmd hcmd => ?_
    simp [hcmd] at hlen

theorem perform_accounted_iff (env : SubmitEnv) (h : s.carriers e f = []) (w : Work) :
    (∀ r, perform env s e f w = .next r → s.Accounted e f r) ↔ w.Submittable s e f := by
  cases w with
  | nop =>
    simp only [perform, Outcome.next.injEq, forall_eq', submitCommand_accounted_iff env h]
    simp [Work.Submittable, Command.nop, Command.new]
  | commands v => exact submitTaken_accounted_iff env h v
  | user cmd =>
    cases cmd with
    | submit =>
      simp only [perform, Outcome.next.injEq, forall_eq', submitCommandBuffer_accounted_iff env h]
      rfl
    | fence virtioFence =>
      simp only [perform, Outcome.next.injEq, forall_eq']
      exact iff_of_true (submitFence_accounts env h virtioFence) trivial

theorem not_accounted_self (h : s.carriers e f = []) : ¬ s.Accounted e f (.ok (), s) := by
  rintro (⟨hcount, -⟩ | ⟨-, c, hc, -⟩)
  · simp at hcount
  · simp [h] at hc

/-- What happens to the private data does not concern the fence. -/
theorem forall_bind_next_iff {x : Outcome (Except NtStatus Unit × GpuChannel size) SubmitPanic}
    {m : Option PrivateMemory} :
    (∀ r, (x.bind fun r => .next (r, m)) = .next r → s.Accounted e f r.1) ↔
      ∀ r, x = .next r → s.Accounted e f r := by
  cases x <;> simp [Outcome.bind]

theorem submitCommand_accounted_iff (env : SubmitEnv) {a : SubmitArgs} (he : a.engine = some e)
    (h : s.carriers e a.fence = []) :
    (∀ r, submitCommand env s a = .next r → s.Accounted e a.fence r.1) ↔ a.Submittable s e := by
  unfold submitCommand SubmitArgs.Submittable
  cases hm : a.privateData with
  | none => simp [not_accounted_self h]
  | some =>
    simp only [he, Option.some.injEq, exists_eq_left']
    rw [forall_bind_next_iff, perform_accounted_iff env h]

theorem submitCommandVirtual_accounted_iff (env : SubmitEnv) {a : VirtualArgs}
    (he : a.engine = some e) (h : s.carriers e a.fence = []) :
    (∀ r, submitCommandVirtual env s a = .next r → s.Accounted e a.fence r.1) ↔
      a.Submittable s e := by
  unfold submitCommandVirtual VirtualArgs.Submittable
  cases hw : a.work with
  | error =>
    simp only [he, Outcome.next.injEq, forall_eq', reduceCtorEq, false_imp_iff, implies_true,
      iff_true]
    exact ⟨h, rfl⟩
  | ok =>
    simp only [he, Except.ok.injEq, forall_eq']
    rw [forall_bind_next_iff, perform_accounted_iff env h]

end Adapter

/-- **When a submission accounts for its fence.**  The status agrees with what became of the fence
exactly if there is private data (for the physical one), and the work does not fail once
`last_submitted_fence` has been advanced. -/
theorem submissions_accounted_iff (env : SubmitEnv) (s : GpuChannel size) (e : Engine) :
    (∀ a : SubmitArgs, a.engine = some e → s.carriers e a.fence = [] →
      ((∀ r, Adapter.submitCommand env s a = .next r → s.Accounted e a.fence r.1) ↔
        a.Submittable s e)) ∧
    (∀ a : VirtualArgs, a.engine = some e → s.carriers e a.fence = [] →
      ((∀ r, Adapter.submitCommandVirtual env s a = .next r → s.Accounted e a.fence r.1) ↔
        a.Submittable s e)) :=
  ⟨fun _ he h => Adapter.submitCommand_accounted_iff env he h,
    fun _ he h => Adapter.submitCommandVirtual_accounted_iff env he h⟩

end Accounted

/-- An adapter with the control queue of the source, at time 0. -/
def startedChannel : GpuChannel 256 := .init (by decide)

/-- A physical submission to the graphics engine. -/
def physicalSubmission (m : Option PrivateMemory) : SubmitArgs where
  fence := 1
  context := some .graphics
  nodeOrdinal := 0
  privateData := m
  privateSize := 128
  privateRange := (0, 112)
  dmaRange := (0, 64)
  paging := false

/-- The private data `render` leaves for one command. -/
def renderedMemory : PrivateMemory :=
  freshMemory.kernelWrite (List.replicate 104 0) ⟨[.new .submit none 0 (some ⟨0x2000, 64⟩)], []⟩

/-- A rendered command accounts for its fence. -/
theorem submissions_accounted_iff_rendered :
    ∃ r, Adapter.submitCommand startedEnv startedChannel (physicalSubmission renderedMemory) =
      .next r ∧ startedChannel.Accounted .graphics 1 r.1 := by
  have hiff := (submissions_accounted_iff startedEnv startedChannel .graphics).1
    (physicalSubmission renderedMemory) rfl (GpuChannel.carriers_init (by decide) .graphics 1)
  refine ⟨_, rfl, hiff.2 ⟨renderedMemory, rfl, ?_⟩ _ rfl⟩
  intro cmd hcmd hid hdma
  cases hcmd
  cases hdma

/-- A virtual submission of a command stream of 4065 bytes, all zero. -/
def longSubmission : VirtualArgs where
  fence := 1
  context := some (.copy, some 1)
  nodeOrdinal := 2
  privateData := some
    { addr := 0x1000
      mem := fun i => (submitCommandVirtualTag ++ [1, 0, 0, 0, 0xe1, 0x0f, 0, 0]).getD i 0
      writer := fun _ => .user
      value := ⟨[], []⟩ }
  umdSize := 4081
  umdSize_lt := by decide

theorem work_longSubmission :
    ∃ data : List UInt8, longSubmission.work = .ok (.user (.submit 1 none data)) ∧
      data.length = 4065 := by
  refine ⟨_, rfl, ?_⟩
  rw [UserBuffer.bytesAt, List.length_map, List.length_range]
  rfl

/-- **A submission can lose its fence, and a failed one can leave a trace.**  Without private data
the fence is neither reported nor held.  A command stream of user mode that exceeds a page is
refused after `last_submitted_fence` has been advanced. -/
theorem submission_unaccounted :
    (∃ r, Adapter.submitCommand startedEnv startedChannel (physicalSubmission none) = .next r ∧
      r.1.1 = .ok () ∧ r.1.2.notified = [] ∧ r.1.2.carriers .graphics 1 = []) ∧
    ∃ r, Adapter.submitCommandVirtual startedEnv startedChannel longSubmission = .next r ∧
      r.1.1 = .error .noMemory ∧ (startedChannel.engines .copy).lastSubmittedFence = 0 ∧
      (r.1.2.engines .copy).lastSubmittedFence = 1 := by
  refine ⟨⟨_, rfl, rfl, rfl, GpuChannel.carriers_init (by decide) .graphics 1⟩, ?_⟩
  obtain ⟨data, hwork, hlen⟩ := work_longSubmission
  have hlong : pageSize < cmdSubmit3DSize + data.length := by
    rw [hlen]
    decide
  have hengine : longSubmission.engine = some .copy := rfl
  have hcall : Adapter.submitCommandVirtual startedEnv startedChannel longSubmission =
      .next ((.error .noMemory, startedChannel.drawHeader startedEnv .copy 1 1 none data),
        longSubmission.privateData) := by
    simp only [Adapter.submitCommandVirtual, hengine, hwork, Adapter.perform]
    exact congrArg (fun r => Outcome.next (r, longSubmission.privateData))
      (GpuChannel.submitCommandBuffer_of_lt startedEnv startedChannel .copy 1 1 none hlong)
  exact ⟨_, hcall, rfl, rfl, rfl⟩

end VirtioGpu
