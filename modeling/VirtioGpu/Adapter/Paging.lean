import VirtioGpu.Adapter.Submit

/-!
# Paging buffers

`dxgkrnl` fills a paging buffer by calling `build_paging_buffer` once for each operation, with the
DMA pointer and the private data pointer the previous call has left.  Every call looks for a
`CommandDmaPrivate` under its private data pointer: if the tag is there the command of the operation
is appended to whatever the block holds, otherwise a new block is written first.  If the block then
holds anything, the pointer moves on to the next one.  When `dxgkrnl` submits the buffer, in one or
more pieces, `Adapter::submit_command` takes the block at the base of the private data, whole, and
no other.

So an operation after the first command has its command in a block that is never looked at, and
commands that an earlier use of the memory has left in the first block are submitted.

* `paging_sent_iff` : the submissions send what the operations have encoded, each command from the
  piece of the buffer that contains it and nothing else, exactly if no operation encodes a command
  except a first one into an empty first block.
* `paging_command_lost` : a command that is lost, and comes out with the next buffer.
* `reads_submit`, `inputs_submitTaken` : what the submissions below take out of the block is what
  `Adapter::submit_command` takes, and what goes into the control channel.
-/

namespace VirtioGpu

/-! ### The operations -/

/-- Whether a command was encoded for the paging buffer at hand. -/
inductive Origin where
  /-- By an earlier use of the memory. -/
  | earlier
  | now
  deriving DecidableEq

/-- A `CommandDmaPrivate` in the private data of a paging buffer, with the origin of its
commands. -/
structure PagingBlock where
  commands : List (Origin × Command)
  allocations : List ℕ

/-- The handle of an operation: `hAllocation`. -/
inductive PagingHandle where
  | null
  | invalid
  /-- An allocation, with its `can_attach()`. -/
  | alloc (canAttach : Bool)

/-- What `Allocation::attach_pages` returns. -/
inductive AttachPages where
  | incomplete
  /-- The allocation, which is not empty, now has all its pages, in this many entries. -/
  | complete (entries : ℕ) (pos : 0 < entries)

/-- `DXGKARG_BUILDPAGINGBUFFER::Operation` and the fields of the union it selects. -/
inductive PagingOp where
  /-- The MDL has `mdlPages` pages. -/
  | mapApertureSegment (handle : PagingHandle) (mdlPages mdlOffset numberOfPages : ℕ)
  | unmapApertureSegment (handle : PagingHandle)
  | fill (handle : PagingHandle)
  | discardContent (handle : PagingHandle)
  | transfer (handle : PagingHandle)
  | virtualTransfer (handle : PagingHandle)
  | virtualFill (handle : PagingHandle)
  /-- `missing`: `total_attached_bytes() < size()`. -/
  | updatePageTable (handle : PagingHandle) (missing : Bool) (attachPages : AttachPages)
  | flushTlb
  | copyPageTableEntries
  | notifyResidency
  | unknown

/-- The panics of `Command::attach_backing`. -/
inductive PagingPanic where
  /-- `&mdl.physical_pages()[offset..]` -/
  | mdlOffset
  /-- `entries[i]` for a page of the MDL after the first `NumberOfPages` -/
  | entryIndex

/-- Where the match over the operations leads. -/
inductive PagingResult where
  /-- `build_paging_buffer` returns at once. -/
  | stop (status : Except NtStatus Unit)
  | none (status : Except NtStatus Unit)
  | command (id : CommandId) (len : ℕ)

/-- `Command::attach_backing_dma_len`. -/
def attachBackingDmaLen (nPages : ℕ) : ℕ := 32 + nPages * 16

/-- `Command::detach_backing_dma_len`. -/
def detachBackingDmaLen : ℕ := 32

/-- The checks every operation on an allocation starts with. -/
def PagingHandle.check (handle : PagingHandle) (f : Bool → Outcome PagingResult PagingPanic) :
    Outcome PagingResult PagingPanic :=
  match handle with
  | .null => .next (.stop (.ok ()))
  | .invalid => .next (.stop (.error .invalidParameter))
  | .alloc canAttach => f canAttach

/-- Encode a command of `needed` bytes, if there is more room than that. -/
def encodeBacking (id : CommandId) (needed dmaSize : ℕ) : PagingResult :=
  if dmaSize ≤ needed then .stop (.error .graphicsInsufficientDmaBuffer) else .command id needed

/-- `UPDATE_PAGE_TABLE` for an allocation of which pages were missing. -/
def AttachPages.encode (dmaSize : ℕ) : AttachPages → PagingResult
  | .incomplete => .none (.ok ())
  | .complete entries _ => encodeBacking .mapAperture (attachBackingDmaLen entries) dmaSize

/-- The match over the operations, with `dmaSize` bytes left in the DMA buffer. -/
def PagingOp.encode (dmaSize : ℕ) : PagingOp → Outcome PagingResult PagingPanic
  | .mapApertureSegment handle mdlPages mdlOffset numberOfPages => handle.check fun canAttach =>
    if !canAttach then .next (.stop (.ok ()))
    else match encodeBacking .mapAperture (attachBackingDmaLen numberOfPages) dmaSize with
      | .command id len =>
        -- `Command::attach_backing` writes an entry for every page of the MDL from the offset on
        if mdlPages < mdlOffset then .panic .mdlOffset
        else if mdlOffset + numberOfPages < mdlPages then .panic .entryIndex
        else .next (.command id len)
      | r => .next r
  | .unmapApertureSegment handle => handle.check fun canAttach =>
    if !canAttach then .next (.stop (.ok ()))
    else .next (encodeBacking .unmapAperture detachBackingDmaLen dmaSize)
  | .fill handle | .discardContent handle | .transfer handle | .virtualTransfer handle
  | .virtualFill handle => handle.check fun _ => .next (.none (.ok ()))
  | .updatePageTable handle missing attachPages => handle.check fun canAttach =>
    if canAttach && missing then .next (attachPages.encode dmaSize) else .next (.none (.ok ()))
  | .flushTlb | .copyPageTableEntries | .notifyResidency => .next (.none (.ok ()))
  | .unknown => .next (.none (.error .notSupported))

/-- `DXGKARG_BUILDPAGINGBUFFER`, without the pointers. -/
structure PagingCall where
  op : PagingOp
  /-- `pDmaBuffer` is null. -/
  dmaNull : Bool
  dmaSize : ℕ
  /-- `DmaBufferPrivateDataSize` -/
  privateSize : ℕ

/-- A paging buffer while it is filled. -/
structure PagingState where
  /-- Where the DMA buffer starts. -/
  base : ℕ
  /-- The private data in blocks of `size_of::<CommandDmaPrivate>()` bytes from its base, as far as
  they have the tag. -/
  blocks : ℕ → Option PagingBlock
  /-- `pDmaBufferPrivateData`, as the number of a block. -/
  ptr : ℕ
  /-- `pDmaBuffer`, as an offset. -/
  used : ℕ
  /-- The commands encoded so far. -/
  encoded : List Command

namespace PagingState

variable (s : PagingState)

/-- `dma_priv` of the next call: the block under the pointer, or a new one. -/
def block : PagingBlock := (s.blocks s.ptr).getD ⟨[], []⟩

/-- The end of `build_paging_buffer`, with `b` in the block under the pointer. -/
def finish (b : PagingBlock) : PagingState :=
  { s with
    blocks := Function.update s.blocks s.ptr (some b)
    ptr := if b.commands ≠ [] ∨ b.allocations ≠ [] then s.ptr + 1 else s.ptr }

/-- A command of `len` bytes is written to the DMA buffer and appended to the block. -/
def push (id : CommandId) (len : ℕ) : PagingState :=
  let cmd := Command.new id none 0 (some ⟨s.base + s.used, len⟩)
  { s with used := s.used + len, encoded := s.encoded ++ [cmd] }.finish
    { s.block with commands := s.block.commands ++ [(Origin.now, cmd)] }

def buildPagingBuffer (call : PagingCall) :
    Outcome (Except NtStatus Unit × PagingState) PagingPanic :=
  if call.dmaNull then .next (.ok (), s)
  else if call.privateSize < commandDmaPrivateSize then
    .next (.error .graphicsInsufficientDmaBuffer, s)
  else (call.op.encode call.dmaSize).bind fun
    | .stop status =>
      .next (status, { s with blocks := Function.update s.blocks s.ptr (some s.block) })
    | .none status => .next (status, s.finish s.block)
    | .command id len => .next (.ok (), s.push id len)

/-- A new buffer at `base`; `old` is what an earlier use has left in the private data. -/
def start (base : ℕ) (old : ℕ → Option CommandDmaPrivate) : PagingState where
  base := base
  blocks i := (old i).map fun v => ⟨v.commands.map (Prod.mk .earlier), v.allocations⟩
  ptr := 0
  used := 0
  encoded := []

/-- The commands in block `i`. -/
def commandsAt (i : ℕ) : List (Origin × Command) :=
  match s.blocks i with
  | some b => b.commands
  | none => []

end PagingState

def pagingMachine : Machine PagingState PagingCall PagingPanic where
  step s call := (s.buildPagingBuffer call).bind fun r => .next r.2

/-! ### The submissions -/

/-- A submission of a piece of the buffer: what it takes out of the first block, and what it leaves
there. -/
def submitPaging (block : Option PagingBlock) (range : ℕ × ℕ) :
    List (Origin × Command) × Option PagingBlock :=
  if range.1 = range.2 then ([], block)
  else match block with
    | some b => (b.commands, none)
    | none => ([], none)

/-- What each of a series of submissions sends. -/
def submitAll : Option PagingBlock → List (ℕ × ℕ) → List (List (Origin × Command))
  | _, [] => []
  | block, r :: rs => (submitPaging block r).1 :: submitAll (submitPaging block r).2 rs

/-- The pieces follow one another from `start` to `stop`. -/
def Partition (start stop : ℕ) : List (ℕ × ℕ) → Prop
  | [] => start = stop
  | r :: rs => r.1 = start ∧ start ≤ r.2 ∧ Partition r.2 stop rs

/-- The command lies in the piece `r` of the buffer at `base`. -/
def Command.within (base : ℕ) (r : ℕ × ℕ) (cmd : Command) : Bool :=
  match cmd.dma with
  | some dma => base + r.1 ≤ dma.addr && dma.addr + dma.len ≤ base + r.2
  | none => false

namespace PagingState

/-- However the buffer is submitted in pieces that do not cut a command: each submission sends the
commands that were encoded in its piece, in order, and nothing else. -/
def SentExactly (s : PagingState) : Prop :=
  ∀ ranges, Partition 0 s.used ranges →
    (∀ cmd ∈ s.encoded, ∃ r ∈ ranges, cmd.within s.base r = true) →
    submitAll (s.blocks 0) ranges =
      ranges.map fun r => (s.encoded.filter (·.within s.base r)).map (Prod.mk .now)

def encodes (call : PagingCall) : Bool :=
  !call.dmaNull && commandDmaPrivateSize ≤ call.privateSize &&
    match call.op.encode call.dmaSize with
    | .next (.command ..) => true
    | _ => false

/-- A command is encoded only if it is the first, and goes to the first block, which has none. -/
def OnlyFirst (s : PagingState) (call : PagingCall) : Prop :=
  encodes call = true → s.encoded = [] ∧ s.ptr = 0 ∧ s.commandsAt 0 = []
  deriving Decidable

/-! ### What a call does -/

variable {s s' : PagingState} {call : PagingCall} {id : CommandId} {len : ℕ}

theorem commandsAt_ptr (s : PagingState) : s.commandsAt s.ptr = s.block.commands := by
  unfold commandsAt block
  cases s.blocks s.ptr <;> rfl

theorem commandsAt_finish_self (s : PagingState) (b : PagingBlock) :
    (s.finish b).commandsAt s.ptr = b.commands := by
  simp [commandsAt, finish]

theorem commandsAt_finish_of_ne {s : PagingState} {i : ℕ} (h : i ≠ s.ptr) (b : PagingBlock) :
    (s.finish b).commandsAt i = s.commandsAt i := by
  simp [commandsAt, finish, Function.update_of_ne h]

/-- The effect of a call: it changes no commands, or it encodes one. -/
inductive CallCase (s s' : PagingState) (call : PagingCall) : Prop
  | none (henc : encodes call = false) (hbase : s'.base = s.base) (hused : s'.used = s.used)
      (hencoded : s'.encoded = s.encoded) (hptr : s.ptr ≤ s'.ptr)
      (hcommands : ∀ i, s'.commandsAt i = s.commandsAt i) : CallCase s s' call
  | command (id : CommandId) (len : ℕ) (henc : encodes call = true) (hlen : 0 < len)
      (hs' : s' = s.push id len) : CallCase s s' call

theorem check_eq_command {handle : PagingHandle} {f : Bool → Outcome PagingResult PagingPanic}
    (h : handle.check f = .next (.command id len)) :
    ∃ canAttach, f canAttach = .next (.command id len) := by
  cases handle with
  | null | invalid => cases h
  | alloc canAttach => exact ⟨canAttach, h⟩

theorem encodeBacking_eq_command {id id' : CommandId} {needed dmaSize len : ℕ}
    (h : encodeBacking id needed dmaSize = .command id' len) : len = needed ∧ len < dmaSize := by
  unfold encodeBacking at h
  split_ifs at h with hroom
  cases h
  exact ⟨rfl, not_le.1 hroom⟩

theorem len_of_encode {op : PagingOp} {dmaSize len : ℕ}
    (h : op.encode dmaSize = .next (.command id len)) : 0 < len ∧ len < dmaSize := by
  have hbacking : ∀ {id' : CommandId} {needed : ℕ} {id'' : CommandId} {len' : ℕ}, 0 < needed →
      encodeBacking id' needed dmaSize = .command id'' len' → 0 < len' ∧ len' < dmaSize := by
    intro id' needed id'' len' hpos henc
    obtain ⟨rfl, hlt⟩ := encodeBacking_eq_command henc
    exact ⟨hpos, hlt⟩
  have hattach : ∀ n, 0 < attachBackingDmaLen n := fun n => Nat.add_pos_left (by decide) _
  cases op with
  | mapApertureSegment handle mdlPages mdlOffset numberOfPages =>
    obtain ⟨canAttach, h⟩ := check_eq_command h
    cases henc : encodeBacking .mapAperture (attachBackingDmaLen numberOfPages) dmaSize with
    | command =>
      simp only [henc] at h
      split_ifs at h <;> cases h
      exact hbacking (hattach _) henc
    | stop status | none status =>
      simp only [henc] at h
      split_ifs at h <;> cases h
  | unmapApertureSegment handle =>
    obtain ⟨canAttach, h⟩ := check_eq_command h
    split_ifs at h
    · cases h
    · exact hbacking (by decide) (Outcome.next.inj h)
  | updatePageTable handle missing attachPages =>
    obtain ⟨canAttach, h⟩ := check_eq_command h
    split_ifs at h
    · cases attachPages with
      | incomplete => cases h
      | complete entries _ => exact hbacking (hattach _) (Outcome.next.inj h)
    · cases h
  | fill handle | discardContent handle | transfer handle | virtualTransfer handle
  | virtualFill =>
    obtain ⟨canAttach, h⟩ := check_eq_command h
    cases h
  | flushTlb | copyPageTableEntries | notifyResidency | unknown => cases h

theorem callCase (h : pagingMachine.step s call = .next s') : CallCase s s' call := by
  obtain ⟨⟨status, t⟩, hbuild, ht⟩ := Outcome.bind_eq_next.1 h
  cases ht
  unfold buildPagingBuffer at hbuild
  split_ifs at hbuild with hnull hsize
  · cases hbuild
    exact .none (by simp [encodes, hnull]) rfl rfl rfl le_rfl fun _ => rfl
  · cases hbuild
    refine .none ?_ rfl rfl rfl le_rfl fun _ => rfl
    simp [encodes, hsize]
  · obtain ⟨r, henc, hr⟩ := Outcome.bind_eq_next.1 hbuild
    cases r with
    | stop =>
      cases hr
      -- An early return: a block without the tag has been replaced by an empty one.
      refine .none (by simp [encodes, henc]) rfl rfl rfl le_rfl fun i => ?_
      by_cases hi : i = s.ptr
      · subst hi
        exact (by simp [commandsAt] : _ = s.block.commands).trans s.commandsAt_ptr.symm
      · simp [commandsAt, Function.update_of_ne hi]
    | none status =>
      cases hr
      refine .none (by simp [encodes, henc]) rfl rfl rfl ?_ fun i => ?_
      · simp only [finish]
        split_ifs <;> omega
      · by_cases hi : i = s.ptr
        · subst hi
          rw [commandsAt_finish_self, commandsAt_ptr]
        · exact commandsAt_finish_of_ne hi _
    | command id len =>
      cases hr
      refine .command id len ?_ (len_of_encode henc).1 rfl
      simp [encodes, henc, hnull, not_lt.1 hsize]

/-! ### Invariants -/

/-- The command that `push` encodes. -/
def pushed (s : PagingState) (id : CommandId) (len : ℕ) : Command :=
  .new id none 0 (some ⟨s.base + s.used, len⟩)

section

variable (id : CommandId) (len : ℕ)

@[simp] theorem push_encoded :
    (s.push id len).encoded = s.encoded ++ [s.pushed id len] := rfl

@[simp] theorem push_used : (s.push id len).used = s.used + len := rfl

@[simp] theorem push_base : (s.push id len).base = s.base := rfl

@[simp] theorem push_ptr : (s.push id len).ptr = s.ptr + 1 := by
  simp [push, finish]

theorem commandsAt_push_self :
    (s.push id len).commandsAt s.ptr = s.commandsAt s.ptr ++ [(.now, s.pushed id len)] := by
  rw [commandsAt_ptr]
  exact commandsAt_finish_self { s with
    used := s.used + len
    encoded := s.encoded ++ [s.pushed id len] } _

end

theorem commandsAt_push_of_ne {i : ℕ} (h : i ≠ s.ptr) (id : CommandId) (len : ℕ) :
    (s.push id len).commandsAt i = s.commandsAt i :=
  commandsAt_finish_of_ne (s := { s with
    used := s.used + len
    encoded := s.encoded ++ [s.pushed id len] }) h _

theorem mem_commandsAt_push {i : ℕ} {x : Origin × Command} (h : x ∈ (s.push id len).commandsAt i) :
    x ∈ s.commandsAt i ∨ i = s.ptr ∧ x = (.now, s.pushed id len) := by
  by_cases hi : i = s.ptr
  · subst hi
    rw [commandsAt_push_self, List.mem_append, List.mem_singleton] at h
    exact h.imp_right fun h => ⟨rfl, h⟩
  · rw [commandsAt_push_of_ne hi] at h
    exact .inl h

/-- What holds while a buffer is filled. -/
structure Inv (s : PagingState) : Prop where
  /-- The blocks have no commands of this buffer but those that were encoded, … -/
  encoded : ∀ i cmd, (.now, cmd) ∈ s.commandsAt i → cmd ∈ s.encoded
  /-- … none from the pointer on, … -/
  ahead : ∀ i, s.ptr ≤ i → ∀ cmd, (.now, cmd) ∉ s.commandsAt i
  /-- … and the first one at most one. -/
  once : ((s.commandsAt 0).filter (·.1 = .now)).length ≤ 1
  /-- A command lies in the part of the buffer that is in use. -/
  inside : ∀ cmd ∈ s.encoded, ∃ dma, cmd.dma = some dma ∧ 0 < dma.len ∧ s.base ≤ dma.addr ∧
    dma.addr + dma.len ≤ s.base + s.used
  empty : s.encoded = [] → s.used = 0
  single : ∀ cmd, s.encoded = [cmd] → cmd.dma = some ⟨s.base, s.used⟩

theorem inv_start (base : ℕ) (old : ℕ → Option CommandDmaPrivate) : (start base old).Inv := by
  have hold : ∀ i cmd, (Origin.now, cmd) ∉ (start base old).commandsAt i := by
    intro i cmd hmem
    simp only [commandsAt, start] at hmem
    cases hi : old i with
    | none => simp [hi] at hmem
    | some => simp [hi] at hmem
  refine ⟨fun i cmd h => absurd h (hold i cmd), fun i _ cmd => hold i cmd, ?_, by simp [start],
    fun _ => rfl, by simp [start]⟩
  rw [List.filter_eq_nil_iff.2]
  · simp
  · rintro ⟨o, cmd⟩ hmem ho
    obtain rfl : o = .now := by simpa using ho
    exact hold 0 cmd hmem

theorem Inv.push (hs : s.Inv) (id : CommandId) (hlen : 0 < len) :
    (s.push id len).Inv where
  encoded i cmd h := by
    rw [push_encoded, List.mem_append, List.mem_singleton]
    rcases mem_commandsAt_push h with h | ⟨-, h⟩
    · exact .inl (hs.encoded i cmd h)
    · exact .inr (Prod.mk.inj h).2
  ahead i hi cmd h := by
    rw [push_ptr] at hi
    rcases mem_commandsAt_push h with h | ⟨rfl, -⟩
    · exact hs.ahead i (by omega) cmd h
    · omega
  once := by
    rcases Nat.eq_zero_or_pos s.ptr with hptr | hptr
    · -- The pointer moves on with every command, so at the base none has been encoded yet.
      have hself := commandsAt_push_self (s := s) id len
      rw [hptr] at hself
      have hnone : (s.commandsAt 0).filter (·.1 = .now) = [] := by
        refine List.filter_eq_nil_iff.2 ?_
        rintro ⟨o, cmd⟩ hmem ho
        obtain rfl : o = .now := by simpa using ho
        exact hs.ahead 0 hptr.le cmd hmem
      rw [hself, List.filter_append, hnone]
      simp
    · rw [commandsAt_push_of_ne hptr.ne]
      exact hs.once
  inside cmd h := by
    rw [push_encoded, List.mem_append, List.mem_singleton] at h
    rw [push_base, push_used]
    rcases h with h | rfl
    · obtain ⟨dma, hdma, hpos, hbase, hend⟩ := hs.inside cmd h
      exact ⟨dma, hdma, hpos, hbase, by omega⟩
    · exact ⟨_, rfl, hlen, Nat.le_add_right _ _, by dsimp only; omega⟩
  empty h := by simp at h
  single cmd h := by
    rw [push_encoded] at h
    have hnil : s.encoded = [] := by
      cases hencoded : s.encoded with
      | nil => rfl
      | cons => simp [hencoded] at h
    rw [hnil, List.nil_append] at h
    rw [push_base, push_used, ← (List.cons.inj h).1, hs.empty hnil]
    simp [pushed, Command.new, hs.empty hnil]

theorem Inv.step (hs : s.Inv) (h : pagingMachine.step s call = .next s') : s'.Inv := by
  cases callCase h with
  | none henc hbase hused hencoded hptr hcommands =>
    refine ⟨?_, ?_, ?_, ?_, ?_, ?_⟩
    · simpa only [hcommands, hencoded] using hs.encoded
    · simpa only [hcommands] using fun i hi => hs.ahead i (hptr.trans hi)
    · simpa only [hcommands] using hs.once
    · simpa only [hencoded, hbase, hused] using hs.inside
    · simpa only [hencoded, hused] using hs.empty
    · simpa only [hencoded, hbase, hused] using hs.single
  | command id len henc hlen hs' =>
    subst hs'
    exact hs.push id hlen

/-- The first block has what was encoded. -/
def BaseHolds (s : PagingState) : Prop :=
  s.encoded = [] ∨ s.commandsAt 0 = s.encoded.map (Prod.mk .now)

/-- A command that is encoded later than the first one, or into another block, is not in the first
block; and what an earlier use has left in the first block stays there. -/
theorem baseHolds_step (hs : s.Inv) (h : pagingMachine.step s call = .next s') :
    s'.BaseHolds ↔ s.BaseHolds ∧ s.OnlyFirst call := by
  unfold BaseHolds OnlyFirst
  cases callCase h with
  | none henc hbase hused hencoded hptr hcommands =>
    rw [hencoded, hcommands, henc]
    simp
  | command id len henc hlen hs' =>
    subst hs'
    have hne : s.encoded ++ [s.pushed id len] ≠ [] := by simp
    simp only [push_encoded, hne, false_or, henc, forall_const]
    constructor
    · intro hbase
      by_cases hptr : s.ptr = 0
      · -- What the block held before was encoded before, but at the base nothing was.
        have hself := commandsAt_push_self (s := s) id len
        rw [hptr, hbase, List.map_append] at hself
        have hold : s.encoded.map (Prod.mk .now) = s.commandsAt 0 :=
          List.append_cancel_right hself
        have hnil : s.encoded = [] := by
          refine List.eq_nil_iff_forall_not_mem.2 fun cmd hcmd => hs.ahead 0 hptr.le cmd ?_
          rw [← hold]
          exact List.mem_map_of_mem hcmd
        exact ⟨.inl hnil, hnil, hptr, by rw [← hold, hnil]; rfl⟩
      · -- the new command would have to be an old one, but it lies behind all of them
        have hmem : (Origin.now, s.pushed id len) ∈ s.commandsAt 0 := by
          rw [← commandsAt_push_of_ne (Ne.symm hptr) id len, hbase]
          simp
        obtain ⟨dma, hdma, -, -, hend⟩ := hs.inside _ (hs.encoded 0 _ hmem)
        cases hdma
        dsimp only at hend
        omega
    · rintro ⟨-, hnil, hptr, hempty⟩
      have hself := commandsAt_push_self (s := s) id len
      rw [hptr, hempty] at hself
      rw [hself, hnil]
      rfl

end PagingState

/-! ### What the submissions send -/

section Submissions

variable {start stop base : ℕ} {ranges : List (ℕ × ℕ)} {r : ℕ × ℕ} {block : Option PagingBlock}
  {cmd : Command}

theorem Partition.le (h : Partition start stop ranges) : start ≤ stop := by
  induction ranges generalizing start with
  | nil => exact h.le
  | cons r rs ih => exact h.2.1.trans (ih h.2.2)

theorem Partition.le_of_mem (h : Partition start stop ranges) (hr : r ∈ ranges) :
    start ≤ r.1 ∧ r.2 ≤ stop := by
  induction ranges generalizing start with
  | nil => cases hr
  | cons r' rs ih =>
    rcases List.mem_cons.1 hr with rfl | hr
    · exact ⟨h.1.ge, h.2.2.le⟩
    · exact ⟨h.2.1.trans (ih h.2.2 hr).1, (ih h.2.2 hr).2⟩

theorem submitPaging_of_eq (h : r.1 = r.2) : submitPaging block r = ([], block) := if_pos h

theorem submitPaging_of_ne (h : r.1 ≠ r.2) :
    submitPaging block r = (block.elim [] PagingBlock.commands, none) := by
  unfold submitPaging
  rw [if_neg h]
  cases block <;> rfl

theorem submitAll_of_empty (h : Partition start start ranges) :
    submitAll block ranges = ranges.map fun _ => [] := by
  induction ranges generalizing start with
  | nil => rfl
  | cons r rs ih =>
    obtain ⟨rfl, hle, hrs⟩ := h
    have heq : r.1 = r.2 := le_antisymm hle hrs.le
    rw [← heq] at hrs
    rw [submitAll, submitPaging_of_eq heq, List.map_cons, ih hrs]

theorem within_iff {addr len : ℕ} (h : cmd.dma = some ⟨addr, len⟩) :
    cmd.within base r = true ↔ base + r.1 ≤ addr ∧ addr + len ≤ base + r.2 := by
  simp [Command.within, h]

theorem submitAll_single {len : ℕ} (hdma : cmd.dma = some ⟨base, len⟩) (hlen : 0 < len)
    (h : Partition 0 len ranges) (hr : ∃ r ∈ ranges, cmd.within base r = true) :
    submitAll block ranges = ranges.map fun r =>
      if cmd.within base r then block.elim [] PagingBlock.commands else [] := by
  -- Induction on the pieces: the empty ones before the command leave the block as it is.
  induction ranges with
  | nil => simp at hr
  | cons r rs ih =>
    obtain ⟨hstart, -, hrs⟩ := h
    obtain ⟨r', hmem, hwithin⟩ := hr
    rw [within_iff hdma] at hwithin
    rcases Nat.eq_zero_or_pos r.2 with hstop | hstop
    · -- an empty piece
      have hno : cmd.within base r = false := by
        rw [← Bool.not_eq_true, within_iff hdma]
        omega
      have hmem' : r' ∈ rs := by
        rcases List.mem_cons.1 hmem with rfl | hmem
        · omega
        · exact hmem
      rw [hstop] at hrs
      rw [submitAll, submitPaging_of_eq (by omega), List.map_cons, hno,
        ih hrs ⟨r', hmem', (within_iff hdma).2 hwithin⟩]
      rfl
    · -- the piece with the command; only empty ones follow
      have hself : r' = r := by
        rcases List.mem_cons.1 hmem with rfl | hmem
        · rfl
        · have := hrs.le_of_mem hmem
          omega
      subst hself
      have hstop' : r'.2 = len := le_antisymm hrs.le (by omega)
      rw [hstop'] at hrs
      rw [submitAll, submitPaging_of_ne (by omega), List.map_cons,
        (within_iff hdma).2 hwithin, if_pos rfl, submitAll_of_empty hrs]
      congr 1
      refine List.map_congr_left fun r hr => ?_
      have := hrs.le_of_mem hr
      have hno : cmd.within base r = false := by
        rw [← Bool.not_eq_true, within_iff hdma]
        omega
      rw [hno]
      rfl

end Submissions

namespace PagingState

variable {s : PagingState}

theorem commandsAt_eq_elim (s : PagingState) (i : ℕ) :
    s.commandsAt i = (s.blocks i).elim [] PagingBlock.commands := by
  unfold commandsAt
  cases s.blocks i <;> rfl

theorem Inv.length_encoded (hs : s.Inv) (h : s.commandsAt 0 = s.encoded.map (Prod.mk .now)) :
    s.encoded.length ≤ 1 := by
  have honce := hs.once
  rw [h, List.filter_eq_self.2 (by simp), List.length_map] at honce
  exact honce

theorem Inv.sentExactly_iff (hs : s.Inv) : s.SentExactly ↔ s.BaseHolds := by
  constructor
  · intro hsent
    by_cases hnil : s.encoded = []
    · exact .inl hnil
    -- submit the buffer in one piece
    have hwithin : ∀ cmd ∈ s.encoded, cmd.within s.base (0, s.used) = true := by
      intro cmd hcmd
      obtain ⟨dma, hdma, -, hbase, hend⟩ := hs.inside cmd hcmd
      exact (within_iff hdma).2 ⟨by simpa using hbase, hend⟩
    have hpos : 0 < s.used := by
      obtain ⟨cmd, hcmd⟩ := List.exists_mem_of_ne_nil _ hnil
      obtain ⟨dma, -, hpos, hbase, hend⟩ := hs.inside cmd hcmd
      omega
    have hone := hsent [(0, s.used)] ⟨rfl, Nat.zero_le _, rfl⟩ fun cmd hcmd =>
      ⟨_, List.mem_singleton_self _, hwithin cmd hcmd⟩
    rw [submitAll, submitPaging_of_ne hpos.ne, ← commandsAt_eq_elim, List.map_singleton,
      List.filter_eq_self.2 hwithin] at hone
    exact .inr (List.cons.inj hone).1
  · rintro (hnil | hbase) ranges hpart hcut
    · -- Without commands the DMA buffer is empty, and old commands stay where they are.
      rw [hs.empty hnil] at hpart
      rw [submitAll_of_empty hpart, hnil]
      rfl
    · have hlen := hs.length_encoded hbase
      cases hencoded : s.encoded with
      | nil =>
        rw [hs.empty hencoded] at hpart
        rw [submitAll_of_empty hpart]
        rfl
      | cons cmd cmds =>
        obtain rfl : cmds = [] := by
          rw [hencoded] at hlen
          exact List.length_eq_zero_iff.1 (by simpa using hlen)
        have hdma := hs.single cmd hencoded
        obtain ⟨dma, hdma', hpos, -⟩ := hs.inside cmd (by simp [hencoded])
        rw [hdma] at hdma'
        cases hdma'
        rw [submitAll_single hdma hpos hpart (hcut cmd (by simp [hencoded])),
          ← commandsAt_eq_elim, hbase, hencoded]
        refine List.map_congr_left fun r _ => ?_
        cases hr : cmd.within s.base r <;> simp [hr]

end PagingState

/-- **When a paging buffer is sent as it was encoded.**  However the buffer is cut into pieces
between its commands, each submission sends the commands of its piece, in order and nothing else,
exactly if no operation but a first one at the base of the private data encodes a command into a
block that holds none. -/
theorem paging_sent_iff (base : ℕ) (old : ℕ → Option CommandDmaPrivate) (calls : List PagingCall)
    (s : PagingState) (hrun : pagingMachine.run (.start base old) calls = some s) :
    s.SentExactly ↔ pagingMachine.Meets PagingState.OnlyFirst (.start base old) calls := by
  have hinv : s.Inv := Machine.run_invariant (fun _ _ _ => PagingState.Inv.step)
    (PagingState.inv_start base old) hrun
  rw [hinv.sentExactly_iff]
  exact Machine.iff_meets_of_step (fun _ _ _ => PagingState.Inv.step)
    (fun _ _ _ => PagingState.baseHolds_step) (PagingState.inv_start base old) (.inl rfl) hrun

/-- A call with room for everything. -/
def pagingCall (op : PagingOp) : PagingCall := ⟨op, false, 4096, 8192⟩

/-- Operations without a command, one that maps two pages, and a flush. -/
def mappedOnce : List PagingCall :=
  [pagingCall (.fill (.alloc true)), pagingCall (.mapApertureSegment (.alloc true) 2 0 2),
    pagingCall .flushTlb]

theorem paging_sent_iff_mappedOnce :
    ∃ s, pagingMachine.run (.start 0x1000 fun _ => none) mappedOnce = some s ∧
      s.encoded = [.new .mapAperture none 0 (some ⟨0x1000, 64⟩)] ∧ s.SentExactly := by
  have hrun : (pagingMachine.run (.start 0x1000 fun _ => none) mappedOnce).map (·.encoded) =
      some [.new .mapAperture none 0 (some ⟨0x1000, 64⟩)] := by decide
  obtain ⟨s, hs, hencoded⟩ := Option.map_eq_some_iff.1 hrun
  exact ⟨s, hs, hencoded, (paging_sent_iff _ _ _ s hs).2 (by decide)⟩

/-- **Commands are lost and found.**  Of two unmap operations that are submitted with one buffer
only the first is sent.  The second is still there when the memory is used again, and is then sent
together with the command of another operation. -/
theorem paging_command_lost :
    (pagingMachine.run (.start 0x1000 fun _ => none)
        [pagingCall (.unmapApertureSegment (.alloc true)),
          pagingCall (.unmapApertureSegment (.alloc true))]).map (fun s =>
        (s.encoded.length, submitAll (s.blocks 0) [(0, 32), (32, 64)], s.commandsAt 1)) =
      some (2, [[(.now, .new .unmapAperture none 0 (some ⟨0x1000, 32⟩))], []],
        [(.now, .new .unmapAperture none 0 (some ⟨0x1020, 32⟩))]) ∧
    (pagingMachine.run (.start 0x1000 fun i =>
        if i = 0 then some ⟨[.new .unmapAperture none 0 (some ⟨0x1020, 32⟩)], []⟩ else none)
        [pagingCall (.unmapApertureSegment (.alloc true))]).map (fun s =>
        submitAll (s.blocks 0) [(0, 32)]) =
      some [[(.earlier, .new .unmapAperture none 0 (some ⟨0x1020, 32⟩)),
        (.now, .new .unmapAperture none 0 (some ⟨0x1000, 32⟩))]] :=
  ⟨rfl, rfl⟩

/-! ### The submissions are those of the adapter -/

/-- The `CommandDmaPrivate` in a block. -/
def PagingBlock.toPrivate (b : PagingBlock) : CommandDmaPrivate :=
  ⟨b.commands.map Prod.snd, b.allocations⟩

/-- The private data starts with this block, or without the tag. -/
def PrivateMemory.Reads (m : PrivateMemory) : Option PagingBlock → Prop
  | some b => m.tag = commandDmaPrivateTag ∧ m.value = b.toPrivate
  | none => m.tag ≠ commandDmaPrivateTag

/-- The commands of a submission. -/
def Work.list : Work → List Command
  | .commands v => v.commands
  | .nop | .user _ => []

theorem reads_taken (m : PrivateMemory) : m.taken.Reads none := by
  have htag : m.taken.tag = invalidTag := rfl
  rw [PrivateMemory.Reads, htag]
  decide

theorem reads_submit {m : PrivateMemory} {block : Option PagingBlock} {a : SubmitArgs}
    (hm : m.Reads block) (hpaging : a.paging = true) (hsize : a.privateSize ≠ 0) :
    (a.work m).list = (submitPaging block a.dmaRange).1.map Prod.snd ∧
      (Adapter.leave m (a.work m)).Reads (submitPaging block a.dmaRange).2 := by
  have hempty : a.isEmpty = (a.dmaRange.1 == a.dmaRange.2) := by
    simp [SubmitArgs.isEmpty, hpaging, hsize]
  unfold SubmitArgs.work
  rw [hempty]
  by_cases hrange : a.dmaRange.1 = a.dmaRange.2
  · rw [if_pos (by simpa using hrange), submitPaging_of_eq hrange]
    exact ⟨rfl, hm⟩
  · rw [if_neg (by simpa using hrange), submitPaging_of_ne hrange]
    cases block with
    | none =>
      rw [if_neg hm]
      exact ⟨rfl, hm⟩
    | some =>
      rw [if_pos hm.1, hm.2]
      exact ⟨rfl, reads_taken m⟩

section Inputs

variable {size : ℕ} {env : SubmitEnv} {s s' : GpuChannel size} {e : Engine} {f : ℕ}

theorem inputs_submitCommand {cmd : Command} {allocations : Option (List ℕ)} (hid : cmd.id ≠ .nop)
    (h : s.submitCommand env e f cmd allocations = (.ok (), s')) :
    ∃ b, s'.control.chan = s.control.chan ++ [b] ∧ some b.input = cmd.input := by
  simp only [GpuChannel.submitCommand, if_neg hid] at h
  cases hdma : cmd.getDma with
  | none => simp [hdma] at h
  | some dma =>
    have hrequest : ∀ callback,
        (s.submit env e f).requestAsync env (.submitCommand dma callback) = (.ok (), s') →
        ∃ b, s'.control.chan = s.control.chan ++ [b] ∧ some b.input = cmd.input := by
      intro callback h
      obtain ⟨b, hb, -, hinput⟩ := GpuChannel.buffer_submitCommand env.alloc dma callback
      rw [GpuChannel.requestAsync_of_ok hb] at h
      cases h
      exact ⟨b, rfl, by simp [hinput, Command.input, hdma]⟩
    simp only [hdma] at h
    cases allocations with
    | none | some allocations => exact hrequest _ h

theorem inputs_submitTaken {v : CommandDmaPrivate} (hcmds : ∀ cmd ∈ v.commands, cmd.id ≠ .nop)
    (h : Adapter.submitTaken env s e f v = .next (.ok (), s')) :
    ∃ bs, s'.control.chan = s.control.chan ++ bs ∧
      bs.map Buffer.input = v.commands.filterMap Command.input := by
  unfold Adapter.submitTaken at h
  by_cases hlen : v.commands.length ≤ 1
  · rw [if_pos hlen] at h
    have h := Outcome.next.inj h
    cases hv : v.commands with
    | nil =>
      simp only [hv] at h
      cases h
      exact ⟨[], (List.append_nil _).symm, rfl⟩
    | cons cmd cmds =>
      obtain rfl : cmds = [] := by
        rw [hv] at hlen
        exact List.length_eq_zero_iff.1 (by simpa using hlen)
      simp only [hv, List.head?_cons, Option.getD_some] at h
      obtain ⟨b, hchan, hinput⟩ := inputs_submitCommand (hcmds cmd (by simp [hv])) h
      exact ⟨[b], hchan, by simp [← hinput]⟩
  · simp only [if_neg hlen, GpuChannel.submitCommandBatch] at h
    obtain ⟨r, hloop, h⟩ := Outcome.bind_eq_next.1 h
    obtain ⟨bs, -, hinputs, rfl⟩ := GpuChannel.pushBatched_eq_next hloop
    have h := (Prod.mk.inj (Outcome.next.inj h)).2
    refine ⟨bs, ?_, hinputs⟩
    rw [← h]
    -- Letting go of the batch queues nothing.
    unfold GpuChannel.releaseBatch
    dsimp only
    split_ifs <;> rfl

end Inputs

end VirtioGpu
