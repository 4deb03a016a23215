import VirtioGpu.Queue.Buffer
import VirtioGpu.Uapi.Command

/-!
# The parsers for a single command

Three entry points take one command from a buffer that starts with a tagged structure: the
`EXEC_BUF` escape, the private data of a virtual submission and that of a resource creation.  They
share their code (`UserBuffer.singleCommand`), but not the checks before it.  The escape and the
creation compare the length with the size of the structure first; `submit_command_virtual` does not:
it reads the tag and takes a whole `CommandDmaPrivate`, or subtracts the size of a `SubmitCommand`
with wrap-around.  All three check that the body ends where the buffer ends, but only after
`command_slice` has read the value of a fence.
-/

namespace VirtioGpu

/-- `VIRTIO_GPU_COMMAND_DMA_PRIVATE_TAG`, "VGPUDMAC". -/
def commandDmaPrivateTag : List UInt8 := [0x56, 0x47, 0x50, 0x55, 0x44, 0x4d, 0x41, 0x43]

/-- `SUBMIT_COMMAND_VIRTUAL_TAG`, "VSUBCMDV". -/
def submitCommandVirtualTag : List UInt8 := [0x56, 0x53, 0x55, 0x42, 0x43, 0x4d, 0x44, 0x56]

/-- `CREATE_RESOURCE_TAG`, "VALLRESR". -/
def createResourceTag : List UInt8 := [0x56, 0x41, 0x4c, 0x4c, 0x52, 0x45, 0x53, 0x52]

/-- `size_of::<CommandDmaPrivate>()`. -/
def commandDmaPrivateSize : ℕ := 112

/-- `size_of::<SubmitCommand>()`. -/
def submitCommandSize : ℕ := 8

/-- `size_of::<ExecBuffer>()`. -/
def execBufferSize : ℕ := 16

/-- `size_of::<CreateResource>()`. -/
def createResourceSize : ℕ := 8

/-- What user mode asks `submit_command_virtual` for. -/
inductive UserCommand where
  | submit (ctx : ℕ) (ring : Option ℕ) (data : List UInt8)
  | fence (virtioFence : ℕ)

/-- What the private data of a virtual submission is taken for. -/
inductive PrivateData where
  | dmaPrivate
  | usermode (cmd : UserCommand)
  | invalid

namespace UserBuffer

variable (b : UserBuffer)

/-- The length of the `cmd` slice after a structure of `k` bytes: `priv_size - k`, which wraps. -/
def cmdLen (k : ℕ) : ℕ := (b.len + 2 ^ 64 - k) % 2 ^ 64

/-- The command with header `hdr` after a structure of `k` bytes; it must end where the buffer
ends. -/
def singleBody (k : ℕ) (hdr : CommandHeader) : Reads NtStatus (CommandHeader × CommandBody) :=
  if hdr.shadowVirgl then Reads.throw .invalidParameter
  else do
    let body ← (b.commandSlice hdr (k + commandHeaderSize)).mapErr fun _ => .invalidParameter
    if commandHeaderSize + hdr.size ≠ b.cmdLen k then Reads.throw .invalidParameter
    else pure (hdr, body)

/-- The one command after a structure of `k` bytes. -/
def singleCommand (k : ℕ) : Reads NtStatus (CommandHeader × CommandBody) :=
  if b.cmdLen k < commandHeaderSize then Reads.throw .invalidParameter
  else do
    Reads.read ⟨k, commandHeaderSize⟩
    let hdr ← Reads.ofExcept ((b.rawHeader k).tryAsHdr.mapError fun _ => .invalidParameter)
    b.singleBody k hdr

/-- Copy a slice of the buffer. -/
def copy (r : Slice) : Reads NtStatus (List UInt8) := do
  Reads.read r
  pure (b.bytesAt r.addr r.len)

/-- The end of `submit_command_virtual` for a command of user mode; `ctx` is the host context of
the device. -/
def userCommand (ctx : Option ℕ) : CommandHeader × CommandBody → Reads NtStatus UserCommand
  | (hdr, .submit data) => match ctx with
    | none => Reads.throw .invalidParameter
    | some ctx => do
        let bytes ← b.copy data
        pure (.submit ctx hdr.ringIndex bytes)
  | (_, .fence virtioFence) => pure (.fence virtioFence)
  | _ => Reads.throw .invalidParameter

/-- The private data of `submit_command_virtual`, for a context whose device has the host context
`ctx`. -/
def privateData (ctx : Option ℕ) : Reads NtStatus PrivateData := do
  -- `TaggedExt::from_handle_silent_mut` does not know how long the private data is
  Reads.read ⟨0, 8⟩
  if b.tag = commandDmaPrivateTag then do
    -- `core::mem::take`
    Reads.read ⟨0, commandDmaPrivateSize⟩
    pure .dmaPrivate
  else if b.tag = submitCommandVirtualTag then do
    let cmd ← b.singleCommand submitCommandSize
    let user ← b.userCommand ctx cmd
    pure (.usermode user)
  else pure .invalid

/-- The branch of `escape` for `ESCAPE_EXEC_BUF_TAG`: the ring and the bytes to submit.  `ctx` is
the `DeviceContext` of the call, if it has one, with the host context of its device. -/
def execBuffer (ctx : Option (Option ℕ)) : Reads NtStatus (ℕ × Option ℕ × List UInt8) :=
  if b.len < 8 then Reads.throw .bufferTooSmall
  else do
    Reads.read ⟨0, 8⟩
    if b.len < execBufferSize then Reads.throw .bufferTooSmall
    else do
      let (hdr, body) ← b.singleCommand execBufferSize
      match body with
      | .submit data => match ctx with
        | none => Reads.throw .invalidParameter
        | some none => Reads.throw .reinitializationNeeded
        | some (some ctx) => do
            let bytes ← b.copy data
            pure (ctx, hdr.ringIndex, bytes)
      | _ => Reads.throw .invalidParameter

/-- The start of `allocate_full`: the command stream of a `CreateResource`, if there is one. -/
def createResource : Reads NtStatus (Option (List UInt8)) :=
  if b.len < createResourceSize then pure none
  else do
    Reads.read ⟨0, createResourceSize⟩
    if b.tag ≠ createResourceTag then pure none
    else if b.cmdLen createResourceSize = 0 then pure none
    else do
      let (_, body) ← b.singleCommand createResourceSize
      match body with
      | .submit data => do
          let bytes ← b.copy data
          pure (some bytes)
      | _ => Reads.throw .invalidParameter

/-! ### What they read -/

/-- The command after a structure of `k` bytes is a fence whose value is read. -/
def FenceAt (k : ℕ) : Prop :=
  ∃ hdr, (b.rawHeader k).tryAsHdr = .ok hdr ∧ hdr.shadowVirgl = false ∧
    b.FenceRead hdr (k + commandHeaderSize)

variable {b} {k n : ℕ} {hdr : CommandHeader} {body : CommandBody}

theorem cmdLen_of_le (h : k ≤ b.len) : b.cmdLen k = b.len - k := by
  have := b.len_lt
  unfold cmdLen
  omega

theorem within_singleBody : (b.singleBody k hdr).Within n ↔
    (hdr.shadowVirgl = false → b.FenceRead hdr (k + 8) → k + 16 ≤ n) := by
  unfold singleBody commandHeaderSize
  cases hshadow : hdr.shadowVirgl with
  | true => simp
  | false =>
    simp only [Bool.false_eq_true, if_false, forall_const]
    rw [Reads.within_bind, Reads.within_mapErr, within_commandSlice, Nat.add_assoc]
    refine and_iff_left fun body _ => ?_
    split_ifs <;> simp

theorem within_singleCommand :
    (b.singleCommand k).Within n ↔ (8 ≤ b.cmdLen k → k + 8 ≤ n ∧ (b.FenceAt k → k + 16 ≤ n)) := by
  unfold singleCommand FenceAt commandHeaderSize
  split_ifs with hlen
  · simp only [Reads.within_throw, true_iff]
    omega
  · have hlen' : 8 ≤ b.cmdLen k := by omega
    simp only [Reads.within_bind, Reads.within_read, Reads.within_ofExcept, true_and,
      Reads.result_read, Reads.result_ofExcept, mapError_eq_ok, forall_const, within_singleBody,
      hlen']
    refine and_congr_right fun _ => ⟨?_, ?_⟩
    · rintro h ⟨hdr, hhdr, hshadow, hread⟩
      exact h hdr hhdr hshadow hread
    · intro h hdr hhdr hshadow hread
      exact h ⟨hdr, hhdr, hshadow, hread⟩

theorem singleBody_eq_ok_iff {hdr' : CommandHeader} :
    (b.singleBody k hdr').result = .ok (hdr, body) ↔
      hdr' = hdr ∧ hdr.shadowVirgl = false ∧ commandHeaderSize + hdr.size = b.cmdLen k ∧
        (b.commandSlice hdr (k + commandHeaderSize)).result = .ok body := by
  unfold singleBody
  constructor
  · intro h
    cases hshadow : hdr'.shadowVirgl with
    | true => simp [hshadow] at h
    | false =>
      simp only [hshadow, Bool.false_eq_true, if_false] at h
      obtain ⟨body', hbody, h⟩ := Reads.result_bind_eq_ok.1 h
      split_ifs at h with hsize
      · cases h
      · cases h
        exact ⟨rfl, hshadow, not_not.1 hsize, Reads.result_mapErr_eq_ok.1 hbody⟩
  · rintro ⟨rfl, hshadow, hsize, hbody⟩
    rw [if_neg (by simp [hshadow]), Reads.result_bind_of_ok (Reads.result_mapErr_eq_ok.2 hbody),
      if_neg (not_not.2 hsize)]
    rfl

theorem singleCommand_eq_ok_iff : (b.singleCommand k).result = .ok (hdr, body) ↔
    (b.rawHeader k).tryAsHdr = .ok hdr ∧ hdr.shadowVirgl = false ∧
      commandHeaderSize + hdr.size = b.cmdLen k ∧
      (b.commandSlice hdr (k + commandHeaderSize)).result = .ok body := by
  unfold singleCommand
  by_cases hlen : b.cmdLen k < commandHeaderSize
  · rw [if_pos hlen]
    refine iff_of_false nofun ?_
    rintro ⟨-, -, hsize, -⟩
    omega
  · rw [if_neg hlen, Reads.result_bind_of_ok (Reads.result_read _), Reads.result_bind_eq_ok]
    simp only [Reads.result_ofExcept, mapError_eq_ok, singleBody_eq_ok_iff]
    constructor
    · rintro ⟨hdr', hhdr, rfl, h⟩
      exact ⟨hhdr, h⟩
    · rintro ⟨hhdr, h⟩
      exact ⟨hdr, hhdr, rfl, h⟩

theorem within_copy_of_singleCommand (hk : k ≤ b.len) {data : Slice}
    (h : (b.singleCommand k).result = .ok (hdr, .submit data)) : (b.copy data).Within b.len := by
  obtain ⟨-, -, hsize, hbody⟩ := singleCommand_eq_ok_iff.1 h
  rw [cmdLen_of_le hk, commandHeaderSize] at hsize
  have hdata : data = ⟨k + 8, hdr.size⟩ := slice_of_commandSlice hbody (.inl rfl)
  rw [copy, Reads.within_bind, hdata]
  simp only [Reads.within_read, Reads.within_pure]
  exact ⟨by omega, fun _ _ => trivial⟩

theorem within_singleCommand_bind {α : Type} (hk : k ≤ b.len)
    {f : CommandHeader × CommandBody → Reads NtStatus α}
    (hf : ∀ hdr body, (b.singleCommand k).result = .ok (hdr, body) →
      (f (hdr, body)).Within b.len) :
    (b.singleCommand k >>= f).Within b.len ↔
      (k + 8 ≤ b.len → b.FenceAt k → k + 16 ≤ b.len) := by
  rw [Reads.within_bind, within_singleCommand, cmdLen_of_le hk]
  constructor
  · rintro ⟨hsingle, -⟩ hlen
    exact (hsingle (by omega)).2
  · refine fun h => ⟨fun hlen => ⟨by omega, h (by omega)⟩, ?_⟩
    rintro ⟨hdr, body⟩ hok
    exact hf hdr body hok

/-- A command of user mode is not taken for a `CommandDmaPrivate`. -/
theorem usermode_ne_dmaPrivate {x : Reads NtStatus (CommandHeader × CommandBody)}
    {ctx : Option ℕ} :
    (do
      let cmd ← x
      let user ← b.userCommand ctx cmd
      pure (PrivateData.usermode user)).result ≠ .ok .dmaPrivate := by
  refine Reads.result_bind_ne_ok fun cmd => Reads.result_bind_ne_ok fun user => ?_
  simp

/-- The tag alone decides whether the private data is taken for a `CommandDmaPrivate`. -/
theorem privateData_eq_dmaPrivate_iff (ctx : Option ℕ) :
    (b.privateData ctx).result = .ok .dmaPrivate ↔ b.tag = commandDmaPrivateTag := by
  rw [privateData, Reads.result_bind_of_ok (Reads.result_read _)]
  by_cases hdma : b.tag = commandDmaPrivateTag
  · rw [if_pos hdma, Reads.result_bind_of_ok (Reads.result_read _)]
    simp [hdma]
  · rw [if_neg hdma, iff_false_right hdma]
    by_cases htag : b.tag = submitCommandVirtualTag
    · rw [if_pos htag]
      exact usermode_ne_dmaPrivate
    · rw [if_neg htag]
      simp

/-- `submit_command_virtual` reads beyond the user's bytes if these are shorter than the tag or than
the `CommandDmaPrivate` that the tag says they are, or if they stop before the value of a fence. -/
theorem within_privateData (ctx : Option ℕ) : (b.privateData ctx).Within b.len ↔
    8 ≤ b.len ∧ (b.tag = commandDmaPrivateTag → commandDmaPrivateSize ≤ b.len) ∧
      (b.tag = submitCommandVirtualTag → 16 ≤ b.len → b.FenceAt 8 → 24 ≤ b.len) := by
  unfold privateData
  rw [Reads.within_read_bind, Nat.zero_add]
  refine and_congr_right fun hlen => ?_
  split_ifs with hdma htag
  · have hne : b.tag ≠ submitCommandVirtualTag := by
      rw [hdma]
      decide
    rw [Reads.within_read_bind, Nat.zero_add, and_iff_left Reads.within_pure,
      forall_prop_of_true hdma, and_iff_left fun h => absurd h hne]
  · rw [and_iff_right fun h => absurd h hdma, forall_prop_of_true htag]
    refine within_singleCommand_bind (k := submitCommandSize) hlen fun hdr body hok => ?_
    rw [Reads.within_bind, and_iff_left fun _ _ => Reads.within_pure]
    cases body with
    | submit =>
      cases ctx with
      | none => exact Reads.within_throw _
      | some =>
        simp only [userCommand, Reads.within_bind, Reads.within_pure, implies_true, and_true]
        exact within_copy_of_singleCommand hlen hok
    | fence => exact Reads.within_pure
    | nop | transferToHost _ _ | transferFromHost _ _ => exact Reads.within_throw _
  · simp [hdma, htag]

theorem within_execBuffer (ctx : Option (Option ℕ)) : (b.execBuffer ctx).Within b.len ↔
    (24 ≤ b.len → b.FenceAt 16 → 32 ≤ b.len) := by
  unfold execBuffer
  by_cases hlen : b.len < 8
  · rw [if_pos hlen]
    simp only [Reads.within_throw, true_iff]
    omega
  · rw [if_neg hlen]
    rw [Reads.within_read_bind, Nat.zero_add, and_iff_right (not_lt.1 hlen)]
    split_ifs with hlen'
    · unfold execBufferSize at hlen'
      simp only [Reads.within_throw, true_iff]
      omega
    · refine within_singleCommand_bind (k := execBufferSize) (by omega) fun hdr body hok => ?_
      cases body with
      | submit data =>
        cases ctx with
        | none => exact Reads.within_throw _
        | some ctx =>
          cases ctx with
          | none => exact Reads.within_throw _
          | some ctx =>
            simp only [Reads.within_bind, Reads.within_pure, implies_true, and_true]
            exact within_copy_of_singleCommand (by omega) hok
      | nop | fence _ | transferToHost _ _ | transferFromHost _ _ => exact Reads.within_throw _

theorem within_createResource : b.createResource.Within b.len ↔
    (b.tag = createResourceTag → 16 ≤ b.len → b.FenceAt 8 → 24 ≤ b.len) := by
  unfold createResource
  by_cases hlen : b.len < createResourceSize
  · rw [if_pos hlen]
    unfold createResourceSize at hlen
    simp only [Reads.within_pure, true_iff]
    omega
  · rw [if_neg hlen]
    rw [Reads.within_read_bind, Nat.zero_add, and_iff_right (not_lt.1 hlen)]
    by_cases htag : b.tag = createResourceTag
    · rw [forall_prop_of_true htag, if_neg (not_not.2 htag)]
      split_ifs with hempty
      · rw [cmdLen_of_le (by omega)] at hempty
        unfold createResourceSize at hempty
        simp only [Reads.within_pure, true_iff]
        omega
      · refine within_singleCommand_bind (k := createResourceSize) (by omega) fun hdr body hok => ?_
        cases body with
        | submit data =>
          simp only [Reads.within_bind, Reads.within_pure, implies_true, and_true]
          exact within_copy_of_singleCommand (by omega) hok
        | nop | fence _ | transferToHost _ _ | transferFromHost _ _ => exact Reads.within_throw _
    · simp [htag]

end UserBuffer

end VirtioGpu
