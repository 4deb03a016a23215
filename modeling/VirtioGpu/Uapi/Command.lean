import VirtioGpu.Data.Reads

/-!
# Commands from user mode

User mode describes work as a sequence of commands, each a header of 8 bytes and a body
(`uapi.rs`).  `CommandHeaderRaw::try_as_hdr` checks the header and `CommandHeader::command_slice`
finds the body.  Neither knows how long the buffer is: `command_slice` turns the 32-bit size in the
header into a slice with `slice_from_raw_parts`, and for a fence it reads the value at once.  Where
the body ends is left to the callers to check.

Offsets are relative to the start of the buffer.  The memory behind the buffer goes on, and what
these functions read of it is recorded (`Reads`).  Memory of user mode may also not be there, in the
buffer or behind it: reading it raises an exception.
-/

namespace VirtioGpu

/-- A buffer supplied by user mode: its address, its length (a `UINT`), and the memory from its
first byte on, which does not stop at the end of the buffer. -/
structure UserBuffer where
  addr : ℕ
  len : ℕ
  mem : ℕ → UInt8
  /-- The bytes that can be read without an exception. -/
  mapped : ℕ → Bool
  len_lt : len < 2 ^ 32

namespace UserBuffer

variable (b : UserBuffer)

/-- The `n` bytes at `off`. -/
def bytesAt (off n : ℕ) : List UInt8 :=
  (List.range n).map fun k => b.mem (off + k)

/-- The little-endian number of `n` bytes at `off`. -/
def natAt (off n : ℕ) : ℕ := leNat (b.bytesAt off n)

/-- The tag a structure starts with, as its 8 bytes. -/
def tag : List UInt8 := b.bytesAt 0 8

/-- Reading the range raises no exception. -/
def Readable (r : Slice) : Prop := ∀ k < r.len, b.mapped (r.addr + k) = true

instance (b : UserBuffer) (r : Slice) : Decidable (b.Readable r) :=
  inferInstanceAs (Decidable (∀ k < r.len, b.mapped (r.addr + k) = true))

/-- The bytes at `off` are `l`. -/
def HasBytes (off : ℕ) (l : List UInt8) : Prop := b.bytesAt off l.length = l

/-- The bytes at `off` are `l`, and they can be read. -/
def Holds (off : ℕ) (l : List UInt8) : Prop :=
  b.HasBytes off l ∧ b.Readable ⟨off, l.length⟩

variable {b} {off n x : ℕ} {l m : List UInt8}

@[simp] theorem length_bytesAt (b : UserBuffer) (off n : ℕ) : (b.bytesAt off n).length = n := by
  simp [bytesAt]

theorem bytesAt_add (b : UserBuffer) (off n m : ℕ) :
    b.bytesAt off (n + m) = b.bytesAt off n ++ b.bytesAt (off + n) m := by
  simp [bytesAt, List.range_add, Nat.add_assoc]

theorem hasBytes_append :
    b.HasBytes off (l ++ m) ↔ b.HasBytes off l ∧ b.HasBytes (off + l.length) m := by
  unfold HasBytes
  rw [List.length_append, bytesAt_add]
  exact List.append_eq_append_iff_of_size_eq_left (length_bytesAt b off l.length)

theorem readable_add {i j : ℕ} :
    b.Readable ⟨off, i + j⟩ ↔ b.Readable ⟨off, i⟩ ∧ b.Readable ⟨off + i, j⟩ := by
  unfold Readable
  dsimp only
  constructor
  · intro h
    refine ⟨fun k hk => h k (by omega), fun k hk => ?_⟩
    rw [Nat.add_assoc]
    exact h (i + k) (by omega)
  · rintro ⟨hfirst, hrest⟩ k hk
    rcases Nat.lt_or_ge k i with hki | hki
    · exact hfirst k hki
    · have := hrest (k - i) (by omega)
      rwa [Nat.add_assoc, Nat.add_sub_cancel' hki] at this

theorem holds_append : b.Holds off (l ++ m) ↔ b.Holds off l ∧ b.Holds (off + l.length) m := by
  unfold Holds
  rw [hasBytes_append, List.length_append, readable_add]
  tauto

theorem natAt_of_hasBytes (h : b.HasBytes off (leBytes n x)) (hx : x < 256 ^ n) :
    b.natAt off n = x := by
  unfold HasBytes at h
  rw [length_leBytes] at h
  rw [natAt, h, leNat_leBytes hx]

theorem natAt_lt (b : UserBuffer) (off n : ℕ) : b.natAt off n < 256 ^ n := by
  have hlt := leNat_lt (b.bytesAt off n)
  rwa [length_bytesAt] at hlt

theorem hasBytes_natAt (b : UserBuffer) (off n : ℕ) :
    b.HasBytes off (leBytes n (b.natAt off n)) := by
  have hbytes := leBytes_leNat (b.bytesAt off n)
  rw [length_bytesAt] at hbytes
  rw [HasBytes, length_leBytes]
  exact hbytes.symm

end UserBuffer

inductive CommandId where
  | nop
  | submit
  | transferToHost
  | transferFromHost
  | fence
  | mapAperture
  | unmapAperture
  deriving DecidableEq

/-- `CommandId::try_from`: the commands user mode may use. -/
def CommandId.tryFrom : ℕ → Except String CommandId
  | 0 => .ok .nop
  | 1 => .ok .submit
  | 2 => .ok .transferToHost
  | 3 => .ok .transferFromHost
  | 4 => .ok .fence
  | _ => .error "invalid id"

/-- `size_of::<CommandHeader>()`. -/
def commandHeaderSize : ℕ := 8

/-- `size_of::<CommandTransfer>()`. -/
def commandTransferSize : ℕ := 48

structure CommandHeader where
  id : CommandId
  flags : ℕ
  ring : ℕ
  size : ℕ

namespace CommandHeader

/-- `CommandHeader::ring`. -/
def ringIndex (hdr : CommandHeader) : Option ℕ :=
  if hdr.flags.testBit 0 then some hdr.ring else none

def shadowVirgl (hdr : CommandHeader) : Bool := hdr.flags.testBit 1

end CommandHeader

structure CommandHeaderRaw where
  id : ℕ
  flags : ℕ
  ring : ℕ
  size : ℕ

/-- The bytes at `off` taken for a `CommandHeaderRaw`. -/
def UserBuffer.rawHeader (b : UserBuffer) (off : ℕ) : CommandHeaderRaw where
  id := b.natAt off 2
  flags := b.natAt (off + 2) 1
  ring := b.natAt (off + 3) 1
  size := b.natAt (off + 4) 4

namespace CommandHeaderRaw

/-- The bytes of the header in memory. -/
def bytes (raw : CommandHeaderRaw) : List UInt8 :=
  leBytes 2 raw.id ++ (leBytes 1 raw.flags ++ (leBytes 1 raw.ring ++ leBytes 4 raw.size))

/-- The fields have the widths of the source. -/
structure Fits (raw : CommandHeaderRaw) : Prop where
  id : raw.id < 256 ^ 2
  flags : raw.flags < 256 ^ 1
  ring : raw.ring < 256 ^ 1
  size : raw.size < 256 ^ 4

@[simp] theorem length_bytes (raw : CommandHeaderRaw) : raw.bytes.length = commandHeaderSize := by
  simp [bytes, commandHeaderSize]

end CommandHeaderRaw

namespace UserBuffer

variable {b : UserBuffer} {off : ℕ} {raw : CommandHeaderRaw}

theorem rawHeader_of_hasBytes (h : b.HasBytes off raw.bytes) (hfits : raw.Fits) :
    b.rawHeader off = raw := by
  simp only [CommandHeaderRaw.bytes, hasBytes_append, length_leBytes, Nat.add_assoc] at h
  obtain ⟨hid, hflags, hring, hsize⟩ := h
  rw [rawHeader, natAt_of_hasBytes hid hfits.id, natAt_of_hasBytes hflags hfits.flags,
    natAt_of_hasBytes hring hfits.ring, natAt_of_hasBytes hsize hfits.size]

theorem hasBytes_rawHeader (b : UserBuffer) (off : ℕ) :
    b.HasBytes off (b.rawHeader off).bytes := by
  simp only [CommandHeaderRaw.bytes, hasBytes_append, length_leBytes, Nat.add_assoc]
  exact ⟨b.hasBytes_natAt _ _, b.hasBytes_natAt _ _, b.hasBytes_natAt _ _, b.hasBytes_natAt _ _⟩

theorem fits_rawHeader (b : UserBuffer) (off : ℕ) : (b.rawHeader off).Fits :=
  ⟨b.natAt_lt _ _, b.natAt_lt _ _, b.natAt_lt _ _, b.natAt_lt _ _⟩

end UserBuffer

def CommandHeaderRaw.tryAsHdr (raw : CommandHeaderRaw) : Except String CommandHeader :=
  match CommandId.tryFrom raw.id with
  | .error e => .error e
  | .ok id =>
    -- `CommandFlag::from_bits` knows two flags.
    if raw.flags < 4 then .ok ⟨id, raw.flags, raw.ring, raw.size⟩ else .error "invalid flags"

theorem CommandHeaderRaw.tryAsHdr_eq_ok_iff {raw : CommandHeaderRaw} {hdr : CommandHeader} :
    raw.tryAsHdr = .ok hdr ↔ CommandId.tryFrom raw.id = .ok hdr.id ∧ raw.flags < 4 ∧
      hdr = ⟨hdr.id, raw.flags, raw.ring, raw.size⟩ := by
  unfold tryAsHdr
  cases CommandId.tryFrom raw.id with
  | error => simp
  | ok =>
    by_cases hflags : raw.flags < 4
    · simp only [hflags, if_true, Except.ok.injEq, true_and]
      constructor
      · rintro rfl
        exact ⟨rfl, rfl⟩
      · rintro ⟨rfl, hhdr⟩
        exact hhdr.symm
    · simp [hflags]

/-- `CommandBody`; a slice is a range of the buffer, or for transfers the offset of the first and
their number. -/
inductive CommandBody where
  | nop
  | submit (data : Slice)
  | fence (value : ℕ)
  | transferToHost (off count : ℕ)
  | transferFromHost (off count : ℕ)

/-- `CommandBodyItem`; a transfer is given by the offset of its `CommandTransfer`. -/
inductive CommandBodyItem where
  | submit (data : Slice)
  | fence (value : ℕ)
  | transferToHost (off : ℕ)
  | transferFromHost (off : ℕ)

namespace CommandBody

def len : CommandBody → ℕ
  | nop => 0
  | submit _ => 1
  | fence _ => 1
  | transferToHost _ count | transferFromHost _ count => count

def id : CommandBody → CommandId
  | nop => .nop
  | submit _ => .submit
  | fence _ => .fence
  | transferToHost .. => .transferToHost
  | transferFromHost .. => .transferFromHost

/-- What `CommandBodyIterator` goes through. -/
def items : CommandBody → List CommandBodyItem
  | nop => []
  | submit data => [.submit data]
  | fence value => [.fence value]
  | transferToHost off count =>
      (List.range count).map fun i => .transferToHost (off + i * commandTransferSize)
  | transferFromHost off count =>
      (List.range count).map fun i => .transferFromHost (off + i * commandTransferSize)

/-- The part of the buffer the body refers to. -/
def slice : CommandBody → Slice
  | nop | fence _ => ⟨0, 0⟩
  | submit data => data
  | transferToHost off count | transferFromHost off count => ⟨off, count * commandTransferSize⟩

end CommandBody

namespace UserBuffer

/-- `CommandHeader::try_commands_from_body`: the number of elements of `elemSize` bytes, aligned to
`align`, in the body at `body`. -/
def tryCommandsFromBody (b : UserBuffer) (hdr : CommandHeader) (body elemSize align : ℕ) :
    Except String ℕ :=
  if (b.addr + body) % align ≠ 0 then .error "body is not aligned to element size"
  else if hdr.size % elemSize ≠ 0 then .error "body size is not multiple of command size"
  else .ok (hdr.size / elemSize)

/-- `CommandHeader::command_slice` for a header whose body is at `body`. -/
def commandSlice (b : UserBuffer) (hdr : CommandHeader) (body : ℕ) : Reads String CommandBody :=
  match hdr.id with
  | .nop => pure .nop
  | .submit => do
      let count ← Reads.ofExcept (b.tryCommandsFromBody hdr body 1 1)
      pure (.submit ⟨body, count⟩)
  | .fence => do
      let count ← Reads.ofExcept (b.tryCommandsFromBody hdr body 8 8)
      if count ≠ 1 then Reads.throw "CommandId::Fence only supports one fence currently"
      else do
        Reads.read ⟨body, 8⟩
        pure (.fence (b.natAt body 8))
  | .transferToHost => do
      -- `CommandTransfer` is packed, so it is always aligned.
      let count ← Reads.ofExcept (b.tryCommandsFromBody hdr body commandTransferSize 1)
      pure (.transferToHost body count)
  | .transferFromHost => do
      let count ← Reads.ofExcept (b.tryCommandsFromBody hdr body commandTransferSize 1)
      pure (.transferFromHost body count)
  | .mapAperture | .unmapAperture => Reads.throw "invalid userspace command id"

/-- `command_slice` reads the value of the fence at `body`. -/
def FenceRead (b : UserBuffer) (hdr : CommandHeader) (body : ℕ) : Prop :=
  hdr.id = .fence ∧ hdr.size = 8 ∧ (b.addr + body) % 8 = 0
  deriving Decidable

variable {b : UserBuffer} {hdr : CommandHeader} {body n : ℕ}

theorem tryCommandsFromBody_eq_ok {elemSize align count : ℕ} :
    b.tryCommandsFromBody hdr body elemSize align = .ok count ↔
      (b.addr + body) % align = 0 ∧ hdr.size % elemSize = 0 ∧ hdr.size / elemSize = count := by
  unfold tryCommandsFromBody
  split_ifs <;> simp_all

theorem within_commandSlice :
    (b.commandSlice hdr body).Within n ↔ (b.FenceRead hdr body → body + 8 ≤ n) := by
  unfold commandSlice FenceRead
  cases hid : hdr.id with
  | fence =>
    simp only [Reads.within_bind, Reads.within_ofExcept, true_and, Reads.result_ofExcept,
      tryCommandsFromBody_eq_ok]
    constructor
    · rintro h ⟨hsize, halign⟩
      have := h 1 ⟨halign, by omega, by omega⟩
      simpa [Reads.within_bind] using this
    · rintro h count ⟨halign, hmod, hcount⟩
      split_ifs with hone
      · exact Reads.within_throw _
      · simpa [Reads.within_bind] using h ⟨by omega, halign⟩
  | _ => simp [Reads.within_bind]

theorem id_of_commandSlice {c : CommandBody} (h : (b.commandSlice hdr body).result = .ok c) :
    c.id = hdr.id := by
  unfold commandSlice at h
  cases hid : hdr.id with
  | nop =>
    simp only [hid] at h
    cases h
    rfl
  | mapAperture | unmapAperture =>
    simp only [hid] at h
    cases h
  | fence =>
    simp only [hid] at h
    obtain ⟨count, -, h⟩ := Reads.result_bind_eq_ok.1 h
    split_ifs at h <;> cases h
    rfl
  | submit | transferToHost | transferFromHost =>
    simp only [hid] at h
    obtain ⟨count, -, h⟩ := Reads.result_bind_eq_ok.1 h
    cases h
    rfl

theorem slice_of_commandSlice {c : CommandBody} (h : (b.commandSlice hdr body).result = .ok c)
    (hid : c.id = .submit ∨ c.id = .transferToHost ∨ c.id = .transferFromHost) :
    c.slice = ⟨body, hdr.size⟩ := by
  rw [id_of_commandSlice h] at hid
  unfold commandSlice at h
  obtain hid | hid | hid := hid
  all_goals
    simp only [hid] at h
    obtain ⟨count, hcount, hc⟩ := Reads.result_bind_eq_ok.1 h
    obtain ⟨-, hmod, rfl⟩ := tryCommandsFromBody_eq_ok.1 hcount
    cases hc
  · simp [CommandBody.slice]
  · simp [CommandBody.slice, Nat.div_mul_cancel (Nat.dvd_of_mod_eq_zero hmod)]
  · simp [CommandBody.slice, Nat.div_mul_cancel (Nat.dvd_of_mod_eq_zero hmod)]

theorem commandSlice_of_submit (b : UserBuffer) (body : ℕ) (hid : hdr.id = .submit) :
    (b.commandSlice hdr body).result = .ok (.submit ⟨body, hdr.size⟩) := by
  unfold commandSlice
  simp only [hid]
  exact Reads.result_bind_eq_ok.2 ⟨hdr.size, tryCommandsFromBody_eq_ok.2
    ⟨Nat.mod_one _, Nat.mod_one _, Nat.div_one _⟩, rfl⟩

theorem commandSlice_eq_fence_iff {value : ℕ} :
    (b.commandSlice hdr body).result = .ok (.fence value) ↔
      b.FenceRead hdr body ∧ value = b.natAt body 8 := by
  constructor
  · intro h
    have hid : hdr.id = .fence := (id_of_commandSlice h).symm
    unfold commandSlice at h
    simp only [hid] at h
    obtain ⟨count, hcount, h⟩ := Reads.result_bind_eq_ok.1 h
    obtain ⟨halign, hmod, hdiv⟩ := tryCommandsFromBody_eq_ok.1 hcount
    split_ifs at h with hone
    · cases h
    · obtain ⟨-, -, h⟩ := Reads.result_bind_eq_ok.1 h
      simp only [Reads.result_pure, Except.ok.injEq, CommandBody.fence.injEq] at h
      exact ⟨⟨hid, by omega, halign⟩, h.symm⟩
  · rintro ⟨⟨hid, hsize, halign⟩, hvalue⟩
    have hcount : b.tryCommandsFromBody hdr body 8 8 = .ok 1 :=
      tryCommandsFromBody_eq_ok.2 ⟨halign, by omega, by omega⟩
    unfold commandSlice
    simp only [hid, hcount, hvalue]
    rfl

theorem commandSlice_of_transfer (b : UserBuffer) (body : ℕ)
    (hid : hdr.id = .transferToHost ∨ hdr.id = .transferFromHost) :
    (∃ c, (b.commandSlice hdr body).result = .ok c) ↔ hdr.size % commandTransferSize = 0 := by
  unfold commandSlice
  constructor
  · rintro ⟨c, hc⟩
    obtain hid | hid := hid
    all_goals
      simp only [hid] at hc
      obtain ⟨count, hcount, -⟩ := Reads.result_bind_eq_ok.1 hc
      exact (tryCommandsFromBody_eq_ok.1 hcount).2.1
  · intro hsize
    obtain hid | hid := hid
    all_goals
      simp only [hid]
      exact ⟨_, Reads.result_bind_eq_ok.2 ⟨_, tryCommandsFromBody_eq_ok.2
        ⟨Nat.mod_one _, hsize, rfl⟩, rfl⟩⟩

end UserBuffer

end VirtioGpu
