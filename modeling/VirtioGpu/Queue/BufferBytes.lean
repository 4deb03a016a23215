import VirtioGpu.Data.Fields
import VirtioGpu.Queue.Requests

/-!
# The bytes of a request buffer

How the constructors of `MaybeInlineBuffer` put a value, or a header and a body, into a buffer: an
inline buffer is an array of zeros that the parts are written into one after the other, and a boxed
one a vector that they are appended to.  Each of these steps can go wrong by itself, with a status
or a panic, and the length of an inline buffer is kept in 16 bits.

* `Build.tryFromHdrWithBody_run`, `Build.tryFromValue_run` : with memory, the constructors are those
  of `MaybeInlineBuffer`, which take the bytes as a whole.
* `build_represents` : for every inline size of at most a page, a buffer is made exactly if the
  bytes fit into a page, and `as_ref` then returns them, whichever representation was chosen.
-/

namespace VirtioGpu

/-- The bytes of a value or a slice: Rust has none with more than `isize::MAX` of them. -/
abbrev RustBytes := { bytes : List UInt8 // bytes.length < 2 ^ 63 }

/-- What would stop the driver while it makes a buffer. -/
inductive BuildPanic where
  /-- The sum of two sizes is no `usize`. -/
  | addOverflow
  /-- A slice of the array is out of bounds. -/
  | sliceRange
  /-- `copy_from_slice` gets slices of different lengths. -/
  | copyLength
  /-- A vector has to grow or to shrink, for which nobody has checked that there is memory. -/
  | reallocates

/-- A function that returns a buffer, or a status, or panics. -/
abbrev Build := ExceptT NtStatus (Except BuildPanic)

/-- A `Vec<u8, AlignedAlloc<PAGE_SIZE>>` with its heap block. -/
structure AlignedVec where
  addr : PageAddr
  capacity : ℕ
  data : List UInt8

namespace Build

def panic {α : Type} (p : BuildPanic) : Build α := ExceptT.mk (.error p)

/-- The sum of two `usize`. -/
def usizeAdd (a b : ℕ) : Build ℕ := if a + b < 2 ^ 64 then pure (a + b) else panic .addOverflow

theorem length_zeros (n : ℕ) : (List.replicate n (0 : UInt8)).length = n := List.length_replicate

/-- `[0; _]` -/
def zeros (n : ℕ) : Bytes n := ⟨List.replicate n 0, length_zeros n⟩

/-- `write_to_prefix`; its error becomes `BUFFER_TOO_SMALL`. -/
def writeToPrefix {n : ℕ} (value : List UInt8) (data : Bytes n) : Build (Bytes n) :=
  if h : value.length ≤ data.1.length then
    pure ⟨writeAt data.1 0 value, (length_writeAt (by rwa [Nat.zero_add])).trans data.2⟩
  else throw .bufferTooSmall

/-- `(&mut data[start..stop]).copy_from_slice(src)` -/
def copyFromSlice {n : ℕ} (data : Bytes n) (start stop : ℕ) (src : List UInt8) : Build (Bytes n) :=
  if hrange : start ≤ stop ∧ stop ≤ data.1.length then
    if hlen : src.length = stop - start then
      pure ⟨writeAt data.1 start src, (length_writeAt (by omega)).trans data.2⟩
    else panic .copyLength
  else panic .sliceRange

/-- `Vec::try_with_capacity_in`, with the block the allocator returns, if any. -/
def tryWithCapacity (alloc : Option PageAddr) (capacity : ℕ) : Build AlignedVec :=
  match alloc with
  | some addr => pure ⟨addr, capacity, []⟩
  | none => throw .noMemory

def extendFromSlice (v : AlignedVec) (src : List UInt8) : Build AlignedVec :=
  if v.data.length + src.length ≤ v.capacity then pure { v with data := v.data ++ src }
  else panic .reallocates

/-- `into_boxed_slice`, which gives back what the vector does not use. -/
def intoBoxedSlice (v : AlignedVec) : Build AlignedBox :=
  if v.data.length = v.capacity then pure ⟨v.addr, v.data⟩ else panic .reallocates

/-- `Box::try_new_zeroed_slice_in` -/
def tryNewZeroedSlice (alloc : Option PageAddr) (size : ℕ) : Build AlignedBox :=
  match alloc with
  | some addr => pure ⟨addr, List.replicate size 0⟩
  | none => throw .noMemory

variable (maxInline : ℕ) (alloc : Option PageAddr)

/-- An inline buffer; its length is cut to 16 bits. -/
def inlineBuffer {maxInline : ℕ} (size : ℕ) (h : size ≤ maxInline) (data : Bytes maxInline) :
    MaybeInlineBuffer maxInline :=
  .inline (size % 2 ^ 16) data.1 data.2 ((Nat.mod_le _ _).trans h)

/-- `MaybeInlineBuffer::try_new_zeroed_size`; `try_new_zeroed::<T>` is this at the size of `T`. -/
def tryNewZeroedSize (size : ℕ) : Build (MaybeInlineBuffer maxInline) :=
  if h : size ≤ maxInline then pure (inlineBuffer size h (zeros maxInline))
  else if size ≤ pageSize then do
    let data ← tryNewZeroedSlice alloc size
    pure (.boxed data)
  else throw .noMemory

/-- `MaybeInlineBuffer::try_from_hdr_with_body` -/
def tryFromHdrWithBody (hdr body : RustBytes) : Build (MaybeInlineBuffer maxInline) := do
  let size ← usizeAdd hdr.1.length body.1.length
  if h : size ≤ maxInline then do
    let data ← writeToPrefix hdr.1 (zeros maxInline)
    let data ← copyFromSlice data hdr.1.length size body.1
    pure (inlineBuffer size h data)
  else if size ≤ pageSize then do
    let v ← tryWithCapacity alloc size
    let v ← extendFromSlice v hdr.1
    let v ← extendFromSlice v body.1
    let data ← intoBoxedSlice v
    pure (.boxed data)
  else throw .noMemory

/-- `MaybeInlineBuffer::try_from_value` -/
def tryFromValue (value : RustBytes) : Build (MaybeInlineBuffer maxInline) :=
  let size := value.1.length
  if h : size ≤ maxInline then do
    let data ← writeToPrefix value.1 (zeros maxInline)
    pure (inlineBuffer size h data)
  else if size ≤ pageSize then do
    let v ← tryWithCapacity alloc size
    let v ← extendFromSlice v value.1
    let data ← intoBoxedSlice v
    pure (.boxed data)
  else throw .noMemory

end Build

/-- `as_ref`, where `mem` is what is in DMA memory.  The slice of an inline buffer is within its
array (`len_le`). -/
def MaybeInlineBuffer.asRef {maxInline : ℕ} (mem : Slice → List UInt8) :
    MaybeInlineBuffer maxInline → List UInt8
  | .inline len data _ _ => fieldAt data 0 len
  | .boxed box => box.data
  | .dma data => mem data

/-! ### The steps -/

namespace Build

variable {maxInline : ℕ}

theorem usizeAdd_length (hdr body : RustBytes) :
    usizeAdd hdr.1.length body.1.length = pure (hdr.1.length + body.1.length) := by
  have hhdr := hdr.2
  have hbody := body.2
  exact if_pos (by omega)

theorem writeToPrefix_zeros {n : ℕ} (value : List UInt8) (h : value.length ≤ n) :
    ∃ data, writeToPrefix value (zeros n) = pure data ∧
      data.1 = value ++ List.replicate (n - value.length) 0 := by
  have hfits : value.length ≤ (zeros n).1.length := by
    rw [(zeros n).2]
    exact h
  refine ⟨_, dif_pos hfits, ?_⟩
  show writeAt (List.replicate n 0) 0 value = _
  rw [writeAt, List.take_zero, List.nil_append, Nat.zero_add, List.drop_replicate]

theorem copyFromSlice_append {n : ℕ} {data : Bytes n} {hdr rest : List UInt8}
    (hdata : data.1 = hdr ++ rest) (body : List UInt8) (hbody : body.length ≤ rest.length) :
    ∃ data', copyFromSlice data hdr.length (hdr.length + body.length) body = pure data' ∧
      data'.1 = hdr ++ body ++ rest.drop body.length := by
  have hrange : hdr.length ≤ hdr.length + body.length ∧
      hdr.length + body.length ≤ data.1.length := by
    rw [hdata, List.length_append]
    omega
  have hlen : body.length = hdr.length + body.length - hdr.length := by omega
  refine ⟨_, (dif_pos hrange).trans (dif_pos hlen), ?_⟩
  show writeAt data.1 hdr.length body = _
  rw [hdata, writeAt_append]

theorem inlineBuffer_eq_ofBytes {size : ℕ} {bytes : List UInt8} {data : Bytes maxInline}
    (h : size ≤ maxInline) (hsize : bytes.length = size)
    (hdata : data.1 = bytes ++ List.replicate (maxInline - bytes.length) 0) :
    inlineBuffer size h data = .ofBytes bytes (hsize.trans_le h) := by
  obtain ⟨data, hlen⟩ := data
  subst hsize hdata
  rfl

theorem extendFromSlice_of_le {v : AlignedVec} {src : List UInt8}
    (h : v.data.length + src.length ≤ v.capacity) :
    extendFromSlice v src = pure { v with data := v.data ++ src } :=
  if_pos h

theorem intoBoxedSlice_of_eq {v : AlignedVec} (h : v.data.length = v.capacity) :
    intoBoxedSlice v = pure ⟨v.addr, v.data⟩ :=
  if_pos h

/-! ### The constructors -/

/-- **The constructor puts header and body together**, as if they had been one value. -/
theorem tryFromHdrWithBody_run (maxInline : ℕ) (addr : PageAddr) (hdr body : RustBytes) :
    (tryFromHdrWithBody maxInline (some addr) hdr body).run =
      .ok (MaybeInlineBuffer.tryFromHdrWithBody addr hdr.1 body.1) := by
  have hlen : (hdr.1 ++ body.1).length = hdr.1.length + body.1.length := List.length_append
  rw [tryFromHdrWithBody, usizeAdd_length, pure_bind, MaybeInlineBuffer.tryFromHdrWithBody,
    MaybeInlineBuffer.tryFromBytes]
  by_cases hinline : hdr.1.length + body.1.length ≤ maxInline
  · have hroom :
        body.1.length ≤ (List.replicate (maxInline - hdr.1.length) (0 : UInt8)).length := by
      rw [List.length_replicate]
      omega
    obtain ⟨data, hwrite, hdata⟩ := writeToPrefix_zeros (n := maxInline) hdr.1 (by omega)
    obtain ⟨data', hcopy, hdata'⟩ := copyFromSlice_append hdata body.1 hroom
    rw [List.drop_replicate, Nat.sub_sub, ← hlen] at hdata'
    rw [dif_pos hinline, dif_pos (hlen.trans_le hinline), hwrite, pure_bind, hcopy, pure_bind,
      inlineBuffer_eq_ofBytes hinline hlen hdata']
    rfl
  · rw [dif_neg hinline, dif_neg (hlen ▸ hinline), hlen]
    by_cases hpage : hdr.1.length + body.1.length ≤ pageSize
    · rw [if_pos hpage, if_pos hpage, tryWithCapacity, pure_bind,
        extendFromSlice_of_le (by simp), pure_bind, extendFromSlice_of_le (by simp), pure_bind,
        intoBoxedSlice_of_eq (by simp), pure_bind]
      rfl
    · rw [if_neg hpage, if_neg hpage]
      rfl

theorem tryFromValue_run (maxInline : ℕ) (addr : PageAddr) (value : RustBytes) :
    (tryFromValue maxInline (some addr) value).run =
      .ok (MaybeInlineBuffer.tryFromValue addr value.1) := by
  rw [tryFromValue, MaybeInlineBuffer.tryFromValue, MaybeInlineBuffer.tryFromBytes]
  by_cases hinline : value.1.length ≤ maxInline
  · obtain ⟨data, hwrite, hdata⟩ := writeToPrefix_zeros value.1 hinline
    rw [dif_pos hinline, dif_pos hinline, hwrite, pure_bind,
      inlineBuffer_eq_ofBytes hinline rfl hdata]
    rfl
  · rw [dif_neg hinline, dif_neg hinline]
    by_cases hpage : value.1.length ≤ pageSize
    · rw [if_pos hpage, if_pos hpage, tryWithCapacity, pure_bind,
        extendFromSlice_of_le (by simp), pure_bind, intoBoxedSlice_of_eq (by simp), pure_bind]
      rfl
    · rw [if_neg hpage, if_neg hpage]
      rfl

end Build

/-! ### What a buffer holds -/

namespace MaybeInlineBuffer

variable {maxInline : ℕ} {mem : Slice → List UInt8} {addr : PageAddr} {bytes : List UInt8}
  {b : MaybeInlineBuffer maxInline}

theorem asRef_ofBytes (h : bytes.length ≤ maxInline) (hlen : bytes.length < 2 ^ 16) :
    (ofBytes bytes h).asRef mem = bytes := by
  show fieldAt (bytes ++ _) 0 (bytes.length % 2 ^ 16) = bytes
  rw [Nat.mod_eq_of_lt hlen, fieldAt_length]

theorem tryFromBytes_eq_ok_iff (addr : PageAddr) (hmax : maxInline ≤ pageSize) :
    (∃ b : MaybeInlineBuffer maxInline, tryFromBytes addr bytes = .ok b) ↔
      bytes.length ≤ pageSize := by
  unfold tryFromBytes
  by_cases hinline : bytes.length ≤ maxInline
  · rw [dif_pos hinline]
    exact iff_of_true ⟨_, rfl⟩ (hinline.trans hmax)
  · rw [dif_neg hinline]
    by_cases hpage : bytes.length ≤ pageSize
    · rw [if_pos hpage]
      exact iff_of_true ⟨_, rfl⟩ hpage
    · rw [if_neg hpage]
      refine iff_of_false ?_ hpage
      rintro ⟨b, hb⟩
      cases hb

theorem tryFromBytes_of_lt (hmax : maxInline ≤ pageSize) (h : pageSize < bytes.length) :
    (tryFromBytes addr bytes : Except NtStatus (MaybeInlineBuffer maxInline)) =
      .error .noMemory := by
  rw [tryFromBytes, dif_neg (by omega), if_neg (by omega)]

/-- **Both representations hold the bytes.** -/
theorem asRef_of_tryFromBytes (hmax : maxInline ≤ pageSize) (h : tryFromBytes addr bytes = .ok b) :
    b.asRef mem = bytes := by
  have hpage : pageSize < 2 ^ 16 := by decide
  unfold tryFromBytes at h
  split_ifs at h with hinline hboxed
  · cases h
    exact asRef_ofBytes hinline (by omega)
  · cases h
    rfl

theorem inline_of_tryFromBytes {len : ℕ} {data : List UInt8} {hdata : data.length = maxInline}
    {hle : len ≤ maxInline} (hmax : maxInline ≤ pageSize)
    (h : tryFromBytes addr bytes = .ok (inline len data hdata hle)) : len = bytes.length := by
  have hpage : pageSize < 2 ^ 16 := by decide
  unfold tryFromBytes at h
  split_ifs at h with hinline hboxed
  · cases h
    exact Nat.mod_eq_of_lt (by omega)
  · cases h

end MaybeInlineBuffer

/-- A constructor makes a buffer for the bytes: it does exactly if they fit into a page, it holds
them, and the 16 bits of an inline buffer hold their number. -/
structure Build.Represents {maxInline : ℕ} (mem : Slice → List UInt8) (bytes : List UInt8)
    (m : Build (MaybeInlineBuffer maxInline)) : Prop where
  accepted : (∃ b, m.run = .ok (.ok b)) ↔ bytes.length ≤ pageSize
  refused : pageSize < bytes.length → m.run = .ok (.error .noMemory)
  holds : ∀ b, m.run = .ok (.ok b) → b.asRef mem = bytes
  stored : ∀ len data hdata hle, m.run = .ok (.ok (.inline len data hdata hle)) →
    len = bytes.length

theorem Build.Represents.of_run {maxInline : ℕ} {mem : Slice → List UInt8} {bytes : List UInt8}
    {m : Build (MaybeInlineBuffer maxInline)} {addr : PageAddr} (hmax : maxInline ≤ pageSize)
    (hrun : m.run = .ok (MaybeInlineBuffer.tryFromBytes addr bytes)) :
    Build.Represents mem bytes m where
  accepted := by
    rw [hrun, ← MaybeInlineBuffer.tryFromBytes_eq_ok_iff addr hmax]
    exact exists_congr fun b => ⟨Except.ok.inj, congrArg Except.ok⟩
  refused h := by rw [hrun, MaybeInlineBuffer.tryFromBytes_of_lt hmax h]
  holds b hb := by
    rw [hrun] at hb
    exact MaybeInlineBuffer.asRef_of_tryFromBytes hmax (Except.ok.inj hb)
  stored len data hdata hle h := by
    rw [hrun] at h
    exact MaybeInlineBuffer.inline_of_tryFromBytes hmax (Except.ok.inj h)

/-- What a caller sees of a buffer: its bytes, or the status. -/
def Build.view {maxInline : ℕ} (mem : Slice → List UInt8)
    (m : Build (MaybeInlineBuffer maxInline)) :
    Except BuildPanic (Except NtStatus (List UInt8)) :=
  m.run.map (Except.map (MaybeInlineBuffer.asRef mem))

theorem Build.Represents.view_eq {maxInline : ℕ} {mem : Slice → List UInt8} {bytes : List UInt8}
    {m : Build (MaybeInlineBuffer maxInline)} (h : Build.Represents mem bytes m) :
    Build.view mem m = .ok (if bytes.length ≤ pageSize then .ok bytes else .error .noMemory) := by
  by_cases hpage : bytes.length ≤ pageSize
  · obtain ⟨b, hb⟩ := h.accepted.2 hpage
    rw [if_pos hpage, Build.view, hb, ← h.holds b hb]
    rfl
  · rw [if_neg hpage, Build.view, h.refused (Nat.lt_of_not_le hpage)]
    rfl

/-- **A request buffer holds what it was made from.**  The constructors succeed exactly if the bytes
fit into a page, `as_ref` then returns them, and the length of an inline buffer is not cut.  A
caller sees no difference between the two representations. -/
theorem build_represents {maxInline : ℕ} (hmax : maxInline ≤ pageSize) (mem : Slice → List UInt8)
    (addr : PageAddr) (hdr body value : RustBytes) :
    Build.Represents mem (hdr.1 ++ body.1)
      (Build.tryFromHdrWithBody maxInline (some addr) hdr body) ∧
    Build.Represents mem value.1 (Build.tryFromValue maxInline (some addr) value) ∧
    ∀ (maxInline' : ℕ) (addr' : PageAddr), maxInline' ≤ pageSize →
      Build.view mem (Build.tryFromHdrWithBody maxInline (some addr) hdr body) =
        Build.view mem (Build.tryFromHdrWithBody maxInline' (some addr') hdr body) ∧
      Build.view mem (Build.tryFromValue maxInline (some addr) value) =
        Build.view mem (Build.tryFromValue maxInline' (some addr') value) := by
  have hparts : ∀ (n : ℕ) (a : PageAddr), n ≤ pageSize →
      Build.Represents mem (hdr.1 ++ body.1) (Build.tryFromHdrWithBody n (some a) hdr body) :=
    fun n a hn => .of_run hn (Build.tryFromHdrWithBody_run n a hdr body)
  have hvalue : ∀ (n : ℕ) (a : PageAddr), n ≤ pageSize →
      Build.Represents mem value.1 (Build.tryFromValue n (some a) value) :=
    fun n a hn => .of_run hn (Build.tryFromValue_run n a value)
  refine ⟨hparts maxInline addr hmax, hvalue maxInline addr hmax, fun n a hn => ⟨?_, ?_⟩⟩
  · rw [(hparts maxInline addr hmax).view_eq, (hparts n a hn).view_eq]
  · rw [(hvalue maxInline addr hmax).view_eq, (hvalue n a hn).view_eq]

/-- A header of two bytes. -/
def twoBytes : RustBytes := ⟨[1, 2], by decide⟩

/-- A body of three bytes. -/
def threeBytes : RustBytes := ⟨[3, 4, 5], by decide⟩

/-- They are in a heap block if there is room for four bytes inline, and inline if there is for
eight. -/
theorem build_represents_five :
    Build.view (fun _ => [])
        (Build.tryFromHdrWithBody 4 (some ⟨0, dvd_zero pageSize⟩) twoBytes threeBytes) =
      .ok (.ok [1, 2, 3, 4, 5]) ∧
    Build.view (fun _ => [])
        (Build.tryFromHdrWithBody 4 (some ⟨0, dvd_zero pageSize⟩) twoBytes threeBytes) =
      Build.view (fun _ => [])
        (Build.tryFromHdrWithBody 8 (some ⟨0, dvd_zero pageSize⟩) twoBytes threeBytes) := by
  have hfour : 4 ≤ pageSize := by decide
  obtain ⟨hparts, -, hsame⟩ := build_represents hfour (fun _ => []) ⟨0, dvd_zero pageSize⟩ twoBytes
    threeBytes twoBytes
  exact ⟨hparts.view_eq, (hsame 8 ⟨0, dvd_zero pageSize⟩ (by decide)).1⟩

end VirtioGpu
