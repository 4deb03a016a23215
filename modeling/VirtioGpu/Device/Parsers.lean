import VirtioGpu.Device.Render

/-!
# What the parsers for a single command accept

The three parsers of `Uapi.Parse` are copies of each other, with small differences.  Here their
input is described by a grammar instead: after the structure the buffer holds the header of a
command, as many bytes as it says, and nothing else (`UserBuffer.CommandAfter`).

A header has a flag `RING_IDX` and a ring.  The escape and `submit_command_virtual` pass the ring on
with the data.  The creation of a resource does not: it keeps the data, which
`Device::context_submit_3d` submits without a ring when the resource is attached to a device.

* `parsers_accept_iff` : each parser accepts what its grammar describes, and passes on the data, and
  but for the creation of a resource the ring, that the grammar finds in the buffer.
* `createResource_drops_ring` : a buffer that asks for ring 5 and gets none.
-/

namespace VirtioGpu

namespace UserBuffer

/-! ### The grammar -/

/-- The bytes after a structure of `k` bytes. -/
def after (b : UserBuffer) (k : ℕ) : List UInt8 := b.bytesAt k (b.len - k)

/-- A command with the number `id`: its header, with `RING_IDX` or no flag, and its body. -/
def commandBytes (id : ℕ) (ringIdx : Bool) (ring : UInt8) (body : List UInt8) : List UInt8 :=
  CommandHeaderRaw.bytes ⟨id, ringIdx.toNat, ring.toNat, body.length⟩ ++ body

/-- After a structure of `k` bytes the buffer holds one command with the number `id`, and nothing
else; it asks for `ring`. -/
def CommandAfter (b : UserBuffer) (k id : ℕ) (ring : Option ℕ) (body : List UInt8) : Prop :=
  ∃ ringIdx ringNo, b.after k = commandBytes id ringIdx ringNo body ∧
    ring = if ringIdx then some ringNo.toNat else none

/-- A `Submit` of `data`. -/
def SubmitAfter (b : UserBuffer) (k : ℕ) (ring : Option ℕ) (data : List UInt8) : Prop :=
  b.CommandAfter k 1 ring data

/-- A `Fence`, whose value takes 8 bytes and is aligned to 8 bytes. -/
def FenceAfter (b : UserBuffer) (k value : ℕ) : Prop :=
  (b.addr + (k + commandHeaderSize)) % 8 = 0 ∧ ∃ ring body, b.CommandAfter k 4 ring body ∧
    body.length = 8 ∧ value = leNat body

variable {b : UserBuffer} {k id : ℕ} {hdr : CommandHeader} {raw : CommandHeaderRaw}
  {data body : List UInt8} {ring : Option ℕ} {value : ℕ}

/-! ### Headers -/

theorem after_eq_append_iff (hk : k ≤ b.len) (hid : raw.id < 256 ^ 2) (hflags : raw.flags < 256 ^ 1)
    (hring : raw.ring < 256 ^ 1) (hsize : raw.size = body.length) :
    b.after k = raw.bytes ++ body ↔ k + commandHeaderSize + body.length = b.len ∧
      b.rawHeader k = raw ∧ b.bytesAt (k + commandHeaderSize) body.length = body := by
  constructor
  · intro h
    have hlen : k + commandHeaderSize + body.length = b.len := by
      have hlen := congrArg List.length h
      simp only [after, length_bytesAt, List.length_append, CommandHeaderRaw.length_bytes] at hlen
      omega
    have hholds : b.HasBytes k (raw.bytes ++ body) := by
      rw [HasBytes, List.length_append, CommandHeaderRaw.length_bytes, ← h, after]
      exact congrArg _ (by omega)
    rw [hasBytes_append, CommandHeaderRaw.length_bytes] at hholds
    have hlt := b.len_lt
    exact ⟨hlen, rawHeader_of_hasBytes hholds.1 ⟨hid, hflags, hring, by omega⟩, hholds.2⟩
  · rintro ⟨hlen, hraw, hbody⟩
    have hhead := b.hasBytes_rawHeader k
    rw [HasBytes, CommandHeaderRaw.length_bytes, hraw] at hhead
    have hsub : b.len - k = commandHeaderSize + body.length := by omega
    rw [after, hsub, bytesAt_add, hhead, hbody]

theorem flags_eq : ∀ flags < 4, flags.testBit 1 = false → flags = (flags.testBit 0).toNat := by
  decide

theorem flags_spec : ∀ ringIdx : Bool, ringIdx.toNat < 4 ∧ ringIdx.toNat < 256 ^ 1 ∧
    ringIdx.toNat.testBit 0 = ringIdx ∧ ringIdx.toNat.testBit 1 = false := by
  decide

theorem tryAsHdr_iff {cmd : CommandId} (hdr : CommandHeader)
    (hid : ∀ n, CommandId.tryFrom n = .ok cmd ↔ n = id) (b : UserBuffer) (k : ℕ) :
    (b.rawHeader k).tryAsHdr = .ok hdr ∧ hdr.id = cmd ∧ hdr.shadowVirgl = false ↔
      ∃ (ringIdx : Bool) (ringNo : UInt8),
        b.rawHeader k = ⟨id, ringIdx.toNat, ringNo.toNat, hdr.size⟩ ∧
        hdr = ⟨cmd, ringIdx.toNat, ringNo.toNat, hdr.size⟩ := by
  rw [CommandHeaderRaw.tryAsHdr_eq_ok_iff]
  constructor
  · rintro ⟨⟨hcmd, hflags, hhdr⟩, rfl, hshadow⟩
    have hno : (UInt8.ofNat (b.rawHeader k).ring).toNat = (b.rawHeader k).ring := by
      rw [UInt8.toNat_ofNat']
      exact Nat.mod_eq_of_lt (b.fits_rawHeader k).ring
    have hbit : (b.rawHeader k).flags = ((b.rawHeader k).flags.testBit 0).toNat := by
      refine flags_eq _ hflags ?_
      rw [hhdr] at hshadow
      exact hshadow
    refine ⟨(b.rawHeader k).flags.testBit 0, UInt8.ofNat (b.rawHeader k).ring, ?_, ?_⟩
    · rw [hno, ← hbit, ← (hid _).1 hcmd, hhdr]
    · rw [hno, ← hbit, hhdr]
  · rintro ⟨ringIdx, ringNo, hraw, hhdr⟩
    rw [hraw, hhdr]
    obtain ⟨hflags, -, -, hshadow⟩ := flags_spec ringIdx
    exact ⟨⟨(hid id).2 rfl, hflags, rfl⟩, rfl, hshadow⟩

theorem ringIndex_mk (cmd : CommandId) (ringIdx : Bool) (ringNo : UInt8) (size : ℕ) :
    CommandHeader.ringIndex ⟨cmd, ringIdx.toNat, ringNo.toNat, size⟩ =
      if ringIdx then some ringNo.toNat else none := by
  obtain ⟨-, -, hring, -⟩ := flags_spec ringIdx
  rw [CommandHeader.ringIndex, hring]

/-- **The grammar, in terms of what the code reads.** -/
theorem commandAfter_iff (hk : k ≤ b.len) {cmd : CommandId}
    (hid : ∀ n, CommandId.tryFrom n = .ok cmd ↔ n = id) (hlt : id < 256 ^ 2) :
    b.CommandAfter k id ring body ↔ ∃ hdr, (b.rawHeader k).tryAsHdr = .ok hdr ∧ hdr.id = cmd ∧
      hdr.shadowVirgl = false ∧ k + commandHeaderSize + hdr.size = b.len ∧ hdr.ringIndex = ring ∧
      b.bytesAt (k + commandHeaderSize) hdr.size = body := by
  unfold CommandAfter commandBytes
  constructor
  · rintro ⟨ringIdx, ringNo, hafter, rfl⟩
    obtain ⟨hlen, hraw, hbody⟩ := (after_eq_append_iff hk hlt (flags_spec ringIdx).2.1
      ringNo.toNat_lt rfl).1 hafter
    have hhdr := (tryAsHdr_iff ⟨cmd, ringIdx.toNat, ringNo.toNat, body.length⟩ hid b k).2
      ⟨ringIdx, ringNo, hraw, rfl⟩
    exact ⟨_, hhdr.1, hhdr.2.1, hhdr.2.2, hlen, ringIndex_mk .., hbody⟩
  · rintro ⟨hdr, hhdr, hcmd, hshadow, hlen, rfl, rfl⟩
    obtain ⟨ringIdx, ringNo, hraw, heq⟩ := (tryAsHdr_iff hdr hid b k).1 ⟨hhdr, hcmd, hshadow⟩
    refine ⟨ringIdx, ringNo, ?_, by rw [heq, ringIndex_mk]⟩
    rw [after_eq_append_iff hk hlt (flags_spec ringIdx).2.1 ringNo.toNat_lt rfl, length_bytesAt]
    exact ⟨hlen, hraw, rfl⟩

/-! ### The code that the parsers share -/

theorem tryFrom_submit (n : ℕ) : CommandId.tryFrom n = .ok .submit ↔ n = 1 := by
  unfold CommandId.tryFrom
  split <;> simp_all

theorem tryFrom_fence (n : ℕ) : CommandId.tryFrom n = .ok .fence ↔ n = 4 := by
  unfold CommandId.tryFrom
  split <;> simp_all

theorem singleCommand_submit_iff (hk : k ≤ b.len) (ring : Option ℕ) (data : List UInt8) :
    (∃ hdr r, (b.singleCommand k).result = .ok (hdr, .submit r) ∧ hdr.ringIndex = ring ∧
      b.bytesAt r.addr r.len = data) ↔ b.SubmitAfter k ring data := by
  rw [SubmitAfter, commandAfter_iff hk tryFrom_submit (by decide)]
  simp only [singleCommand_eq_ok_iff, cmdLen_of_le hk]
  constructor
  · rintro ⟨hdr, r, ⟨hhdr, hshadow, hsize, hslice⟩, hring, hdata⟩
    have hid : hdr.id = .submit := (id_of_commandSlice hslice).symm
    have hr : r = ⟨k + commandHeaderSize, hdr.size⟩ := slice_of_commandSlice hslice (.inl rfl)
    rw [hr] at hdata
    exact ⟨hdr, hhdr, hid, hshadow, by omega, hring, hdata⟩
  · rintro ⟨hdr, hhdr, hid, hshadow, hlen, hring, hdata⟩
    exact ⟨hdr, _, ⟨hhdr, hshadow, by omega, commandSlice_of_submit b _ hid⟩, hring, hdata⟩

theorem singleCommand_fence_iff (hk : k ≤ b.len) :
    (∃ hdr, (b.singleCommand k).result = .ok (hdr, .fence value)) ↔ b.FenceAfter k value := by
  simp only [FenceAfter, commandAfter_iff hk tryFrom_fence (by decide), singleCommand_eq_ok_iff,
    cmdLen_of_le hk, commandSlice_eq_fence_iff]
  constructor
  · rintro ⟨hdr, hhdr, hshadow, hsize, ⟨hid, hsize', halign⟩, hvalue⟩
    refine ⟨halign, hdr.ringIndex, _, ⟨hdr, hhdr, hid, hshadow, by omega, rfl, rfl⟩, ?_, ?_⟩
    · rw [length_bytesAt, hsize']
    · rw [hvalue, hsize', natAt]
  · rintro ⟨halign, ring, body, ⟨hdr, hhdr, hid, hshadow, hlen, -, rfl⟩, hsize, rfl⟩
    rw [length_bytesAt] at hsize
    refine ⟨hdr, hhdr, hshadow, by omega, ⟨hid, hsize, halign⟩, ?_⟩
    rw [natAt, hsize]

theorem singleCommand_stops (b : UserBuffer) (k : ℕ) :
    (b.singleCommand k).Stops fun e => e = .invalidParameter := by
  unfold singleCommand singleBody
  by_cases hlen : b.cmdLen k < commandHeaderSize
  · rw [if_pos hlen]
    exact Reads.stops_throw.2 rfl
  rw [if_neg hlen]
  refine Reads.stops_bind (Reads.stops_read _) fun _ _ => Reads.stops_bind ?_ fun hdr _ => ?_
  · intro e he
    cases hhdr : (b.rawHeader k).tryAsHdr with
    | error =>
      rw [Reads.result_ofExcept, hhdr] at he
      exact (Except.error.inj he).symm
    | ok =>
      rw [Reads.result_ofExcept, hhdr] at he
      cases he
  · by_cases hshadow : hdr.shadowVirgl = true
    · rw [if_pos hshadow]
      exact Reads.stops_throw.2 rfl
    rw [if_neg hshadow]
    refine Reads.stops_bind (Reads.stops_mapErr fun _ _ => rfl) fun body _ => ?_
    split_ifs
    · exact Reads.stops_throw.2 rfl
    · exact Reads.stops_pure

theorem result_copy (b : UserBuffer) (r : Slice) :
    (b.copy r).result = .ok (b.bytesAt r.addr r.len) := rfl

/-! ### The parsers -/

theorem execBuffer_eq_ok_iff (hlen : execBufferSize ≤ b.len) {ctx : ℕ}
    {r : ℕ × Option ℕ × List UInt8} : (b.execBuffer (some (some ctx))).result = .ok r ↔
      ∃ ring data, b.SubmitAfter execBufferSize ring data ∧ r = (ctx, ring, data) := by
  have hlen' : ¬ b.len < 8 := by
    unfold execBufferSize at hlen
    omega
  simp only [← singleCommand_submit_iff hlen]
  unfold execBuffer
  rw [if_neg hlen', Reads.result_bind_of_ok (Reads.result_read _), if_neg (not_lt.2 hlen),
    Reads.result_bind_eq_ok]
  constructor
  · rintro ⟨⟨hdr, body⟩, hcmd, h⟩
    cases body with
    | submit data =>
      obtain ⟨bytes, hbytes, h⟩ := Reads.result_bind_eq_ok.1 h
      obtain rfl := Except.ok.inj hbytes
      exact ⟨_, _, ⟨hdr, data, hcmd, rfl, rfl⟩, (Except.ok.inj h).symm⟩
    | nop | fence | transferToHost | transferFromHost => cases h
  · rintro ⟨-, -, ⟨hdr, data, hcmd, rfl, rfl⟩, rfl⟩
    exact ⟨_, hcmd, Reads.result_bind_of_ok (b.result_copy data)⟩

theorem execBuffer_reinit_iff (hlen : execBufferSize ≤ b.len) :
    (b.execBuffer (some none)).result = .error .reinitializationNeeded ↔
      ∃ ring data, b.SubmitAfter execBufferSize ring data := by
  have hlen' : ¬ b.len < 8 := by
    unfold execBufferSize at hlen
    omega
  simp only [← singleCommand_submit_iff hlen]
  unfold execBuffer
  rw [if_neg hlen', Reads.result_bind_of_ok (Reads.result_read _), if_neg (not_lt.2 hlen),
    Reads.result_bind_eq_error]
  constructor
  · rintro (h | ⟨⟨hdr, body⟩, hcmd, h⟩)
    · cases b.singleCommand_stops _ _ h
    · cases body with
      | submit data => exact ⟨_, _, hdr, data, hcmd, rfl, rfl⟩
      | nop | fence | transferToHost | transferFromHost => cases h
  · rintro ⟨-, -, hdr, data, hcmd, -, -⟩
    exact .inr ⟨_, hcmd, rfl⟩

/-- What is left of `submit_command_virtual` when the tag has been read, for a command `x`. -/
theorem usermode_eq_ok_iff {x : Reads NtStatus (CommandHeader × CommandBody)} {ctx : Option ℕ}
    {p : PrivateData} :
    (do
      let cmd ← x
      let user ← b.userCommand ctx cmd
      pure (PrivateData.usermode user)).result = .ok p ↔
      (∃ c hdr r, ctx = some c ∧ x.result = .ok (hdr, .submit r) ∧
        p = .usermode (.submit c hdr.ringIndex (b.bytesAt r.addr r.len))) ∨
      ∃ hdr value, x.result = .ok (hdr, .fence value) ∧ p = .usermode (.fence value) := by
  simp only [Reads.result_bind_eq_ok]
  constructor
  · rintro ⟨⟨hdr, body⟩, hcmd, user, huser, hp⟩
    obtain rfl : PrivateData.usermode user = p := Except.ok.inj hp
    cases body with
    | submit r =>
      cases ctx with
      | none => cases huser
      | some c =>
        obtain rfl := Except.ok.inj huser
        exact .inl ⟨c, hdr, r, rfl, hcmd, rfl⟩
    | fence value =>
      obtain rfl := Except.ok.inj huser
      exact .inr ⟨hdr, value, hcmd, rfl⟩
    | nop | transferToHost | transferFromHost => cases huser
  · rintro (⟨c, hdr, r, rfl, hcmd, rfl⟩ | ⟨hdr, value, hcmd, rfl⟩)
    · exact ⟨_, hcmd, _, rfl, rfl⟩
    · exact ⟨_, hcmd, _, rfl, rfl⟩

theorem privateData_eq_ok_iff (hlen : submitCommandSize ≤ b.len)
    (htag : b.tag = submitCommandVirtualTag) {ctx : Option ℕ} {p : PrivateData} :
    (b.privateData ctx).result = .ok p ↔
      (∃ c ring data, ctx = some c ∧ b.SubmitAfter submitCommandSize ring data ∧
        p = .usermode (.submit c ring data)) ∨
      ∃ value, b.FenceAfter submitCommandSize value ∧ p = .usermode (.fence value) := by
  have hne : b.tag ≠ commandDmaPrivateTag := by
    rw [htag]
    decide
  rw [privateData, Reads.result_bind_of_ok (Reads.result_read _), if_neg hne, if_pos htag,
    usermode_eq_ok_iff]
  refine or_congr ⟨?_, ?_⟩ ⟨?_, ?_⟩
  · rintro ⟨c, hdr, r, hctx, hcmd, hp⟩
    exact ⟨c, _, _, hctx, (singleCommand_submit_iff hlen _ _).1 ⟨hdr, r, hcmd, rfl, rfl⟩, hp⟩
  · rintro ⟨c, ring, data, hctx, hsubmit, hp⟩
    obtain ⟨hdr, r, hcmd, rfl, rfl⟩ := (singleCommand_submit_iff hlen _ _).2 hsubmit
    exact ⟨c, hdr, r, hctx, hcmd, hp⟩
  · rintro ⟨hdr, value, hcmd, hp⟩
    exact ⟨value, (singleCommand_fence_iff hlen).1 ⟨hdr, hcmd⟩, hp⟩
  · rintro ⟨value, hfence, hp⟩
    obtain ⟨hdr, hcmd⟩ := (singleCommand_fence_iff hlen).2 hfence
    exact ⟨hdr, value, hcmd, hp⟩

theorem createResource_eq_ok_iff (hlen : createResourceSize ≤ b.len)
    (htag : b.tag = createResourceTag) {p : Option (List UInt8)} :
    b.createResource.result = .ok p ↔ (b.after createResourceSize = [] ∧ p = none) ∨
      ∃ ring data, b.SubmitAfter createResourceSize ring data ∧ p = some data := by
  have hempty : b.cmdLen createResourceSize = 0 ↔ b.after createResourceSize = [] := by
    rw [cmdLen_of_le hlen, ← List.length_eq_zero_iff, after, length_bytesAt]
  rw [createResource, if_neg (not_lt.2 hlen), Reads.result_bind_of_ok (Reads.result_read _),
    if_neg (not_not.2 htag)]
  by_cases hnone : b.cmdLen createResourceSize = 0
  · rw [if_pos hnone, and_iff_right (hempty.1 hnone), or_iff_left]
    · exact ⟨fun h => (Except.ok.inj h).symm, fun h => congrArg Except.ok h.symm⟩
    · rintro ⟨ring, data, ⟨ringIdx, ringNo, hafter, -⟩, -⟩
      have hlength := congrArg List.length (hafter.symm.trans (hempty.1 hnone))
      simp [commandBytes, commandHeaderSize] at hlength
  · rw [if_neg hnone, or_iff_right fun h => hnone (hempty.2 h.1)]
    have hsubmit := singleCommand_submit_iff hlen
    generalize b.singleCommand createResourceSize = x at hsubmit ⊢
    rw [Reads.result_bind_eq_ok]
    constructor
    · rintro ⟨⟨hdr, body⟩, hcmd, hp⟩
      cases body with
      | submit r =>
        exact ⟨_, _, (hsubmit _ _).1 ⟨hdr, r, hcmd, rfl, rfl⟩, (Except.ok.inj hp).symm⟩
      | nop | fence | transferToHost | transferFromHost => cases hp
    · rintro ⟨ring, data, hafter, rfl⟩
      obtain ⟨hdr, r, hcmd, rfl, rfl⟩ := (hsubmit _ _).2 hafter
      exact ⟨_, hcmd, rfl⟩

end UserBuffer

/-! ### The ring -/

/-- The ring that a command asks the device for: `ring_idx` of its `gpu::CtrlHeader`, if
`gpu::GPU_FLAG_RING_INDEX` is set. -/
def headerRing (bytes : List UInt8) : Option ℕ :=
  if (leNat ((bytes.drop 4).take 4)).testBit 1 then some (leNat ((bytes.drop 20).take 1)) else none

theorem headerRing_newHeader (t : FenceTracker) (hdrType : ℕ) (fence : Bool) (context : Option ℕ)
    {ring : Option ℕ} (hring : ∀ r ∈ ring, r < 256) (rest : List UInt8) :
    headerRing ((newHeader t hdrType fence context ring).1 ++ rest) = ring := by
  have hdrop : ((newHeader t hdrType fence context ring).1 ++ rest).drop 20 =
      leBytes 1 (ring.getD 0) ++ ([0, 0, 0] ++ rest) := by
    rw [newHeader, List.append_assoc, List.append_assoc]
    exact List.drop_left' (by simp)
  have hflags : ∀ flags < 4, leNat (leBytes 4 flags) = flags := by decide
  rw [headerRing, hdrop]
  cases ring with
  | none => cases fence <;> simp [newHeader, hflags, Nat.testBit]
  | some r =>
    have hr : leNat (leBytes 1 r) = r := leNat_leBytes (hring r rfl)
    cases fence <;> simp [newHeader, hflags, hr, Nat.testBit]

/-- `Device::context_submit_3d`: the bytes submitted for the data of a resource that is attached to
a device with the context `ctx`. -/
def contextSubmit3D (t : FenceTracker) (ctx : ℕ) (data : List UInt8) : List UInt8 :=
  (newHeader t cmdSubmit3D false (some ctx) none).1 ++
    (leBytes 4 data.length ++ leBytes 4 0 ++ data)

/-- **What the parsers accept** is one command, with a valid header without `SHADOW_VIRGL` and as
many bytes as it says: a `Submit`, or for the virtual submission a `Fence` with an aligned value, or
for the creation nothing.  The data are the bytes of the body, and the ring is the one in the header
exactly if `RING_IDX` is set; a resource is submitted without one.  On the same `Submit` the three
agree. -/
theorem parsers_accept_iff (e s c : UserBuffer) (he : execBufferSize ≤ e.len)
    (hs : submitCommandSize ≤ s.len) (hstag : s.tag = submitCommandVirtualTag)
    (hc : createResourceSize ≤ c.len) (hctag : c.tag = createResourceTag) :
    -- The escape.
    (∀ ctx r, (e.execBuffer (some (some ctx))).result = .ok r ↔
      ∃ ring data, e.SubmitAfter execBufferSize ring data ∧ r = (ctx, ring, data)) ∧
    ((e.execBuffer (some none)).result = .error .reinitializationNeeded ↔
      ∃ ring data, e.SubmitAfter execBufferSize ring data) ∧
    -- The virtual submission.
    (∀ ctx p, (s.privateData ctx).result = .ok p ↔
      (∃ c ring data, ctx = some c ∧ s.SubmitAfter submitCommandSize ring data ∧
        p = .usermode (.submit c ring data)) ∨
      ∃ value, s.FenceAfter submitCommandSize value ∧ p = .usermode (.fence value)) ∧
    -- The creation of a resource.
    (∀ p, c.createResource.result = .ok p ↔ (c.after createResourceSize = [] ∧ p = none) ∨
      ∃ ring data, c.SubmitAfter createResourceSize ring data ∧ p = some data) ∧
    (∀ t ctx data, headerRing (contextSubmit3D t ctx data) = none) ∧
    -- The same command in all of them.
    (e.after execBufferSize = s.after submitCommandSize →
      e.after execBufferSize = c.after createResourceSize → ∀ ctx data,
      ((∃ ring, (e.execBuffer (some (some ctx))).result = .ok (ctx, ring, data)) ↔
        ∃ ring, (s.privateData (some ctx)).result = .ok (.usermode (.submit ctx ring data))) ∧
      ((∃ ring, (e.execBuffer (some (some ctx))).result = .ok (ctx, ring, data)) ↔
        c.createResource.result = .ok (some data))) := by
  refine ⟨fun ctx r => UserBuffer.execBuffer_eq_ok_iff he, UserBuffer.execBuffer_reinit_iff he,
    fun ctx p => UserBuffer.privateData_eq_ok_iff hs hstag,
    fun p => UserBuffer.createResource_eq_ok_iff hc hctag,
    fun t ctx data => headerRing_newHeader _ _ _ _ (by simp) _, fun hes hec ctx data => ?_⟩
  have hsub : ∀ ring data, e.SubmitAfter execBufferSize ring data ↔
      s.SubmitAfter submitCommandSize ring data := by
    unfold UserBuffer.SubmitAfter UserBuffer.CommandAfter
    simp only [hes, implies_true]
  have hsub' : ∀ ring data, e.SubmitAfter execBufferSize ring data ↔
      c.SubmitAfter createResourceSize ring data := by
    unfold UserBuffer.SubmitAfter UserBuffer.CommandAfter
    simp only [hec, implies_true]
  simp [UserBuffer.execBuffer_eq_ok_iff he, UserBuffer.privateData_eq_ok_iff hs hstag,
    UserBuffer.createResource_eq_ok_iff hc hctag, ← hsub, ← hsub']

/-- A `Submit` of four bytes that asks for ring 5. -/
def ringSubmit : List UInt8 := [1, 0, 1, 5, 4, 0, 0, 0, 10, 20, 30, 40]

/-- The command after each of the three structures. -/
def ringExec : UserBuffer := userBuffer (List.replicate 16 0 ++ ringSubmit) (by decide)

@[inherit_doc ringExec]
def ringVirtual : UserBuffer := userBuffer (submitCommandVirtualTag ++ ringSubmit) (by decide)

@[inherit_doc ringExec]
def ringCreate : UserBuffer := userBuffer (createResourceTag ++ ringSubmit) (by decide)

/-- The three parsers accept the command, and two of them pass the ring on. -/
theorem parsers_accept_iff_ring :
    (ringExec.execBuffer (some (some 1))).result = .ok (1, some 5, [10, 20, 30, 40]) ∧
      (ringVirtual.privateData (some 1)).result =
        .ok (.usermode (.submit 1 (some 5) [10, 20, 30, 40])) ∧
      ringCreate.createResource.result = .ok (some [10, 20, 30, 40]) := by
  obtain ⟨hexec, -, hvirtual, hcreate, -, -⟩ := parsers_accept_iff ringExec ringVirtual ringCreate
    (by decide) (by decide) (by decide) (by decide) (by decide)
  refine ⟨(hexec _ _).2 ⟨some 5, _, ⟨true, 5, ?_, rfl⟩, rfl⟩,
    (hvirtual _ _).2 (.inl ⟨1, some 5, _, rfl, ⟨true, 5, ?_, rfl⟩, rfl⟩),
    (hcreate _).2 (.inr ⟨some 5, _, ⟨true, 5, ?_, rfl⟩, rfl⟩)⟩ <;> decide

/-- **The creation of a resource drops the ring.**  The buffer holds a `Submit` that asks for ring
5; its data is accepted, and submitted without a ring. -/
theorem createResource_drops_ring :
    ringCreate.SubmitAfter createResourceSize (some 5) [10, 20, 30, 40] ∧
      ringCreate.createResource.result = .ok (some [10, 20, 30, 40]) ∧
      ∀ t ctx, headerRing (contextSubmit3D t ctx [10, 20, 30, 40]) = none :=
  ⟨⟨true, 5, by decide, rfl⟩, rfl, fun _ _ => headerRing_newHeader _ _ _ _ (by simp) _⟩

end VirtioGpu
