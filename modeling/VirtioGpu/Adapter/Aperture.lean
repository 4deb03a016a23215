import VirtioGpu.Adapter.Paging
import VirtioGpu.Allocation.Pages
import VirtioGpu.Data.Fields

/-!
# Backing from an aperture range

`MAP_APERTURE_SEGMENT` tells the driver that a range of the pages of an `MDL` now backs a resource.
`Command::attach_backing` writes a `RESOURCE_ATTACH_BACKING` for the host into the DMA buffer: a
header with the number of pages, and an entry for each of them.  The number of entries is the number
of pages of the range, but the loop that fills them goes through all pages of the `MDL` from the
offset on.  `dxgkrnl` may map an `MDL` piece by piece; then the loop of every piece but the last
runs over the end of the entries.

* `attachBacking_exact_iff` : the command of a piece is written, with the pages of the piece and
  nothing else, exactly if the piece ends where the `MDL` ends.
* `attachBacking_panics` : the first half of an `MDL` of two pages.
* `encode_mapApertureSegment` : the operation of `build_paging_buffer` in the model of paging
  buffers is this function.
-/

namespace VirtioGpu

/-! ### The pages of an `MDL` -/

/-- `MDL`, with the array of page frame numbers behind it. -/
structure Mdl where
  startVa : ℕ
  byteOffset : ℕ
  byteCount : UInt32
  pfn : ℕ → UInt64
  /-- The pages are at 64-bit addresses. -/
  addressable : ∀ i, (pfn i).toNat * pageSize < 2 ^ 64

namespace Mdl

/-- `mm_get_n_pages` -/
def nPages (mdl : Mdl) : ℕ :=
  ((mdl.startVa + mdl.byteOffset) % pageSize + mdl.byteCount.toNat + (pageSize - 1)) / pageSize

/-- `MdlRef::physical_pages` -/
def physicalPages (mdl : Mdl) : List UInt64 := (List.range mdl.nPages).map mdl.pfn

theorem length_physicalPages (mdl : Mdl) : mdl.physicalPages.length = mdl.nPages := by
  simp [physicalPages]

theorem nPages_lt (mdl : Mdl) : mdl.nPages < 2 ^ 32 := by
  have hcount := mdl.byteCount.toNat_lt
  have hoffset : (mdl.startVa + mdl.byteOffset) % pageSize < pageSize := Nat.mod_lt _ (by decide)
  unfold nPages
  unfold pageSize at hoffset ⊢
  omega

theorem addressable_of_mem {mdl : Mdl} {page : UInt64} (h : page ∈ mdl.physicalPages) :
    page.toNat * pageSize < 2 ^ 64 := by
  obtain ⟨i, -, rfl⟩ := List.mem_map.1 h
  exact mdl.addressable i

end Mdl

/-! ### The command -/

/-- `gpu::Command::RESOURCE_ATTACH_BACKING`. -/
def cmdResourceAttachBacking : ℕ := 0x106

/-- `size_of::<gpu::ResourceAttachBacking>()`. -/
def resourceAttachBackingSize : ℕ := 32

/-- `size_of::<gpu::MemEntry>()`. -/
def memEntrySize : ℕ := 16

/-- The bytes of a `gpu::MemEntry`. -/
def MemEntry.wire (e : MemEntry) : List UInt8 :=
  leBytes 8 e.addr.toNat ++ leBytes 4 e.length.toNat ++ leBytes 4 0

/-- The entry of `attach_backing` for a page. -/
def pageEntry (page : UInt64) : MemEntry := ⟨page * 4096, 4096⟩

/-- The panics of `Command::attach_backing`. -/
inductive BackingPanic where
  /-- `&mut dma[..HEADER_SIZE+body_size]` -/
  | dmaIndex
  | pages (p : PagingPanic)

/-- A call of `Command::attach_backing`. -/
structure BackingCall where
  fence : FenceTracker
  resId : UInt32
  mdl : Mdl
  offset : ℕ
  nPages : ℕ
  /-- The slice `dma`: where it is, and what it holds. -/
  addr : ℕ
  dma : List UInt8

/-- What the call returns, and what it leaves in the slice and in the tracker. -/
structure BackingWritten where
  command : Command
  dma : List UInt8
  fence : FenceTracker

namespace BackingCall

/-- The bytes of the `gpu::ResourceAttachBacking`, and the tracker its header has drawn from. -/
def header (c : BackingCall) : List UInt8 × FenceTracker :=
  let (header, t) := newHeader c.fence cmdResourceAttachBacking true none none
  (header ++ leBytes 4 c.resId.toNat ++ leBytes 4 c.nPages, t)

/-- The loop over the pages: `entries[i]` is written for each of them, where `entries` are the
`nPages` entries of `body`. -/
def writeEntries (nPages : ℕ) : ℕ → List UInt64 → List UInt8 → Outcome (List UInt8) PagingPanic
  | _, [], body => .next body
  | i, page :: pages, body =>
    if i < nPages then
      writeEntries nPages (i + 1) pages (writeAt body (i * memEntrySize) (pageEntry page).wire)
    else .panic .entryIndex

/-- The body of the command. -/
def writePages (c : BackingCall) (body : List UInt8) : Outcome (List UInt8) PagingPanic :=
  if c.mdl.physicalPages.length < c.offset then .panic .mdlOffset
  else writeEntries c.nPages 0 (c.mdl.physicalPages.drop c.offset) body

/-- `Command::attach_backing`. -/
def attachBacking (c : BackingCall) : Outcome BackingWritten BackingPanic :=
  let len := resourceAttachBackingSize + c.nPages * memEntrySize
  if c.dma.length < len then .panic .dmaIndex
  else match c.writePages ((c.dma.take len).drop resourceAttachBackingSize) with
    | .next body => .next ⟨.new .mapAperture none 0 (some ⟨c.addr, len⟩),
        c.header.1 ++ body ++ c.dma.drop len, c.header.2⟩
    | .stuck => .stuck
    | .panic p => .panic (.pages p)

/-- The pages of the range. -/
def pages (c : BackingCall) : List UInt64 := fieldAt c.mdl.physicalPages c.offset c.nPages

/-- The range is in the `MDL`, and the slice is as long as `attach_backing_dma_len` says. -/
structure Valid (c : BackingCall) : Prop where
  range : c.offset + c.nPages ≤ c.mdl.nPages
  room : attachBackingDmaLen c.nPages ≤ c.dma.length

end BackingCall

/-- What the host reads in a `RESOURCE_ATTACH_BACKING`: the address and the length of each entry. -/
def backingEntries (bytes : List UInt8) : List (ℕ × ℕ) :=
  (List.range (numberAt bytes 28 4)).map fun i =>
    (numberAt bytes (resourceAttachBackingSize + (i * memEntrySize + 0)) 8,
      numberAt bytes (resourceAttachBackingSize + (i * memEntrySize + 8)) 4)

/-- The pages as the host is to see them. -/
def pageRanges (pages : List UInt64) : List (ℕ × ℕ) :=
  pages.map fun page => (page.toNat * pageSize, pageSize)

/-- The command for the resource has been written with the pages of the range and nothing else. -/
structure BackingCall.Exact (c : BackingCall) (r : BackingWritten) : Prop where
  slice : r.command.dma = some ⟨c.addr, attachBackingDmaLen c.nPages⟩
  type : numberAt r.dma 0 4 = cmdResourceAttachBacking
  resource : numberAt r.dma 24 4 = c.resId.toNat
  nrEntries : numberAt r.dma 28 4 = c.nPages
  entries : backingEntries r.dma = pageRanges c.pages
  /-- The rest of the slice is as before. -/
  rest : r.dma.drop (attachBackingDmaLen c.nPages) = c.dma.drop (attachBackingDmaLen c.nPages)

/-- The entries of the commands of a series of calls, if all of them return. -/
def attachAll : List BackingCall → Option (List (ℕ × ℕ))
  | [] => some []
  | c :: cs => match c.attachBacking, attachAll cs with
    | .next r, some entries => some (backingEntries r.dma ++ entries)
    | _, _ => none

/-! ### What is written -/

theorem MemEntry.length_wire (e : MemEntry) : e.wire.length = memEntrySize := by
  simp [wire, memEntrySize]

namespace BackingCall

theorem writeEntries_eq {nPages : ℕ} (pages : List UInt64) :
    ∀ {i : ℕ} {front : List UInt8} (back : List UInt8), i ≤ nPages →
      front.length = i * memEntrySize →
      (nPages < i + pages.length ∧
        writeEntries nPages i pages (front ++ back) = .panic .entryIndex) ∨
      (i + pages.length ≤ nPages ∧ writeEntries nPages i pages (front ++ back) =
        .next (front ++ pages.flatMap (fun page => (pageEntry page).wire) ++
          back.drop (pages.length * memEntrySize))) := by
  induction pages with
  | nil =>
    intro i front back hi hfront
    exact .inr ⟨hi, by simp [writeEntries]⟩
  | cons page pages ih =>
    intro i front back hi hfront
    rcases Nat.eq_or_lt_of_le hi with rfl | hlt
    · refine .inl ⟨by simp, ?_⟩
      rw [writeEntries, if_neg (lt_irrefl _)]
    · have hwrite := writeAt_append front back (pageEntry page).wire
      rw [hfront] at hwrite
      have hlen : (front ++ (pageEntry page).wire).length = (i + 1) * memEntrySize := by
        rw [List.length_append, hfront, MemEntry.length_wire, Nat.succ_mul]
      rw [writeEntries, if_pos hlt, hwrite, MemEntry.length_wire]
      rcases ih (back.drop memEntrySize) hlt hlen with ⟨hmore, hpanic⟩ | ⟨hfit, hnext⟩
      · exact .inl ⟨by rw [List.length_cons]; omega, hpanic⟩
      · refine .inr ⟨by rw [List.length_cons]; omega, ?_⟩
        have hdrop : memEntrySize + pages.length * memEntrySize =
            (page :: pages).length * memEntrySize := by
          rw [List.length_cons, Nat.succ_mul, Nat.add_comm]
        rw [hnext, List.flatMap_cons, List.drop_drop, hdrop, List.append_assoc front]

variable {c : BackingCall} {r : BackingWritten}

theorem length_header (c : BackingCall) : c.header.1.length = resourceAttachBackingSize := by
  simp [header, newHeader, resourceAttachBackingSize]

theorem writePages_eq (c : BackingCall) (body : List UInt8) :
    (c.mdl.nPages < c.offset ∧ c.writePages body = .panic .mdlOffset) ∨
    (c.offset + c.nPages < c.mdl.nPages ∧ c.writePages body = .panic .entryIndex) ∨
    (c.offset ≤ c.mdl.nPages ∧ c.mdl.nPages ≤ c.offset + c.nPages ∧ c.writePages body =
      .next ((c.mdl.physicalPages.drop c.offset).flatMap (fun page => (pageEntry page).wire) ++
        body.drop ((c.mdl.nPages - c.offset) * memEntrySize))) := by
  have htail : (c.mdl.physicalPages.drop c.offset).length = c.mdl.nPages - c.offset := by
    rw [List.length_drop, c.mdl.length_physicalPages]
  unfold writePages
  rw [c.mdl.length_physicalPages]
  rcases Nat.lt_or_ge c.mdl.nPages c.offset with hoffset | hoffset
  · exact .inl ⟨hoffset, if_pos hoffset⟩
  · rw [if_neg (not_lt.2 hoffset)]
    have hfront : ([] : List UInt8).length = 0 * memEntrySize := (Nat.zero_mul _).symm
    rcases writeEntries_eq (c.mdl.physicalPages.drop c.offset) body (Nat.zero_le c.nPages) hfront
      with ⟨hmore, hpanic⟩ | ⟨hfit, hnext⟩
    · exact .inr (.inl ⟨by omega, hpanic⟩)
    · rw [List.nil_append, List.nil_append, htail] at hnext
      exact .inr (.inr ⟨hoffset, by omega, hnext⟩)

/-- **The outcome of a call.**  It returns exactly if the range ends with the `MDL`. -/
theorem attachBacking_eq (h : c.Valid) :
    (c.offset + c.nPages < c.mdl.nPages ∧ c.attachBacking = .panic (.pages .entryIndex)) ∨
    (c.offset + c.nPages = c.mdl.nPages ∧ c.attachBacking =
      .next ⟨.new .mapAperture none 0 (some ⟨c.addr, attachBackingDmaLen c.nPages⟩),
        c.header.1 ++ c.pages.flatMap (fun page => (pageEntry page).wire) ++
          c.dma.drop (attachBackingDmaLen c.nPages), c.header.2⟩) := by
  have hrange := h.range
  have hdma : ¬ c.dma.length < resourceAttachBackingSize + c.nPages * memEntrySize :=
    not_lt.2 h.room
  unfold attachBacking
  rw [if_neg hdma]
  rcases c.writePages_eq ((c.dma.take (resourceAttachBackingSize + c.nPages * memEntrySize)).drop
    resourceAttachBackingSize) with ⟨hoffset, -⟩ | ⟨hmore, hpanic⟩ | ⟨-, hfit, hnext⟩
  · omega
  · rw [hpanic]
    exact .inl ⟨hmore, rfl⟩
  · have hend : c.offset + c.nPages = c.mdl.nPages := by omega
    have hcount : c.mdl.nPages - c.offset = c.nPages := by omega
    have hpages : c.mdl.physicalPages.drop c.offset = c.pages := by
      rw [pages, fieldAt, List.take_of_length_le]
      rw [List.length_drop, c.mdl.length_physicalPages, hcount]
    rw [hcount, List.drop_drop, List.drop_eq_nil_of_le (List.length_take_le _ _),
      List.append_nil, hpages] at hnext
    rw [hnext]
    exact .inr ⟨hend, rfl⟩

theorem length_pages (h : c.Valid) : c.pages.length = c.nPages := by
  have := h.range
  rw [pages, fieldAt, List.length_take, List.length_drop, c.mdl.length_physicalPages]
  omega

theorem numberAt_header (c : BackingCall) (rest : List UInt8) :
    numberAt (c.header.1 ++ rest) 0 4 = cmdResourceAttachBacking ∧
      numberAt (c.header.1 ++ rest) 24 4 = c.resId.toNat ∧
      (c.nPages < 2 ^ 32 → numberAt (c.header.1 ++ rest) 28 4 = c.nPages) := by
  have hlen := DmaWriter.length_newHeader c.fence cmdResourceAttachBacking true none none
  obtain ⟨fields, htype⟩ : leBytes 4 cmdResourceAttachBacking <+:
      (newHeader c.fence cmdResourceAttachBacking true none none).1 := by
    simp only [newHeader, List.append_assoc]
    exact List.prefix_append _ _
  refine ⟨?_, ?_, fun hn => ?_⟩
  · simp only [header, ← htype, List.append_assoc]
    exact numberAt_field (l := []) rfl (by decide) _
  · simp only [header, List.append_assoc]
    exact numberAt_field hlen c.resId.toNat_lt _
  · simp only [header]
    rw [List.append_assoc _ (leBytes 4 c.nPages)]
    exact numberAt_field (by rw [List.length_append, hlen, length_leBytes]; rfl) hn _

theorem numberAt_pageEntry {page : UInt64} (h : page.toNat * pageSize < 2 ^ 64) :
    numberAt (pageEntry page).wire 0 8 = page.toNat * pageSize ∧
      numberAt (pageEntry page).wire 8 4 = pageSize := by
  have haddr : (pageEntry page).addr.toNat = page.toNat * pageSize := by
    rw [pageEntry, UInt64.toNat_mul]
    exact Nat.mod_eq_of_lt h
  rw [MemEntry.wire, haddr, List.append_assoc]
  constructor
  · exact numberAt_field (l := []) rfl h _
  · exact numberAt_field (x := pageSize) (length_leBytes 8 _) (by decide) _

theorem backingEntries_written {pages : List UInt64} {hdr rest : List UInt8}
    (hhdr : hdr.length = resourceAttachBackingSize)
    (hcount : numberAt (hdr ++ (pages.flatMap (fun page => (pageEntry page).wire) ++ rest)) 28 4 =
      pages.length)
    (haddr : ∀ page ∈ pages, page.toNat * pageSize < 2 ^ 64) :
    backingEntries (hdr ++ (pages.flatMap (fun page => (pageEntry page).wire) ++ rest)) =
      pageRanges pages := by
  have hsize : ∀ page, (pageEntry page).wire.length = memEntrySize := fun page =>
    MemEntry.length_wire _
  refine List.ext_getElem? fun i => ?_
  rw [backingEntries, pageRanges, hcount]
  rcases Nat.lt_or_ge i pages.length with hi | hi
  · have hpage : pages[i]? = some pages[i] := List.getElem?_eq_getElem hi
    obtain ⟨haddress, hlength⟩ := numberAt_pageEntry (haddr pages[i] (List.getElem_mem hi))
    have haddress' := numberAt_record hsize hhdr hpage (by decide : 0 + 8 ≤ _) rest
    have hlength' := numberAt_record hsize hhdr hpage (by decide : 8 + 4 ≤ _) rest
    simp only [List.getElem?_map, List.getElem?_range hi, hpage, Option.map_some, haddress',
      hlength', haddress, hlength]
  · simp [hi]

theorem exact_of_eq (h : c.Valid) :
    c.Exact ⟨.new .mapAperture none 0 (some ⟨c.addr, attachBackingDmaLen c.nPages⟩),
      c.header.1 ++ c.pages.flatMap (fun page => (pageEntry page).wire) ++
        c.dma.drop (attachBackingDmaLen c.nPages), c.header.2⟩ := by
  have hlt : c.nPages < 2 ^ 32 := by
    have := c.mdl.nPages_lt
    have := h.range
    omega
  have hmem : ∀ page ∈ c.pages, page.toNat * pageSize < 2 ^ 64 := fun page hpage =>
    Mdl.addressable_of_mem (List.mem_of_mem_drop (List.mem_of_mem_take hpage))
  have hbody := length_flatMap_const (fun page => MemEntry.length_wire (pageEntry page)) c.pages
  obtain ⟨htype, hres, hcount⟩ := c.numberAt_header
    (c.pages.flatMap (fun page => (pageEntry page).wire) ++
      c.dma.drop (attachBackingDmaLen c.nPages))
  rw [List.append_assoc]
  refine ⟨rfl, htype, hres, hcount hlt, ?_, ?_⟩
  · exact backingEntries_written c.length_header ((hcount hlt).trans (length_pages h).symm) hmem
  · dsimp only
    rw [← List.append_assoc]
    refine List.drop_left' ?_
    rw [List.length_append, c.length_header, hbody, length_pages h]
    rfl

theorem exists_exact_iff (h : c.Valid) :
    (∃ r, c.attachBacking = .next r ∧ c.Exact r) ↔ c.offset + c.nPages = c.mdl.nPages := by
  rcases attachBacking_eq h with ⟨hlt, hpanic⟩ | ⟨heq, hnext⟩
  · refine iff_of_false ?_ hlt.ne
    rintro ⟨r, hr, -⟩
    rw [hpanic] at hr
    cases hr
  · exact iff_of_true ⟨_, hnext, exact_of_eq h⟩ heq

theorem attachAll_iff {calls : List BackingCall} (h : ∀ c ∈ calls, c.Valid) :
    attachAll calls = some (calls.flatMap fun c => pageRanges c.pages) ↔
      ∀ c ∈ calls, c.offset + c.nPages = c.mdl.nPages := by
  induction calls with
  | nil => exact iff_of_true rfl fun _ hc => absurd hc List.not_mem_nil
  | cons c cs ih =>
    have ih := ih fun c hc => h c (List.mem_cons_of_mem _ hc)
    have hvalid := h c List.mem_cons_self
    rw [List.forall_mem_cons, attachAll, List.flatMap_cons]
    rcases attachBacking_eq hvalid with ⟨hlt, hpanic⟩ | ⟨heq, hnext⟩
    · rw [hpanic]
      exact iff_of_false (Option.some_ne_none _).symm fun hall => hlt.ne hall.1
    · rw [hnext, and_iff_right heq, ← ih]
      have hentries := (exact_of_eq hvalid).entries
      cases attachAll cs with
      | none => exact iff_of_false (Option.some_ne_none _).symm (Option.some_ne_none _).symm
      | some =>
        dsimp only at hentries ⊢
        rw [hentries, Option.some.injEq, Option.some.injEq, List.append_cancel_left_eq]

end BackingCall

/-- **When an aperture range is attached.**  A call returns, with the pages of the range as the
entries of its command and nothing else, exactly if the range ends where the `MDL` ends; and so for
the ranges of a series of calls, in order. -/
theorem attachBacking_exact_iff (calls : List BackingCall) (h : ∀ c ∈ calls, c.Valid) :
    (∀ c ∈ calls, (∃ r, c.attachBacking = .next r ∧ c.Exact r) ↔
      c.offset + c.nPages = c.mdl.nPages) ∧
    (attachAll calls = some (calls.flatMap fun c => pageRanges c.pages) ↔
      ∀ c ∈ calls, c.offset + c.nPages = c.mdl.nPages) :=
  ⟨fun c hc => BackingCall.exists_exact_iff (h c hc), BackingCall.attachAll_iff h⟩

/-- An `MDL` of two pages that are not contiguous. -/
def twoPages : Mdl where
  startVa := 0
  byteOffset := 0
  byteCount := 8192
  pfn i := if i = 0 then 7 else 3
  addressable i := by split <;> decide

/-- A piece of `twoPages`, with a DMA buffer of a page. -/
def pieceCall (offset nPages : ℕ) : BackingCall :=
  ⟨⟨0, []⟩, 5, twoPages, offset, nPages, 0x1000, List.replicate 4096 0⟩

theorem valid_pieceCall {offset nPages : ℕ} (h : offset + nPages ≤ 2) :
    (pieceCall offset nPages).Valid where
  range := by
    have hpages : twoPages.nPages = 2 := by decide
    exact h.trans hpages.ge
  room := by
    have hroom : attachBackingDmaLen nPages ≤ 4096 := by
      unfold attachBackingDmaLen
      omega
    exact hroom.trans List.length_replicate.ge

/-- The whole of the `MDL`, and then its second page again. -/
theorem attachBacking_exact_iff_tail :
    attachAll [pieceCall 0 2, pieceCall 1 1] =
      some (pageRanges [7, 3] ++ pageRanges [3]) := by
  have hvalid : ∀ c ∈ [pieceCall 0 2, pieceCall 1 1], c.Valid := by
    simp only [List.forall_mem_cons]
    exact ⟨valid_pieceCall (by decide), valid_pieceCall (by decide),
      fun _ hc => absurd hc List.not_mem_nil⟩
  refine (attachBacking_exact_iff [pieceCall 0 2, pieceCall 1 1] hvalid).2.2 ?_
  simp only [List.forall_mem_cons]
  exact ⟨rfl, rfl, fun _ hc => absurd hc List.not_mem_nil⟩

/-- **The first of two pieces panics.**  There is one entry for the first page of the `MDL`, and the
loop goes on with the second page. -/
theorem attachBacking_panics :
    (pieceCall 0 1).Valid ∧ (pieceCall 0 1).attachBacking = .panic (.pages .entryIndex) ∧
      attachAll [pieceCall 0 1, pieceCall 1 1] = none := by
  have hvalid : (pieceCall 0 1).Valid := valid_pieceCall (by decide)
  have hpanic : (pieceCall 0 1).attachBacking = .panic (.pages .entryIndex) := by
    rcases BackingCall.attachBacking_eq hvalid with ⟨-, hpanic⟩ | ⟨hend, -⟩
    · exact hpanic
    · exact absurd hend (by decide)
  exact ⟨hvalid, hpanic, by rw [attachAll, hpanic]⟩

/-! ### The paging operation -/

/-- The result of `MAP_APERTURE_SEGMENT` after the check for room. -/
def BackingCall.pagingResult (c : BackingCall) : Outcome PagingResult BackingPanic :=
  c.attachBacking.bind fun r => .next (.command r.command.id r.command.len)

/-- `MAP_APERTURE_SEGMENT` of the model of paging buffers, for an allocation that can be attached
and a DMA buffer with room, is `attach_backing`. -/
theorem encode_mapApertureSegment {c : BackingCall}
    (hroom : attachBackingDmaLen c.nPages < c.dma.length) :
    (PagingOp.mapApertureSegment (.alloc true) c.mdl.nPages c.offset c.nPages).encode c.dma.length =
      match c.pagingResult with
      | .next r => .next r
      | .panic (.pages p) => .panic p
      | _ => .stuck := by
  have hdma : ¬ c.dma.length < resourceAttachBackingSize + c.nPages * memEntrySize :=
    not_lt.2 hroom.le
  simp only [PagingOp.encode, PagingHandle.check, Bool.not_true, Bool.false_eq_true, ↓reduceIte,
    encodeBacking, if_neg (not_le.2 hroom)]
  unfold BackingCall.pagingResult BackingCall.attachBacking
  rw [if_neg hdma]
  rcases c.writePages_eq ((c.dma.take (resourceAttachBackingSize + c.nPages * memEntrySize)).drop
    resourceAttachBackingSize) with ⟨hoffset, hpanic⟩ | ⟨hmore, hpanic⟩ | ⟨hoffset, hfit, hnext⟩
  · rw [if_pos hoffset, hpanic]
    rfl
  · rw [if_neg (by omega), if_pos hmore, hpanic]
    rfl
  · rw [if_neg (not_lt.2 hoffset), if_neg (not_lt.2 hfit), hnext]
    rfl

end VirtioGpu
