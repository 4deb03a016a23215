import VirtioGpu.Data.Align

/-!
# The allocator over the kernel's pool

`WdkAllocator` gives Rust's collections memory from the nonpaged pool.  The pool aligns a block to
16 bytes, and one of a page or more to a page.  A layout that needs no more gets the pool's block as
it is.  For any other one `alloc` asks for `align` bytes more, hands out the first multiple of
`align` after the start of the block, and stores the start of the block in the eight bytes before
that address, where `dealloc` finds it.

`alloc` and `dealloc` compute with checked words: `none` is an address or a size that does not fit
in 64 bits, which panics or wraps around in the source.

## Main definitions

* `Layout` : a size and a power of two, as `core::alloc::Layout` admits them.
* `PoolBlock size p` : what the pool promises of a block of `size` bytes at `p`.
* `Layout.Placed p q` : `q` is a good place for a value in the block at `p`.

## Main results

* `alloc_sound` : no computation overflows, the place is good, nothing but the slot is written, and
  `dealloc` frees the block whatever has been written to the value in the meantime.
* `allocate_page` : the boxes of the queue's buffers are at page boundaries.
-/

namespace VirtioGpu

/-- `core::alloc::Layout`.  `Layout::from_size_align` refuses an alignment that is not a power of
two and a size that exceeds `isize::MAX` when rounded up to the alignment. -/
structure Layout where
  size : UInt64
  align : UInt64
  align_pow : ∃ k, align.toNat = 2 ^ k
  fits : size.toNat + (align.toNat - 1) < 2 ^ 63
  deriving DecidableEq

/-- `DEFAULT_ALIGN`: the size of two pointers. -/
def defaultAlign : UInt64 := 16

namespace Layout

variable (layout : Layout)

/-- `default_layout_alignment_ok`: the pool's own alignment is enough. -/
def defaultLayoutAlignmentOk : Bool :=
  decide (layout.align ≤ if layout.size < 4096 then defaultAlign else 4096)

/-- The number of bytes to ask the pool for. -/
def request : UInt64 :=
  if layout.defaultLayoutAlignmentOk then layout.size else layout.size + layout.align

/-- The pool's block at `p`. -/
def block (p : UInt64) : Range := ⟨p.toNat, layout.request.toNat⟩

/-- The bytes of a value at `q`. -/
def value (q : UInt64) : Range := ⟨q.toNat, layout.size.toNat⟩

end Layout

/-- The pointer-sized slot before a value at `q`. -/
def slot (q : UInt64) : Range := ⟨q.toNat - 8, 8⟩

namespace WdkAllocator

/-- `WdkAllocator::alloc`, with `pool size` the answer of `ExAllocatePool2` to a request for `size`
bytes (null if there are none).  The result is the address and the memory with what has been stored
in it. -/
def alloc (layout : Layout) (pool : UInt64 → UInt64) (mem : ByteMemory) :
    Option (UInt64 × ByteMemory) :=
  if layout.defaultLayoutAlignmentOk then
    some (pool layout.size, mem)
  else do
    let size ← Word.checkedAdd layout.size layout.align
    let mask := ~~~(← Word.checkedSub layout.align 1)
    let p := pool size
    if p ≠ 0 then
      let q ← Word.checkedAdd (p &&& mask) layout.align
      -- `q.sub(1).write(p)`, where `q` points to a pointer
      let prev ← Word.checkedSub q 8
      return (q, mem.store prev.toNat (leBytes 8 p.toNat))
    else
      return (p, mem)

/-- `WdkAllocator::dealloc`: the address given to `ExFreePoolWithTag`. -/
def dealloc (layout : Layout) (ptr : UInt64) (mem : ByteMemory) : Option UInt64 :=
  if layout.defaultLayoutAlignmentOk then
    some ptr
  else do
    let prev ← Word.checkedSub ptr 8
    return UInt64.ofNat (leNat (mem.load ⟨prev.toNat, 8⟩))

end WdkAllocator

/-- What the pool promises of a block of `size` bytes at `p`. -/
structure PoolBlock (size p : UInt64) : Prop where
  nonnull : p ≠ 0
  aligned : 16 ∣ p.toNat
  page_aligned : pageSize ≤ size.toNat → pageSize ∣ p.toNat
  no_wrap : p.toNat + size.toNat ≤ 2 ^ 64

instance (size p : UInt64) : Decidable (PoolBlock size p) :=
  decidable_of_iff
    (p ≠ 0 ∧ 16 ∣ p.toNat ∧ (pageSize ≤ size.toNat → pageSize ∣ p.toNat) ∧
      p.toNat + size.toNat ≤ 2 ^ 64)
    ⟨fun h => ⟨h.1, h.2.1, h.2.2.1, h.2.2.2⟩,
      fun h => ⟨h.nonnull, h.aligned, h.page_aligned, h.no_wrap⟩⟩

/-- `q` is an aligned place for a value in the block at `p`.  If the alignment is more than the
pool's, the block has room for the slot too. -/
structure Layout.Placed (layout : Layout) (p q : UInt64) : Prop where
  nonnull : q ≠ 0
  aligned : layout.align.toNat ∣ q.toNat
  value_within : (layout.value q).Within (layout.block p)
  slot_within : layout.defaultLayoutAlignmentOk = false → (slot q).Within (layout.block p)
  slot_apart : layout.defaultLayoutAlignmentOk = false → (slot q).Apart (layout.value q)

namespace Layout

variable {layout : Layout}

theorem align_pos (layout : Layout) : 0 < layout.align.toNat := by
  obtain ⟨k, hk⟩ := layout.align_pow
  rw [hk]
  exact Nat.two_pow_pos k

theorem defaultLayoutAlignmentOk_iff :
    layout.defaultLayoutAlignmentOk = true ↔
      layout.align.toNat ≤ if layout.size.toNat < 4096 then 16 else 4096 := by
  rw [defaultLayoutAlignmentOk, decide_eq_true_iff, UInt64.le_iff_toNat_le]
  have hiff : layout.size < 4096 ↔ layout.size.toNat < 4096 := UInt64.lt_iff_toNat_lt
  by_cases hsize : layout.size < 4096
  · rw [if_pos hsize, if_pos (hiff.1 hsize)]
    rfl
  · rw [if_neg hsize, if_neg (mt hiff.2 hsize)]
    rfl

theorem sixteen_dvd_align (h : layout.defaultLayoutAlignmentOk = false) :
    16 ∣ layout.align.toNat := by
  obtain ⟨k, hk⟩ := layout.align_pow
  refine two_pow_dvd_of_le (show 16 = 2 ^ 4 from rfl) hk ?_
  have hlt : ¬ layout.align.toNat ≤ if layout.size.toNat < 4096 then 16 else 4096 := by
    rw [← defaultLayoutAlignmentOk_iff, h]
    exact Bool.false_ne_true
  split_ifs at hlt <;> omega

/-- The pool's own alignment is enough where `default_layout_alignment_ok` says so: the size decides
which of the pool's two promises is used. -/
theorem align_dvd_of_ok (h : layout.defaultLayoutAlignmentOk = true) {p : UInt64}
    (hp : PoolBlock layout.size p) : layout.align.toNat ∣ p.toNat := by
  obtain ⟨k, hk⟩ := layout.align_pow
  have hle := defaultLayoutAlignmentOk_iff.1 h
  split_ifs at hle with hsize
  · exact (two_pow_dvd_of_le hk (show 16 = 2 ^ 4 from rfl) hle).trans hp.aligned
  · have hpage : pageSize ∣ p.toNat := hp.page_aligned (Nat.le_of_not_lt hsize)
    exact (two_pow_dvd_of_le hk (show 4096 = 2 ^ 12 from rfl) hle).trans hpage

theorem size_add_align_lt (layout : Layout) : layout.size.toNat + layout.align.toNat < 2 ^ 64 := by
  have hfits := layout.fits
  have hpos := layout.align_pos
  omega

theorem request_of_ok (h : layout.defaultLayoutAlignmentOk = true) :
    layout.request = layout.size :=
  if_pos h

theorem toNat_request_of_not_ok (h : layout.defaultLayoutAlignmentOk = false) :
    layout.request.toNat = layout.size.toNat + layout.align.toNat := by
  rw [request, h, if_neg Bool.false_ne_true, UInt64.toNat_add,
    Nat.mod_eq_of_lt layout.size_add_align_lt]

theorem checkedAdd_of_not_ok (h : layout.defaultLayoutAlignmentOk = false) :
    Word.checkedAdd layout.size layout.align = some layout.request := by
  obtain ⟨size, hsum, hsumNat⟩ := Word.checkedAdd_of_lt layout.size_add_align_lt
  rw [hsum, UInt64.toNat_inj.1 (hsumNat.trans (toNat_request_of_not_ok h).symm)]

theorem size_pos (h : layout.size ≠ 0) : 0 < layout.size.toNat :=
  Nat.pos_of_ne_zero fun hzero => h (UInt64.toNat_inj.1 hzero)

/-- The block as it comes is a good place if the pool's own alignment is enough. -/
theorem placed_of_ok (h : layout.defaultLayoutAlignmentOk = true) {p : UInt64}
    (hp : PoolBlock layout.request p) : layout.Placed p p := by
  have hblock : layout.value p = layout.block p := by rw [value, block, request_of_ok h]
  refine ⟨hp.nonnull, ?_, ?_, fun hnot => ?_, fun hnot => ?_⟩
  · rw [request_of_ok h] at hp
    exact align_dvd_of_ok h hp
  · rw [hblock]
    exact ⟨le_refl _, le_refl _⟩
  all_goals
    rw [h] at hnot
    cases hnot

/-- The first multiple of the alignment after the start of the block is a good place if the block
has `align` bytes more than the value. -/
theorem placed_of_not_ok (h : layout.defaultLayoutAlignmentOk = false) {p q : UInt64}
    (hq : layout.align.toNat ∣ q.toNat) (hlow : p.toNat + 16 ≤ q.toNat)
    (hhigh : q.toNat ≤ p.toNat + layout.align.toNat) : layout.Placed p q := by
  have hrequest := toNat_request_of_not_ok h
  refine ⟨?_, hq, ⟨?_, ?_⟩, fun _ => ⟨?_, ?_⟩, fun _ => ?_⟩
  · rintro rfl
    have hzero : (0 : UInt64).toNat = 0 := rfl
    omega
  · show p.toNat ≤ q.toNat
    omega
  · show q.toNat + layout.size.toNat ≤ p.toNat + layout.request.toNat
    omega
  · show p.toNat ≤ q.toNat - 8
    omega
  · show q.toNat - 8 + 8 ≤ p.toNat + layout.request.toNat
    omega
  · show min (q.toNat - 8 + 8) (q.toNat + layout.size.toNat) ≤ max (q.toNat - 8) q.toNat
    omega

end Layout

namespace WdkAllocator

variable {layout : Layout} {pool : UInt64 → UInt64} {mem : ByteMemory}

/-- The over-aligned path.  The place is past the start of the block by 16 bytes at least, as the
start and the alignment are both multiples of 16, and by `align` bytes at most. -/
theorem alloc_of_not_ok (h : layout.defaultLayoutAlignmentOk = false) (hsize : layout.size ≠ 0)
    (hp : PoolBlock layout.request (pool layout.request)) (mem : ByteMemory) :
    ∃ q : UInt64,
      alloc layout pool mem =
        some (q, mem.store (q.toNat - 8) (leBytes 8 (pool layout.request).toNat)) ∧
      layout.align.toNat ∣ q.toNat ∧ (pool layout.request).toNat + 16 ≤ q.toNat ∧
      q.toNat ≤ (pool layout.request).toNat + layout.align.toNat := by
  obtain ⟨k, hk⟩ := layout.align_pow
  have hrequest := Layout.toNat_request_of_not_ok h
  have hpos := Layout.size_pos hsize
  obtain ⟨low, hlow, hlowNat⟩ := Word.checkedSub_of_le (b := 1) layout.align_pos
  have hnext := next_multiple layout.align_pos (Word.toNat_and_not_mask hk hlowNat) hp.aligned
    (Layout.sixteen_dvd_align h)
  have hwrap := hp.no_wrap
  obtain ⟨q, hq, hqNat⟩ := Word.checkedAdd_of_lt (a := pool layout.request &&& ~~~low)
    (b := layout.align) (by omega)
  rw [← hqNat] at hnext
  have height : (8 : UInt64).toNat ≤ q.toNat := (show 8 ≤ q.toNat by omega)
  obtain ⟨prev, hprev, hprevNat⟩ := Word.checkedSub_of_le height
  refine ⟨q, ?_, hnext⟩
  have hprevNat' : prev.toNat = q.toNat - 8 := hprevNat
  rw [alloc, h, if_neg Bool.false_ne_true, ← hprevNat']
  simp [Layout.checkedAdd_of_not_ok h, hlow, hp.nonnull, hq, hprev]

theorem alloc_of_null (hnull : pool layout.request = 0) (mem : ByteMemory) :
    alloc layout pool mem = some (0, mem) := by
  cases h : layout.defaultLayoutAlignmentOk
  · obtain ⟨low, hlow, -⟩ := Word.checkedSub_of_le (b := 1) layout.align_pos
    rw [alloc, h, if_neg Bool.false_ne_true]
    simp [Layout.checkedAdd_of_not_ok h, hlow, hnull]
  · rw [Layout.request_of_ok h] at hnull
    rw [alloc, h, if_pos rfl, hnull]

theorem dealloc_of_not_ok (h : layout.defaultLayoutAlignmentOk = false) (q : UInt64)
    (mem : ByteMemory) :
    dealloc layout q mem =
      if 8 ≤ q.toNat then some (UInt64.ofNat (leNat (mem.load (slot q)))) else none := by
  rw [dealloc, h, if_neg Bool.false_ne_true]
  by_cases hq : 8 ≤ q.toNat
  · obtain ⟨prev, hprev, hprevNat⟩ := Word.checkedSub_of_le (a := q) (b := 8) hq
    have hrange : (⟨prev.toNat, 8⟩ : Range) = slot q := congrArg (Range.mk · 8) hprevNat
    rw [hprev, if_pos hq, ← hrange]
    rfl
  · have hprev : Word.checkedSub q 8 = none := if_neg hq
    rw [hprev, if_neg hq]
    rfl

theorem dealloc_congr {q : UInt64} {later : ByteMemory}
    (h : layout.defaultLayoutAlignmentOk = false → ∀ x, (slot q).Has x → later x = mem x) :
    dealloc layout q later = dealloc layout q mem := by
  cases hok : layout.defaultLayoutAlignmentOk
  · rw [dealloc_of_not_ok hok, dealloc_of_not_ok hok, ByteMemory.load_congr (h hok)]
  · rw [dealloc, dealloc, hok, if_pos rfl, if_pos rfl]

theorem dealloc_store (h : layout.defaultLayoutAlignmentOk = false) {q : UInt64} (hq : 8 ≤ q.toNat)
    (p : UInt64) (mem : ByteMemory) :
    dealloc layout q (mem.store (q.toNat - 8) (leBytes 8 p.toNat)) = some p := by
  have hload : (mem.store (q.toNat - 8) (leBytes 8 p.toNat)).load (slot q) = leBytes 8 p.toNat :=
    ByteMemory.load_store mem _ (length_leBytes 8 _)
  have hlt : p.toNat < 256 ^ 8 := p.toNat_lt
  rw [dealloc_of_not_ok h, if_pos hq, hload, leNat_leBytes hlt, UInt64.ofNat_toNat]

theorem alloc_of_poolBlock (pool : UInt64 → UInt64) (hsize : layout.size ≠ 0)
    (hp : PoolBlock layout.request (pool layout.request)) (mem : ByteMemory) :
    ∃ q mem', alloc layout pool mem = some (q, mem') ∧ layout.Placed (pool layout.request) q ∧
      (∀ x, mem' x ≠ mem x → layout.defaultLayoutAlignmentOk = false ∧ (slot q).Has x) ∧
      dealloc layout q mem' = some (pool layout.request) := by
  cases h : layout.defaultLayoutAlignmentOk
  · obtain ⟨q, halloc, hdvd, hlow, hhigh⟩ := alloc_of_not_ok h hsize hp mem
    refine ⟨q, _, halloc, Layout.placed_of_not_ok h hdvd hlow hhigh, fun x hx => ⟨rfl, ?_⟩,
      dealloc_store h (by omega) _ _⟩
    by_contra hnot
    exact hx (ByteMemory.store_of_not_has hnot)
  · refine ⟨pool layout.request, mem, ?_, Layout.placed_of_ok h hp, fun x hx => absurd rfl hx, ?_⟩
    · rw [alloc, h, if_pos rfl, Layout.request_of_ok h]
    · rw [dealloc, h, if_pos rfl]

end WdkAllocator

open WdkAllocator in
/-- **Allocations are sound.**  `alloc` and `dealloc` compute without overflow: the address is
aligned, the value and the slot are parts of the block that do not overlap, and `dealloc` frees the
block, if what is outside the value has been left as it was.  A null of the pool is handed on. -/
theorem alloc_sound (layout : Layout) (hsize : layout.size ≠ 0) (pool : UInt64 → UInt64)
    (mem : ByteMemory) :
    (pool layout.request = 0 → alloc layout pool mem = some (0, mem)) ∧
    (PoolBlock layout.request (pool layout.request) →
      ∃ q mem', alloc layout pool mem = some (q, mem') ∧
        layout.Placed (pool layout.request) q ∧
        (∀ x, mem' x ≠ mem x → layout.defaultLayoutAlignmentOk = false ∧ (slot q).Has x) ∧
        ∀ later : ByteMemory,
          (∀ x, (layout.block (pool layout.request)).Has x → ¬ (layout.value q).Has x →
            later x = mem' x) →
          dealloc layout q later = some (pool layout.request)) := by
  refine ⟨fun hnull => alloc_of_null hnull mem, fun hp => ?_⟩
  obtain ⟨q, mem', halloc, hplaced, hframe, hfree⟩ := alloc_of_poolBlock pool hsize hp mem
  refine ⟨q, mem', halloc, hplaced, hframe, fun later hlater => ?_⟩
  rw [← hfree]
  -- The slot is in the block and outside the value, so it has been left as it was.
  refine dealloc_congr fun hok x hx => hlater x ((hplaced.slot_within hok).has hx) ?_
  exact (hplaced.slot_apart hok).not_has hx

theorem sixtyFour_fits : (24 : UInt64).toNat + ((64 : UInt64).toNat - 1) < 2 ^ 63 := by decide

/-- 24 bytes at a multiple of 64. -/
def sixtyFourLayout : Layout := ⟨24, 64, ⟨6, rfl⟩, sixtyFour_fits⟩

/-- From a block at 4112 the value is at 4160, and the slot at 4152 leads back to 4112. -/
theorem alloc_sound_sixtyFour :
    PoolBlock sixtyFourLayout.request 4112 ∧ sixtyFourLayout.Placed 4112 4160 ∧
      ∃ mem', WdkAllocator.alloc sixtyFourLayout (fun _ => 4112) (fun _ => 0) = some (4160, mem') ∧
        WdkAllocator.dealloc sixtyFourLayout 4160 mem' = some 4112 := by
  have hp : PoolBlock sixtyFourLayout.request 4112 := by decide
  obtain ⟨q, mem', halloc, hplaced, -, hfree⟩ :=
    (alloc_sound sixtyFourLayout (by decide) (fun _ => 4112) (fun _ => 0)).2 hp
  obtain rfl : q = 4160 := by
    have hq := congrArg (Option.map Prod.fst) halloc
    exact (Option.some.inj hq).symm
  exact ⟨hp, hplaced, mem', halloc, hfree mem' fun _ _ _ => rfl⟩

/-! ### Page-aligned boxes -/

/-- `core::cmp::max` -/
def wordMax (a b : UInt64) : UInt64 := if a ≤ b then b else a

theorem le_wordMax_right (a b : UInt64) : b.toNat ≤ (wordMax a b).toNat := by
  rw [wordMax]
  split_ifs with h
  · exact le_refl _
  · exact (Nat.lt_of_not_le (mt UInt64.le_iff_toNat_le.2 h)).le

theorem wordMax_le {a b : UInt64} {n : ℕ} (ha : a.toNat ≤ n) (hb : b.toNat ≤ n) :
    (wordMax a b).toNat ≤ n := by
  rw [wordMax]
  split_ifs
  · exact hb
  · exact ha

theorem exists_wordMax_eq_two_pow {a b : UInt64} (ha : ∃ k, a.toNat = 2 ^ k)
    (hb : ∃ k, b.toNat = 2 ^ k) : ∃ k, (wordMax a b).toNat = 2 ^ k := by
  rw [wordMax]
  split_ifs
  · exact hb
  · exact ha

/-- `Layout::align_to` for a power of two `n`. -/
def Layout.alignTo (layout : Layout) (n : UInt64) (hn : ∃ k, n.toNat = 2 ^ k) : Option Layout :=
  if h : layout.size.toNat + ((wordMax layout.align n).toNat - 1) < 2 ^ 63 then
    some ⟨layout.size, wordMax layout.align n, exists_wordMax_eq_two_pow layout.align_pow hn, h⟩
  else none

theorem Layout.alignTo_of_lt {layout : Layout} {n : UInt64} (hn : ∃ k, n.toNat = 2 ^ k)
    (h : layout.size.toNat + ((wordMax layout.align n).toNat - 1) < 2 ^ 63) :
    ∃ l, layout.alignTo n hn = some l ∧ l.size = layout.size ∧ l.align = wordMax layout.align n :=
  ⟨_, dif_pos h, rfl, rfl⟩

theorem exists_page_eq_two_pow : ∃ k, (4096 : UInt64).toNat = 2 ^ k := ⟨12, rfl⟩

/-- `AlignedAlloc<PAGE_SIZE>::allocate`.  The `unwrap` of `align_to` panics if there is no such
layout. -/
def AlignedAlloc.allocate (layout : Layout) (pool : UInt64 → UInt64) (mem : ByteMemory) :
    Option (UInt64 × ByteMemory) := do
  let layout ← layout.alignTo 4096 exists_page_eq_two_pow
  WdkAllocator.alloc layout pool mem

/-- **A box of up to a page is at a page boundary**, as the buffers of the queue need it, and its
bytes are in the pool's block. -/
theorem allocate_page (layout : Layout) (hsize : layout.size ≠ 0)
    (hle : layout.size.toNat ≤ pageSize) (halign : layout.align.toNat ≤ pageSize) :
    ∃ paged, layout.alignTo 4096 exists_page_eq_two_pow = some paged ∧
      ∀ (pool : UInt64 → UInt64) (mem : ByteMemory),
        PoolBlock paged.request (pool paged.request) →
        ∃ (q : UInt64) (mem' : ByteMemory) (addr : PageAddr),
          AlignedAlloc.allocate layout pool mem = some (q, mem') ∧ addr.1 = q.toNat ∧
          (layout.value q).Within (paged.block (pool paged.request)) := by
  have hmax : (wordMax layout.align 4096).toNat ≤ pageSize := wordMax_le halign (le_refl 4096)
  have hfits : layout.size.toNat + ((wordMax layout.align 4096).toNat - 1) < 2 ^ 63 := by
    rw [pageSize] at hle hmax
    omega
  obtain ⟨paged, hpaged, hpsize, hpalign⟩ := layout.alignTo_of_lt exists_page_eq_two_pow hfits
  refine ⟨paged, hpaged, fun pool mem hp => ?_⟩
  rw [← hpsize] at hsize
  obtain ⟨q, mem', halloc, hplaced, -, -⟩ := WdkAllocator.alloc_of_poolBlock pool hsize hp mem
  have hpage : pageSize ∣ q.toNat := by
    obtain ⟨k, hk⟩ := paged.align_pow
    have hpagele : pageSize ≤ paged.align.toNat := by
      rw [hpalign]
      exact le_wordMax_right _ 4096
    exact (two_pow_dvd_of_le (show pageSize = 2 ^ 12 from rfl) hk hpagele).trans hplaced.aligned
  refine ⟨q, mem', ⟨q.toNat, hpage⟩, ?_, rfl, ?_⟩
  · rw [AlignedAlloc.allocate, hpaged]
    exact halloc
  · rw [Layout.value, ← hpsize]
    exact hplaced.value_within

/-- From a block at 4096. -/
theorem allocate_page_sixtyFour :
    ∃ paged, sixtyFourLayout.alignTo 4096 exists_page_eq_two_pow = some paged ∧
      PoolBlock paged.request 4096 ∧ ∃ (q : UInt64) (mem : ByteMemory),
        AlignedAlloc.allocate sixtyFourLayout (fun _ => 4096) (fun _ => 0) = some (q, mem) ∧
        pageSize ∣ q.toNat ∧ (sixtyFourLayout.value q).Within (paged.block 4096) := by
  have hrequest : (sixtyFourLayout.alignTo 4096 exists_page_eq_two_pow).map Layout.request =
      some 4120 := by decide
  obtain ⟨paged, hpaged, halloc⟩ :=
    allocate_page sixtyFourLayout (by decide) (by decide) (by decide)
  rw [hpaged, Option.map_some, Option.some.injEq] at hrequest
  have hblock : PoolBlock paged.request 4096 := by
    rw [hrequest]
    decide
  obtain ⟨q, mem, addr, hq, haddr, hwithin⟩ := halloc (fun _ => 4096) (fun _ => 0) hblock
  exact ⟨paged, hpaged, hblock, q, mem, hq, haddr ▸ addr.2, hwithin⟩

end VirtioGpu
