import VirtioGpu.Data.Coalesce
import VirtioGpu.Machine.Basic
import Mathlib.Algebra.Order.Ring.Nat
import Mathlib.Data.List.Range

/-!
# The pages of a 3D resource

`dxgkrnl` tells the driver which pages back a resource in pieces, each a slice of page-table entries
for a part of the resource (`UPDATE_PAGE_TABLE`).  `Allocation::attach_pages` collects them in a
list of `MemEntry`s, in which physically contiguous pages share an entry, until it has pages for the
whole resource.

The list is known by the bytes that its entries cover, one address after the other.

* `attachPages_exact` : what one call does to these bytes, and what it returns.
-/

namespace VirtioGpu

/-- `gpu::MemEntry`, without its padding. -/
structure MemEntry where
  addr : UInt64
  length : UInt32
  deriving DecidableEq

/-- `DXGK_PTE_PAGE_SIZE` -/
inductive PtePageSize where
  | page4KB
  | page64KB
  | other
  deriving DecidableEq

/-- `DXGK_PTE`, with the fields `attach_pages` looks at. -/
structure Pte where
  valid : Bool
  segment : UInt8
  pageTablePageSize : PtePageSize
  pageAddress : UInt64
  deriving DecidableEq

/-- The assertions of `attach_pages`. -/
inductive PagesPanic where
  /-- `assert!(length > 0)` -/
  | pageSize
  /-- `assert!(entry.Flags().Segment() == 0)` -/
  | segment
  deriving DecidableEq

/-- `u32::checked_add` -/
def checkedAdd (a b : UInt32) : Option UInt32 :=
  if a.toNat + b.toNat < 2 ^ 32 then some (a + b) else none

namespace MemEntry

def mergeEntries (a b : MemEntry) : Option UInt32 :=
  if a.addr + a.length.toUInt64 = b.addr then checkedAdd a.length b.length else none

/-- The merged entry. -/
def merge (a b : MemEntry) : Option MemEntry := (a.mergeEntries b).map fun n => ⟨a.addr, n⟩

/-- The addresses of the bytes the entry covers. -/
def bytes (e : MemEntry) : List ℕ := List.range' e.addr.toNat e.length.toNat

/-- The end of the entry is an address. -/
def InRange (e : MemEntry) : Prop := e.addr.toNat + e.length.toNat < 2 ^ 64

end MemEntry

namespace Pte

/-- `DXGK_PTE::Len` -/
def len (p : Pte) : UInt32 := match p.pageTablePageSize with
  | .page4KB => 4096
  | .page64KB => 65536
  | .other => 0

/-- The entry of `attach_pages` for one page. -/
def toMemEntry (p : Pte) : Except PagesPanic MemEntry :=
  if p.len = 0 then .error .pageSize
  else if p.segment ≠ 0 then .error .segment
  else .ok ⟨p.pageAddress * 4096, p.len⟩

/-- The addresses of the bytes of the page. -/
def bytes (p : Pte) : List ℕ := List.range' (p.pageAddress.toNat * 4096) p.len.toNat

/-- A valid entry for a page of 4 KB or 64 KB in system memory, with an end that is an address. -/
structure Attachable (p : Pte) : Prop where
  valid : p.valid = true
  size : p.pageTablePageSize ≠ .other
  segment : p.segment = 0
  inRange : p.pageAddress.toNat * 4096 + p.len.toNat < 2 ^ 64

end Pte

/-- `VirtioResource::_3D` with its `size` and `map`. -/
structure Backing where
  size : ℕ
  /-- `map.0`, the offset of the last piece. -/
  offset : ℕ
  /-- `map.1` -/
  entries : List MemEntry
  deriving DecidableEq

namespace Backing

/-- `Allocation::total_attached_bytes`. -/
def totalAttachedBytes (m : Backing) : ℕ := (m.entries.map (·.length.toNat)).sum

/-- `Allocation::attach_pages`.  The iterator over the pages adds up their lengths as it goes, and
both branches go through all of them. -/
def attachPages (m : Backing) (offset : ℕ) (pages : List Pte) :
    Except PagesPanic (Bool × Backing) :=
  if m.size ≤ m.totalAttachedBytes then .ok (true, m)
  else if pages.any fun p => !p.valid then .ok (false, m)
  else do
    let new ← pages.mapM Pte.toMemEntry
    let attachedSize := m.totalAttachedBytes + (new.map (·.length.toNat)).sum
    let entries := coalesce MemEntry.merge new
    let entries :=
      if offset < m.offset then entries ++ m.entries
      else appendMerged MemEntry.merge m.entries entries
    pure (decide (m.size ≤ attachedSize), ⟨m.size, offset, entries⟩)

/-- The addresses of the bytes that the entries cover, in order. -/
def bytes (m : Backing) : List ℕ := m.entries.flatMap MemEntry.bytes

/-- The ends of the entries are addresses. -/
def InRange (m : Backing) : Prop := ∀ e ∈ m.entries, e.InRange

theorem length_bytes (m : Backing) : m.bytes.length = m.totalAttachedBytes := by
  simp [bytes, totalAttachedBytes, MemEntry.bytes, List.length_flatMap]

end Backing

theorem toNat_of_checkedAdd {a b n : UInt32} (h : checkedAdd a b = some n) :
    n.toNat = a.toNat + b.toNat := by
  unfold checkedAdd at h
  split_ifs at h with hlt
  cases h
  rw [UInt32.toNat_add, Nat.mod_eq_of_lt hlt]

theorem MemEntry.faithful_merge : Faithful MemEntry.merge MemEntry.InRange MemEntry.bytes := by
  intro a b c ha hb h
  obtain ⟨n, hn, rfl⟩ := Option.map_eq_some_iff.1 h
  unfold mergeEntries at hn
  split_ifs at hn with haddr
  have hlen := toNat_of_checkedAdd hn
  have hnext : b.addr.toNat = a.addr.toNat + a.length.toNat := by
    rw [← haddr, UInt64.toNat_add, UInt32.toNat_toUInt64, Nat.mod_eq_of_lt ha]
  unfold InRange at hb ⊢
  refine ⟨by simp only [hlen]; omega, ?_⟩
  simp only [bytes, hlen, hnext, List.range'_append_1]

theorem Pte.toMemEntry_of_attachable {p : Pte} (h : p.Attachable) :
    ∃ e, p.toMemEntry = .ok e ∧ e.InRange ∧ e.bytes = p.bytes ∧ e.length = p.len := by
  have hlen : p.len ≠ 0 := by
    have := h.size
    unfold len
    cases hsize : p.pageTablePageSize with
    | page4KB | page64KB => decide
    | other => exact absurd hsize this
  have hrange := h.inRange
  have haddr : (p.pageAddress * 4096).toNat = p.pageAddress.toNat * 4096 := by
    have hlt : p.pageAddress.toNat * 4096 < 2 ^ 64 := lt_of_le_of_lt (Nat.le_add_right _ _) hrange
    rw [UInt64.toNat_mul, show (4096 : UInt64).toNat = 4096 from rfl, Nat.mod_eq_of_lt hlt]
  refine ⟨⟨p.pageAddress * 4096, p.len⟩, ?_, ?_, ?_, rfl⟩
  · rw [toMemEntry, if_neg hlen, if_neg (by simpa using h.segment)]
  · rw [MemEntry.InRange, haddr]
    exact hrange
  · rw [MemEntry.bytes, haddr, bytes]

theorem mapM_toMemEntry {pages : List Pte} (h : ∀ p ∈ pages, p.Attachable) :
    ∃ new, pages.mapM Pte.toMemEntry = .ok new ∧ (∀ e ∈ new, e.InRange) ∧
      new.flatMap MemEntry.bytes = pages.flatMap Pte.bytes := by
  induction pages with
  | nil => exact ⟨[], rfl, by simp, rfl⟩
  | cons p pages ih =>
    rw [List.forall_mem_cons] at h
    obtain ⟨e, he, hrange, hbytes, -⟩ := Pte.toMemEntry_of_attachable h.1
    obtain ⟨new, hnew, hranges, hall⟩ := ih h.2
    refine ⟨e :: new, ?_, List.forall_mem_cons.2 ⟨hrange, hranges⟩, ?_⟩
    · rw [List.mapM_cons, he, hnew]
      rfl
    · rw [List.flatMap_cons, List.flatMap_cons, hbytes, hall]

/-- **What `attach_pages` does.**  It puts the bytes of the new pages behind those of the list, if
the offset is not below the last one, and before them otherwise, and returns whether the list is now
as long as the resource.  If it was before, nothing changes. -/
theorem attachPages_exact (m : Backing) (hm : m.InRange) (offset : ℕ) (pages : List Pte)
    (hpages : ∀ p ∈ pages, p.Attachable) :
    (m.totalAttachedBytes < m.size → ∃ m' : Backing,
      m.attachPages offset pages = .ok (decide (m.size ≤ m'.totalAttachedBytes), m') ∧
      m'.bytes = (if m.offset ≤ offset then m.bytes ++ pages.flatMap Pte.bytes
        else pages.flatMap Pte.bytes ++ m.bytes) ∧
      m'.size = m.size ∧ m'.offset = offset ∧ m'.InRange) ∧
    (m.size ≤ m.totalAttachedBytes → m.attachPages offset pages = .ok (true, m)) := by
  refine ⟨fun hless => ?_, fun hfull => by rw [Backing.attachPages, if_pos hfull]⟩
  obtain ⟨new, hnew, hranges, hbytes⟩ := mapM_toMemEntry hpages
  have hvalid : (pages.any fun p => !p.valid) = false := by
    rw [List.any_eq_false]
    intro p hp
    simp [(hpages p hp).valid]
  obtain ⟨hgood, hexpand⟩ := MemEntry.faithful_merge.coalesce hranges
  have hattach : m.attachPages offset pages =
      .ok (decide (m.size ≤ m.totalAttachedBytes + (new.map (·.length.toNat)).sum),
        ⟨m.size, offset, if offset < m.offset then coalesce MemEntry.merge new ++ m.entries
          else appendMerged MemEntry.merge m.entries (coalesce MemEntry.merge new)⟩) := by
    rw [Backing.attachPages, if_neg (not_le.2 hless), hvalid, hnew]
    rfl
  -- The list and the slice are as long as the sequences of bytes that they stand for.
  have htotal : ∀ entries, (⟨m.size, offset, entries⟩ : Backing).bytes.length =
      m.bytes.length + (pages.flatMap Pte.bytes).length →
      (⟨m.size, offset, entries⟩ : Backing).totalAttachedBytes =
        m.totalAttachedBytes + (new.map (·.length.toNat)).sum := by
    intro entries h
    have hsum : (pages.flatMap Pte.bytes).length = (new.map (·.length.toNat)).sum := by
      rw [← hbytes]
      simp [MemEntry.bytes, List.length_flatMap]
    rw [← Backing.length_bytes, h, hsum, Backing.length_bytes]
  by_cases hoff : m.offset ≤ offset
  · rw [if_neg (not_lt.2 hoff)] at hattach
    obtain ⟨hgood', happend⟩ := MemEntry.faithful_merge.appendMerged hgood hm
    rw [hexpand, hbytes] at happend
    refine ⟨⟨m.size, offset, appendMerged MemEntry.merge m.entries (coalesce MemEntry.merge new)⟩,
      ?_, ?_, rfl, rfl, hgood'⟩
    · rw [hattach, htotal]
      exact (congrArg List.length happend).trans List.length_append
    · rw [if_pos hoff]
      exact happend
  · rw [if_pos (not_le.1 hoff)] at hattach
    have hprepend : (coalesce MemEntry.merge new ++ m.entries).flatMap MemEntry.bytes =
        pages.flatMap Pte.bytes ++ m.bytes := by
      rw [List.flatMap_append, hexpand, hbytes, Backing.bytes]
    refine ⟨⟨m.size, offset, coalesce MemEntry.merge new ++ m.entries⟩, ?_, ?_, rfl, rfl, ?_⟩
    · rw [hattach, htotal]
      exact (congrArg List.length hprepend).trans (by rw [List.length_append, Nat.add_comm])
    · rw [if_neg hoff]
      exact hprepend
    · intro e he
      rcases List.mem_append.1 he with he | he
      · exact hgood e he
      · exact hm e he

/-- A page-table entry for a page of 4 KB. -/
def smallPage (n : UInt64) : Pte := ⟨true, 0, .page4KB, n⟩

theorem attachable_smallPage {n : UInt64} (h : n.toNat < 2 ^ 52 - 1) :
    (smallPage n).Attachable := by
  refine ⟨rfl, by simp [smallPage], rfl, ?_⟩
  have hlen : (smallPage n).len.toNat = 4096 := rfl
  rw [hlen, show (smallPage n).pageAddress = n from rfl]
  omega

/-- The last two pages of a resource of three come right behind the first one. -/
theorem attachPages_exact_contiguous :
    Backing.attachPages ⟨12288, 0, [⟨4096, 4096⟩]⟩ 4096 [smallPage 2, smallPage 3] =
      .ok (true, ⟨12288, 4096, [⟨4096, 12288⟩]⟩) ∧
    ∃ m' : Backing, Backing.attachPages ⟨12288, 0, [⟨4096, 4096⟩]⟩ 4096
        [smallPage 2, smallPage 3] = .ok (decide (12288 ≤ m'.totalAttachedBytes), m') ∧
      m'.bytes = List.range' 4096 4096 ++ [] ++
        (List.range' 8192 4096 ++ (List.range' 12288 4096 ++ [])) ∧
      m'.size = 12288 ∧ m'.offset = 4096 ∧ m'.InRange := by
  refine ⟨by decide, ?_⟩
  have h := attachPages_exact ⟨12288, 0, [⟨4096, 4096⟩]⟩
    (by simp [Backing.InRange, MemEntry.InRange]) 4096 [smallPage 2, smallPage 3]
    (by simp [attachable_smallPage])
  exact h.1 (by decide)

end VirtioGpu
