import VirtioGpu.Allocation.Pages
import VirtioGpu.Data.Arrange
import Mathlib.Data.List.Nodup

/-!
# Pages in the order of the resource

The pieces of a page table may come in any order.  `attach_pages` remembers only the offset of the
piece before: a piece with a smaller offset is put in front of everything, any other behind
everything.  The host takes the list as the bytes of the resource from the first to the last, so the
pieces have to end up in ascending order.

* `pages_in_order_iff` : the order is right if every piece comes from below or from above all
  earlier ones, and, unless a page is used twice, only then.
* `pages_out_of_order` : three pieces, with the one in the middle last.
-/

namespace VirtioGpu

/-- A piece of a page table: the offset in the resource, and the entries. -/
structure Piece where
  offset : ℕ
  pages : List Pte
  deriving DecidableEq

namespace Piece

/-- The addresses of the bytes of the piece. -/
def bytes (c : Piece) : List ℕ := c.pages.flatMap Pte.bytes

/-- The pieces follow one another from `start` to `stop`, and none is empty. -/
def Tiles (start stop : ℕ) : List Piece → Prop
  | [] => start = stop
  | c :: cs => c.offset = start ∧ c.bytes ≠ [] ∧ Tiles (start + c.bytes.length) stop cs

/-- All pages of the pieces can be attached. -/
def Attachable (cs : List Piece) : Prop := ∀ c ∈ cs, ∀ p ∈ c.pages, p.Attachable

variable {start stop : ℕ} {cs : List Piece}

theorem Tiles.length (h : Tiles start stop cs) :
    start + (cs.flatMap bytes).length = stop := by
  induction cs generalizing start with
  | nil => exact h
  | cons c cs ih =>
    have := ih h.2.2
    rw [List.flatMap_cons, List.length_append]
    omega

theorem Tiles.le_offset (h : Tiles start stop cs) : ∀ c ∈ cs, start ≤ c.offset := by
  induction cs generalizing start with
  | nil => simp
  | cons c cs ih =>
    intro d hd
    rcases List.mem_cons.1 hd with rfl | hd
    · exact h.1.ge
    · have := ih h.2.2 d hd
      omega

theorem Tiles.sorted (h : Tiles start stop cs) : cs.Pairwise (offset · < offset ·) := by
  induction cs generalizing start with
  | nil => exact .nil
  | cons c cs ih =>
    obtain ⟨rfl, hne, hcs⟩ := h
    refine List.pairwise_cons.2 ⟨fun d hd => ?_, ih hcs⟩
    have := hcs.le_offset d hd
    have := List.length_pos_of_ne_nil hne
    omega

theorem Tiles.ne_nil (h : Tiles start stop cs) : ∀ c ∈ cs, c.bytes ≠ [] := by
  induction cs generalizing start with
  | nil => simp
  | cons c cs ih => exact List.forall_mem_cons.2 ⟨h.2.1, ih h.2.2⟩

/-- Pieces without a common byte can be told from the bytes. -/
theorem eq_of_flatMap_bytes {cs ds : List Piece} (hperm : ds.Perm cs)
    (hne : ∀ c ∈ cs, c.bytes ≠ []) (hnodup : (cs.flatMap bytes).Nodup)
    (h : ds.flatMap bytes = cs.flatMap bytes) : ds = cs := by
  induction cs generalizing ds with
  | nil => exact hperm.eq_nil
  | cons c cs ih =>
    cases ds with
    | nil => exact absurd hperm.length_eq (by simp)
    | cons d =>
      rw [List.flatMap_cons, List.flatMap_cons] at h
      rw [List.flatMap_cons, List.nodup_append'] at hnodup
      rw [List.forall_mem_cons] at hne
      -- The first byte belongs to `d` and to `c`, and so they are the same piece.
      obtain rfl : d = c := by
        rcases List.mem_cons.1 (hperm.mem_iff.1 List.mem_cons_self) with hd | hd
        · exact hd
        · exfalso
          obtain ⟨x, xs, hx⟩ := List.exists_cons_of_ne_nil hne.1
          obtain ⟨y, ys, hy⟩ := List.exists_cons_of_ne_nil (hne.2 d hd)
          rw [hx, hy] at h
          have hxy : y = x := (List.cons.inj h).1
          have hmem : x ∈ c.bytes := by
            rw [hx]
            exact List.mem_cons_self
          refine hnodup.2.2 hmem ?_
          refine List.mem_flatMap.2 ⟨d, hd, ?_⟩
          rw [hy, hxy]
          exact List.mem_cons_self
      rw [ih hperm.cons_inv hne.2 hnodup.2.1 (List.append_cancel_left h)]

end Piece

namespace Backing

/-- `attach_pages` is called for each of the pieces. -/
def deliver (m : Backing) : List Piece → Except PagesPanic Backing
  | [] => .ok m
  | c :: cs => do
    let r ← m.attachPages c.offset c.pages
    r.2.deliver cs

/-- As long as the list is not complete before the last piece, the pieces are arranged by their
offsets. -/
theorem deliver_eq {cs : List Piece} (acc : List Piece) {m : Backing} (hm : m.InRange)
    (hbytes : m.bytes = acc.flatMap Piece.bytes) (hne : ∀ c ∈ cs, c.bytes ≠ [])
    (hsize : m.totalAttachedBytes + (cs.flatMap Piece.bytes).length ≤ m.size)
    (hpages : Piece.Attachable cs) :
    ∃ m', m.deliver cs = .ok m' ∧
      m'.bytes = (arrange Piece.offset m.offset acc cs).flatMap Piece.bytes := by
  induction cs generalizing m acc with
  | nil => exact ⟨m, rfl, hbytes⟩
  | cons c cs ih =>
    have hpages := List.forall_mem_cons.1 hpages
    rw [List.forall_mem_cons] at hne
    rw [List.flatMap_cons, List.length_append] at hsize
    have hpos := List.length_pos_of_ne_nil hne.1
    obtain ⟨m₁, hattach, hbytes₁, hsize₁, hoff₁, hrange₁⟩ :=
      (attachPages_exact m hm c.offset c.pages hpages.1).1 (by omega)
    have hsplit : m₁.bytes = (if c.offset < m.offset then c :: acc else acc ++ [c]).flatMap
        Piece.bytes := by
      rw [hbytes₁]
      by_cases hlt : c.offset < m.offset
      · rw [if_pos hlt, if_neg (not_le.2 hlt), List.flatMap_cons, hbytes]
        rfl
      · rw [if_neg hlt, if_pos (not_lt.1 hlt), List.flatMap_append, hbytes]
        simp [Piece.bytes]
    have htotal : m₁.totalAttachedBytes = m.totalAttachedBytes + c.bytes.length := by
      rw [← length_bytes, hbytes₁, ← length_bytes, Piece.bytes]
      split_ifs <;> simp [Nat.add_comm]
    obtain ⟨m', hdeliver, hm'⟩ := ih _ hrange₁ hsplit hne.2 (by omega) hpages.2
    refine ⟨m', ?_, ?_⟩
    · rw [deliver, hattach]
      exact hdeliver
    · rw [hm', hoff₁, arrange]

end Backing

/-- **When the pages are in order.**  If every piece comes from below all earlier ones or from above
all of them, the list covers the pages of the pieces in ascending order; and if no byte of memory is
used twice, in no other case. -/
theorem pages_in_order_iff (size : ℕ) (pieces delivered : List Piece)
    (h : Piece.Tiles 0 size pieces) (hpages : Piece.Attachable pieces)
    (hperm : delivered.Perm pieces) :
    ∃ m', Backing.deliver ⟨size, 0, []⟩ delivered = .ok m' ∧
      (Outward Piece.offset [] delivered → m'.bytes = pieces.flatMap Piece.bytes) ∧
      ((pieces.flatMap Piece.bytes).Nodup → m'.bytes = pieces.flatMap Piece.bytes →
        Outward Piece.offset [] delivered) := by
  have hlength : (delivered.flatMap Piece.bytes).length = size := by
    rw [(hperm.flatMap_right Piece.bytes).length_eq, ← h.length, Nat.zero_add]
  obtain ⟨m', hdeliver, hbytes⟩ := Backing.deliver_eq [] (m := ⟨size, 0, []⟩)
    (by simp [Backing.InRange]) rfl (fun c hc => h.ne_nil c (hperm.mem_iff.1 hc))
    (by simp [Backing.totalAttachedBytes, hlength]) (fun c hc => hpages c (hperm.mem_iff.1 hc))
  have hall : (arrange Piece.offset 0 [] delivered).Perm pieces := by
    refine (perm_arrange).trans ?_
    rw [List.nil_append]
    exact hperm
  have hiff : (arrange Piece.offset 0 [] delivered).Pairwise (Piece.offset · < Piece.offset ·) ↔
      Outward Piece.offset [] delivered := pairwise_arrange_iff .nil (.inl rfl)
  refine ⟨m', hdeliver, fun hout => ?_, fun hnodup heq => ?_⟩
  · have hsame : arrange Piece.offset 0 [] delivered = pieces :=
      hall.eq_of_pairwise (fun a b _ _ hab hba => absurd hab (lt_asymm hba)) (hiff.2 hout) h.sorted
    rw [hbytes]
    exact congrArg (List.flatMap Piece.bytes) hsame
  · have hsame := Piece.eq_of_flatMap_bytes hall h.ne_nil hnodup (hbytes.symm.trans heq)
    exact hiff.1 (hsame ▸ h.sorted)

/-- The `i`-th page of a resource, backed by the page `n` of memory. -/
def onePage (i : ℕ) (n : UInt64) : Piece := ⟨4096 * i, [smallPage n]⟩

theorem offset_onePage (i : ℕ) (n : UInt64) : (onePage i n).offset = 4096 * i := rfl

theorem bytes_onePage (i : ℕ) (n : UInt64) :
    (onePage i n).bytes = List.range' (n.toNat * 4096) 4096 := by
  simp only [Piece.bytes, onePage, List.flatMap_cons, List.flatMap_nil, List.append_nil]
  rfl

/-- The middle of three pages first, then the ones below and above it. -/
theorem pages_in_order_iff_outward :
    ∃ m', Backing.deliver ⟨12288, 0, []⟩ [onePage 1 5, onePage 0 8, onePage 2 2] = .ok m' ∧
      m'.bytes = [onePage 0 8, onePage 1 5, onePage 2 2].flatMap Piece.bytes := by
  obtain ⟨m', hdeliver, hbytes, -⟩ := pages_in_order_iff 12288
    [onePage 0 8, onePage 1 5, onePage 2 2] [onePage 1 5, onePage 0 8, onePage 2 2]
    (by simp [Piece.Tiles, bytes_onePage, offset_onePage])
    (by simp [Piece.Attachable, onePage, attachable_smallPage]) (by decide)
  exact ⟨m', hdeliver, hbytes (by decide)⟩

/-- **Pages out of order.**  The first page of a resource of three, then the last, then the one in
the middle: it has a smaller offset than the last and is put in front of the first. -/
theorem pages_out_of_order :
    ∃ m', Backing.deliver ⟨12288, 0, []⟩ [onePage 0 1, onePage 2 5, onePage 1 3] = .ok m' ∧
      m'.entries = [⟨3 * 4096, 4096⟩, ⟨1 * 4096, 4096⟩, ⟨5 * 4096, 4096⟩] ∧
      m'.bytes ≠ [onePage 0 1, onePage 1 3, onePage 2 5].flatMap Piece.bytes :=
  ⟨_, rfl, rfl, fun h => absurd (congrArg List.head? h) (by decide)⟩

end VirtioGpu
