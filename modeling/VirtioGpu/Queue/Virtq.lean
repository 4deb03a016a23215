import Mathlib.Algebra.Group.Nat.Defs
import Mathlib.Data.Fintype.Card
import Mathlib.Data.List.FinRange

/-!
# The virtqueue

`VirtQueue` (`virtio-drivers/src/queue.rs`) is the ring the driver shares with the device.  A
request is a chain of descriptors taken from the front of the free list; its head is the *token*
under which the device returns it.  With indirect descriptors a request takes one descriptor,
without them one for each of its two buffers.

A chain refers to its buffers by `β`.  The device's side is the list of used entries it has written
and the driver has not popped yet.

* `Virtq.Wf` : every descriptor is either free or in one chain, and the device has returned only
  outstanding chains, each at most once.
-/

namespace VirtioGpu

/-- The descriptors of a request, and the buffers they refer to. -/
structure Chain (size : ℕ) (β : Type*) where
  descs : List (Fin size)
  buffers : β

/-- `VirtQueue<H, SIZE>`. -/
structure Virtq (size : ℕ) (β : Type*) where
  /-- `VIRTIO_F_INDIRECT_DESC` has been negotiated. -/
  indirect : Bool
  /-- Descriptors in use. -/
  numUsed : ℕ
  /-- The free list, from `free_head`. -/
  free : List (Fin size)
  /-- The outstanding chains, by head. -/
  chain : Fin size → Option (Chain size β)
  /-- The entries of the used ring from `last_used_idx` on: id and length, both `u32`. -/
  used : List (ℕ × ℕ)

namespace Virtq

variable {size : ℕ} {β : Type*} {q : Virtq size β} {t : Fin size}

/-- A new queue: the descriptors are linked in order. -/
def new (size : ℕ) (β : Type*) (indirect : Bool) : Virtq size β where
  indirect := indirect
  numUsed := 0
  free := List.finRange size
  chain := fun _ => none
  used := []

/-- The descriptors a request with one input and one output takes. -/
def needed (q : Virtq size β) : ℕ := if q.indirect then 1 else 2

/-- The test `add` makes before it takes any descriptor. -/
def Full (q : Virtq size β) : Prop :=
  q.numUsed + 1 > size ∨ 2 > size ∨ (q.indirect = false ∧ q.numUsed + 2 > size)
  deriving Decidable

/-- The queue with the first `needed` free descriptors, `head` and `rest`, made into a chain. -/
def link (q : Virtq size β) (head : Fin size) (rest : List (Fin size)) (buffers : β) :
    Virtq size β :=
  { q with
    numUsed := q.numUsed + q.needed
    free := q.free.drop q.needed
    chain := Function.update q.chain head (some ⟨head :: rest, buffers⟩) }

/-- `VirtQueue::add` for one input and one output, after the test: the head of the new chain. -/
def take (q : Virtq size β) (buffers : β) : Option (Fin size × Virtq size β) :=
  match q.free.take q.needed with
  | [] => none
  | head :: rest => some (head, q.link head rest buffers)

/-- `VirtQueue::peek_used`: the id of the next used entry, cut to 16 bits. -/
def peekUsed (q : Virtq size β) : Option ℕ :=
  q.used.head?.map fun entry => entry.1 % 2 ^ 16

/-- `VirtQueue::recycle_descriptors` and the advance of `last_used_idx`: the chain goes back to the
front of the free list. -/
def recycle (q : Virtq size β) (head : Fin size) (c : Chain size β) : Virtq size β :=
  { q with
    numUsed := q.numUsed - c.descs.length
    free := c.descs ++ q.free
    chain := Function.update q.chain head none
    used := q.used.tail }

/-- The chain with this head has been added and not popped. -/
def Outstanding (q : Virtq size β) (token : Fin size) : Prop := (q.chain token).isSome
  deriving Decidable

/-- The ids the device has returned. -/
def returned (q : Virtq size β) : List ℕ := q.used.map Prod.fst

/-! ### Well-formedness -/

/-- Every descriptor is free or in exactly one chain, the head of a chain is its first descriptor,
and the device has returned only outstanding chains, each at most once. -/
structure Wf (q : Virtq size β) : Prop where
  nodup_free : q.free.Nodup
  head_mem : ∀ t c, q.chain t = some c → t ∈ c.descs
  nodup_chain : ∀ t c, q.chain t = some c → c.descs.Nodup
  not_free : ∀ t c, q.chain t = some c → ∀ d ∈ c.descs, d ∉ q.free
  covered : ∀ d, d ∈ q.free ∨ ∃ t c, q.chain t = some c ∧ d ∈ c.descs
  disjoint : ∀ t c t' c', q.chain t = some c → q.chain t' = some c' → t ≠ t' →
    List.Disjoint c.descs c'.descs
  length_chain : ∀ t c, q.chain t = some c → c.descs.length = q.needed
  length_free : q.free.length + q.numUsed = size
  nodup_returned : q.returned.Nodup
  returned_outstanding : ∀ id ∈ q.returned, ∃ t : Fin size, q.Outstanding t ∧ id = t.val

theorem wf_new (indirect : Bool) : (new size β indirect).Wf where
  nodup_free := List.nodup_finRange size
  head_mem := by simp [new]
  nodup_chain := by simp [new]
  not_free := by simp [new]
  covered := by simp [new]
  disjoint := by simp [new]
  length_chain := by simp [new]
  length_free := by simp [new]
  nodup_returned := by simp [new, returned]
  returned_outstanding := by simp [new, returned]

@[simp] theorem link_chain_self (q : Virtq size β) (head : Fin size) (rest : List (Fin size))
    (buffers : β) : (q.link head rest buffers).chain head = some ⟨head :: rest, buffers⟩ :=
  Function.update_self ..

theorem link_chain_of_ne (q : Virtq size β) {head t : Fin size} (h : t ≠ head)
    (rest : List (Fin size)) (buffers : β) : (q.link head rest buffers).chain t = q.chain t :=
  Function.update_of_ne h ..

@[simp] theorem recycle_chain_self (q : Virtq size β) (t : Fin size) (c : Chain size β) :
    (q.recycle t c).chain t = none :=
  Function.update_self ..

theorem recycle_chain_of_ne (q : Virtq size β) {t u : Fin size} (h : u ≠ t) (c : Chain size β) :
    (q.recycle t c).chain u = q.chain u :=
  Function.update_of_ne h ..

theorem chain_of_recycle {t u : Fin size} {c d : Chain size β}
    (h : (q.recycle t c).chain u = some d) : u ≠ t ∧ q.chain u = some d := by
  have hu : u ≠ t := by
    rintro rfl
    simp at h
  exact ⟨hu, by rwa [recycle_chain_of_ne q hu] at h⟩

theorem Wf.not_outstanding_of_free (hq : q.Wf) (ht : t ∈ q.free) : q.chain t = none := by
  cases hc : q.chain t with
  | none => rfl
  | some c => exact absurd ht (hq.not_free t c hc t (hq.head_mem t c hc))

/-- With indirect descriptors a chain is its head, so a descriptor that heads no chain is free. -/
theorem Wf.free_of_indirect (hq : q.Wf) (hind : q.indirect = true) (ht : ¬ q.Outstanding t) :
    t ∈ q.free := by
  obtain hfree | ⟨u, c, hc, hmem⟩ := hq.covered t
  · exact hfree
  · have hlen : c.descs.length = 1 := by
      rw [hq.length_chain u c hc, needed, if_pos hind]
    obtain ⟨d, hd⟩ := List.length_eq_one_iff.1 hlen
    have hu := hq.head_mem u c hc
    rw [hd, List.mem_singleton] at hmem hu
    rw [← hu] at hmem
    exact absurd (by rw [Outstanding, hmem, hc]; rfl) ht

/-- Taking descriptors for a request: the token is not outstanding, and the queue stays well
formed. -/
theorem Wf.take (hq : q.Wf) (hfull : ¬ q.Full) (buffers : β) :
    ∃ head rest, q.take buffers = some (head, q.link head rest buffers) ∧
      q.chain head = none ∧ (q.link head rest buffers).Wf := by
  have hlen : q.needed ≤ q.free.length := by
    have := hq.length_free
    simp only [Full, needed] at hfull ⊢
    split_ifs with hind
    · omega
    · simp only [hind, not_or, true_and] at hfull
      omega
  have hpos : 0 < q.needed := by
    unfold needed
    split_ifs <;> decide
  obtain ⟨head, rest, hsplit⟩ : ∃ head rest, q.free.take q.needed = head :: rest := by
    refine List.exists_cons_of_ne_nil fun hnil => ?_
    have := congrArg List.length hnil
    simp only [List.length_take, List.length_nil] at this
    omega
  have hfree : head :: rest ++ q.free.drop q.needed = q.free := by
    rw [← hsplit, List.take_append_drop]
  have hmem : ∀ d ∈ head :: rest, d ∈ q.free := by
    intro d hd
    rw [← hfree]
    exact List.mem_append_left _ hd
  have hnone : q.chain head = none := hq.not_outstanding_of_free (hmem head List.mem_cons_self)
  have hnodup : (head :: rest ++ q.free.drop q.needed).Nodup := by
    rw [hfree]
    exact hq.nodup_free
  obtain ⟨hrest, hdrop, hdisj⟩ := List.nodup_append'.1 hnodup
  refine ⟨head, rest, by rw [Virtq.take, hsplit], hnone, ?_⟩
  have hchain : ∀ t c, (q.link head rest buffers).chain t = some c →
      (t = head ∧ c = ⟨head :: rest, buffers⟩) ∨ (t ≠ head ∧ q.chain t = some c) := by
    intro t c h
    by_cases ht : t = head
    · subst ht
      rw [link_chain_self] at h
      exact .inl ⟨rfl, (Option.some.inj h).symm⟩
    · rw [link_chain_of_ne q ht] at h
      exact .inr ⟨ht, h⟩
  refine ⟨hdrop, ?_, ?_, ?_, ?_, ?_, ?_, ?_, hq.nodup_returned, ?_⟩
  · intro t c h
    obtain ⟨rfl, rfl⟩ | ⟨-, h⟩ := hchain t c h
    · exact List.mem_cons_self
    · exact hq.head_mem t c h
  · intro t c h
    obtain ⟨rfl, rfl⟩ | ⟨-, h⟩ := hchain t c h
    · exact hrest
    · exact hq.nodup_chain t c h
  · intro t c h d hd hdfree
    obtain ⟨rfl, rfl⟩ | ⟨-, h⟩ := hchain t c h
    · exact hdisj hd hdfree
    · exact hq.not_free t c h d hd (List.mem_of_mem_drop hdfree)
  · intro d
    obtain hd | ⟨t, c, hc, hd⟩ := hq.covered d
    · rw [← hfree, List.mem_append] at hd
      obtain hd | hd := hd
      · exact .inr ⟨head, _, link_chain_self .., hd⟩
      · exact .inl hd
    · refine .inr ⟨t, c, ?_, hd⟩
      rw [link_chain_of_ne, hc]
      rintro rfl
      rw [hnone] at hc
      cases hc
  · intro t c t' c' h h' hne d hd hd'
    obtain ⟨ht, rfl⟩ | ⟨-, hold⟩ := hchain t c h
    · obtain ⟨ht', -⟩ | ⟨-, hold'⟩ := hchain t' c' h'
      · exact hne (ht.trans ht'.symm)
      · exact hq.not_free t' c' hold' d hd' (hmem d hd)
    · obtain ⟨-, rfl⟩ | ⟨-, hold'⟩ := hchain t' c' h'
      · exact hq.not_free t c hold d hd (hmem d hd')
      · exact hq.disjoint t c t' c' hold hold' hne hd hd'
  · intro t c h
    obtain ⟨rfl, rfl⟩ | ⟨-, h⟩ := hchain t c h
    · have := congrArg List.length hsplit
      rw [List.length_take, Nat.min_eq_left hlen] at this
      exact this.symm
    · exact hq.length_chain t c h
  · have := hq.length_free
    simp only [link, List.length_drop]
    omega
  · intro id hid
    obtain ⟨t, ht, rfl⟩ := hq.returned_outstanding id hid
    refine ⟨t, ?_, rfl⟩
    have hne : t ≠ head := by
      rintro rfl
      simp [Outstanding, hnone] at ht
    rwa [Outstanding, link_chain_of_ne q hne]

theorem Wf.complete (hq : q.Wf) (ht : q.Outstanding t) (hnew : t.val ∉ q.returned) (len : ℕ) :
    { q with used := q.used ++ [(t.val, len)] }.Wf := by
  refine ⟨hq.nodup_free, hq.head_mem, hq.nodup_chain, hq.not_free, hq.covered, hq.disjoint,
    hq.length_chain, hq.length_free, ?_, ?_⟩
  · simp only [returned, List.map_append, List.map_cons, List.map_nil]
    rw [List.nodup_append']
    refine ⟨hq.nodup_returned, List.nodup_singleton _, ?_⟩
    exact List.disjoint_singleton.2 hnew
  · intro id hid
    simp only [returned, List.map_append, List.map_cons, List.map_nil, List.mem_append,
      List.mem_singleton] at hid
    obtain hid | rfl := hid
    · exact hq.returned_outstanding id hid
    · exact ⟨t, ht, rfl⟩

theorem Wf.recycle (hq : q.Wf) {c : Chain size β} {len : ℕ} {rest : List (ℕ × ℕ)}
    (hc : q.chain t = some c) (hused : q.used = (t.val, len) :: rest) :
    (q.recycle t c).Wf := by
  have hreturned : q.returned = t.val :: (q.recycle t c).returned := by
    simp [returned, Virtq.recycle, hused]
  have hnodup := hq.nodup_returned
  rw [hreturned, List.nodup_cons] at hnodup
  have hdescs : (c.descs ++ q.free).Nodup := by
    rw [List.nodup_append']
    exact ⟨hq.nodup_chain t c hc, hq.nodup_free, fun d hd hdf => hq.not_free t c hc d hd hdf⟩
  refine ⟨hdescs, ?_, ?_, ?_, ?_, ?_, ?_, ?_, hnodup.2, ?_⟩
  · exact fun u d h => hq.head_mem u d (chain_of_recycle h).2
  · exact fun u d h => hq.nodup_chain u d (chain_of_recycle h).2
  · intro u d h x hx hfree
    obtain ⟨hu, hold⟩ := chain_of_recycle h
    simp only [Virtq.recycle, List.mem_append] at hfree
    obtain hmem | hfree := hfree
    · exact hq.disjoint u d t c hold hc hu hx hmem
    · exact hq.not_free u d hold x hx hfree
  · intro x
    simp only [Virtq.recycle, List.mem_append]
    obtain hx | ⟨u, d, hd, hx⟩ := hq.covered x
    · exact .inl (.inr hx)
    · by_cases hu : u = t
      · subst hu
        rw [hc] at hd
        cases hd
        exact .inl (.inl hx)
      · exact .inr ⟨u, d, by rwa [Function.update_of_ne hu], hx⟩
  · intro u d u' d' h h' hne
    exact hq.disjoint u d u' d' (chain_of_recycle h).2 (chain_of_recycle h').2 hne
  · exact fun u d h => hq.length_chain u d (chain_of_recycle h).2
  · have hlen := hq.length_free
    have hle : c.descs.length ≤ q.numUsed := by
      have hsub := List.Nodup.length_le_card hdescs
      rw [Fintype.card_fin] at hsub
      rw [List.length_append] at hsub
      omega
    simp only [Virtq.recycle, List.length_append]
    omega
  · intro id hid
    obtain ⟨u, hu, rfl⟩ := hq.returned_outstanding id (by rw [hreturned]; exact .tail _ hid)
    refine ⟨u, ?_, rfl⟩
    have hne : u ≠ t := by
      rintro rfl
      exact hnodup.1 hid
    rwa [Outstanding, recycle_chain_of_ne q hne]

end Virtq

end VirtioGpu
