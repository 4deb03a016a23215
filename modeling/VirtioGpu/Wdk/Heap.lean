import VirtioGpu.Machine.Basic
import VirtioGpu.Wdk.Allocator
import Mathlib.Data.List.Pairwise

/-!
# Runs of the allocator

The allocations of the driver share one pool and one memory: while some are live, others are made
and given back, and their owners write to them.  `heapMachine` takes these actions in any order.
The pool may answer every request with null or with a block that has nothing in common with the ones
it has handed out; giving it an address that is not the start of such a block is a bug check.

`HeapState.Sound` is what every action preserves: the pool's blocks are those of the live
allocations, and `dealloc` of a live allocation finds the start of its block.  So no run reaches a
bug check (`heap_run_sound`), the values of two live allocations have no byte in common, and when
everything has been given back the pool has all of its blocks.
-/

namespace VirtioGpu

/-- An allocation that has been handed out; `p` is the block it is in. -/
structure Live where
  layout : Layout
  p : UInt64
  q : UInt64
  deriving DecidableEq

/-- The pool's block of a live allocation. -/
def Live.block (l : Live) : Range := l.layout.block l.p

/-- The bytes that the owner of a live allocation may write. -/
def Live.value (l : Live) : Range := l.layout.value l.q

/-- The memory, the live allocations and the blocks that the pool has handed out, with their
sizes. -/
structure HeapState where
  mem : ByteMemory
  live : List Live
  pool : List (UInt64 × UInt64)

inductive HeapAct where
  /-- `alloc(layout)`, where the pool answers `p`. -/
  | alloc (layout : Layout) (p : UInt64)
  /-- The owner of a live allocation writes a byte of it. -/
  | write (l : Live) (i : ℕ) (byte : UInt8)
  /-- `dealloc(ptr, layout)` by the owner of a live allocation. -/
  | dealloc (l : Live)

inductive HeapPanic where
  /-- An address or a size does not fit in 64 bits. -/
  | overflow
  /-- `BAD_POOL_CALLER`: the address is not the start of a block of the pool. -/
  | badPoolCaller

namespace HeapState

/-- The pool may answer a request with a block at `p`. -/
def MayAnswer (s : HeapState) (layout : Layout) (p : UInt64) : Prop :=
  PoolBlock layout.request p ∧ ∀ b ∈ s.pool, (layout.block p).Apart ⟨b.1.toNat, b.2.toNat⟩

instance (s : HeapState) (layout : Layout) (p : UInt64) : Decidable (s.MayAnswer layout p) :=
  @instDecidableAnd _ _ _ (s.pool.decidableBAll _)

/-- `alloc`.  Layouts of size zero are not asked for. -/
def alloc (s : HeapState) (layout : Layout) (p : UInt64) : Outcome HeapState HeapPanic :=
  if layout.size ≠ 0 ∧ (p = 0 ∨ s.MayAnswer layout p) then
    match WdkAllocator.alloc layout (fun _ => p) s.mem with
    | none => .panic .overflow
    | some (q, mem) =>
      if q = 0 then .next { s with mem }
      else .next ⟨mem, ⟨layout, p, q⟩ :: s.live, (p, layout.request) :: s.pool⟩
  else .stuck

/-- A live allocation is written by its owner. -/
def write (s : HeapState) (l : Live) (i : ℕ) (byte : UInt8) : Outcome HeapState HeapPanic :=
  if l ∈ s.live ∧ i < l.layout.size.toNat then
    .next { s with mem := s.mem.store (l.q.toNat + i) [byte] }
  else .stuck

/-- `dealloc`, and what the pool makes of the address that it gets. -/
def dealloc (s : HeapState) (l : Live) : Outcome HeapState HeapPanic :=
  if l ∈ s.live then
    match WdkAllocator.dealloc l.layout l.q s.mem with
    | none => .panic .overflow
    | some p =>
      if p ∈ s.pool.map Prod.fst then
        .next ⟨s.mem, s.live.filter (·.q ≠ l.q), s.pool.filter (·.1 ≠ p)⟩
      else .panic .badPoolCaller
  else .stuck

/-- Nothing is allocated. -/
def empty (mem : ByteMemory) : HeapState := ⟨mem, [], []⟩

/-- What holds in every state of a run. -/
structure Sound (s : HeapState) : Prop where
  pool_eq : s.pool = s.live.map fun l => (l.p, l.layout.request)
  size_ne : ∀ l ∈ s.live, l.layout.size ≠ 0
  placed : ∀ l ∈ s.live, l.layout.Placed l.p l.q
  apart : s.live.Pairwise fun l l' => l.block.Apart l'.block
  frees : ∀ l ∈ s.live, WdkAllocator.dealloc l.layout l.q s.mem = some l.p

theorem sound_empty (mem : ByteMemory) : (empty mem).Sound :=
  ⟨rfl, List.forall_mem_nil _, List.forall_mem_nil _, .nil, List.forall_mem_nil _⟩

namespace Sound

variable {s : HeapState}

theorem eq_or_apart (h : s.Sound) {l l' : Live} (hl : l ∈ s.live) (hl' : l' ∈ s.live) :
    l = l' ∨ l.block.Apart l'.block := by
  by_cases heq : l = l'
  · exact .inl heq
  · have hsymm : Std.Symm fun l l' : Live => l.block.Apart l'.block :=
      ⟨fun _ _ hapart => hapart.symm⟩
    exact .inr (h.apart.forall hl hl' heq)

theorem block_has (h : s.Sound) {l : Live} (hl : l ∈ s.live) : l.block.Has l.q.toNat := by
  refine (h.placed l hl).value_within.has ⟨le_refl _, ?_⟩
  have hpos := Layout.size_pos (h.size_ne l hl)
  show l.q.toNat < l.q.toNat + l.layout.size.toNat
  omega

theorem eq_of_q_eq (h : s.Sound) {l l' : Live} (hl : l ∈ s.live) (hl' : l' ∈ s.live)
    (hq : l.q = l'.q) : l = l' := by
  refine (h.eq_or_apart hl hl').resolve_right fun hapart => ?_
  refine hapart.not_has (h.block_has hl) ?_
  rw [hq]
  exact h.block_has hl'

theorem eq_of_p_eq (h : s.Sound) {l l' : Live} (hl : l ∈ s.live) (hl' : l' ∈ s.live)
    (hp : l.p = l'.p) : l = l' := by
  have hstart : ∀ {m}, m ∈ s.live → m.block.Has m.p.toNat := fun {m} hm =>
    ⟨le_refl _, (h.block_has hm).1.trans_lt (h.block_has hm).2⟩
  refine (h.eq_or_apart hl hl').resolve_right fun hapart => ?_
  refine hapart.not_has (hstart hl) ?_
  rw [hp]
  exact hstart hl'

/-- Memory may change in every way that leaves the slots of the live allocations alone. -/
theorem frees_of_agree (h : s.Sound) {mem : ByteMemory} {l : Live} (hl : l ∈ s.live)
    (hagree : ∀ x, l.block.Has x → ¬ l.value.Has x → mem x = s.mem x) :
    WdkAllocator.dealloc l.layout l.q mem = some l.p := by
  rw [← h.frees l hl]
  have hplaced := h.placed l hl
  refine WdkAllocator.dealloc_congr fun hok x hx => hagree x ((hplaced.slot_within hok).has hx) ?_
  exact (hplaced.slot_apart hok).not_has hx

theorem alloc (h : s.Sound) (layout : Layout) (p : UInt64) :
    s.alloc layout p = .stuck ∨ ∃ s', s.alloc layout p = .next s' ∧ s'.Sound := by
  by_cases hguard : layout.size ≠ 0 ∧ (p = 0 ∨ s.MayAnswer layout p)
  · refine .inr ?_
    rw [HeapState.alloc, if_pos hguard]
    obtain ⟨hsize, rfl | ⟨hblock, hfresh⟩⟩ := hguard
    · rw [WdkAllocator.alloc_of_null rfl]
      exact ⟨s, rfl, h⟩
    · obtain ⟨q, mem, halloc, hplaced, hframe, hfree⟩ :=
        WdkAllocator.alloc_of_poolBlock (fun _ => p) hsize hblock s.mem
      simp only [halloc, if_neg hplaced.nonnull]
      refine ⟨_, rfl, ?_⟩
      have hapart : ∀ l ∈ s.live, (layout.block p).Apart l.block := fun l hl =>
        hfresh (l.p, l.layout.request) (h.pool_eq ▸ List.mem_map_of_mem hl)
      refine ⟨?_, ?_, ?_, List.pairwise_cons.2 ⟨hapart, h.apart⟩, ?_⟩
      · rw [h.pool_eq]
        rfl
      · exact List.forall_mem_cons.2 ⟨hsize, h.size_ne⟩
      · exact List.forall_mem_cons.2 ⟨hplaced, h.placed⟩
      · -- Only the slot of the new allocation has been written, and it is in the new block.
        refine List.forall_mem_cons.2 ⟨hfree, fun l hl => h.frees_of_agree hl fun x hx _ => ?_⟩
        by_contra hne
        obtain ⟨hok, hslot⟩ := hframe x hne
        exact (hapart l hl).not_has ((hplaced.slot_within hok).has hslot) hx
  · exact .inl (if_neg hguard)

theorem write (h : s.Sound) (l : Live) (i : ℕ) (byte : UInt8) :
    s.write l i byte = .stuck ∨ ∃ s', s.write l i byte = .next s' ∧ s'.Sound := by
  by_cases hguard : l ∈ s.live ∧ i < l.layout.size.toNat
  · refine .inr ⟨_, if_pos hguard, h.pool_eq, h.size_ne, h.placed, h.apart, fun m hm => ?_⟩
    obtain ⟨hl, hi⟩ := hguard
    refine h.frees_of_agree hm fun x hblock hvalue => ByteMemory.store_of_not_has fun hx => ?_
    have hmine : l.value.Has x := by
      obtain ⟨hlow, hhigh⟩ := hx
      simp only [Range.stop, List.length_singleton] at hlow hhigh
      refine ⟨?_, ?_⟩
      · show l.q.toNat ≤ x
        omega
      · show x < l.q.toNat + l.layout.size.toNat
        omega
    obtain rfl | hapart := h.eq_or_apart hl hm
    · exact hvalue hmine
    · exact hapart.not_has ((h.placed l hl).value_within.has hmine) hblock
  · exact .inl (if_neg hguard)

theorem dealloc (h : s.Sound) (l : Live) :
    s.dealloc l = .stuck ∨ ∃ s', s.dealloc l = .next s' ∧ s'.Sound := by
  by_cases hl : l ∈ s.live
  · refine .inr ?_
    have hmem : l.p ∈ s.pool.map Prod.fst := by
      rw [h.pool_eq, List.map_map]
      exact List.mem_map_of_mem hl
    rw [HeapState.dealloc, if_pos hl]
    simp only [h.frees l hl, if_pos hmem]
    refine ⟨_, rfl, ?_⟩
    have hsub : ∀ {m}, m ∈ s.live.filter (·.q ≠ l.q) → m ∈ s.live := fun hm =>
      List.mem_of_mem_filter hm
    refine ⟨?_, fun m hm => h.size_ne m (hsub hm), fun m hm => h.placed m (hsub hm),
      h.apart.filter _, fun m hm => h.frees m (hsub hm)⟩
    -- The address and the block pick out the same allocation.
    show s.pool.filter (·.1 ≠ l.p) = (s.live.filter (·.q ≠ l.q)).map _
    rw [h.pool_eq, List.filter_map]
    refine congrArg _ (List.filter_congr fun m hm => ?_)
    have hiff : m.p = l.p ↔ m.q = l.q :=
      ⟨fun hp => congrArg Live.q (h.eq_of_p_eq hm hl hp),
        fun hq => congrArg Live.p (h.eq_of_q_eq hm hl hq)⟩
    exact decide_eq_decide.2 (not_congr hiff)
  · exact .inl (if_neg hl)

end Sound

end HeapState

/-- The allocator, the pool and the owners of the allocations. -/
def heapMachine : Machine HeapState HeapAct HeapPanic where
  step
    | s, .alloc layout p => s.alloc layout p
    | s, .write l i byte => s.write l i byte
    | s, .dealloc l => s.dealloc l

theorem heap_step {s : HeapState} (h : s.Sound) (a : HeapAct) :
    heapMachine.step s a = .stuck ∨ ∃ s', heapMachine.step s a = .next s' ∧ s'.Sound := by
  cases a with
  | alloc layout p => exact h.alloc layout p
  | write l i byte => exact h.write l i byte
  | dealloc l => exact h.dealloc l

theorem sound_of_heap_step {s s' : HeapState} {a : HeapAct} (h : s.Sound)
    (hstep : heapMachine.step s a = .next s') : s'.Sound := by
  obtain hstuck | ⟨t, ht, hsound⟩ := heap_step h a
  · rw [hstuck] at hstep
    cases hstep
  · rw [ht] at hstep
    cases hstep
    exact hsound

/-- **The heap is sound along every run.**  No computation overflows and the pool only gets blocks
of its own back, whatever the layouts, the answers of the pool and the writes of the owners. -/
theorem heap_run_sound (mem : ByteMemory) (as : List HeapAct) :
    heapMachine.Meets (fun s a => ∀ e, heapMachine.step s a ≠ .panic e) (.empty mem) as := by
  refine Machine.meets_of_invariant (I := HeapState.Sound) (fun s a s' => sound_of_heap_step)
    (fun s a h e hpanic => ?_) (HeapState.sound_empty mem)
  obtain hstuck | ⟨t, ht, -⟩ := heap_step h a
  · rw [hstuck] at hpanic
    cases hpanic
  · rw [ht] at hpanic
    cases hpanic

/-- After every run the live values are aligned and have no byte in common, and the pool's blocks
are those of the live allocations: when all of them have been given back, so have the blocks. -/
theorem heap_run_live {mem : ByteMemory} {as : List HeapAct} {s : HeapState}
    (hrun : heapMachine.run (.empty mem) as = some s) :
    (∀ l ∈ s.live, l.layout.align.toNat ∣ l.q.toNat) ∧
      (∀ l ∈ s.live, ∀ l' ∈ s.live, l ≠ l' → l.value.Apart l'.value) ∧
      s.pool = s.live.map fun l => (l.p, l.layout.request) := by
  have hsound : s.Sound :=
    Machine.run_invariant (fun s a s' => sound_of_heap_step) (HeapState.sound_empty mem) hrun
  refine ⟨fun l hl => (hsound.placed l hl).aligned, fun l hl l' hl' hne => ?_, hsound.pool_eq⟩
  have hapart := (hsound.eq_or_apart hl hl').resolve_left hne
  exact hapart.mono (hsound.placed l hl).value_within (hsound.placed l' hl').value_within

/-- Three allocations, of which the first is given back. -/
def threeAllocs : List HeapAct :=
  [.alloc sixtyFourLayout 4112, .alloc sixtyFourLayout 8208, .alloc sixtyFourLayout 12304,
    .dealloc ⟨sixtyFourLayout, 4112, 4160⟩]

theorem heap_run_live_sixtyFour :
    ∃ s, heapMachine.run (.empty fun _ => 0) threeAllocs = some s ∧
      s.live = [⟨sixtyFourLayout, 12304, 12352⟩, ⟨sixtyFourLayout, 8208, 8256⟩] ∧
      (64 ∣ 12352 ∧ 64 ∣ 8256) ∧
      (sixtyFourLayout.value 12352).Apart (sixtyFourLayout.value 8256) ∧
      s.pool = [(12304, sixtyFourLayout.request), (8208, sixtyFourLayout.request)] := by
  have hmap : (heapMachine.run (.empty fun _ => 0) threeAllocs).map HeapState.live =
      some [⟨sixtyFourLayout, 12304, 12352⟩, ⟨sixtyFourLayout, 8208, 8256⟩] := by decide +kernel
  obtain ⟨s, hrun, hlive⟩ := Option.map_eq_some_iff.1 hmap
  obtain ⟨haligned, hapart, hpool⟩ := heap_run_live hrun
  rw [hlive] at haligned hapart hpool
  have hthird := List.mem_cons_self (a := ⟨sixtyFourLayout, 12304, 12352⟩)
    (l := [(⟨sixtyFourLayout, 8208, 8256⟩ : Live)])
  have hsecond := List.mem_cons_of_mem (⟨sixtyFourLayout, 12304, 12352⟩ : Live)
    (List.mem_singleton_self (⟨sixtyFourLayout, 8208, 8256⟩ : Live))
  exact ⟨s, hrun, hlive, ⟨haligned _ hthird, haligned _ hsecond⟩,
    hapart _ hthird _ hsecond (by decide), hpool⟩

end VirtioGpu
