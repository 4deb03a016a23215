import VirtioGpu.Adapter.Paging
import VirtioGpu.Allocation.PageOrder

/-!
# `UPDATE_PAGE_TABLE`, again

When the pages of a resource are complete, `build_paging_buffer` encodes a `RESOURCE_ATTACH_BACKING`
with all of them.  If there is no room for it, the status makes `dxgkrnl` repeat the operation with
a larger buffer.

By then the pages are in the list of the allocation already.  `attach_pages` is prepared for that:
it takes a complete list for a repetition and says that it is complete.  But it is not called: the
operation is only looked at if the list is not complete.

* `Backing.buildUpdate` : the operation of `Adapter.Paging` for a 3D resource, with the list that it
  finds.
* `update_retry_iff` : the repeated operation encodes the command exactly if the earlier attempts
  failed before they came to the list.
* `update_retry_lost` : a buffer that was too small once.
-/

namespace VirtioGpu

/-- `DmaSize` and `DmaBufferPrivateDataSize` of a call of `build_paging_buffer`. -/
structure PagingRoom where
  dmaSize : ℕ
  privateSize : ℕ

namespace Backing

/-- What `attach_pages` has come to, for the operation.  A list that has just been completed is not
empty, as there were bytes missing. -/
def attached (m : Backing) (complete : Bool) : AttachPages :=
  if h : complete = true ∧ 0 < m.entries.length then .complete m.entries.length h.2
  else .incomplete

/-- `build_paging_buffer` with `UPDATE_PAGE_TABLE` for the piece `u`.  The result is the status,
with the entries of the command that was encoded. -/
def buildUpdate (m : Backing) (u : Piece) (room : PagingRoom) :
    Except PagesPanic (Except NtStatus (Option (List MemEntry)) × Backing) :=
  if room.privateSize < commandDmaPrivateSize then
    .ok (.error .graphicsInsufficientDmaBuffer, m)
  else if m.totalAttachedBytes < m.size then do
    let (complete, m) ← m.attachPages u.offset u.pages
    match (m.attached complete).encode room.dmaSize with
    | .command _ _ => pure (.ok (some m.entries), m)
    | .stop status | .none status => pure (status.map fun _ => none, m)
  else .ok (.ok none, m)

/-- The list after a number of attempts that `dxgkrnl` has to repeat. -/
def retry (m : Backing) (u : Piece) : List PagingRoom → Option Backing
  | [] => some m
  | room :: rooms => match m.buildUpdate u room with
    | .ok (.error .graphicsInsufficientDmaBuffer, m') => m'.retry u rooms
    | _ => none

variable {m m' : Backing} {u : Piece} {room : PagingRoom}

theorem buildUpdate_of_small (h : room.privateSize < commandDmaPrivateSize) :
    m.buildUpdate u room = .ok (.error .graphicsInsufficientDmaBuffer, m) := by
  rw [buildUpdate, if_pos h]

theorem buildUpdate_of_complete (hroom : commandDmaPrivateSize ≤ room.privateSize)
    (h : m.size ≤ m.totalAttachedBytes) : m.buildUpdate u room = .ok (.ok none, m) := by
  rw [buildUpdate, if_neg (not_lt.2 hroom), if_neg (not_lt.2 h)]

theorem buildUpdate_completing (hroom : commandDmaPrivateSize ≤ room.privateSize)
    (hless : m.totalAttachedBytes < m.size)
    (hattach : m.attachPages u.offset u.pages = .ok (true, m')) (hne : m'.entries ≠ []) :
    m.buildUpdate u room = .ok (if room.dmaSize ≤ attachBackingDmaLen m'.entries.length then
      .error .graphicsInsufficientDmaBuffer else .ok (some m'.entries), m') := by
  have hpages : m'.attached true = .complete m'.entries.length (List.length_pos_of_ne_nil hne) :=
    dif_pos ⟨rfl, List.length_pos_of_ne_nil hne⟩
  rw [buildUpdate, if_neg (not_lt.2 hroom), if_pos hless, hattach]
  simp only [bind, Except.bind, hpages, AttachPages.encode, encodeBacking]
  split_ifs <;> rfl

theorem attachPages_completing (hm : m.InRange) (hu : ∀ p ∈ u.pages, p.Attachable)
    (hless : m.totalAttachedBytes < m.size)
    (hall : m.size ≤ m.totalAttachedBytes + u.bytes.length) :
    ∃ m', m.attachPages u.offset u.pages = .ok (true, m') ∧ m'.entries ≠ [] ∧
      m'.size ≤ m'.totalAttachedBytes ∧
      (m'.entries.flatMap MemEntry.bytes).Perm (m.bytes ++ u.bytes) := by
  obtain ⟨m', hattach, hbytes, hsize, -, -⟩ := (attachPages_exact m hm u.offset u.pages hu).1 hless
  have hperm : m'.bytes.Perm (m.bytes ++ u.bytes) := by
    rw [hbytes]
    split_ifs
    · exact .refl _
    · exact List.perm_append_comm
  have htotal : m'.totalAttachedBytes = m.totalAttachedBytes + u.bytes.length := by
    rw [← length_bytes, hperm.length_eq, List.length_append, length_bytes]
  have hfull : m.size ≤ m'.totalAttachedBytes := by omega
  rw [decide_eq_true hfull] at hattach
  refine ⟨m', hattach, fun hnil => ?_, by omega, hperm⟩
  rw [totalAttachedBytes, hnil] at hfull
  simp only [List.map_nil, List.sum_nil] at hfull
  omega

theorem retry_of_complete {rooms : List PagingRoom} (h : m.size ≤ m.totalAttachedBytes)
    (hrun : m.retry u rooms = some m') : m' = m := by
  induction rooms with
  | nil => exact (Option.some.inj hrun).symm
  | cons room rooms ih =>
    by_cases hsmall : room.privateSize < commandDmaPrivateSize
    · rw [retry, buildUpdate_of_small hsmall] at hrun
      exact ih hrun
    · rw [retry, buildUpdate_of_complete (not_lt.1 hsmall) h] at hrun
      cases hrun

theorem retry_spec {rooms : List PagingRoom} {m₁ : Backing} (hless : m.totalAttachedBytes < m.size)
    (hattach : m.attachPages u.offset u.pages = .ok (true, m')) (hne : m'.entries ≠ [])
    (hfull : m'.size ≤ m'.totalAttachedBytes) (hrun : m.retry u rooms = some m₁) :
    ((∀ room ∈ rooms, room.privateSize < commandDmaPrivateSize) ∧ m₁ = m) ∨
      ((∃ room ∈ rooms, commandDmaPrivateSize ≤ room.privateSize) ∧ m₁ = m') := by
  induction rooms with
  | nil => exact .inl ⟨by simp, (Option.some.inj hrun).symm⟩
  | cons room rooms ih =>
    rw [retry] at hrun
    by_cases hsmall : room.privateSize < commandDmaPrivateSize
    · rw [buildUpdate_of_small hsmall] at hrun
      rcases ih hrun with ⟨hall, heq⟩ | ⟨⟨r, hr, hle⟩, heq⟩
      · exact .inl ⟨List.forall_mem_cons.2 ⟨hsmall, hall⟩, heq⟩
      · exact .inr ⟨⟨r, .tail _ hr, hle⟩, heq⟩
    · rw [buildUpdate_completing (not_lt.1 hsmall) hless hattach hne] at hrun
      refine .inr ⟨⟨room, List.mem_cons_self, not_lt.1 hsmall⟩, ?_⟩
      split_ifs at hrun
      exact retry_of_complete hfull hrun

end Backing

/-- **When the repeated operation attaches the pages.**  With a buffer that is large enough at last,
it succeeds and encodes a command whose entries cover the bytes of the list and of the piece, each
once, exactly if all attempts before failed for lack of private data. -/
theorem update_retry_iff (m : Backing) (hm : m.InRange) (u : Piece)
    (hu : ∀ p ∈ u.pages, p.Attachable) (hless : m.totalAttachedBytes < m.size)
    (hall : m.size ≤ m.totalAttachedBytes + u.bytes.length) (rooms : List PagingRoom)
    {m₁ : Backing} (hrun : m.retry u rooms = some m₁) (last : PagingRoom)
    (hprivate : commandDmaPrivateSize ≤ last.privateSize)
    (hdma : ∀ m', m.attachPages u.offset u.pages = .ok (true, m') →
      attachBackingDmaLen m'.entries.length < last.dmaSize) :
    ∃ command m₂, m₁.buildUpdate u last = .ok (.ok command, m₂) ∧
      ((∃ entries, command = some entries ∧
          (entries.flatMap MemEntry.bytes).Perm (m.bytes ++ u.bytes)) ↔
        ∀ room ∈ rooms, room.privateSize < commandDmaPrivateSize) := by
  obtain ⟨m', hattach, hne, hfull, hperm⟩ := Backing.attachPages_completing hm hu hless hall
  rcases Backing.retry_spec hless hattach hne hfull hrun with ⟨hsmall, rfl⟩ | ⟨⟨r, hr, hle⟩, rfl⟩
  · refine ⟨some m'.entries, m', ?_, iff_of_true ⟨_, rfl, hperm⟩ hsmall⟩
    rw [Backing.buildUpdate_completing hprivate hless hattach hne,
      if_neg (not_le.2 (hdma m' hattach))]
  · refine ⟨none, m₁, Backing.buildUpdate_of_complete hprivate hfull, iff_of_false ?_ ?_⟩
    · simp
    · intro h
      exact absurd (h r hr) (not_lt.2 hle)

/-- A resource of one page, of which no page is known, and the piece for it. -/
def onePageResource : Backing := ⟨4096, 0, []⟩

/-- The first attempt fails because there is no room for private data. -/
theorem update_retry_iff_private :
    ∃ command m₂, onePageResource.buildUpdate (onePage 0 7) ⟨4096, 112⟩ = .ok (.ok command, m₂) ∧
      ((∃ entries, command = some entries ∧ (entries.flatMap MemEntry.bytes).Perm
          (onePageResource.bytes ++ (onePage 0 7).bytes)) ↔
        ∀ room ∈ [(⟨4096, 0⟩ : PagingRoom)], room.privateSize < commandDmaPrivateSize) :=
  update_retry_iff onePageResource (by simp [onePageResource, Backing.InRange]) (onePage 0 7)
    (by simp [onePage, attachable_smallPage]) (by decide)
    (by rw [bytes_onePage]; simp [onePageResource, Backing.totalAttachedBytes])
    [⟨4096, 0⟩] rfl ⟨4096, 112⟩ (by decide) (by
      intro m' h
      cases h
      decide)

/-- **The command is lost.**  A DMA buffer of 48 bytes is too small for the command with the one
entry.  The operation is repeated with a buffer of a page, returns success and encodes nothing. -/
theorem update_retry_lost :
    ∃ m₁, onePageResource.retry (onePage 0 7) [⟨48, 112⟩] = some m₁ ∧
      m₁.buildUpdate (onePage 0 7) ⟨4096, 112⟩ = .ok (.ok none, m₁) :=
  ⟨_, rfl, rfl⟩

end VirtioGpu
