import VirtioGpu.Data.Memory
import VirtioGpu.Data.Ranges
import VirtioGpu.Machine.Basic

/-!
# The windows of mapped blobs

`resource_map_blob` takes a range of pages from the offset allocator and asks the host to map the
blob there, in the shared-memory region of the device.  `resource_unmap_blob` gives the range back
and asks the host to unmap the blob.  The guest's page tables decide who sees which page of the
region, so two blobs whose windows overlap are two processes that read each other's memory.

The offset allocator is taken at its word: what it hands out lies in the region and apart from what
it has handed out and not taken back.  The host maps the whole blob, up to the next page boundary,
from the moment it accepts the request until it processes the request to unmap.  `blobMachine`
interleaves any number of calls with the host.

Two things go wrong.  The number of pages is `(size / PAGE_SIZE) as u32`: rounded *down*, and cut to
32 bits.  And the range goes back to the allocator *before* the host is asked to unmap, so that it
can be handed out while the old blob is still there.

* `windows_sound_of_meets` : without these two, all windows are apart and inside the region.
* `windows_overlap` : a run for each of them after which two windows overlap.
-/

namespace VirtioGpu

/-- `(size / PAGE_SIZE) as u32`: the pages `resource_map_blob` allocates for a blob, and
`GpuData::new` gives to the allocator for a region. -/
def pagesU32 (size : ℕ) : ℕ := size / pageSize % 2 ^ 32

/-- What the host maps for a blob of `size` bytes at page `offset`. -/
def blobWindow (offset size : ℕ) : Range := ⟨offset * pageSize, (size + 4095) / pageSize * pageSize⟩

/-- How far a call of `resource_map_blob`, and the call of `resource_unmap_blob` that follows it,
have come. -/
inductive MapPhase where
  /-- The host has not processed the request and the caller waits. -/
  | waiting
  /-- The host has not processed the request and the caller has given up. -/
  | abandoned
  /-- The call has returned an error. -/
  | failed
  /-- The caller has the range. -/
  | held
  /-- `resource_unmap_blob` has given the range back; the host has not processed the request. -/
  | unmapping
  /-- The host has unmapped the blob. -/
  | done
  deriving DecidableEq

/-- A call of `resource_map_blob` that has got a range. -/
structure MapCall where
  res : ℕ
  size : ℕ
  /-- The first page of the range. -/
  offset : ℕ
  phase : MapPhase
  /-- The host has the blob mapped for this request. -/
  hostMapped : Bool

namespace MapCall

/-- The pages that have been allocated. -/
def range (c : MapCall) : Range := ⟨c.offset, pagesU32 c.size⟩

/-- The bytes of the region the host maps. -/
def window (c : MapCall) : Range := blobWindow c.offset c.size

/-- The allocator has the range back. -/
def freed (c : MapCall) : Bool := c.phase = .unmapping ∨ c.phase = .done

end MapCall

/-- The steps of the callers and of the host. -/
inductive BlobAct where
  /-- `resource_map_blob` up to its request; `offset` is what the allocator returns. -/
  | resourceMapBlob (res size : ℕ) (offset : Option ℕ)
  /-- The host processes the request of call `k`. -/
  | hostMap (k : ℕ) (accept : Bool)
  | timeout (k : ℕ)
  /-- `resource_unmap_blob` up to its request, with what call `k` has returned. -/
  | resourceUnmapBlob (k : ℕ)
  | hostUnmap (k : ℕ)

/-- What the allocator promises for a range that it hands out. -/
def Allocatable (length : ℕ) (calls : List MapCall) (r : Range) : Prop :=
  r.stop ≤ pagesU32 length ∧ ∀ c ∈ calls, c.freed = false → r.Apart c.range
  deriving Decidable

/-- One step; the region has `length` bytes, and `calls` are the calls made so far. -/
def blobStep (length : ℕ) (calls : List MapCall) : BlobAct → Outcome (List MapCall) Empty
  | .resourceMapBlob _ _ none => .next calls
  | .resourceMapBlob res size (some offset) =>
    if Allocatable length calls ⟨offset, pagesU32 size⟩ then
      .next (calls ++ [⟨res, size, offset, .waiting, false⟩])
    else .stuck
  | .hostMap k accept => match calls[k]? with
    | none => .stuck
    | some c => match c.phase with
      | .waiting => .next (calls.modify k fun c =>
          { c with phase := if accept then .held else .failed, hostMapped := accept })
      | .abandoned => .next (calls.modify k fun c =>
          { c with phase := .failed, hostMapped := accept })
      | _ => .stuck
  | .timeout k => match calls[k]? with
    | none => .stuck
    | some c =>
      if c.phase = .waiting then .next (calls.modify k fun c => { c with phase := .abandoned })
      else .stuck
  | .resourceUnmapBlob k => match calls[k]? with
    | none => .stuck
    | some c =>
      if c.phase = .held then .next (calls.modify k fun c => { c with phase := .unmapping })
      else .stuck
  | .hostUnmap k => match calls[k]? with
    | none => .stuck
    | some c =>
      if c.phase = .unmapping then
        .next ((calls.modify k fun c => { c with phase := .done }).map fun d =>
          if d.res = c.res then { d with hostMapped := false } else d)
      else .stuck

/-- Blobs being mapped and unmapped in a region of `length` bytes. -/
def blobMachine (length : ℕ) : Machine (List MapCall) BlobAct Empty := ⟨blobStep length⟩

/-- The windows of the blobs that the host has mapped are apart, and inside the region. -/
def WindowsSound (length : ℕ) (calls : List MapCall) : Prop :=
  (calls.Pairwise fun c d => c.hostMapped = true → d.hostMapped = true → c.window.Apart d.window) ∧
    ∀ c ∈ calls, c.hostMapped = true → c.window.stop ≤ length
  deriving Decidable

/-- The size is that of as many pages as are allocated. -/
def ExactSize (size : ℕ) : Prop := pageSize ∣ size ∧ size / pageSize < 2 ^ 32
  deriving Decidable

/-- A blob that is mapped is a number of pages that fits 32 bits, and its range is not one that the
host has yet to unmap. -/
def MapsCleanly (calls : List MapCall) : BlobAct → Prop
  | .resourceMapBlob _ size (some offset) => ExactSize size ∧
    ∀ c ∈ calls, c.phase = .unmapping → Range.Apart ⟨offset, pagesU32 size⟩ c.range
  | _ => True

/-! ### One step -/

section Step

variable {length : ℕ} {calls calls' : List MapCall} {c c' : MapCall} {a : BlobAct}

/-- What a step leaves of a call. -/
structure MapCall.Follows (c c' : MapCall) : Prop where
  size : c'.size = c.size
  offset : c'.offset = c.offset
  done : c.phase = .done → c'.phase = .done
  mapped : c'.hostMapped = true → c'.phase ≠ .done

/-- Every call of `calls'` is what a step leaves of the same call of `calls`. -/
def FollowsAll (calls calls' : List MapCall) : Prop :=
  ∀ (i : ℕ) (d' : MapCall), calls'[i]? = some d' → ∃ d : MapCall, calls[i]? = some d ∧ d.Follows d'

theorem MapCall.Follows.refl (h : c.hostMapped = true → c.phase ≠ .done) : c.Follows c :=
  ⟨rfl, rfl, id, h⟩

theorem follows_modify {k : ℕ} {f : MapCall → MapCall} (hk : calls[k]? = some c)
    (hf : c.Follows (f c)) (hmapped : ∀ d ∈ calls, d.hostMapped = true → d.phase ≠ .done) :
    FollowsAll calls (calls.modify k f) := by
  intro i d' hd'
  rw [List.getElem?_modify] at hd'
  obtain ⟨d, hd, rfl⟩ := Option.map_eq_some_iff.1 hd'
  refine ⟨d, hd, ?_⟩
  split_ifs with hik
  · subst hik
    obtain rfl : c = d := Option.some.inj (hk.symm.trans hd)
    exact hf
  · exact .refl (hmapped d (List.mem_of_getElem? hd))

theorem follows_step (hmapped : ∀ d ∈ calls, d.hostMapped = true → d.phase ≠ .done)
    (ha : ∀ res size offset, a ≠ .resourceMapBlob res size (some offset))
    (hstep : (blobMachine length).step calls a = .next calls') :
    FollowsAll calls calls' := by
  cases a with
  | resourceMapBlob res size offset =>
    cases offset with
    | some offset => exact absurd rfl (ha res size offset)
    | none =>
      cases hstep
      exact fun i d hd => ⟨d, hd, .refl (hmapped d (List.mem_of_getElem? hd))⟩
  | hostMap k accept =>
    simp only [blobMachine, blobStep] at hstep
    split at hstep
    · cases hstep
    · rename_i c hk
      split at hstep <;> cases hstep
      · rename_i hphase
        refine follows_modify hk ⟨rfl, rfl, fun hdone => ?_, fun _ => ?_⟩ hmapped
        · rw [hphase] at hdone
          cases hdone
        · dsimp only
          split_ifs <;> decide
      · rename_i hphase
        refine follows_modify hk ⟨rfl, rfl, fun hdone => ?_, fun _ => nofun⟩ hmapped
        rw [hphase] at hdone
        cases hdone
  | timeout k | resourceUnmapBlob k =>
    simp only [blobMachine, blobStep] at hstep
    split at hstep
    · cases hstep
    · rename_i c hk
      split_ifs at hstep with hphase
      cases hstep
      refine follows_modify hk ⟨rfl, rfl, fun hdone => ?_, fun _ => nofun⟩ hmapped
      rw [hphase] at hdone
      cases hdone
  | hostUnmap k =>
    simp only [blobMachine, blobStep] at hstep
    split at hstep
    · cases hstep
    · rename_i c hk
      split_ifs at hstep with hphase
      cases hstep
      intro i d' hd'
      rw [List.getElem?_map] at hd'
      obtain ⟨d₁, hd₁, rfl⟩ := Option.map_eq_some_iff.1 hd'
      rw [List.getElem?_modify] at hd₁
      obtain ⟨d, hd, rfl⟩ := Option.map_eq_some_iff.1 hd₁
      refine ⟨d, hd, ?_⟩
      by_cases hik : k = i
      · -- the call itself: the host has unmapped its blob
        subst hik
        obtain rfl : c = d := Option.some.inj (hk.symm.trans hd)
        simp only [if_pos]
        exact ⟨rfl, rfl, fun _ => rfl, fun h => nomatch h⟩
      · simp only [if_neg hik]
        have hd' := hmapped d (List.mem_of_getElem? hd)
        split_ifs
        · exact ⟨rfl, rfl, id, fun h => nomatch h⟩
        · exact .refl hd'

/-- The ranges that the host may still use are apart, and the windows are what they stand for. -/
structure WindowsInv (length : ℕ) (calls : List MapCall) : Prop where
  apart : ∀ (i j : ℕ) (c d : MapCall), i ≠ j → calls[i]? = some c → calls[j]? = some d →
    c.phase ≠ .done → d.phase ≠ .done → c.range.Apart d.range
  inside : ∀ c ∈ calls, c.range.stop ≤ pagesU32 length
  exact : ∀ c ∈ calls, ExactSize c.size
  mapped : ∀ c ∈ calls, c.hostMapped = true → c.phase ≠ .done

theorem WindowsInv.of_follows (h : WindowsInv length calls)
    (hf : FollowsAll calls calls') : WindowsInv length calls' := by
  have hmem : ∀ d' ∈ calls', ∃ d ∈ calls, d.Follows d' := by
    intro d' hd'
    obtain ⟨i, hi⟩ := List.mem_iff_getElem?.1 hd'
    obtain ⟨d, hd, hdd'⟩ := hf i d' hi
    exact ⟨d, List.mem_of_getElem? hd, hdd'⟩
  have hrange : ∀ {d d' : MapCall}, d.Follows d' → d'.range = d.range := by
    intro d d' hdd'
    rw [MapCall.range, MapCall.range, hdd'.offset, hdd'.size]
  constructor
  · intro i j c' d' hij hc' hd' hcdone hddone
    obtain ⟨c, hc, hcc'⟩ := hf i c' hc'
    obtain ⟨d, hd, hdd'⟩ := hf j d' hd'
    rw [hrange hcc', hrange hdd']
    exact h.apart i j c d hij hc hd (mt hcc'.done hcdone) (mt hdd'.done hddone)
  · intro d' hd'
    obtain ⟨d, hd, hdd'⟩ := hmem d' hd'
    exact hrange hdd' ▸ h.inside d hd
  · intro d' hd'
    obtain ⟨d, hd, hdd'⟩ := hmem d' hd'
    exact hdd'.size ▸ h.exact d hd
  · intro d' hd'
    obtain ⟨d, -, hdd'⟩ := hmem d' hd'
    exact hdd'.mapped

theorem windowsInv_allocate {res size offset : ℕ} (h : WindowsInv length calls)
    (halloc : Allocatable length calls ⟨offset, pagesU32 size⟩)
    (hclean : MapsCleanly calls (.resourceMapBlob res size (some offset))) :
    WindowsInv length (calls ++ [⟨res, size, offset, .waiting, false⟩]) := by
  -- a call that is not done has its range, or is unmapping
  have hnew : ∀ d ∈ calls, d.phase ≠ .done → Range.Apart ⟨offset, pagesU32 size⟩ d.range := by
    intro d hd hdone
    by_cases hphase : d.phase = .unmapping
    · exact hclean.2 d hd hphase
    · exact halloc.2 d hd (by simp [MapCall.freed, hphase, hdone])
  constructor
  · -- The new call against each of the old ones, from either side.
    intro i j c d hij hc hd hcdone hddone
    rw [List.getElem?_append] at hc hd
    split_ifs at hc hd with hi hj hj
    · exact h.apart i j c d hij hc hd hcdone hddone
    · obtain rfl := List.mem_singleton.1 (List.mem_of_getElem? hd)
      exact (hnew c (List.mem_of_getElem? hc) hcdone).symm
    · obtain rfl := List.mem_singleton.1 (List.mem_of_getElem? hc)
      exact hnew d (List.mem_of_getElem? hd) hddone
    · rw [List.getElem?_singleton] at hc hd
      split_ifs at hc hd
      omega
  · intro c hc
    rcases List.mem_append.1 hc with hc | hc
    · exact h.inside c hc
    · rw [List.mem_singleton.1 hc]
      exact halloc.1
  · intro c hc
    rcases List.mem_append.1 hc with hc | hc
    · exact h.exact c hc
    · rw [List.mem_singleton.1 hc]
      exact hclean.1
  · intro c hc hmapped
    rcases List.mem_append.1 hc with hc | hc
    · exact h.mapped c hc hmapped
    · rw [List.mem_singleton.1 hc]
      nofun

theorem blobWindow_of_exact {size : ℕ} (offset : ℕ) (h : ExactSize size) :
    blobWindow offset size = Range.scale pageSize ⟨offset, pagesU32 size⟩ := by
  obtain ⟨⟨n, rfl⟩, hlt⟩ := h
  simp only [blobWindow, Range.scale, pagesU32, pageSize, Range.mk.injEq, true_and] at hlt ⊢
  omega

theorem WindowsInv.sound (h : WindowsInv length calls) : WindowsSound length calls := by
  have hwindow : ∀ c ∈ calls, c.window = c.range.scale pageSize :=
    fun c hc => blobWindow_of_exact c.offset (h.exact c hc)
  refine ⟨List.pairwise_iff_getElem.2 fun i j hi hj hij hc hd => ?_, fun c hc hmapped => ?_⟩
  · have hci := List.getElem_mem hi
    have hdj := List.getElem_mem hj
    rw [hwindow _ hci, hwindow _ hdj]
    exact (h.apart i j _ _ hij.ne (List.getElem?_eq_getElem hi) (List.getElem?_eq_getElem hj)
      (h.mapped _ hci hc) (h.mapped _ hdj hd)).scale pageSize
  · rw [hwindow c hc, Range.stop_scale]
    calc c.range.stop * pageSize ≤ pagesU32 length * pageSize :=
          Nat.mul_le_mul_right _ (h.inside c hc)
      _ ≤ length / pageSize * pageSize := Nat.mul_le_mul_right _ (Nat.mod_le _ _)
      _ ≤ length := Nat.div_mul_le_self _ _

theorem windowsInv_step (h : WindowsInv length calls) (hclean : MapsCleanly calls a)
    (hstep : (blobMachine length).step calls a = .next calls') : WindowsInv length calls' := by
  -- Only an allocation brings a new range; all other steps follow the calls there are.
  by_cases ha : ∃ res size offset, a = .resourceMapBlob res size (some offset)
  · obtain ⟨res, size, offset, rfl⟩ := ha
    simp only [blobMachine, blobStep] at hstep
    split_ifs at hstep with halloc
    cases hstep
    exact windowsInv_allocate h halloc hclean
  · exact h.of_follows (follows_step h.mapped (fun res size offset h => ha ⟨res, size, offset, h⟩)
      hstep)

end Step

/-! ### Runs -/

/-- **When the windows are sound.**  If every blob that is mapped is as long as the pages allocated
for it, and no range is handed out again before the host has unmapped the blob that had it, the
windows of the mapped blobs are apart and inside the region. -/
theorem windows_sound_of_meets (length : ℕ) (as : List BlobAct)
    (h : (blobMachine length).Meets MapsCleanly [] as) :
    (blobMachine length).Always (WindowsSound length) [] as := by
  have hinit : WindowsInv length [] :=
    ⟨fun _ _ _ _ _ hc => absurd hc (by simp), nofun, nofun, nofun⟩
  exact Machine.always_of_meets (fun _ _ _ hinv hok hstep => windowsInv_step hinv hok hstep)
    (fun _ hinv => hinv.sound) hinit h

/-- Two blobs are mapped, and the first makes room for a third. -/
def remapped : List BlobAct :=
  [.resourceMapBlob 1 8192 (some 0), .resourceMapBlob 2 4096 (some 2), .hostMap 1 true,
    .hostMap 0 true, .resourceUnmapBlob 0, .hostUnmap 0, .resourceMapBlob 3 4096 (some 1),
    .hostMap 2 true]

instance (calls : List MapCall) (a : BlobAct) : Decidable (MapsCleanly calls a) := by
  unfold MapsCleanly
  split <;> infer_instance

theorem windows_sound_of_meets_remapped :
    (blobMachine (3 * 4096)).Meets MapsCleanly [] remapped ∧
      (blobMachine (3 * 4096)).Always (WindowsSound (3 * 4096)) [] remapped := by
  have hmeets : (blobMachine (3 * 4096)).Meets MapsCleanly [] remapped := by decide
  exact ⟨hmeets, windows_sound_of_meets _ _ hmeets⟩

/-- **Windows can overlap.**  A blob of one page and a byte is given one page.  A blob of `2 ^ 44`
bytes is given none.  A range is handed out again while the host still has the old blob in it. -/
theorem windows_overlap :
    ((blobMachine 8192).run [] [.resourceMapBlob 1 4097 (some 0), .hostMap 0 true,
      .resourceMapBlob 2 4096 (some 1), .hostMap 1 true]).map (decide <| WindowsSound 8192 ·) =
      some false ∧
    ((blobMachine 8192).run [] [.resourceMapBlob 1 (2 ^ 44) (some 0), .hostMap 0 true]).map
      (decide <| WindowsSound 8192 ·) = some false ∧
    ((blobMachine 8192).run [] [.resourceMapBlob 1 4096 (some 0), .hostMap 0 true,
      .resourceUnmapBlob 0, .resourceMapBlob 2 4096 (some 0), .hostMap 1 true]).map
      (decide <| WindowsSound 8192 ·) = some false := by
  decide

end VirtioGpu
