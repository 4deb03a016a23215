import VirtioGpu.Blob.Window
import VirtioGpu.Queue.Buffer

/-!
# Mapping a blob into a process

The escape `ESCAPE_BLOB_MAP` maps a blob in three layers: a range of the shared-memory region is
allocated, the host maps the blob there, and the range is mapped into the process.  `Allocation`
records the first two with a flag and the range.  `escapeBlobMap` is the escape in its map direction
from the check of its arguments to the pointer it returns; what the offset allocator, the host and
the memory manager answer is given (`MapAnswers`).

No failure is undone.  If the host refuses (or does not answer in time) the range is lost, and if
anything fails after that (an unknown caching type, a blob of 4 GiB or more, no MDL, no user
mapping) the blob stays mapped at the host with its flag set.

* `blobMap_unchanged_iff` : a call that fails leaves everything as it was exactly if it fails before
  a range is allocated.
-/

namespace VirtioGpu

/-- `VirtioResource`, as far as mapping is concerned. -/
inductive VirtioResource where
  | threeD
  /-- `mappable` is `flags.contains(BlobFlag::MAPPABLE)`. -/
  | blob (size : ℕ) (mappable : Bool)

/-- An allocation with what the offset allocator and the host have for it. -/
structure BlobWorld where
  resource : VirtioResource
  /-- `ALLOCATION_FLAG_MAPPED`. -/
  mapped : Bool
  /-- `map`: the range that has been stored. -/
  map : Option Range
  /-- The ranges the offset allocator has handed out and not taken back. -/
  outstanding : List Range
  /-- The host has the blob mapped. -/
  host : Bool

/-- What happens to a `RESOURCE_MAP_BLOB` request. -/
inductive HostAnswer where
  /-- It cannot be queued. -/
  | notSent (e : NtStatus)
  /-- The wait fails; the host may map the blob nevertheless. -/
  | timedOut (e : NtStatus) (maps : Bool)
  /-- The answer is not `OK_MAP_INFO`. -/
  | refused
  | accepted (mapInfo : ℕ)

/-- What the surroundings answer during one call. -/
structure MapAnswers where
  /-- `offset_allocator.allocate(pages)`: the first page. -/
  allocate : Option ℕ
  host : HostAnswer
  /-- `MdlOwned::from_io_physical_range`. -/
  mdl : Except NtStatus Unit
  /-- `mm_map_locked_pages_specify_cache`: a pointer, nothing, or an exception. -/
  userMapping : Except NtStatus (Option ℕ)

namespace BlobWorld

variable (w : BlobWorld)

/-- `GpuChannel::resource_map_blob`. -/
def resourceMapBlob (size : ℕ) (ans : MapAnswers) : Except NtStatus (Range × ℕ) × BlobWorld :=
  match ans.allocate with
  | none => (.error .noMemory, w)
  | some offset =>
    let r : Range := ⟨offset, pagesU32 size⟩
    let w := { w with outstanding := r :: w.outstanding }
    match ans.host with
    | .notSent e => (.error e, w)
    | .timedOut e maps => (.error e, { w with host := w.host || maps })
    | .refused => (.error .ioDeviceError, w)
    | .accepted mapInfo => (.ok (r, mapInfo), { w with host := true })

/-- `Device::context_map_blob`. -/
def contextMapBlob (context : Option ℕ) (size : ℕ) (ans : MapAnswers) :
    Except NtStatus (Range × ℕ) × BlobWorld :=
  match context with
  | none => (.error .reinitializationNeeded, w)
  | some _ => w.resourceMapBlob size ans

/-- `set_flag_mapped(true)`, then `map.write().replace`. -/
def store (r : Range) : BlobWorld := { w with mapped := true, map := some r }

/-- `Allocation::map_blob`: the offset into the region, the size and the caching type. -/
def mapBlob (context : Option ℕ) (ans : MapAnswers) : Except NtStatus (ℕ × ℕ × ℕ) × BlobWorld :=
  match w.resource with
  | .threeD => (.error .invalidParameter, w)
  | .blob size mappable =>
    if mappable then
      if w.mapped then (.error .alreadyCommitted, w)
      else match w.contextMapBlob context size ans with
        | (.error e, w) => (.error e, w)
        | (.ok (r, mapInfo), w) => (.ok (r.start * pageSize, size, mapInfo), w.store r)
    else (.error .invalidParameter, w)

/-- `Allocation::unmap_blob`, with a host that answers; nothing if it panics. -/
def unmapBlob : Option (Except NtStatus Unit × BlobWorld) :=
  if w.mapped then
    match w.resource, w.map with
    | .blob _ _, some r => some (.ok (), { w with
        mapped := false, map := none, outstanding := w.outstanding.erase r, host := false })
    | _, _ => none
  else some (.error .invalidParameter, w)

end BlobWorld

/-- `size_of::<BlobMap>()`. -/
def blobMapSize : ℕ := 24

/-- What the caller of the escape passes. -/
structure BlobMapArgs where
  /-- `PrivateDriverDataSize`. -/
  dataSize : ℕ
  /-- `pPrivateDriverData` is null. -/
  dataNull : Bool
  /-- The device behind `hDevice`, with the id of its context if it has one. -/
  device : Option (Option ℕ)
  /-- The handle is that of an allocation. -/
  allocation : Bool

/-- The checks of the escape; they lead to the context of the device. -/
def BlobMapArgs.check (args : BlobMapArgs) : Except NtStatus (Option ℕ) :=
  if args.dataSize < blobMapSize then .error .bufferTooSmall
  else if args.dataNull then .error .invalidParameter
  else match args.device with
    | none => .error .invalidParameter
    | some context => if args.allocation then .ok context else .error .invalidHandle

/-- `MEMORY_CACHING_TYPE`. -/
inductive CachingType where
  | nonCached
  | cached
  | writeCombined

/-- The caching type for the host's `map_info`. -/
def cachingType : ℕ → Option CachingType
  | 0 => some .nonCached
  | 1 => some .cached
  | 2 => some .nonCached
  | 3 => some .writeCombined
  | _ => none

/-- `Adapter::escape` with `ESCAPE_BLOB_MAP_TAG` and without `UNMAP`: the pointer. -/
def escapeBlobMap (w : BlobWorld) (args : BlobMapArgs) (ans : MapAnswers) :
    Except NtStatus ℕ × BlobWorld :=
  match args.check with
  | .error e => (.error e, w)
  | .ok context => match w.mapBlob context ans with
    | (.error e, w) => (.error e, w)
    | (.ok (_, size, mapInfo), w) => match cachingType mapInfo with
      | none => (.error .ioDeviceError, w)
      | some _ =>
        if u32Max ≤ size then (.error .notImplemented, w)
        else match ans.mdl with
          | .error e => (.error e, w)
          | .ok () => match ans.userMapping with
            | .error e => (.error e, w)
            | .ok none => (.error .unsuccessful, w)
            | .ok (some ptr) => (.ok ptr, w)

/-! ### What a call leaves behind -/

/-- The flag, the stored range and the outstanding ranges are the same, and the host has the blob
mapped only if it had before. -/
structure BlobWorld.Unchanged (w w' : BlobWorld) : Prop where
  mapped : w'.mapped = w.mapped
  map : w'.map = w.map
  outstanding : w'.outstanding.Perm w.outstanding
  host : w'.host = true → w.host = true

/-- The call gets a range: its arguments are fine, the blob can be mapped and is not mapped, the
device has a context, and the allocator has room. -/
def Allocates (w : BlobWorld) (args : BlobMapArgs) (ans : MapAnswers) : Prop :=
  (∃ context, args.check = .ok (some context)) ∧ (∃ size, w.resource = .blob size true) ∧
    w.mapped = false ∧ ans.allocate.isSome = true

section Leaves

variable {w : BlobWorld} {args : BlobMapArgs} {ans : MapAnswers}

theorem BlobWorld.Unchanged.refl (w : BlobWorld) : w.Unchanged w := ⟨rfl, rfl, .refl _, id⟩

theorem snd_escapeBlobMap {context : Option ℕ} (h : args.check = .ok context) :
    (escapeBlobMap w args ans).2 = (w.mapBlob context ans).2 := by
  unfold escapeBlobMap
  rw [h]
  dsimp only
  split
  · simp_all
  · rename_i hmap
    rw [hmap]
    dsimp only
    split
    · rfl
    · split_ifs
      · rfl
      · split
        · rfl
        · split <;> rfl

theorem mapBlob_of_not_allocates {context : Option ℕ} (hcheck : args.check = .ok context)
    (h : ¬ Allocates w args ans) : (w.mapBlob context ans).2 = w := by
  unfold BlobWorld.mapBlob
  split
  · rfl
  · rename_i size mappable hres
    split_ifs with hmappable hmapped
    · rfl
    · subst hmappable
      cases context with
      | none => rfl
      | some context =>
        -- Everything before the allocator has passed, so it is the allocator that has no room.
        have hnone : ans.allocate = none := by
          by_contra hsome
          exact h ⟨⟨context, hcheck⟩, ⟨size, hres⟩, by simpa using hmapped,
            Option.isSome_iff_ne_none.2 hsome⟩
        simp [BlobWorld.contextMapBlob, BlobWorld.resourceMapBlob, hnone]
    · rfl

theorem outstanding_mapBlob {context size offset : ℕ} (hres : w.resource = .blob size true)
    (hmapped : w.mapped = false) (hoffset : ans.allocate = some offset) :
    (w.mapBlob (some context) ans).2.outstanding = ⟨offset, pagesU32 size⟩ :: w.outstanding := by
  simp only [BlobWorld.mapBlob, hres, hmapped, BlobWorld.contextMapBlob,
    BlobWorld.resourceMapBlob, hoffset, if_true, Bool.false_eq_true, if_false]
  cases ans.host <;> rfl

/-- **When a call leaves no trace.**  The flag, the stored range, the outstanding ranges and the
mapping at the host are as before exactly if the call has not come as far as allocating a range. -/
theorem blobMap_unchanged_iff (w : BlobWorld) (args : BlobMapArgs) (ans : MapAnswers) :
    w.Unchanged (escapeBlobMap w args ans).2 ↔ ¬ Allocates w args ans := by
  constructor
  · rintro hsame ⟨⟨context, hcheck⟩, ⟨size, hres⟩, hmapped, hsome⟩
    obtain ⟨offset, hoffset⟩ := Option.isSome_iff_exists.1 hsome
    -- one more range is outstanding
    have hlen := hsame.outstanding.length_eq
    rw [snd_escapeBlobMap hcheck, outstanding_mapBlob hres hmapped hoffset] at hlen
    simp at hlen
  · intro h
    cases hcheck : args.check with
    | error =>
      have hsame : (escapeBlobMap w args ans).2 = w := by simp [escapeBlobMap, hcheck]
      rw [hsame]
      exact .refl w
    | ok =>
      rw [snd_escapeBlobMap hcheck, mapBlob_of_not_allocates hcheck h]
      exact .refl w

/-- A blob of one page that is not mapped. -/
def pageBlob : BlobWorld := ⟨.blob pageSize true, false, none, [], false⟩

/-- **Failures are not undone.**  The host accepts with a caching type the driver does not know: the
escape fails, and the flag is set, a range is stored and outstanding, and the host has the blob
mapped.  The host refuses: the range stays outstanding. -/
theorem blobMap_not_undone :
    escapeBlobMap pageBlob ⟨24, false, some (some 1), true⟩
      ⟨some 0, .accepted 4, .ok (), .ok (some 0)⟩ =
        (.error .ioDeviceError, ⟨.blob pageSize true, true, some ⟨0, 1⟩, [⟨0, 1⟩], true⟩) ∧
    escapeBlobMap pageBlob ⟨24, false, some (some 1), true⟩
      ⟨some 0, .refused, .ok (), .ok (some 0)⟩ =
        (.error .ioDeviceError, ⟨.blob pageSize true, false, none, [⟨0, 1⟩], false⟩) :=
  ⟨rfl, rfl⟩

end Leaves

end VirtioGpu
