import VirtioGpu.Device.Context
import VirtioGpu.Device.Render

/-!
# When `Device::render` panics

A panic in the driver stops the machine, and the buffer that `render` goes through comes from user
mode.  Most of what could go wrong in `render` does not, whatever the buffer holds: there is room
for what is written (`RenderEnv.RoomInv`), a fence is refused before its length is asked for, and
what is written for a body is as long as `body_dma_len` says.  The handles that are unwrapped at the
end have been checked at the start.

What is left is `context_internal(false).unwrap()` for a `Submit`.  A device has no main context
before `init_context`, and nothing checks for it.

* `render_returns_iff` : `render` panics exactly if the device has no main context, the handles are
  valid and the buffer starts with the header of a `Submit`.
* `render_panics` : it does so for a new device.
-/

namespace VirtioGpu

/-- The stop is a Rust panic. -/
def RenderStop.isPanic : RenderStop → Bool
  | .status _ | .fault _ => false
  | .noContext | .fenceToHost | .sliceIndex | .writtenNeeded => true

/-- The buffer starts with a valid header of a `Submit`, which can be read. -/
def UserBuffer.StartsWithSubmit (b : UserBuffer) : Prop := ∃ hdr ∈ b.headerAt 0, hdr.id = .submit

/-- The last loop over the allocation list: `from_arc_handle_clone(..).unwrap()`, with `none` for a
handle that cannot be unwrapped. -/
def attachAllocations (allocations : List (Option ℕ)) : Option (List ℕ) := allocations.mapM id

theorem attachAllocations_of_valid {allocations : List (Option ℕ)}
    (h : allocations.any Option.isNone = false) :
    attachAllocations allocations = some (allocations.filterMap id) := by
  unfold attachAllocations
  induction allocations with
  | nil => rfl
  | cons a allocations ih =>
    rw [List.any_cons, Bool.or_eq_false_iff] at h
    cases a with
    | none => cases h.1
    | some => simp [ih h.2]

/-- The contexts of the device are those of the environment. -/
structure RenderEnv.OfDevice (env : RenderEnv) (d : DeviceContexts) : Prop where
  main : env.mainContext = d.main.map Context3D.id
  blit : env.blitContext = d.blit.map Context3D.id

namespace RenderEnv

variable {env : RenderEnv} {b : UserBuffer} {st st' : RenderState} {hdr : CommandHeader}
  {body : CommandBody} {fence : FenceTracker}

theorem encode_returns (hroom : RoomInv st) (h : ¬ (body.id = .submit ∧ env.mainContext = none)) :
    (env.encode b st hdr body).Stops fun stop => stop.isPanic = false := by
  by_cases hfence : body.id = .fence
  · rw [encode, if_pos hfence]
    exact Reads.stops_throw.2 rfl
  obtain ⟨needed, hneeded⟩ := bodyDmaLen_of_ne_fence hfence
  cases hctx : env.contextInternal hdr.shadowVirgl with
  | none =>
    rw [encode, if_neg hfence, if_neg h, hctx]
    exact Reads.stops_throw.2 rfl
  | some context =>
    intro stop hstop
    rw [encode_eq hfence h hctx hneeded hroom] at hstop
    split_ifs at hstop with hfit
    · -- What is written is as long as `body_dma_len` says, unless there is an exception.
      have hsum := bodyDmaLen_eq hneeded
      obtain ⟨hok, hfault⟩ := DmaWriter.fromItems_of_room (w := st.writer) b (some context)
        hdr.ringIndex (sendable_of_bodyDmaLen hneeded) (by omega)
      by_cases hread : ∀ item ∈ body.items, b.Readable item.slice
      · obtain ⟨w, hw, -⟩ := hok hread
        rw [hw] at hstop
        cases hstop
      · obtain ⟨t, l, ht, -⟩ := hfault hread
        rw [ht] at hstop
        cases hstop
        rfl
    · cases hstop
      rfl

theorem step_returns (hroom : RoomInv st) (h : env.mainContext = none →
    ∀ hdr ∈ b.headerAt st.commandOffset, hdr.id ≠ .submit) :
    (env.step b st).Stops fun stop => stop.isPanic = false := by
  unfold step
  by_cases hlen : b.len - st.commandOffset < commandHeaderSize
  · rw [if_pos hlen]
    exact Reads.stops_throw.2 rfl
  rw [if_neg hlen]
  refine Reads.stops_bind ?_ fun _ hread =>
    Reads.stops_ofExcept_bind ?_ fun hdr hhdr =>
      Reads.stops_bind (Reads.stops_mapErr fun _ _ => rfl) fun body hbody =>
        encode_returns hroom ?_
  · unfold DmaWriter.readUser
    refine Reads.stops_bind (Reads.stops_read _) fun _ _ => ?_
    split_ifs
    · exact Reads.stops_pure
    · exact Reads.stops_throw.2 rfl
  · intro stop hstop
    cases hraw : (b.rawHeader st.commandOffset).tryAsHdr with
    | error =>
      rw [hraw] at hstop
      cases hstop
      rfl
    | ok =>
      rw [hraw] at hstop
      cases hstop
  · rintro ⟨hsubmit, hmain⟩
    have hid := UserBuffer.id_of_commandSlice (Reads.result_mapErr_eq_ok.1 hbody)
    have hreadable : b.Readable ⟨st.commandOffset, commandHeaderSize⟩ := by
      by_contra hno
      cases hread.symm.trans (DmaWriter.readUser_of_not_readable _ hno)
    refine h hmain hdr ?_ (hid.symm.trans hsubmit)
    rw [UserBuffer.headerAt, if_pos ⟨by unfold commandHeaderSize at *; omega, hreadable⟩,
      mapError_eq_ok.1 hhdr]
    rfl

/-- Without contexts no command can be encoded, not even a nop. -/
theorem not_round (hroom : RoomInv st) (hdma : st.writer.dma = env.dma)
    (hmain : env.mainContext = none) (hblit : env.blitContext = none) :
    ¬ Reads.Round (more b) (env.step b) st st' := by
  rintro ⟨-, h⟩
  have hcase := env.stepCase b hroom hdma
  rw [h] at hcase
  cases hcase with
  | next hdr st' l hhdr haccepts =>
    have := haccepts.1.2
    simp [contextInternal, hmain, hblit] at this

theorem step_noContext (hmain : env.mainContext = none)
    (hhdr : b.headerAt st.commandOffset = some hdr) (hid : hdr.id = .submit) :
    (env.step b st).result = .error .noContext := by
  obtain ⟨hlen, hread, hraw⟩ := UserBuffer.headerAt_eq_some_iff.1 hhdr
  have hle : ¬ b.len - st.commandOffset < commandHeaderSize := by omega
  have hbody := UserBuffer.commandSlice_of_submit b (st.commandOffset + commandHeaderSize) hid
  unfold step
  rw [if_neg hle, Reads.result_bind_of_ok (DmaWriter.readUser_of_readable _ hread),
    Reads.result_bind_of_ok (mapError_eq_ok.2 hraw),
    Reads.result_bind_of_ok (Reads.result_mapErr_eq_ok.2 hbody)]
  unfold encode
  rw [if_neg (by simp [CommandBody.id]), if_pos ⟨rfl, hmain⟩]
  rfl

/-! ### The whole call -/

/-- `render` returns, `Ok` or `Err`: neither the loop over the commands nor that over the
allocations panics. -/
def Returns (env : RenderEnv) (fence : FenceTracker) (b : UserBuffer) : Prop :=
  (env.render fence b).Stops (fun stop => stop.isPanic = false) ∧
    (env.allocations.any Option.isNone = false → (attachAllocations env.allocations).isSome = true)

/-- The errors of the loop are those of `render`, under another status. -/
theorem render_stops
    (h : env.allocations.any Option.isNone = false →
      (Reads.whileLoop (more b) (env.step b) b.len (env.start fence)).Stops
        fun stop => stop.isPanic = false) :
    (env.render fence b).Stops fun stop => stop.isPanic = false := by
  unfold render
  by_cases halloc : env.allocations.any Option.isNone = true
  · rw [if_pos halloc]
    exact Reads.stops_throw.2 rfl
  rw [if_neg halloc]
  refine Reads.stops_bind (Reads.stops_mapErr ((h (eq_false_of_ne_true halloc)).mono ?_)) ?_
  · intro stop hstop
    cases stop with
    | status | fault => rfl
    | noContext | fenceToHost | sliceIndex | writtenNeeded => exact hstop
  · intro st _
    by_cases hsize : env.privateDataSize < commandDmaPrivateSize
    · rw [if_pos hsize]
      exact Reads.stops_throw.2 rfl
    · rw [if_neg hsize]
      split_ifs
      · exact Reads.stops_throw.2 rfl
      · exact Reads.stops_pure

theorem loop_returns (hblit : env.mainContext = none → env.blitContext = none)
    (h : env.mainContext = none → ¬ b.StartsWithSubmit) :
    (Reads.whileLoop (more b) (env.step b) b.len (env.start fence)).Stops
      fun stop => stop.isPanic = false := by
  -- Without a main context the loop never gets beyond its first command.
  refine Reads.stops_whileLoop
    (I := fun st => (RoomInv st ∧ st.writer.dma = env.dma) ∧
      (env.mainContext = none → st = env.start fence)) ?_ ?_ _ _
    ⟨⟨Nat.zero_le _, rfl⟩, fun _ => rfl⟩
  · rintro st st' ⟨⟨hroom, hdma⟩, -⟩ hround
    exact ⟨room_of_round hroom hdma hround,
      fun hmain => absurd hround (not_round hroom hdma hmain (hblit hmain))⟩
  · rintro st ⟨⟨hroom, -⟩, hstart⟩ -
    refine step_returns hroom fun hmain hdr hhdr hid => ?_
    obtain rfl := hstart hmain
    exact h hmain ⟨hdr, hhdr, hid⟩

theorem render_noContext (hmain : env.mainContext = none)
    (halloc : env.allocations.any Option.isNone = false) (h : b.StartsWithSubmit) :
    (env.render fence b).result = .error .noContext := by
  obtain ⟨hdr, hhdr, hid⟩ := h
  have hlen := (UserBuffer.headerAt_eq_some_iff.1 hhdr).1
  have hstep : (env.step b (env.start fence)).result = .error .noContext :=
    step_noContext hmain hhdr hid
  have hpos : 0 < b.len := Nat.lt_of_lt_of_le (by decide : 0 < 0 + commandHeaderSize) hlen
  have hmore : more b (env.start fence) = true := decide_eq_true hpos
  have hloop : (Reads.whileLoop (more b) (env.step b) b.len (env.start fence)).result =
      .error .noContext := by
    obtain ⟨fuel, hfuel⟩ := Nat.exists_eq_add_one.2 hpos
    rw [hfuel, Reads.whileLoop, if_pos hmore]
    exact Reads.result_bind_of_error hstep
  unfold render
  rw [if_neg (by simp [halloc])]
  refine Reads.result_bind_of_error ?_
  rw [Reads.mapErr, hloop]
  rfl

/-- A call returns unless there is no main context, the handles are good and the first command is a
`Submit`. -/
theorem returns_iff (hblit : env.mainContext = none → env.blitContext = none)
    (fence : FenceTracker) (b : UserBuffer) :
    env.Returns fence b ↔ env.mainContext.isSome = true ∨
      env.allocations.any Option.isNone = true ∨ ¬ b.StartsWithSubmit := by
  constructor
  · rintro ⟨hstops, -⟩
    by_contra hno
    simp only [not_or, Bool.not_eq_true, Option.isSome_eq_false_iff, Option.isNone_iff_eq_none,
      not_not] at hno
    obtain ⟨hmain, halloc, hsubmit⟩ := hno
    cases hstops _ (render_noContext hmain halloc hsubmit)
  · intro h
    refine ⟨render_stops fun halloc => loop_returns hblit fun hmain => ?_, fun halloc => ?_⟩
    · simpa [hmain, halloc] using h
    · rw [attachAllocations_of_valid halloc]
      rfl

end RenderEnv

/-- **When `render` panics.**  For every command buffer and every device that has seen any calls of
`init_context`, it returns exactly if the device has a main context, or a handle of the allocation
list is invalid, or the buffer does not start with a valid header of a `Submit`. -/
theorem render_returns_iff (calls : List InitContext) (d : DeviceContexts)
    (hrun : contextMachine.run .new calls = some d) (env : RenderEnv) (henv : env.OfDevice d)
    (fence : FenceTracker) (b : UserBuffer) :
    env.Returns fence b ↔ d.main.isSome = true ∨ env.allocations.any Option.isNone = true ∨
      ¬ b.StartsWithSubmit := by
  have hinv : d.Inv := Machine.run_invariant (fun _ _ _ => DeviceContexts.inv_step)
    DeviceContexts.inv_new hrun
  rw [RenderEnv.returns_iff, henv.main, Option.isSome_map]
  intro hmain
  rw [henv.main, Option.map_eq_none_iff] at hmain
  rw [henv.blit, hinv.blit hmain, Option.map_none]

/-- The environment of a device with a DMA buffer of 64 bytes and no allocations. -/
def renderOn (d : DeviceContexts) : RenderEnv where
  mainContext := d.main.map Context3D.id
  blitContext := d.blit.map Context3D.id
  dma := ⟨0, 64⟩
  allocations := []
  hasPrivateData := true
  privateDataSize := commandDmaPrivateSize

def emptySubmit : UserBuffer := userBuffer [1, 0, 0, 0, 0, 0, 0, 0] (by decide)

/-- After a call for a Venus context an empty `Submit` is rendered. -/
theorem render_returns_iff_venus :
    contextMachine.run .new [initVenus 1 true] = some venusContexts ∧
      (renderOn venusContexts).Returns ⟨0, []⟩ emptySubmit := by
  have hrun : contextMachine.run .new [initVenus 1 true] = some venusContexts := by decide
  exact ⟨hrun, (render_returns_iff _ _ hrun _ ⟨rfl, rfl⟩ _ _).2 (.inl rfl)⟩

/-- **`render` panics before `init_context`.**  A new device has no context; an empty `Submit`,
which ends where the buffer ends, leads to the `unwrap` of `None`. -/
theorem render_panics :
    contextMachine.run .new [] = some .new ∧
      ((renderOn .new).render ⟨0, []⟩ emptySubmit).result = .error .noContext ∧
      ((renderOn .new).render ⟨0, []⟩ emptySubmit).Within emptySubmit.len ∧
      ¬ (renderOn .new).Returns ⟨0, []⟩ emptySubmit := by
  have hresult : ((renderOn .new).render ⟨0, []⟩ emptySubmit).result = .error .noContext := rfl
  refine ⟨rfl, hresult, by decide, fun hreturns => ?_⟩
  cases hreturns.1 _ hresult

end VirtioGpu
