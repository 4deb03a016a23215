import VirtioGpu.Data.ArrayQueue
import VirtioGpu.Display.Pointer

/-!
# Operations on a source

A pointer or flip operation names a source, and the adapter goes through the targets of the source
in `source_target_map`.  For each it takes the output from the array, without a check that there is
one, and an output takes its current mode from the list of its modes.  All this relies on
`commit_vidpn`: it only stores targets whose outputs it has found, with the mode it has set for
them.  A commit that fails half way leaves the modes it has set, but these are modes of their
outputs too.

* `DisplayState.Valid` : what `start` establishes and every commit keeps.
* `sources_safe` : no sequence of commits and operations gets to an output that is missing or to a
  mode that is out of range.
-/

namespace VirtioGpu

/-! ### The displays of a started adapter -/

/-- The part of `Adapter::start` for one scanout; it fails if the EDID has no preferred
resolution. -/
def startOutput (info : DisplayOne) (edid : EdidModes) : Option VidPnOutput := do
  let _ ← edid.preferredResolution
  VidPnOutput.new info edid

/-- `Adapter::start`: an output for each scanout, and no targets. -/
def DisplayState.start (displays : List (DisplayOne × EdidModes))
    (h : displays.length ≤ maxScanouts) : Option DisplayState :=
  if ∀ x ∈ displays, (startOutput x.1 x.2).isSome then
    some {
      numScanouts := displays.length
      numScanouts_le := h
      outputs := fun t => displays[t]?.bind fun x => startOutput x.1 x.2
      sourceTargetMap := fun _ => [] }
  else none

namespace VidPnOutput

/-- The current mode, if there is one, is a mode of the output. -/
structure InRange (o : VidPnOutput) : Prop where
  modes_ne : o.modes ≠ []
  current : ∀ i, o.currentMode = some i → i < o.modes.length

variable {o : VidPnOutput}

theorem InRange.new {info : DisplayOne} {edid : EdidModes}
    (h : VidPnOutput.new info edid = some o) : o.InRange := by
  obtain ⟨preferred, rfl⟩ : ∃ preferred, o =
      ⟨preferred :: edid.standardTimings.filter (· ≠ preferred),
        if info.enabled = 0 then none else some 0⟩ := by
    simp only [VidPnOutput.new] at h
    split at h
    all_goals
      obtain ⟨preferred, -, h⟩ := Option.bind_eq_some_iff.1 h
      exact ⟨preferred, (Option.some.inj h).symm⟩
  refine ⟨List.cons_ne_nil _ _, fun i hi => ?_⟩
  simp only at hi
  split at hi
  · cases hi
  · cases hi
    exact Nat.zero_lt_succ _

theorem InRange.clampMode (h : o.InRange) : ∃ mode, o.clampMode = some mode := by
  unfold VidPnOutput.clampMode
  cases hi : o.currentMode with
  | none => exact ⟨_, List.getElem?_eq_getElem (List.length_pos_iff.2 h.modes_ne)⟩
  | some i => exact ⟨_, List.getElem?_eq_getElem (h.current i hi)⟩

theorem InRange.setMode (h : o.InRange) {mode : MonitorMode} {i : ℕ}
    (hi : o.position mode = some i) : InRange { o with currentMode := some i } where
  modes_ne := h.modes_ne
  current j hj := by
    cases hj
    exact (List.idxOf?_eq_some_iff.1 hi).1

end VidPnOutput

/-- The output has a current mode. -/
def Active (outputs : ℕ → Option VidPnOutput) (t : ℕ) : Prop :=
  ∃ o i, outputs t = some o ∧ o.currentMode = some i

/-- There are outputs for the scanouts only, their current modes are modes of theirs, and the
targets of all sources are outputs with a current mode. -/
structure DisplayState.Valid (d : DisplayState) : Prop where
  outputs : ∀ t o, d.outputs t = some o → t < d.numScanouts ∧ o.InRange
  targets : ∀ source, ∀ t ∈ d.sourceTargetMap source, Active d.outputs t

namespace DisplayState

theorem Valid.start {displays : List (DisplayOne × EdidModes)} {h : displays.length ≤ maxScanouts}
    {d : DisplayState} (hd : DisplayState.start displays h = some d) : d.Valid := by
  unfold DisplayState.start at hd
  split at hd
  · cases hd
    refine ⟨fun t o ho => ?_, fun source t ht => by cases ht⟩
    obtain ⟨x, hx, ho⟩ := Option.bind_eq_some_iff.1 ho
    obtain ⟨-, -, hnew⟩ := Option.bind_eq_some_iff.1 ho
    exact ⟨(List.getElem?_eq_some_iff.1 hx).1, .new hnew⟩
  · cases hd

variable {fail : Failures} {args : CommitArgs} {v : Vidpn} {d : DisplayState}

theorem Valid.output (hd : d.Valid) {source t : ℕ} (ht : t ∈ d.sourceTargetMap source) :
    ∃ o, d.outputs t = some o ∧ o.InRange := by
  obtain ⟨o, -, ho, -⟩ := hd.targets source t ht
  exact ⟨o, ho, (hd.outputs t o ho).2⟩

theorem commitVidpn_invariant {I : (ℕ → Option VidPnOutput) → Prop}
    (hI : ∀ mode outputs x outputs', I outputs →
      commitTarget fail args v d.numScanouts mode outputs x = .ok outputs' → I outputs')
    (h : I d.outputs) : I (d.commitVidpn fail args v).2.outputs := by
  unfold commitVidpn
  cases commitMode fail args v d.numScanouts with
  | error => exact h
  | ok mode =>
    cases mode with
    | none => exact h
    | some mode =>
      have hloop : I (applyUntil (commitTarget fail args v d.numScanouts mode) d.outputs
          (v.targets args.source).zipIdx).2 := applyUntil_invariant (hI mode) h
      simp only
      split
      · exact hloop
      · exact hloop

/-- **A commit keeps the displays valid**, whether it succeeds or fails. -/
theorem Valid.commit (hd : d.Valid) : (d.commitVidpn fail args v).2.Valid := by
  have hnum := (d.hasMode_commitVidpn fail args v).1
  have hrange : ∀ t o, (d.commitVidpn fail args v).2.outputs t = some o →
      t < d.numScanouts ∧ o.InRange := by
    refine commitVidpn_invariant (I := fun outputs => ∀ t o, outputs t = some o →
      t < d.numScanouts ∧ o.InRange) (fun mode outputs x outputs' hI hround t o ho => ?_) hd.outputs
    obtain ⟨-, -, -, o₀, i, ho₀, hi, rfl⟩ := commitTarget_eq_ok_iff.1 hround
    by_cases ht : t = x.1
    · rw [ht, Function.update_self] at ho
      cases ho
      obtain ⟨hlt, hin⟩ := hI x.1 o₀ ho₀
      exact ⟨ht ▸ hlt, hin.setMode hi⟩
    · rw [Function.update_of_ne ht] at ho
      exact hI t o ho
  have hactive : ∀ t, Active d.outputs t → Active (d.commitVidpn fail args v).2.outputs t := by
    intro t ht
    refine commitVidpn_invariant (I := fun outputs => Active outputs t)
      (fun mode outputs x outputs' hI hround => ?_) ht
    obtain ⟨-, -, -, o₀, i, -, -, rfl⟩ := commitTarget_eq_ok_iff.1 hround
    by_cases ht : t = x.1
    · exact ⟨_, i, by rw [ht, Function.update_self], rfl⟩
    · obtain ⟨o, j, ho, hj⟩ := hI
      exact ⟨o, j, by rw [Function.update_of_ne ht, ho], hj⟩
  have hcase := d.commitCase fail args v
  generalize d.commitVidpn fail args v = r at hnum hrange hactive hcase
  refine ⟨fun t o ho => hnum ▸ hrange t o ho, fun source t ht => ?_⟩
  cases hcase with
  | failed => exact hd.targets source t ht
  | nothing => exact hd.targets source t ht
  | stopped => exact hactive t (hd.targets source t ht)
  | committed mode _ htargets =>
    simp only at ht hactive ⊢
    by_cases hsource : source = args.source
    · rw [hsource, Function.update_self] at ht
      obtain ⟨o, ho, hmem⟩ := htargets t ht
      obtain ⟨i, hi⟩ := VidPnOutput.mem_modes_iff.1 hmem
      refine ⟨{ o with currentMode := o.position mode }, i, ?_, hi⟩
      rw [setMode, if_pos ht, ho, Option.map_some]
    · rw [Function.update_of_ne hsource] at ht
      exact hactive t (hd.targets source t ht)

end DisplayState

/-! ### The operations -/

/-- Where an operation panics, for a target. -/
inductive SourcePanic where
  /-- `outputs[..].unwrap()` of a scanout that is no output. -/
  | unwrapNone (target : ℕ)
  /-- `modes[..]` of a mode that the output does not have. -/
  | modeIndex (target : ℕ)
  /-- The position is clamped to a mode that is too large for an `i32`. -/
  | clampBounds (target : ℕ)
  /-- The shape does not go into the framebuffer. -/
  | shapeBounds (target : ℕ)

/-- The loop of a pointer operation over the targets, up to the first error. -/
def pointerTargets (call : VidPnOutput → ℕ → Option Cursor → PointerCall)
    (outputs : ℕ → Option VidPnOutput) :
    List ℕ → (ℕ → Option Cursor) →
      Outcome (Except VidpnStatus Unit × (ℕ → Option Cursor)) SourcePanic
  | [], cursors => .next (.ok (), cursors)
  | t :: targets, cursors =>
    match outputs t with
    | none => .panic (.unwrapNone t)
    | some o =>
      let r := call o t (cursors t)
      let cursors := Function.update cursors t r.cursor
      match r.result with
      | .ok () => pointerTargets call outputs targets cursors
      | .error (.status e) => .next (.error (.dxgkrnl e), cursors)
      | .error .modeIndex => .panic (.modeIndex t)
      | .error .clampBounds => .panic (.clampBounds t)
      | .error .shapeBounds => .panic (.shapeBounds t)

/-- The length of a flip queue. -/
def flipQueueLen : ℕ := 128

theorem flipQueueLen_pos : 0 < flipQueueLen := Nat.zero_lt_succ 127

/-- The loop of `queue_scanout` over the targets.  What is dropped from a queue is only logged. -/
def queueTargets {ι : Type} (flip : ι × UInt64) (outputs : ℕ → Option VidPnOutput) :
    List ℕ → (ℕ → ArrayQueue (ι × UInt64) flipQueueLen) →
      Outcome (ℕ → ArrayQueue (ι × UInt64) flipQueueLen) SourcePanic
  | [], flipqs => .next flipqs
  | t :: targets, flipqs =>
    match outputs t with
    | none => .panic (.unwrapNone t)
    | some _ =>
      queueTargets flip outputs targets (Function.update flipqs t ((flipqs t).forcePush flip).1)

/-- The displays of an adapter, with the cursors and flip queues of the outputs. -/
structure AdapterDisplays (ι : Type) where
  display : DisplayState
  emptyCursor : Cursor
  cursors : ℕ → Option Cursor
  /-- `flipq`: allocations and their addresses. -/
  flipqs : ℕ → ArrayQueue (ι × UInt64) flipQueueLen

/-- Calls of the adapter that have to do with displays. -/
inductive DisplayAct (ι : Type) where
  | commitVidpn (fail : Failures) (args : CommitArgs) (v : Vidpn)
  | moveCursor (source : ℕ) (visible : Bool) (x y : Int32) (env : ℕ → PointerEnv)
  | updateCursor (source : ℕ) (shape : PointerShape) (env : ℕ → PointerEnv)
  | queueScanout (source : ℕ) (alloc : ι) (addr : UInt64)

namespace AdapterDisplays

variable {ι : Type}

/-- After `start`. -/
def init (d : DisplayState) (empty : Cursor) : AdapterDisplays ι where
  display := d
  emptyCursor := empty
  cursors _ := none
  flipqs _ := .new flipQueueLen_pos

variable (s : AdapterDisplays ι)

/-- `Adapter::move_cursor` -/
def moveCursor (source : ℕ) (visible : Bool) (x y : Int32) (env : ℕ → PointerEnv) :
    Outcome (Except VidpnStatus Unit × (ℕ → Option Cursor)) SourcePanic :=
  match s.display.targetsForSource source with
  | .error e => .next (.error e, s.cursors)
  | .ok targets =>
    pointerTargets (fun o t => o.setPointerPosition t s.emptyCursor visible x y (env t))
      s.display.outputs targets s.cursors

/-- `Adapter::update_cursor` -/
def updateCursor (source : ℕ) (shape : PointerShape) (env : ℕ → PointerEnv) :
    Outcome (Except VidpnStatus Unit × (ℕ → Option Cursor)) SourcePanic :=
  match s.display.targetsForSource source with
  | .error e => .next (.error e, s.cursors)
  | .ok targets =>
    if shape.format = .unsupported then .next (.ok (), s.cursors)
    else pointerTargets (fun _ t => VidPnOutput.setPointerShape t shape (env t))
      s.display.outputs targets s.cursors

/-- `Adapter::queue_scanout` -/
def queueScanout (source : ℕ) (flip : ι × UInt64) :
    Outcome (ℕ → ArrayQueue (ι × UInt64) flipQueueLen) SourcePanic :=
  match s.display.targetsForSource source with
  | .error _ => .next s.flipqs
  | .ok targets => queueTargets flip s.display.outputs targets s.flipqs

def step : DisplayAct ι → Outcome (AdapterDisplays ι) SourcePanic
  | .commitVidpn fail args v => .next { s with display := (s.display.commitVidpn fail args v).2 }
  | .moveCursor source visible x y env =>
    (s.moveCursor source visible x y env).bind fun r => .next { s with cursors := r.2 }
  | .updateCursor source shape env =>
    (s.updateCursor source shape env).bind fun r => .next { s with cursors := r.2 }
  | .queueScanout source alloc addr =>
    (s.queueScanout source (alloc, addr)).bind fun flipqs => .next { s with flipqs := flipqs }

end AdapterDisplays

def displaysMachine (ι : Type) : Machine (AdapterDisplays ι) (DisplayAct ι) SourcePanic where
  step := AdapterDisplays.step

/-! ### No operation gets to a missing output or mode -/

theorem Cursor.sendLast_ne_modeIndex (env : PointerEnv) (cursor : Option Cursor)
    (cmd : CursorCommand) : (sendLast env cursor cmd).result ≠ .error .modeIndex := by
  unfold sendLast
  cases env.send <;> simp

namespace VidPnOutput

theorem InRange.position_ne_modeIndex {o : VidPnOutput} (ho : o.InRange) (scanout : ℕ)
    (empty : Cursor) (visible : Bool) (x y : Int32) (env : PointerEnv) (cursor : Option Cursor) :
    (o.setPointerPosition scanout empty visible x y env cursor).result ≠ .error .modeIndex := by
  obtain ⟨mode, hmode⟩ := ho.clampMode
  unfold setPointerPosition
  cases visible with
  | false =>
    rw [if_neg Bool.false_ne_true]
    unfold hideCursor
    cases cursor <;> exact Cursor.sendLast_ne_modeIndex _ _ _
  | true =>
    rw [if_pos rfl]
    simp only [moveCursor, hmode]
    cases clampTo x mode.width with
    | none => simp
    | some x' =>
      cases clampTo y mode.height with
      | none => simp
      | some y' =>
        cases cursor with
        | none =>
          simp only
          cases Cursor.tryNew env 0 0 x' y' <;> simp
        | some =>
          simp only
          split <;> exact Cursor.sendLast_ne_modeIndex _ _ _

theorem shape_ne_modeIndex (scanout : ℕ) (shape : PointerShape) (env : PointerEnv)
    (cursor : Option Cursor) :
    (setPointerShape scanout shape env cursor).result ≠ .error .modeIndex := by
  have hupdate : ∀ write yHot xHot,
      (updateCursor write scanout yHot xHot env cursor).result ≠ .error .modeIndex := by
    intro write yHot xHot
    unfold updateCursor
    cases prepareCursor yHot xHot env cursor with
    | error => simp
    | ok c =>
      simp only
      cases write c.pixels with
      | none => simp
      | some =>
        simp only
        cases env.transfer with
        | error => simp
        | ok => exact Cursor.sendLast_ne_modeIndex _ _ _
  unfold setPointerShape
  cases shape.format with
  | unsupported => simp
  | color | monochrome | maskedColor => exact hupdate _ _ _

end VidPnOutput

/-- The panics that a valid display rules out. -/
def SourcePanic.OutOfRange : SourcePanic → Prop
  | .unwrapNone _ | .modeIndex _ => True
  | .clampBounds _ | .shapeBounds _ => False

variable {targets : List ℕ}

theorem pointerTargets_safe {call : VidPnOutput → ℕ → Option Cursor → PointerCall}
    {outputs : ℕ → Option VidPnOutput}
    (houtputs : ∀ t ∈ targets, ∃ o, outputs t = some o ∧
      ∀ cursor, (call o t cursor).result ≠ .error .modeIndex)
    (cursors : ℕ → Option Cursor) {p : SourcePanic}
    (h : pointerTargets call outputs targets cursors = .panic p) : ¬ p.OutOfRange := by
  induction targets generalizing cursors with
  | nil => cases h
  | cons t targets ih =>
    obtain ⟨⟨o, ho, hcall⟩, hrest⟩ := List.forall_mem_cons.1 houtputs
    unfold pointerTargets at h
    rw [ho] at h
    simp only at h
    cases hresult : (call o t (cursors t)).result with
    | ok =>
      simp only [hresult] at h
      exact ih hrest _ h
    | error stop =>
      cases stop with
      | modeIndex => exact absurd hresult (hcall _)
      | status => simp [hresult] at h
      | clampBounds | shapeBounds =>
        simp only [hresult] at h
        cases h
        exact id

theorem queueTargets_safe {ι : Type} (flip : ι × UInt64) {outputs : ℕ → Option VidPnOutput}
    (houtputs : ∀ t ∈ targets, ∃ o, outputs t = some o)
    (flipqs : ℕ → ArrayQueue (ι × UInt64) flipQueueLen) :
    ∃ flipqs', queueTargets flip outputs targets flipqs = .next flipqs' := by
  induction targets generalizing flipqs with
  | nil => exact ⟨flipqs, rfl⟩
  | cons t targets ih =>
    obtain ⟨⟨o, ho⟩, hrest⟩ := List.forall_mem_cons.1 houtputs
    unfold queueTargets
    rw [ho]
    exact ih hrest _

theorem DisplayState.targetsForSource_eq_ok {d : DisplayState} {source : ℕ}
    (h : d.targetsForSource source = .ok targets) : targets = d.sourceTargetMap source := by
  unfold targetsForSource at h
  split_ifs at h
  exact (Except.ok.inj h).symm

namespace AdapterDisplays

variable {ι : Type} {s s' : AdapterDisplays ι} {a : DisplayAct ι} {p : SourcePanic}

section

variable (hs : s.display.Valid)
include hs

theorem valid_step (h : (displaysMachine ι).step s a = .next s') : s'.display.Valid := by
  cases a with
  | commitVidpn =>
    cases h
    exact hs.commit
  | moveCursor =>
    obtain ⟨r, -, h⟩ := Outcome.bind_eq_next.1 h
    cases h
    exact hs
  | updateCursor =>
    obtain ⟨r, -, h⟩ := Outcome.bind_eq_next.1 h
    cases h
    exact hs
  | queueScanout =>
    obtain ⟨r, -, h⟩ := Outcome.bind_eq_next.1 h
    cases h
    exact hs

theorem moveCursor_safe {source : ℕ} {visible : Bool} {x y : Int32} {env : ℕ → PointerEnv}
    (h : s.moveCursor source visible x y env = .panic p) :
    ¬ p.OutOfRange := by
  unfold moveCursor at h
  cases htargets : s.display.targetsForSource source with
  | error => simp [htargets] at h
  | ok =>
    simp only [htargets] at h
    refine pointerTargets_safe (fun t ht => ?_) _ h
    rw [DisplayState.targetsForSource_eq_ok htargets] at ht
    obtain ⟨o, ho, hin⟩ := hs.output ht
    exact ⟨o, ho, hin.position_ne_modeIndex _ _ _ _ _ _⟩

theorem updateCursor_safe {source : ℕ} {shape : PointerShape} {env : ℕ → PointerEnv}
    (h : s.updateCursor source shape env = .panic p) :
    ¬ p.OutOfRange := by
  unfold updateCursor at h
  cases htargets : s.display.targetsForSource source with
  | error => simp [htargets] at h
  | ok =>
    simp only [htargets] at h
    split at h
    · cases h
    · refine pointerTargets_safe (fun t ht => ?_) _ h
      rw [DisplayState.targetsForSource_eq_ok htargets] at ht
      obtain ⟨o, ho, -⟩ := hs.output ht
      exact ⟨o, ho, VidPnOutput.shape_ne_modeIndex _ _ _⟩

theorem queueScanout_ne_panic (source : ℕ) (flip : ι × UInt64) (p : SourcePanic) :
    s.queueScanout source flip ≠ .panic p := by
  intro h
  unfold queueScanout at h
  cases htargets : s.display.targetsForSource source with
  | error => simp [htargets] at h
  | ok =>
    simp only [htargets] at h
    rw [DisplayState.targetsForSource_eq_ok htargets] at h
    obtain ⟨flipqs, hnext⟩ := queueTargets_safe flip
      (fun t ht => (hs.output ht).imp fun _ ho => ho.1) s.flipqs
    rw [hnext] at h
    cases h

theorem valid_safe (h : (displaysMachine ι).step s a = .panic p) : ¬ p.OutOfRange := by
  cases a with
  | commitVidpn => cases h
  | moveCursor =>
    rcases Outcome.bind_eq_panic.1 h with h | ⟨r, -, h⟩
    · exact moveCursor_safe hs h
    · cases h
  | updateCursor =>
    rcases Outcome.bind_eq_panic.1 h with h | ⟨r, -, h⟩
    · exact updateCursor_safe hs h
    · cases h
  | queueScanout source alloc addr =>
    rcases Outcome.bind_eq_panic.1 h with h | ⟨r, -, h⟩
    · exact absurd h (queueScanout_ne_panic hs source (alloc, addr) p)
    · cases h

end

end AdapterDisplays

/-- **Every target is an output with a current mode**, after `start` and every sequence of commits,
failed or not, and operations; and current modes are in range.  So no operation finds an output or a
mode missing. -/
theorem sources_safe {ι : Type} {displays : List (DisplayOne × EdidModes)}
    {hlen : displays.length ≤ maxScanouts} {d : DisplayState}
    (hd : DisplayState.start displays hlen = some d) (empty : Cursor) {acts : List (DisplayAct ι)}
    {s : AdapterDisplays ι} (hrun : (displaysMachine ι).run (.init d empty) acts = some s) :
    (∀ source, ∀ t ∈ s.display.sourceTargetMap source, t < s.display.numScanouts ∧
      ∃ o i, s.display.outputs t = some o ∧ o.currentMode = some i ∧ i < o.modes.length) ∧
    (∀ t o i, s.display.outputs t = some o → o.currentMode = some i → i < o.modes.length) ∧
    ∀ a t, (displaysMachine ι).step s a ≠ .panic (.unwrapNone t) ∧
      (displaysMachine ι).step s a ≠ .panic (.modeIndex t) := by
  have hvalid : s.display.Valid :=
    Machine.run_invariant (I := fun s => s.display.Valid)
      (fun _ _ _ hs h => AdapterDisplays.valid_step hs h) (DisplayState.Valid.start hd) hrun
  refine ⟨fun source t ht => ?_, fun t o i ho hi => (hvalid.outputs t o ho).2.current i hi,
    fun a t => ⟨fun h => ?_, fun h => ?_⟩⟩
  · obtain ⟨o, i, ho, hi⟩ := hvalid.targets source t ht
    obtain ⟨hlt, hin⟩ := hvalid.outputs t o ho
    exact ⟨hlt, o, i, ho, hi, hin.current i hi⟩
  · exact AdapterDisplays.valid_safe hvalid h trivial
  · exact AdapterDisplays.valid_safe hvalid h trivial

/-- The output of a small adapter. -/
def oneDisplay : List (DisplayOne × EdidModes) :=
  [(⟨⟨1024, 768⟩, 1⟩, ⟨some ⟨1024, 768⟩, [⟨800, 600⟩]⟩)]

/-- The adapter when it has been started. -/
def oneOutput : DisplayState where
  numScanouts := 1
  numScanouts_le := Nat.le_of_ble_eq_true rfl
  outputs t := oneDisplay[t]?.bind fun x => startOutput x.1 x.2
  sourceTargetMap _ := []

/-- The output is committed, and the pointer is moved there. -/
theorem sources_safe_oneOutput :
    ∃ s, (displaysMachine Unit).run (.init oneOutput ⟨.zeroed 64 64, 1, (0, 0), (0, 0), false⟩)
        [.commitVidpn (fun _ => none) ⟨0, false⟩ (.plain 0 [0] ⟨800, 600⟩),
          .moveCursor 0 true 700 20 fun _ => ⟨.ok 2, .ok (), .ok ()⟩] = some s ∧
      s.display.sourceTargetMap 0 = [0] ∧
      ∃ o i, s.display.outputs 0 = some o ∧ o.currentMode = some i ∧ i < o.modes.length := by
  have hmap : ((displaysMachine Unit).run
      (.init oneOutput ⟨.zeroed 64 64, 1, (0, 0), (0, 0), false⟩)
      [.commitVidpn (fun _ => none) ⟨0, false⟩ (.plain 0 [0] ⟨800, 600⟩),
        .moveCursor 0 true 700 20 fun _ => ⟨.ok 2, .ok (), .ok ()⟩]).map
      (fun s => s.display.sourceTargetMap 0) = some [0] := by
    decide
  obtain ⟨s, hrun, hmap⟩ := Option.map_eq_some_iff.1 hmap
  have hstart : DisplayState.start oneDisplay (Nat.le_of_ble_eq_true rfl) = some oneOutput := rfl
  have hsafe := (sources_safe hstart _ hrun).1 0 0 (by rw [hmap]; exact List.mem_singleton_self 0)
  exact ⟨s, hrun, hmap, hsafe.2⟩

end VirtioGpu
