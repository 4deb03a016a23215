import VirtioGpu.Display.Modality
import VirtioGpu.Machine.Loans

/-!
# Guards on the objects of `dxgkrnl`

While it looks at a VidPN, the driver gets objects from `dxgkrnl`: infos of paths, sets of modes and
modes.  Each has to be given back.  A new mode is handed over to the set it is added to, and a new
set to the VidPN it is assigned to; everything else is released.

Guards do this (`vidpn.rs`).  A call that hands an object over takes it out of its guard before, and
puts it back if it fails, so that the guard releases it.  The iterator over the paths holds the next
path while the loop has a guard on the current one.

The functions here are those of `Commit` and `Modality` again, with their guards;
`enumCofuncModality_computes` and `commitVidpn_computes` say that they return the same.

* `guards_settled` : whatever fails, every object is handed over or released exactly once, and
  `enum_cofunc_modality` visits the paths in order, up to the first that fails.
-/

namespace VirtioGpu

open Loaned

/-! ### Objects and calls -/

/-- What `dxgkrnl` lends to the driver. -/
inductive VidpnObject where
  | pathInfo
  | sourceModeSet
  | sourceMode
  | targetModeSet
  | targetMode
  | monitorMode
  deriving DecidableEq

/-- Programs with guards.  They note the paths they visit, and panic at an index that is out of
range. -/
abbrev Guarded := Loaned VidpnObject (PresentPath × ℕ) VidpnStatus ℕ

/-- A call and its `?`. -/
def Failures.guarded (fail : Failures) (c : VidpnCall) : Guarded Unit :=
  match fail c with
  | some e => throw (.dxgkrnl e)
  | none => return

/-- A check and its `?`. -/
def guardedCheck (x : Except VidpnStatus Unit) : Guarded Unit :=
  match x with
  | .error e => throw e
  | .ok () => return

/-- What `add_mode` says. -/
inductive AddAnswer where
  | added
  | alreadyInModeset
  | failed (e : NtStatus)

section Autorelease

variable {ν ε π : Type} (status : NtStatus → ε)

/-- `add_mode_autorelease`.  The mode is back in its guard at the end unless it was added. -/
def addModeAutorelease (answer : AddAnswer) (mode : Loan VidpnObject) :
    Loaned VidpnObject ν ε π Unit :=
  match answer with
  | .added => do
    handOver mode
    dropGuard none
  | .alreadyInModeset => dropGuard (some mode)
  | .failed e => do
    dropGuard (some mode)
    throw (status e)

/-- `assign_source_mode_set_autorelease`, `assign_target_mode_set_autorelease`. -/
def assignAutorelease (answer : Option NtStatus) (set : Loan VidpnObject) :
    Loaned VidpnObject ν ε π Unit :=
  match answer with
  | none => do
    handOver set
    dropGuard none
  | some e => do
    dropGuard (some set)
    throw (status e)

end Autorelease

/-! ### `enum_cofunc_modality` -/

/-- The calls for the modes of a source or of a target, and the objects they are about. -/
structure ModeSetCalls where
  acquireSet : VidpnCall
  acquirePinned : VidpnCall
  createSet : VidpnCall
  createMode : ℕ → VidpnCall
  addMode : ℕ → VidpnCall
  assignSet : VidpnCall
  setKind : VidpnObject
  modeKind : VidpnObject

/-- For the source of the `k`-th path. -/
def sourceCalls (k : ℕ) : ModeSetCalls where
  acquireSet := .acquireSourceModeSet k
  acquirePinned := .acquirePinnedSourceMode k
  createSet := .createNewSourceModeSet k
  createMode := .createNewSourceMode k
  addMode := .addSourceMode k
  assignSet := .assignSourceModeSet k
  setKind := .sourceModeSet
  modeKind := .sourceMode

/-- For the target of the `k`-th path. -/
def targetCalls (k : ℕ) : ModeSetCalls where
  acquireSet := .acquireTargetModeSet k
  acquirePinned := .acquirePinnedTargetMode k
  createSet := .createNewTargetModeSet k
  createMode := .createNewTargetMode k
  addMode := .addTargetMode k
  assignSet := .assignTargetModeSet k
  setKind := .targetModeSet
  modeKind := .targetMode

namespace Guarded

section Enum

variable (fail : Failures) (pivot : EnumPivot)

/-- A new mode, and `add_mode_autorelease`. -/
def addMode {α : Type} [DecidableEq α] (calls : ModeSetCalls) (fill : ℕ → MonitorMode → α)
    (set : List α) (x : MonitorMode × ℕ) : Guarded (List α) := do
  fail.guarded (calls.createMode x.2)
  let mode ← acquire calls.modeKind
  let answer := match fail (calls.addMode x.2) with
    | some e => .failed e
    | none => if fill x.2 x.1 ∈ set then AddAnswer.alreadyInModeset else .added
  addModeAutorelease .dxgkrnl answer mode
  return if fill x.2 x.1 ∈ set then set else set ++ [fill x.2 x.1]

/-- `acquire_pinned_mode_info_autorelease` -/
def pinnedMode {α : Type} (calls : ModeSetCalls) (pinned : Option α) :
    Guarded (Option (Loan VidpnObject)) := do
  fail.guarded calls.acquirePinned
  match pinned with
  | none => return none
  | some _ => do
    let mode ← acquire calls.modeKind
    return some mode

/-- The modes of a new set, unless a mode is pinned. -/
def replaceModes {α : Type} [DecidableEq α] (calls : ModeSetCalls) (pinned : Option α)
    (fill : ℕ → MonitorMode → α) (modes : List MonitorMode) : Guarded (Option (List α)) := do
  fail.guarded calls.acquireSet
  let set ← acquire calls.setKind
  let guard ← onError (some set) (pinnedMode fail calls pinned)
  match guard with
  | none => do
    dropGuard none
    dropGuard (some set)
    fail.guarded calls.createSet
    let set ← acquire calls.setKind
    let added ← onError (some set) (modes.zipIdx.foldlM (addMode fail calls fill) [])
    assignAutorelease .dxgkrnl (fail calls.assignSet) set
    return some added
  | some mode => do
    dropGuard (some mode)
    dropGuard (some set)
    return none

/-- The source modes of the `k`-th path. -/
def enumSourceModes (k : ℕ) (path : PresentPath) (output : VidPnOutput) (v : Vidpn) :
    Guarded Vidpn :=
  if pivot.type = .vidpnSource ∧ pivot.source = path.source then return v
  else do
    let modes ← replaceModes fail (sourceCalls k) (v.sourceModes path.source).pinned
      (fun _ mode => mode.graphics) output.modes
    match modes with
    | none => return v
    | some modes =>
      return { v with sourceModes := Function.update v.sourceModes path.source ⟨modes, none⟩ }

/-- The target modes of the `k`-th path. -/
def enumTargetModes (k : ℕ) (path : PresentPath) (output : VidPnOutput) (v : Vidpn) :
    Guarded Vidpn :=
  if pivot.type = .vidpnTarget ∧ pivot.target = path.target then return v
  else do
    let modes ← replaceModes fail (targetCalls k) (v.targetModes path.target).pinned
      (fun i mode => TargetMode.mk mode (i = 0)) output.modes
    match modes with
    | none => return v
    | some modes =>
      return { v with targetModes := Function.update v.targetModes path.target ⟨modes, none⟩ }

/-- The transformations of the `k`-th path. -/
def enumSupport (k : ℕ) (path : PresentPath) (v : Vidpn) : Guarded Vidpn :=
  if OffersScaling pivot path ∨ OffersRotation pivot path then do
    fail.guarded (.updatePathSupportInfo k)
    return { v with paths := v.paths.map (newPresentPath pivot path).updateSupport }
  else return v

/-- The body of the loop. -/
def enumPath (outputs : ℕ → Option VidPnOutput) (v : Vidpn) (x : PresentPath × ℕ) :
    Guarded Vidpn :=
  if maxScanouts ≤ x.1.target then panic x.1.target
  else match outputs x.1.target with
    | none => throw .graphicsInvalidVideoPresentTarget
    | some output => do
      let v ← enumSourceModes fail pivot x.2 x.1 output v
      let v ← enumTargetModes fail pivot x.2 x.1 output v
      enumSupport fail pivot x.2 x.1 v

/-- `VidPnPathInfoIter::try_next` at the `k`-th path: the next path that the iterator then holds, if
there is one.  The current path is the guard of the caller, unless the call fails. -/
def tryNext (k : ℕ) (current : Loan VidpnObject) (rest : List (PresentPath × ℕ)) :
    Guarded (Option (Loan VidpnObject)) :=
  match fail (.acquireNextPathInfo k) with
  | some e => do
    release current
    throw (.dxgkrnl e)
  | none => match rest with
    | [] => return none
    | _ :: _ => do
      let next ← acquire .pathInfo
      return some next

/-- The loop over the paths, the first of which the iterator holds. -/
def enumPaths (outputs : ℕ → Option VidPnOutput) (current : Option (Loan VidpnObject)) :
    List (PresentPath × ℕ) → Vidpn → Guarded Vidpn
  | [], v => return v
  | x :: rest, v => match current with
    | none => return v
    | some path => do
      let next ← tryNext fail x.2 path rest
      note x
      -- The guard on the path is dropped before the iterator, whose path is `next`.
      let v ← onError next (holding (some path) (enumPath fail pivot outputs v x))
      enumPaths outputs next rest v

/-- `Adapter::enum_cofunc_modality` -/
def enumCofuncModality (d : DisplayState) (v : Vidpn) : Guarded Vidpn := do
  fail.guarded .queryVidpnInterface
  fail.guarded .getTopology
  fail.guarded .acquireFirstPathInfo
  if v.paths = [] then throw .graphicsDatasetIsEmpty
  else do
    let first ← acquire .pathInfo
    enumPaths fail pivot d.outputs (some first) v.paths.zipIdx v

end Enum

/-! ### `commit_vidpn` -/

section Commit

variable (fail : Failures) (args : CommitArgs) (v : Vidpn)

/-- One round of the loop. -/
def commitTarget (numScanouts : ℕ) (mode : MonitorMode) (outputs : ℕ → Option VidPnOutput)
    (x : ℕ × ℕ) : Guarded (ℕ → Option VidPnOutput) := do
  fail.guarded (.enumPathTargetsFromSource x.2)
  fail.guarded (.acquirePathInfo x.2)
  match v.path args.source x.1 with
  | none => throw .graphicsInvalidVidpnTopology
  | some path => do
    let info ← acquire .pathInfo
    holding (some info) do
      guardedCheck (checkVidpnPresentPath numScanouts path)
      match outputs x.1 with
      | none => throw .graphicsInvalidVideoPresentTarget
      | some output => match output.position mode with
        | none => throw .graphicsInvalidVideoPresentSourceMode
        | some i => return Function.update outputs x.1 (some { output with currentMode := some i })

/-- `commit_vidpn` from the pinned mode on. -/
def commitPinned (d : DisplayState) (pinned : SourceMode) : Guarded Unit := do
  guardedCheck (checkVidpnSourceMode pinned)
  fail.guarded .getNumPathsFromSource
  let _ ← (v.targets args.source).zipIdx.foldlM
    (commitTarget fail args v d.numScanouts pinned.size) d.outputs
  return

/-- `Adapter::commit_vidpn` -/
def commitVidpn (d : DisplayState) : Guarded Unit :=
  if d.numScanouts ≤ args.source then throw .invalidParameter
  else if args.pathPoweredOff then return
  else do
    fail.guarded .queryVidpnInterface
    fail.guarded .getTopology
    fail.guarded .getNumPaths
    if v.paths = [] then return
    else do
      fail.guarded (.acquireSourceModeSet 0)
      let set ← acquire .sourceModeSet
      holding (some set) do
        fail.guarded (.acquirePinnedSourceMode 0)
        match (v.sourceModes args.source).pinned with
        | none => throw .invalidParameter
        | some pinned => do
          let mode ← acquire .sourceMode
          holding (some mode) (commitPinned fail args v d pinned)

end Commit

end Guarded

/-! ### `recommend_monitor_modes` -/

/-- What `recommend_monitor_modes` returns if it fails. -/
inductive MonitorStatus where
  | invalidParameter
  | graphicsChildDescriptorNotSupported
  | dxgkrnl (e : NtStatus)

/-- What `dxgkrnl` says about the `i`-th mode of a monitor. -/
structure MonitorAnswers where
  /-- `create_new_mode_info` -/
  create : ℕ → Option NtStatus
  add : ℕ → AddAnswer

variable (answers : MonitorAnswers)

/-- The `i`-th mode of a monitor. -/
def recommendMode (_ : Unit) (x : MonitorMode × ℕ) :
    Loaned VidpnObject (PresentPath × ℕ) MonitorStatus ℕ Unit :=
  match answers.create x.2 with
  | some e => throw (.dxgkrnl e)
  | none => do
    let mode ← acquire .monitorMode
    addModeAutorelease .dxgkrnl (answers.add x.2) mode

/-- `Adapter::recommend_monitor_modes` -/
def recommendMonitorModes (d : DisplayState) (scanout : ℕ) :
    Loaned VidpnObject (PresentPath × ℕ) MonitorStatus ℕ Unit :=
  if d.numScanouts ≤ scanout then throw .invalidParameter
  else match d.outputs scanout with
    | none => throw .graphicsChildDescriptorNotSupported
    | some output => output.modes.zipIdx.foldlM (recommendMode answers) ()

/-! ### Everything is given back -/

/-- The program gives back what it obtains. -/
abbrev Settles {ε α : Type} (m : Loaned VidpnObject (PresentPath × ℕ) ε ℕ α) : Prop :=
  Balances [] m fun _ => []

theorem Failures.settles (fail : Failures) (c : VidpnCall) : Settles (fail.guarded c) := by
  unfold Failures.guarded
  cases fail c with
  | none => exact .pure rfl
  | some => exact .throw _

theorem guardedCheck_settles (x : Except VidpnStatus Unit) : Settles (guardedCheck x) := by
  cases x with
  | error e => exact .throw e
  | ok => exact .pure rfl

section Autorelease

variable {ε : Type} (status : NtStatus → ε) (l : Loan VidpnObject)

theorem addModeAutorelease_balances (answer : AddAnswer) :
    Balances [l] (addModeAutorelease status answer l :
      Loaned VidpnObject (PresentPath × ℕ) ε ℕ Unit) fun _ => [] := by
  cases answer with
  | added => exact .bind (.handOver l) fun _ => .dropGuard none
  | alreadyInModeset => exact .dropGuard (some l)
  | failed => exact .bind (.dropGuard (some l)) fun _ => .throw _

theorem assignAutorelease_balances (answer : Option NtStatus) :
    Balances [l] (assignAutorelease status answer l :
      Loaned VidpnObject (PresentPath × ℕ) ε ℕ Unit) fun _ => [] := by
  cases answer with
  | none => exact .bind (.handOver l) fun _ => .dropGuard none
  | some => exact .bind (.dropGuard (some l)) fun _ => .throw _

end Autorelease

namespace Guarded

section Enum

variable (fail : Failures) (pivot : EnumPivot) {α : Type}

theorem addMode_settles [DecidableEq α] (calls : ModeSetCalls) (fill : ℕ → MonitorMode → α)
    (set : List α) (x : MonitorMode × ℕ) :
    Settles (addMode fail calls fill set x) := by
  refine .bind (fail.settles _) fun _ => .acquire_bind fun mode => ?_
  exact .bind (addModeAutorelease_balances _ mode _) fun _ => .pure rfl

theorem pinnedMode_balances (calls : ModeSetCalls) (pinned : Option α) :
    Balances [] (pinnedMode fail calls pinned) Option.toList := by
  refine .bind (fail.settles _) fun _ => ?_
  cases pinned with
  | none => exact .pure rfl
  | some => exact .acquire_bind fun mode => .pure rfl

/-- The set that was there is released; a new one is assigned, or released with what is left of its
modes. -/
theorem replaceModes_settles [DecidableEq α] (calls : ModeSetCalls) (pinned : Option α)
    (fill : ℕ → MonitorMode → α) (modes : List MonitorMode) :
    Settles (replaceModes fail calls pinned fill modes) := by
  refine .bind (fail.settles _) fun _ => .acquire_bind fun set => ?_
  refine .bind (.onError_some (pinnedMode_balances fail calls pinned)) fun guard => ?_
  cases guard with
  | none =>
    refine .drop_none_bind (.drop_some_bind ?_)
    refine .bind (fail.settles _) fun _ => .acquire_bind fun set => ?_
    refine .bind (.onError_some (.foldlM (addMode_settles fail calls fill) _ _)) fun added => ?_
    exact .bind (assignAutorelease_balances _ set _) fun _ => .pure rfl
  | some mode =>
    refine .perm ?_ (List.Perm.swap mode set [])
    exact .drop_some_bind (.drop_some_bind (.pure rfl))

theorem enumSourceModes_settles (k : ℕ) (path : PresentPath) (output : VidPnOutput) (v : Vidpn) :
    Settles (enumSourceModes fail pivot k path output v) := by
  unfold enumSourceModes
  split_ifs
  · exact .pure rfl
  · refine .bind (replaceModes_settles fail _ _ _ _) fun modes => ?_
    cases modes <;> exact .pure rfl

theorem enumTargetModes_settles (k : ℕ) (path : PresentPath) (output : VidPnOutput) (v : Vidpn) :
    Settles (enumTargetModes fail pivot k path output v) := by
  unfold enumTargetModes
  split_ifs
  · exact .pure rfl
  · refine .bind (replaceModes_settles fail _ _ _ _) fun modes => ?_
    cases modes <;> exact .pure rfl

theorem enumSupport_settles (k : ℕ) (path : PresentPath) (v : Vidpn) :
    Settles (enumSupport fail pivot k path v) := by
  unfold enumSupport
  split_ifs
  · exact .bind (fail.settles _) fun _ => .pure rfl
  · exact .pure rfl

theorem enumPath_settles (outputs : ℕ → Option VidPnOutput) (v : Vidpn) (x : PresentPath × ℕ) :
    Settles (enumPath fail pivot outputs v x) := by
  unfold enumPath
  split_ifs
  · exact .panic _
  · cases outputs x.1.target with
    | none => exact .throw _
    | some output =>
      refine .bind (enumSourceModes_settles fail pivot x.2 x.1 output v) fun v => ?_
      exact .bind (enumTargetModes_settles fail pivot x.2 x.1 output v) fun v =>
        enumSupport_settles fail pivot x.2 x.1 v

theorem tryNext_balances (k : ℕ) (current : Loan VidpnObject) (rest : List (PresentPath × ℕ)) :
    Balances [current] (tryNext fail k current rest) fun next => current :: next.toList := by
  unfold tryNext
  cases fail (.acquireNextPathInfo k) with
  | some => exact .bind (.release current) fun _ => .throw _
  | none =>
    cases rest with
    | nil => exact .pure rfl
    | cons =>
      refine .acquire_bind fun next => .perm (.pure rfl) ?_
      exact List.Perm.swap current next []

theorem round_balances (next : Option (Loan VidpnObject)) (path : Loan VidpnObject)
    (outputs : ℕ → Option VidPnOutput) (v : Vidpn) (x : PresentPath × ℕ) :
    Balances (path :: next.toList)
      (onError next (holding (some path) (enumPath fail pivot outputs v x)))
      fun _ => next.toList := by
  have hswap : ([path] ++ next.toList).Perm (next.toList ++ [path]) := List.perm_append_comm
  have hround : Balances (next.toList ++ [path])
      (onError next (holding (some path) (enumPath fail pivot outputs v x)))
      fun _ => next.toList ++ [] :=
    .onError (.holding_some (enumPath_settles fail pivot outputs v x))
  simp only [List.append_nil] at hround
  exact hround.perm hswap

end Enum

section Commit

variable (fail : Failures) (args : CommitArgs) (v : Vidpn)

theorem commitTarget_settles (numScanouts : ℕ) (mode : MonitorMode)
    (outputs : ℕ → Option VidPnOutput) (x : ℕ × ℕ) :
    Settles (commitTarget fail args v numScanouts mode outputs x) := by
  refine .bind (fail.settles _) fun _ => .bind (fail.settles _) fun _ => ?_
  cases v.path args.source x.1 with
  | none => exact .throw _
  | some =>
    refine .acquire_bind fun info => .holding_some ?_
    refine .bind (guardedCheck_settles _) fun _ => ?_
    cases outputs x.1 with
    | none => exact .throw _
    | some output =>
      simp only
      cases output.position mode with
      | none => exact .throw _
      | some => exact .pure rfl

theorem commitPinned_settles (d : DisplayState) (pinned : SourceMode) :
    Settles (commitPinned fail args v d pinned) := by
  refine .bind (guardedCheck_settles _) fun _ => .bind (fail.settles _) fun _ => ?_
  exact .bind (.foldlM (commitTarget_settles fail args v _ _) _ _) fun _ => .pure rfl

theorem commitVidpn_settles (d : DisplayState) : Settles (commitVidpn fail args v d) := by
  unfold commitVidpn
  by_cases hsource : d.numScanouts ≤ args.source
  · rw [if_pos hsource]
    exact .throw _
  rw [if_neg hsource]
  by_cases hoff : args.pathPoweredOff = true
  · rw [if_pos hoff]
    exact .pure rfl
  rw [if_neg hoff]
  refine .bind (fail.settles _) fun _ => .bind (fail.settles _) fun _ =>
    .bind (fail.settles _) fun _ => ?_
  by_cases hpaths : v.paths = []
  · rw [if_pos hpaths]
    exact .pure rfl
  rw [if_neg hpaths]
  refine .bind (fail.settles _) fun _ => .acquire_bind fun set => .holding_some ?_
  refine .bind (fail.settles _) fun _ => ?_
  cases (v.sourceModes args.source).pinned with
  | none => exact .throw _
  | some pinned =>
    exact .acquire_bind fun mode => .holding_some (commitPinned_settles fail args v d pinned)

end Commit

end Guarded

theorem recommendMode_settles (u : Unit) (x : MonitorMode × ℕ) :
    Settles (recommendMode answers u x) := by
  unfold recommendMode
  cases answers.create x.2 with
  | none => exact .acquire_bind fun mode => addModeAutorelease_balances _ mode _
  | some => exact .throw _

theorem recommendMonitorModes_settles (d : DisplayState) (scanout : ℕ) :
    Settles (recommendMonitorModes answers d scanout) := by
  unfold recommendMonitorModes
  split_ifs
  · exact .throw _
  · cases d.outputs scanout with
    | none => exact .throw _
    | some => exact .foldlM (recommendMode_settles answers) _ _

/-! ### The guards do not change the results -/

/-- How a program stops. -/
def enumStop : ℕ ⊕ VidpnStatus → EnumStop
  | .inl target => .indexOutOfRange target
  | .inr e => .status e

namespace Guarded

section Enum

variable (fail : Failures) (pivot : EnumPivot) {α : Type}

theorem guarded_computes (c : VidpnCall) :
    Computes enumStop (fun _ _ => True) (fail.guarded c) (fail.attempt c) := by
  unfold Failures.guarded Failures.attempt Failures.call
  cases fail c with
  | none => exact .pure trivial
  | some => exact .throw _

variable (outputs : ℕ → Option VidPnOutput) (calls : ModeSetCalls)

theorem addMode_computes [DecidableEq α] (fill : ℕ → MonitorMode → α) (set : List α)
    (x : MonitorMode × ℕ) :
    Computes enumStop Eq (addMode fail calls fill set x)
      (VirtioGpu.addMode fail calls.createMode calls.addMode fill set x) := by
  refine .bind (guarded_computes fail _) fun _ _ _ => .acquire_bind fun mode => ?_
  refine .bind (R := fun _ _ => True) ?_ fun _ _ _ => .pure rfl
  unfold Failures.attempt Failures.call addModeAutorelease
  cases fail (calls.addMode x.2) with
  | some => exact .drop_bind (.throw _)
  | none =>
    simp only
    split_ifs
    · exact .dropGuard trivial
    · exact .record_bind (.dropGuard trivial)

theorem assignAutorelease_computes (c : VidpnCall) (set : Loan VidpnObject) :
    Computes enumStop (fun _ _ => True)
      (assignAutorelease .dxgkrnl (fail c) set : Guarded Unit) (fail.attempt c) := by
  unfold Failures.attempt Failures.call
  cases fail c with
  | some => exact .drop_bind (.throw _)
  | none => exact .record_bind (.dropGuard trivial)

theorem pinnedMode_computes (pinned : Option α) :
    Computes enumStop (fun g _ => g = none ↔ pinned = none) (pinnedMode fail calls pinned)
      (fail.attempt calls.acquirePinned) := by
  have hbind : Computes enumStop (fun g _ => g = none ↔ pinned = none)
      (pinnedMode fail calls pinned) (fail.attempt calls.acquirePinned >>= fun _ => .ok ()) := by
    refine .bind (guarded_computes fail _) fun _ _ _ => ?_
    cases pinned with
    | none => exact .pure (iff_of_true rfl rfl)
    | some => exact .acquire_bind fun mode => .pure (by simp)
  cases hattempt : fail.attempt calls.acquirePinned <;> rwa [hattempt] at hbind

/-- What `replaceModes` computes. -/
def newModes {α : Type} [DecidableEq α] (pinned : Option α) (fill : ℕ → MonitorMode → α)
    (modes : List MonitorMode) :
    Except EnumStop (Option (List α)) := do
  fail.attempt calls.acquireSet
  fail.attempt calls.acquirePinned
  if pinned = none then do
    fail.attempt calls.createSet
    let added ← addModes fail calls.createMode calls.addMode fill modes
    fail.attempt calls.assignSet
    return some added
  else return none

theorem replaceModes_computes [DecidableEq α] (pinned : Option α) (fill : ℕ → MonitorMode → α)
    (modes : List MonitorMode) :
    Computes enumStop Eq (replaceModes fail calls pinned fill modes)
      (newModes fail calls pinned fill modes) := by
  have hadd : ∀ set set' x, set = set' → Computes enumStop Eq (addMode fail calls fill set x)
      (VirtioGpu.addMode fail calls.createMode calls.addMode fill set' x) := by
    rintro set _ x rfl
    exact addMode_computes fail calls fill set x
  refine .bind (guarded_computes fail _) fun _ _ _ => .acquire_bind fun set => ?_
  refine .bind (.onError (pinnedMode_computes fail calls pinned)) fun guard _ hguard => ?_
  cases guard with
  | none =>
    rw [if_pos (hguard.1 rfl)]
    refine .drop_bind (.drop_bind (.bind (guarded_computes fail _) fun _ _ _ => ?_))
    refine .acquire_bind fun set => ?_
    refine .bind (.onError (.foldlM hadd rfl _)) fun added _ hadded => ?_
    exact .bind (assignAutorelease_computes fail _ _) fun _ _ _ => .pure (by rw [hadded])
  | some mode =>
    rw [if_neg fun hnone => Option.some_ne_none mode (hguard.2 hnone)]
    exact .drop_bind (.drop_bind (.pure rfl))

/-- The set is assigned before anything else is done with the modes. -/
theorem newModes_bind {α β : Type} [DecidableEq α] (pinned : Option α) (fill : ℕ → MonitorMode → α)
    (modes : List MonitorMode) (f : Option (List α) → Except EnumStop β) :
    (newModes fail calls pinned fill modes >>= f) = (do
      fail.attempt calls.acquireSet
      fail.attempt calls.acquirePinned
      if pinned = none then do
        fail.attempt calls.createSet
        let added ← addModes fail calls.createMode calls.addMode fill modes
        fail.attempt calls.assignSet
        f (some added)
      else f none) := by
  unfold newModes
  split_ifs <;> simp

theorem enumSourceModes_computes (k : ℕ) (path : PresentPath) (output : VidPnOutput) (v : Vidpn) :
    Computes enumStop Eq (enumSourceModes fail pivot k path output v)
      (VirtioGpu.enumSourceModes fail pivot k path output v) := by
  unfold enumSourceModes VirtioGpu.enumSourceModes
  by_cases hpivot : pivot.type = .vidpnSource ∧ pivot.source = path.source
  · rw [if_pos hpivot, if_pos hpivot]
    exact .pure rfl
  rw [if_neg hpivot, if_neg hpivot]
  refine (newModes_bind fail (sourceCalls k) _ _ _ fun modes => match modes with
    | none => .ok v
    | some modes => .ok { v with
        sourceModes := Function.update v.sourceModes path.source ⟨modes, none⟩ }) ▸ ?_
  refine .bind (replaceModes_computes fail (sourceCalls k) _ _ _) fun modes _ hmodes => ?_
  subst hmodes
  cases modes <;> exact .pure rfl

theorem enumTargetModes_computes (k : ℕ) (path : PresentPath) (output : VidPnOutput) (v : Vidpn) :
    Computes enumStop Eq (enumTargetModes fail pivot k path output v)
      (VirtioGpu.enumTargetModes fail pivot k path output v) := by
  unfold enumTargetModes VirtioGpu.enumTargetModes
  by_cases hpivot : pivot.type = .vidpnTarget ∧ pivot.target = path.target
  · rw [if_pos hpivot, if_pos hpivot]
    exact .pure rfl
  rw [if_neg hpivot, if_neg hpivot]
  refine (newModes_bind fail (targetCalls k) _ _ _ fun modes => match modes with
    | none => .ok v
    | some modes => .ok { v with
        targetModes := Function.update v.targetModes path.target ⟨modes, none⟩ }) ▸ ?_
  refine .bind (replaceModes_computes fail (targetCalls k) _ _ _) fun modes _ hmodes => ?_
  subst hmodes
  cases modes <;> exact .pure rfl

theorem enumSupport_computes (k : ℕ) (path : PresentPath) (v : Vidpn) :
    Computes enumStop Eq (enumSupport fail pivot k path v)
      (VirtioGpu.enumSupport fail pivot k path v) := by
  unfold enumSupport VirtioGpu.enumSupport
  split_ifs
  · exact .bind (guarded_computes fail _) fun _ _ _ => .pure rfl
  · exact .pure rfl

/-- A round of `Modality` after the call of the iterator. -/
def enumBody (v : Vidpn) (x : PresentPath × ℕ) : Except EnumStop Vidpn :=
  if maxScanouts ≤ x.1.target then .error (.indexOutOfRange x.1.target)
  else match outputs x.1.target with
    | none => .error (.status .graphicsInvalidVideoPresentTarget)
    | some output => do
      let v ← VirtioGpu.enumSourceModes fail pivot x.2 x.1 output v
      let v ← VirtioGpu.enumTargetModes fail pivot x.2 x.1 output v
      VirtioGpu.enumSupport fail pivot x.2 x.1 v

theorem enumPath_eq (v : Vidpn) (x : PresentPath × ℕ) :
    VirtioGpu.enumPath fail pivot outputs v x = (do
      fail.attempt (.acquireNextPathInfo x.2)
      enumBody fail pivot outputs v x) := rfl

theorem enumPath_computes (v : Vidpn) (x : PresentPath × ℕ) :
    Computes enumStop Eq (enumPath fail pivot outputs v x) (enumBody fail pivot outputs v x) := by
  unfold enumPath enumBody
  by_cases hrange : maxScanouts ≤ x.1.target
  · rw [if_pos hrange, if_pos hrange]
    exact .panic _
  rw [if_neg hrange, if_neg hrange]
  cases outputs x.1.target with
  | none => exact .throw _
  | some output =>
    refine .bind (enumSourceModes_computes fail pivot x.2 x.1 output v) ?_
    rintro v₁ _ rfl
    refine .bind (enumTargetModes_computes fail pivot x.2 x.1 output v₁) ?_
    rintro v₂ _ rfl
    exact enumSupport_computes fail pivot x.2 x.1 v₂

theorem tryNext_computes (k : ℕ) (current : Loan VidpnObject) (rest : List (PresentPath × ℕ)) :
    Computes enumStop (fun next _ => next = none ↔ rest = []) (tryNext fail k current rest)
      (fail.attempt (.acquireNextPathInfo k)) := by
  unfold tryNext Failures.attempt Failures.call
  cases fail (.acquireNextPathInfo k) with
  | some => exact .record_bind (.throw _)
  | none =>
    cases rest with
    | nil => exact .pure (iff_of_true rfl rfl)
    | cons x rest =>
      refine .acquire_bind fun next => .pure (iff_of_false ?_ ?_)
      · exact Option.some_ne_none next
      · exact List.cons_ne_nil x rest

theorem round_computes (next : Option (Loan VidpnObject)) (path : Loan VidpnObject)
    (outputs : ℕ → Option VidPnOutput) (v : Vidpn) (x : PresentPath × ℕ) :
    Computes enumStop Eq (onError next (holding (some path) (enumPath fail pivot outputs v x)))
      (enumBody fail pivot outputs v x) :=
  .onError (.holding (enumPath_computes fail pivot outputs v x))

/-- The iterator goes through the paths as the loop of `Modality` does. -/
theorem enumPaths_computes {outputs : ℕ → Option VidPnOutput} {l : List (PresentPath × ℕ)}
    {current : Option (Loan VidpnObject)} (hcurrent : current = none → l = []) (v : Vidpn) :
    Computes enumStop Eq (enumPaths fail pivot outputs current l v)
      (l.foldlM (VirtioGpu.enumPath fail pivot outputs) v) := by
  induction l generalizing current v with
  | nil => exact .pure rfl
  | cons x rest ih =>
    cases current with
    | none => cases hcurrent rfl
    | some path =>
      rw [List.foldlM_cons, enumPath_eq, bind_assoc]
      refine .bind (tryNext_computes fail x.2 path rest) fun next _ hrest => .record_bind ?_
      refine .bind (round_computes fail pivot next path outputs v x) ?_
      rintro v₁ _ rfl
      exact ih hrest.1 v₁

/-- **`enum_cofunc_modality` with its guards** returns what it returns without. -/
theorem enumCofuncModality_computes (d : DisplayState) (v : Vidpn) :
    Computes enumStop Eq (enumCofuncModality fail pivot d v)
      (d.enumCofuncModality fail pivot v) := by
  refine .bind (guarded_computes fail _) fun _ _ _ => .bind (guarded_computes fail _) fun _ _ _ =>
    .bind (guarded_computes fail _) fun _ _ _ => ?_
  split_ifs with hpaths
  · exact .throw _
  · refine .acquire_bind fun first => enumPaths_computes fail pivot (fun h => ?_) v
    exact absurd h (Option.some_ne_none first)

end Enum

section Commit

variable (fail : Failures) (args : CommitArgs) (v : Vidpn)

/-- How a program that does not panic stops: whatever a panic is taken for. -/
def commitStop (panicked : VidpnStatus) : ℕ ⊕ VidpnStatus → VidpnStatus
  | .inl _ => panicked
  | .inr e => e

variable (panicked : VidpnStatus)

theorem call_computes (c : VidpnCall) :
    Computes (commitStop panicked) (fun _ _ => True) (fail.guarded c) (fail.call c) := by
  unfold Failures.guarded Failures.call
  cases fail c with
  | none => exact .pure trivial
  | some => exact .throw _

theorem guardedCheck_computes (x : Except VidpnStatus Unit) :
    Computes (commitStop panicked) (fun _ _ => True) (guardedCheck x) x := by
  cases x with
  | error e => exact .throw e
  | ok => exact .pure trivial

theorem commitTarget_computes (numScanouts : ℕ) (mode : MonitorMode)
    (outputs : ℕ → Option VidPnOutput) (x : ℕ × ℕ) :
    Computes (commitStop panicked) Eq (commitTarget fail args v numScanouts mode outputs x)
      (VirtioGpu.commitTarget fail args v numScanouts mode outputs x) := by
  refine .bind (call_computes fail panicked _) fun _ _ _ =>
    .bind (call_computes fail panicked _) fun _ _ _ => ?_
  cases v.path args.source x.1 with
  | none => exact .throw _
  | some =>
    refine .acquire_bind fun info => .holding ?_
    refine .bind (guardedCheck_computes panicked _) fun _ _ _ => ?_
    cases outputs x.1 with
    | none => exact .throw _
    | some output =>
      simp only
      cases output.position mode with
      | none => exact .throw _
      | some => exact .pure rfl

theorem commitVidpn_fst (d : DisplayState) :
    (d.commitVidpn fail args v).1 = (do
      let mode ← commitMode fail args v d.numScanouts
      match mode with
      | none => return ()
      | some mode => do
        let _ ← (v.targets args.source).zipIdx.foldlM
          (VirtioGpu.commitTarget fail args v d.numScanouts mode) d.outputs
        return ()) := by
  unfold DisplayState.commitVidpn
  cases commitMode fail args v d.numScanouts with
  | error => rfl
  | ok mode =>
    cases mode with
    | none => rfl
    | some mode =>
      refine Eq.trans ?_
        (applyUntil_fst (f := VirtioGpu.commitTarget fail args v d.numScanouts mode))
      simp only
      split <;> simp_all

theorem commitVidpn_stops (d : DisplayState) :
    Computes (commitStop panicked) Eq (commitVidpn fail args v d)
      (d.commitVidpn fail args v).1 := by
  rw [commitVidpn_fst]
  unfold commitVidpn commitMode
  by_cases hsource : d.numScanouts ≤ args.source
  · rw [if_pos hsource, if_pos hsource]
    exact .throw _
  rw [if_neg hsource, if_neg hsource]
  by_cases hoff : args.pathPoweredOff = true
  · rw [if_pos hoff, if_pos hoff]
    exact .pure rfl
  rw [if_neg hoff, if_neg hoff]
  simp only [bind_assoc]
  refine .bind (call_computes fail panicked _) fun _ _ _ =>
    .bind (call_computes fail panicked _) fun _ _ _ =>
    .bind (call_computes fail panicked _) fun _ _ _ => ?_
  by_cases hpaths : v.paths = []
  · rw [if_pos hpaths, if_pos hpaths]
    exact .pure rfl
  rw [if_neg hpaths, if_neg hpaths]
  simp only [bind_assoc]
  refine .bind (call_computes fail panicked _) fun _ _ _ => .acquire_bind fun set => .holding ?_
  refine .bind (call_computes fail panicked _) fun _ _ _ => ?_
  cases (v.sourceModes args.source).pinned with
  | none => exact .throw _
  | some =>
    simp only [bind_assoc, pure_bind]
    refine .acquire_bind fun mode => .holding ?_
    refine .bind (guardedCheck_computes panicked _) fun _ _ _ =>
      .bind (call_computes fail panicked _) fun _ _ _ => ?_
    refine .bind (.foldlM ?_ rfl _) fun _ _ _ => .pure rfl
    rintro outputs _ x rfl
    exact commitTarget_computes fail args v panicked _ _ outputs x

omit panicked in
/-- **`commit_vidpn` with its guards** returns what it returns without, and does not panic. -/
theorem commitVidpn_computes (d : DisplayState) :
    (∀ panicked, Computes (commitStop panicked) Eq (commitVidpn fail args v d)
      (d.commitVidpn fail args v).1) ∧
    ∀ log p, (commitVidpn fail args v d).exec log ≠ .error p := by
  refine ⟨fun panicked => commitVidpn_stops fail args v panicked d, fun log p hpanic => ?_⟩
  -- a panic could be taken for two different errors
  have hfirst := commitVidpn_stops fail args v .invalidParameter d log
  have hsecond := commitVidpn_stops fail args v .graphicsDatasetIsEmpty d log
  rw [hpanic] at hfirst hsecond
  cases hfirst.symm.trans hsecond

end Commit

/-! ### The paths in order -/

section Visits

variable {fail : Failures} {pivot : EnumPivot} {outputs : ℕ → Option VidPnOutput}
  {r : Except VidpnStatus Vidpn} {v : Vidpn}

/-- The paths that are visited by a loop that ends with `r`: all of them, or those up to the first
round that fails; whose path is visited unless it is the iterator that fails. -/
inductive Visited (round : Vidpn → PresentPath × ℕ → Except EnumStop Vidpn) (v : Vidpn)
    (paths : List (PresentPath × ℕ)) :
    Except VidpnStatus Vidpn → List (PresentPath × ℕ) → Prop
  | all {v' : Vidpn} (h : Handled round paths v v') : Visited round v paths (.ok v') paths
  | failed {v' : Vidpn} {done rest visited : List (PresentPath × ℕ)} {x : PresentPath × ℕ}
      {e : VidpnStatus} (hpaths : paths = done ++ x :: rest) (hdone : Handled round done v v')
      (hx : round v' x = .error (.status e)) (hvisited : visited = done ∨ visited = done ++ [x]) :
      Visited round v paths (.error e) visited

theorem Visited.cons {round : Vidpn → PresentPath × ℕ → Except EnumStop Vidpn} {v v₁ : Vidpn}
    {x : PresentPath × ℕ} {paths visited : List (PresentPath × ℕ)} (hx : round v x = .ok v₁)
    (h : Visited round v₁ paths r visited) :
    Visited round v (x :: paths) r (x :: visited) := by
  cases h with
  | all h => exact .all (.cons hx h)
  | @failed v' done rest _ y e hpaths hdone hy hvisited =>
    have hpaths' : x :: paths = (x :: done) ++ y :: rest := by rw [hpaths, List.cons_append]
    exact .failed hpaths' (.cons hx hdone) hy (hvisited.imp (congrArg _) (congrArg _))

/-- The first round fails. -/
theorem Visited.head {round : Vidpn → PresentPath × ℕ → Except EnumStop Vidpn} {x : PresentPath × ℕ}
    {rest visited : List (PresentPath × ℕ)} {e : VidpnStatus} (hx : round v x = .error (.status e))
    (hvisited : visited = [] ∨ visited = [x]) :
    Visited round v (x :: rest) (.error e) visited :=
  .failed (List.nil_append (x :: rest)).symm (.nil v) hx hvisited

/-- **The loop visits the paths in order and gives them back**, up to the first failure. -/
theorem enumPaths_visits {l : List (PresentPath × ℕ)} {current : Option (Loan VidpnObject)}
    (hcurrent : current = none ↔ l = []) {log log' : List (LoanEvent VidpnObject (PresentPath × ℕ))}
    (howing : Owing current.toList log)
    (hrun : (enumPaths fail pivot outputs current l v).exec log = .ok (r, log')) :
    Owing [] log' ∧ ∃ visited, notes log' = notes log ++ visited ∧
      Visited (VirtioGpu.enumPath fail pivot outputs) v l r visited := by
  induction l generalizing current v log with
  | nil =>
    obtain rfl := hcurrent.2 rfl
    cases hrun
    exact ⟨howing, [], (List.append_nil _).symm, .all (.nil v)⟩
  | cons x rest ih =>
    cases current with
    | none => cases hcurrent.1 rfl
    | some path =>
      have htry := tryNext_computes fail x.2 path rest
      obtain ⟨e, hnext, rfl⟩ | ⟨next, log₁, hnext, hrun⟩ := exec_bind_eq_ok.1 hrun
      · -- The iterator fails, and has released the path.
        obtain ⟨hleft, hnotes⟩ := tryNext_balances fail x.2 path rest [] log _ _ howing hnext
        refine ⟨hleft, [], by rw [hnotes, List.append_nil], ?_⟩
        refine .head ?_ (.inl rfl)
        rw [enumPath_eq, htry.of_error hnext]
        rfl
      obtain ⟨hheld, hnotes⟩ := tryNext_balances fail x.2 path rest [] log _ _ howing hnext
      obtain ⟨⟨⟩, hattempt, hrest⟩ := htry.of_ok hnext
      have hround :
          VirtioGpu.enumPath fail pivot outputs v x = enumBody fail pivot outputs v x := by
        rw [enumPath_eq, hattempt]
        rfl
      have hbody := round_computes fail pivot next path outputs v x
      have hbalances := round_balances fail pivot next path outputs v x
      rw [exec_note_bind] at hrun
      have hnoted : notes (log₁ ++ [.noted x]) = notes log ++ [x] := by
        rw [notes_append_noted, hnotes]
      obtain ⟨e, hfail, rfl⟩ | ⟨v₁, log₂, hok, hrun⟩ := exec_bind_eq_ok.1 hrun
      · obtain ⟨hleft, hsame⟩ := hbalances [] _ _ _ (hheld.note x) hfail
        refine ⟨hleft, [x], by rw [hsame, hnoted], ?_⟩
        refine .head ?_ (.inr rfl)
        rw [hround, hbody.of_error hfail]
        rfl
      · obtain ⟨hleft, hsame⟩ := hbalances [] _ _ _ (hheld.note x) hok
        obtain ⟨_, hv₁, rfl⟩ := hbody.of_ok hok
        rw [leaves, List.append_nil] at hleft
        obtain ⟨hend, visited, hvisited, hvisits⟩ := ih hrest hleft hrun
        refine ⟨hend, x :: visited, ?_, hvisits.cons (hround.trans hv₁)⟩
        rw [hvisited, hsame, hnoted, List.append_assoc]
        rfl

theorem exec_guarded_bind {α : Type} {c : VidpnCall} {f : Unit → Guarded α}
    {log log' : List (LoanEvent VidpnObject (PresentPath × ℕ))} {r : Except VidpnStatus α}
    (h : (fail.guarded c >>= f).exec log = .ok (r, log')) :
    ((∃ e, r = .error e) ∧ log' = log) ∨ (f ()).exec log = .ok (r, log') := by
  unfold Failures.guarded at h
  cases hc : fail c with
  | some =>
    rw [hc] at h
    cases h
    exact .inl ⟨⟨_, rfl⟩, rfl⟩
  | none =>
    rw [hc] at h
    exact .inr h

theorem enumCofuncModality_visits {d : DisplayState}
    {log : List (LoanEvent VidpnObject (PresentPath × ℕ))}
    (hrun : (enumCofuncModality fail pivot d v).exec [] = .ok (r, log)) :
    Settled log ∧ ((∃ e, r = .error e) ∧ notes log = [] ∨
      Visited (VirtioGpu.enumPath fail pivot d.outputs) v v.paths.zipIdx r (notes log)) := by
  have hnothing : Settled ([] : List (LoanEvent VidpnObject (PresentPath × ℕ))) :=
    Owing.nil.settled
  obtain ⟨hr, rfl⟩ | hrun := exec_guarded_bind hrun
  · exact ⟨hnothing, .inl ⟨hr, rfl⟩⟩
  obtain ⟨hr, rfl⟩ | hrun := exec_guarded_bind hrun
  · exact ⟨hnothing, .inl ⟨hr, rfl⟩⟩
  obtain ⟨hr, rfl⟩ | hrun := exec_guarded_bind hrun
  · exact ⟨hnothing, .inl ⟨hr, rfl⟩⟩
  by_cases hpaths : v.paths = []
  · rw [if_pos hpaths] at hrun
    cases hrun
    exact ⟨hnothing, .inl ⟨⟨_, rfl⟩, rfl⟩⟩
  rw [if_neg hpaths, exec_bind, exec_acquire] at hrun
  have hcurrent : some (⟨0, .pathInfo⟩ : Loan VidpnObject) = none ↔ v.paths.zipIdx = [] :=
    iff_of_false (Option.some_ne_none _) (by simpa using hpaths)
  have howing : Owing [⟨0, .pathInfo⟩]
      ([.obtained ⟨0, .pathInfo⟩] : List (LoanEvent VidpnObject (PresentPath × ℕ))) :=
    Owing.nil.acquire VidpnObject.pathInfo
  obtain ⟨hend, visited, hvisited, hvisits⟩ := enumPaths_visits hcurrent howing hrun
  refine ⟨hend.settled, .inr ?_⟩
  rw [hvisited]
  exact hvisits

end Visits

end Guarded

/-- **Every object of `dxgkrnl` is given back exactly once**, whatever call fails: in
`enum_cofunc_modality`, in `commit_vidpn` and in `recommend_monitor_modes`.  And
`enum_cofunc_modality` visits the paths of the topology in order, each once, up to the first round
that fails, unless it fails before. -/
theorem guards_settled (fail : Failures) (pivot : EnumPivot) (args : CommitArgs)
    (answers : MonitorAnswers) (d : DisplayState) (v : Vidpn) (scanout : ℕ) :
    (∀ r log, (Guarded.enumCofuncModality fail pivot d v).exec [] = .ok (r, log) →
      Settled log ∧ ((∃ e, r = .error e) ∧ notes log = [] ∨
        Guarded.Visited (enumPath fail pivot d.outputs) v v.paths.zipIdx r (notes log))) ∧
    (∀ r log, (Guarded.commitVidpn fail args v d).exec [] = .ok (r, log) → Settled log) ∧
    ∀ r log, (recommendMonitorModes answers d scanout).exec [] = .ok (r, log) → Settled log := by
  refine ⟨fun r log hrun => ?_, fun r log hrun => ?_, fun r log hrun => ?_⟩
  · exact Guarded.enumCofuncModality_visits hrun
  · exact (Guarded.commitVidpn_settles fail args v d).settled hrun
  · exact (recommendMonitorModes_settles answers d scanout).settled hrun

/-- No mode can be added for the target of the only path. -/
def noTargetMode : Failures := fun c => if c = .addTargetMode 0 0 then some .noMemory else none

/-- The mode, the new set and the path are released. -/
theorem guards_settled_onePath : ∃ r log,
    (Guarded.enumCofuncModality noTargetMode ⟨.noPivot, 0, 0⟩ twoOutputs
      (.plain 0 [1] ⟨800, 600⟩)).exec [] = .ok (r, log) ∧
      log = [.obtained ⟨0, .pathInfo⟩, .noted (.plain 0 1, 0),
        .obtained ⟨2, .sourceModeSet⟩, .obtained ⟨3, .sourceMode⟩,
        .released ⟨3, .sourceMode⟩, .released ⟨2, .sourceModeSet⟩,
        .obtained ⟨6, .targetModeSet⟩, .released ⟨6, .targetModeSet⟩,
        .obtained ⟨8, .targetModeSet⟩, .obtained ⟨9, .targetMode⟩,
        .released ⟨9, .targetMode⟩, .released ⟨8, .targetModeSet⟩, .released ⟨0, .pathInfo⟩] ∧
      Settled log := by
  refine ⟨.error (.dxgkrnl .noMemory), _, rfl, rfl, ?_⟩
  exact ((guards_settled noTargetMode ⟨.noPivot, 0, 0⟩ ⟨0, false⟩ ⟨fun _ => none, fun _ => .added⟩
    twoOutputs (.plain 0 [1] ⟨800, 600⟩) 0).1 (.error (.dxgkrnl .noMemory)) _ rfl).1

end VirtioGpu
