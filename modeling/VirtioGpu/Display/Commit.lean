import VirtioGpu.Data.Until
import VirtioGpu.Display.Vidpn
import VirtioGpu.Machine.Basic

/-!
# Committing a VidPN

`Adapter::commit_vidpn` makes a VidPN the current one for one of its sources.  It goes through the
targets that are connected to the source, sets the current mode of each output to the mode that is
pinned on the source, and finally replaces the list of targets in `source_target_map`.  Pointer and
flip operations on the source later go through that list, without looking at a VidPN again.

Two things go wrong.  A failure at a later target leaves the modes of the outputs before it changed.
And a VidPN without paths is accepted before the list is looked at, so that the targets of the VidPN
before it stay there.

* `commit_error_iff` : a commit that fails changes nothing exactly if the outputs before the first
  target that it does not get past had the mode already.
* `commit_error_changes` : a source with two targets, of which the second does not have the mode.
* `targets_committed_iff` : the list always has the targets of the last VidPN, and no operation
  drives another target, exactly if every VidPN without paths is committed for a source that has no
  targets any more.
* `targets_stale` : a pointer that is moved on an output that is no longer connected.
-/

namespace VirtioGpu

/-- The length of `outputs` and of `source_target_map`. -/
def maxScanouts : ℕ := 16

/-- The fields of `AdapterState` that belong to the displays.  There are `maxScanouts` outputs and
lists of targets. -/
structure DisplayState where
  numScanouts : ℕ
  numScanouts_le : numScanouts ≤ maxScanouts
  outputs : ℕ → Option VidPnOutput
  sourceTargetMap : ℕ → List ℕ

/-- `DXGKARG_COMMITVIDPN` -/
structure CommitArgs where
  /-- `AffectedVidPnSourceId` -/
  source : ℕ
  pathPoweredOff : Bool

/-! ### The function -/

section Commit

variable (fail : Failures) (args : CommitArgs) (v : Vidpn)

/-- `commit_vidpn` up to the loop: the mode that is pinned on the source, if there is anything to
do. -/
def commitMode (numScanouts : ℕ) : Except VidpnStatus (Option MonitorMode) :=
  if numScanouts ≤ args.source then .error .invalidParameter
  else if args.pathPoweredOff then .ok none
  else do
    fail.call .queryVidpnInterface
    fail.call .getTopology
    fail.call .getNumPaths
    if v.paths = [] then return none
    else do
      fail.call (.acquireSourceModeSet 0)
      fail.call (.acquirePinnedSourceMode 0)
      match (v.sourceModes args.source).pinned with
      | none => .error .invalidParameter
      | some pinned => do
        checkVidpnSourceMode pinned
        fail.call .getNumPathsFromSource
        return some pinned.size

/-- One round of the loop, for a target and its number.  The check of the path keeps the index into
the outputs in its range. -/
def commitTarget (numScanouts : ℕ) (mode : MonitorMode) (outputs : ℕ → Option VidPnOutput)
    (x : ℕ × ℕ) : Except VidpnStatus (ℕ → Option VidPnOutput) := do
  fail.call (.enumPathTargetsFromSource x.2)
  fail.call (.acquirePathInfo x.2)
  match v.path args.source x.1 with
  | none => .error .graphicsInvalidVidpnTopology
  | some path => do
    checkVidpnPresentPath numScanouts path
    match outputs x.1 with
    | none => .error .graphicsInvalidVideoPresentTarget
    | some output => match output.position mode with
      | none => .error .graphicsInvalidVideoPresentSourceMode
      | some i => return Function.update outputs x.1 (some { output with currentMode := some i })

/-- `Adapter::commit_vidpn`: what it returns, and the state it leaves. -/
def DisplayState.commitVidpn (d : DisplayState) : Except VidpnStatus Unit × DisplayState :=
  match commitMode fail args v d.numScanouts with
  | .error e => (.error e, d)
  | .ok none => (.ok (), d)
  | .ok (some mode) =>
    let targets := v.targets args.source
    let r := applyUntil (commitTarget fail args v d.numScanouts mode) d.outputs targets.zipIdx
    match r.1 with
    | .error e => (.error e, { d with outputs := r.2 })
    | .ok () => (.ok (), { d with
        outputs := r.2
        sourceTargetMap := Function.update d.sourceTargetMap args.source targets })

end Commit

/-! ### What a round does -/

/-- The current mode of some outputs is set. -/
def setMode (mode : MonitorMode) (targets : List ℕ) (outputs : ℕ → Option VidPnOutput) :
    ℕ → Option VidPnOutput := fun t =>
  if t ∈ targets then (outputs t).map fun o => { o with currentMode := o.position mode }
  else outputs t

def HasMode (mode : MonitorMode) (outputs : ℕ → Option VidPnOutput) (t : ℕ) : Prop :=
  ∃ o, outputs t = some o ∧ mode ∈ o.modes

section Round

variable {fail : Failures} {args : CommitArgs} {v : Vidpn} {numScanouts : ℕ} {mode : MonitorMode}
  {outputs outputs' : ℕ → Option VidPnOutput}

theorem commitTarget_eq_ok_iff {x : ℕ × ℕ} :
    commitTarget fail args v numScanouts mode outputs x = .ok outputs' ↔
      fail (.enumPathTargetsFromSource x.2) = none ∧ fail (.acquirePathInfo x.2) = none ∧
      (∃ path, v.path args.source x.1 = some path ∧
        checkVidpnPresentPath numScanouts path = .ok ()) ∧
      ∃ o i, outputs x.1 = some o ∧ o.position mode = some i ∧
        outputs' = Function.update outputs x.1 (some { o with currentMode := some i }) := by
  unfold commitTarget
  constructor
  · intro h
    obtain ⟨⟨⟩, henum, h⟩ := bind_eq_ok.1 h
    obtain ⟨⟨⟩, hinfo, h⟩ := bind_eq_ok.1 h
    refine ⟨Failures.call_eq_ok_iff.1 henum, Failures.call_eq_ok_iff.1 hinfo, ?_⟩
    cases hpath : v.path args.source x.1 with
    | none => simp [hpath] at h
    | some path =>
      simp only [hpath] at h
      obtain ⟨⟨⟩, hcheck, h⟩ := bind_eq_ok.1 h
      refine ⟨⟨path, rfl, hcheck⟩, ?_⟩
      cases ho : outputs x.1 with
      | none => simp [ho] at h
      | some o =>
        cases hi : o.position mode with
        | none => simp [ho, hi] at h
        | some i =>
          simp only [ho, hi] at h
          exact ⟨o, i, rfl, hi, (Except.ok.inj h).symm⟩
  · rintro ⟨henum, hinfo, ⟨path, hpath, hcheck⟩, o, i, ho, hi, rfl⟩
    rw [Failures.call_eq_ok_iff.2 henum, Failures.call_eq_ok_iff.2 hinfo]
    simp only [hpath, ho, hi]
    rw [hcheck]
    rfl

theorem Handled.commitTarget {done : List (ℕ × ℕ)}
    (h : Handled (commitTarget fail args v numScanouts mode) done outputs outputs') :
    outputs' = setMode mode (done.map Prod.fst) outputs := by
  induction h with
  | nil =>
    funext t
    simp [setMode]
  | @cons x done outputs outputs₁ outputs' head tail ih =>
    obtain ⟨-, -, -, o, i, ho, hi, rfl⟩ := commitTarget_eq_ok_iff.1 head
    rw [ih]
    funext t
    by_cases ht : t = x.1
    · -- The mode that a later round sets again is the same.
      subst ht
      have hposition : (⟨o.modes, some i⟩ : VidPnOutput).position mode = some i := hi
      simp [setMode, ho, hi, hposition]
    · have hmem : t ∈ (x :: done).map Prod.fst ↔ t ∈ done.map Prod.fst := by
        rw [List.map_cons, List.mem_cons]
        exact or_iff_right ht
      unfold setMode
      rw [Function.update_of_ne ht]
      exact if_congr hmem.symm rfl rfl

theorem hasMode_update {x t : ℕ} {o : VidPnOutput} {i : Option ℕ} (ho : outputs x = some o) :
    HasMode mode (Function.update outputs x (some { o with currentMode := i })) t ↔
      HasMode mode outputs t := by
  by_cases ht : t = x
  · subst ht
    simp [HasMode, ho]
  · unfold HasMode
    rw [Function.update_of_ne ht]

theorem Handled.hasMode {done : List (ℕ × ℕ)}
    (h : Handled (VirtioGpu.commitTarget fail args v numScanouts mode) done outputs outputs') :
    ∀ t ∈ done.map Prod.fst, HasMode mode outputs t := by
  induction h with
  | nil => simp
  | @cons x done outputs outputs₁ outputs' head tail ih =>
    obtain ⟨-, -, -, o, i, ho, hi, rfl⟩ := commitTarget_eq_ok_iff.1 head
    rw [List.map_cons, List.forall_mem_cons]
    have hmem : mode ∈ o.modes := VidPnOutput.mem_modes_iff.2 ⟨i, hi⟩
    exact ⟨⟨o, ho, hmem⟩, fun t ht => (hasMode_update ho).1 (ih t ht)⟩

end Round

/-! ### What a call does -/

section Call

variable {fail : Failures} {args : CommitArgs} {v : Vidpn} {d : DisplayState} {mode : MonitorMode}
  {numScanouts : ℕ}

theorem nothing_of_commitMode (h : commitMode fail args v numScanouts = .ok none) :
    args.pathPoweredOff = true ∨ v.paths = [] := by
  unfold commitMode at h
  by_contra hnot
  rw [not_or] at hnot
  by_cases hsource : numScanouts ≤ args.source
  · rw [if_pos hsource] at h
    cases h
  rw [if_neg hsource, if_neg hnot.1] at h
  obtain ⟨⟨⟩, -, h⟩ := bind_eq_ok.1 h
  obtain ⟨⟨⟩, -, h⟩ := bind_eq_ok.1 h
  obtain ⟨⟨⟩, -, h⟩ := bind_eq_ok.1 h
  rw [if_neg hnot.2] at h
  obtain ⟨⟨⟩, -, h⟩ := bind_eq_ok.1 h
  obtain ⟨⟨⟩, -, h⟩ := bind_eq_ok.1 h
  cases hpinned : (v.sourceModes args.source).pinned with
  | none => simp [hpinned] at h
  | some =>
    simp only [hpinned] at h
    obtain ⟨⟨⟩, -, h⟩ := bind_eq_ok.1 h
    obtain ⟨⟨⟩, -, h⟩ := bind_eq_ok.1 h
    cases h

/-- The calls of `commit_vidpn` before the loop. -/
def commitCalls : List VidpnCall :=
  [.queryVidpnInterface, .getTopology, .getNumPaths, .acquireSourceModeSet 0,
    .acquirePinnedSourceMode 0, .getNumPathsFromSource]

/-- A commit that gets to the loop over the targets, with the mode that is pinned on the source. -/
structure ReachesTargets (fail : Failures) (args : CommitArgs) (v : Vidpn) (numScanouts : ℕ)
    (mode : MonitorMode) : Prop where
  source : args.source < numScanouts
  poweredOn : args.pathPoweredOff = false
  paths : v.paths ≠ []
  calls : ∀ c ∈ commitCalls, fail c = none
  pinned : ∃ m ∈ (v.sourceModes args.source).pinned, checkVidpnSourceMode m = .ok () ∧ m.size = mode

theorem commitMode_eq_some_iff :
    commitMode fail args v numScanouts = .ok (some mode) ↔
      ReachesTargets fail args v numScanouts mode := by
  unfold commitMode
  constructor
  · intro h
    split_ifs at h with hsource hoff hpaths
    · cases h
    · obtain ⟨⟨⟩, -, h⟩ := bind_eq_ok.1 h
      obtain ⟨⟨⟩, -, h⟩ := bind_eq_ok.1 h
      obtain ⟨⟨⟩, -, h⟩ := bind_eq_ok.1 h
      cases h
    obtain ⟨⟨⟩, h₁, h⟩ := bind_eq_ok.1 h
    obtain ⟨⟨⟩, h₂, h⟩ := bind_eq_ok.1 h
    obtain ⟨⟨⟩, h₃, h⟩ := bind_eq_ok.1 h
    obtain ⟨⟨⟩, h₄, h⟩ := bind_eq_ok.1 h
    obtain ⟨⟨⟩, h₅, h⟩ := bind_eq_ok.1 h
    cases hpinned : (v.sourceModes args.source).pinned with
    | none => simp [hpinned] at h
    | some m =>
      simp only [hpinned] at h
      obtain ⟨⟨⟩, hm, h⟩ := bind_eq_ok.1 h
      obtain ⟨⟨⟩, h₆, h⟩ := bind_eq_ok.1 h
      rw [Failures.call_eq_ok_iff] at h₁ h₂ h₃ h₄ h₅ h₆
      exact ⟨not_le.1 hsource, by simpa using hoff, hpaths,
        by simp [commitCalls, h₁, h₂, h₃, h₄, h₅, h₆],
        m, hpinned, hm, Option.some.inj (Except.ok.inj h)⟩
  · rintro ⟨hsource, hon, hpaths, hcalls, m, hpinned, hm, rfl⟩
    simp only [commitCalls, List.forall_mem_cons, ← Failures.call_eq_ok_iff] at hcalls
    obtain ⟨h₁, h₂, h₃, h₄, h₅, h₆, -⟩ := hcalls
    rw [if_neg (not_le.2 hsource), hon, if_neg Bool.false_ne_true, if_neg hpaths, h₁, h₂, h₃, h₄,
      h₅, h₆, Option.mem_def.1 hpinned]
    simp only [hm]
    rfl

/-- The loop gets past a target, given with its number: the calls succeed, the path is accepted, and
the output has the mode. -/
def TargetAccepted (fail : Failures) (args : CommitArgs) (v : Vidpn) (d : DisplayState)
    (mode : MonitorMode) (x : ℕ × ℕ) : Prop :=
  fail (.enumPathTargetsFromSource x.2) = none ∧ fail (.acquirePathInfo x.2) = none ∧
    (∃ path ∈ v.path args.source x.1, checkVidpnPresentPath d.numScanouts path = .ok ()) ∧
    ∃ o ∈ d.outputs x.1, mode ∈ o.modes

instance (fail : Failures) (args : CommitArgs) (v : Vidpn) (d : DisplayState)
    (mode : MonitorMode) (x : ℕ × ℕ) : Decidable (TargetAccepted fail args v d mode x) := by
  unfold TargetAccepted
  infer_instance

/-- The targets before the first one that the loop does not get past. -/
def handledTargets (fail : Failures) (args : CommitArgs) (v : Vidpn) (d : DisplayState)
    (mode : MonitorMode) : List ℕ :=
  ((v.targets args.source).zipIdx.takeWhile (TargetAccepted fail args v d mode)).map Prod.fst

/-- What a commit returns, and the state it leaves. -/
inductive CommitCase (fail : Failures) (args : CommitArgs) (v : Vidpn) (d : DisplayState) :
    Except VidpnStatus Unit × DisplayState → Prop
  | failed (e : VidpnStatus) (h : ∀ mode, ¬ ReachesTargets fail args v d.numScanouts mode) :
      CommitCase fail args v d (.error e, d)
  | nothing (h : args.pathPoweredOff = true ∨ v.paths = []) : CommitCase fail args v d (.ok (), d)
  | stopped (e : VidpnStatus) (mode : MonitorMode)
      (h : ReachesTargets fail args v d.numScanouts mode) :
      CommitCase fail args v d (.error e, { d with
        outputs := setMode mode (handledTargets fail args v d mode) d.outputs })
  | committed (mode : MonitorMode)
      (h : ReachesTargets fail args v d.numScanouts mode)
      (htargets : ∀ t ∈ v.targets args.source, HasMode mode d.outputs t) :
      CommitCase fail args v d (.ok (), { d with
        outputs := setMode mode (v.targets args.source) d.outputs
        sourceTargetMap :=
          Function.update d.sourceTargetMap args.source (v.targets args.source) })

theorem handled_of_stopped {e : VidpnStatus}
    {outputs : ℕ → Option VidPnOutput}
    (h : applyUntil (commitTarget fail args v d.numScanouts mode) d.outputs
      (v.targets args.source).zipIdx = (.error e, outputs)) :
    outputs = setMode mode (handledTargets fail args v d mode) d.outputs := by
  -- The rounds change no modes, so the first outputs tell which targets can be handled.
  refine (handled_takeWhile (I := fun outputs => ∀ t, HasMode mode outputs t ↔
    HasMode mode d.outputs t) ?_ ?_ (fun _ => Iff.rfl) h).commitTarget
  · intro outputs x outputs' hI hround t
    obtain ⟨-, -, -, o, i, ho, -, rfl⟩ := commitTarget_eq_ok_iff.1 hround
    exact (hasMode_update ho).trans (hI t)
  · intro outputs x hI
    rw [decide_eq_true_iff]
    constructor
    · rintro ⟨henum, hinfo, hpath, o, ho, hmem⟩
      obtain ⟨o', ho', hmem'⟩ := (hI x.1).2 ⟨o, ho, hmem⟩
      obtain ⟨i, hi⟩ := VidPnOutput.mem_modes_iff.1 hmem'
      exact ⟨_, commitTarget_eq_ok_iff.2 ⟨henum, hinfo, hpath, o', i, ho', hi, rfl⟩⟩
    · rintro ⟨outputs', hround⟩
      obtain ⟨henum, hinfo, hpath, o, i, ho, hi, -⟩ := commitTarget_eq_ok_iff.1 hround
      exact ⟨henum, hinfo, hpath, (hI x.1).1 ⟨o, ho, VidPnOutput.mem_modes_iff.2 ⟨i, hi⟩⟩⟩

theorem DisplayState.commitCase (fail : Failures) (args : CommitArgs) (v : Vidpn)
    (d : DisplayState) : CommitCase fail args v d (d.commitVidpn fail args v) := by
  unfold commitVidpn
  cases hmode : commitMode fail args v d.numScanouts with
  | error e =>
    refine .failed e fun mode h => ?_
    rw [commitMode_eq_some_iff.2 h] at hmode
    cases hmode
  | ok mode =>
    cases mode with
    | none => exact .nothing (nothing_of_commitMode hmode)
    | some mode =>
      have hreach := commitMode_eq_some_iff.1 hmode
      cases hloop : applyUntil (commitTarget fail args v d.numScanouts mode) d.outputs
          (v.targets args.source).zipIdx with
      | mk result outputs =>
      cases result with
      | error e =>
        simp only [hloop, handled_of_stopped hloop]
        exact .stopped e mode hreach
      | ok =>
        have hdone := applyUntil_eq_ok_iff.1 hloop
        have htargets := hdone.hasMode
        have hfst := List.zipIdx_map_fst 0 (v.targets args.source)
        rw [hfst] at htargets
        simp only [hloop, hdone.commitTarget, hfst]
        exact .committed mode hreach htargets

theorem ReachesTargets.map_pinned (h : ReachesTargets fail args v numScanouts mode) :
    (v.sourceModes args.source).pinned.map SourceMode.size = some mode := by
  obtain ⟨m, hm, -, hsize⟩ := h.pinned
  rw [Option.mem_def.1 hm, Option.map_some, hsize]

theorem hasMode_setMode {mode mode' : MonitorMode} {targets : List ℕ}
    {outputs : ℕ → Option VidPnOutput} {t : ℕ} :
    HasMode mode' (setMode mode targets outputs) t ↔ HasMode mode' outputs t := by
  unfold HasMode setMode
  split_ifs <;> simp

theorem DisplayState.hasMode_commitVidpn (fail : Failures) (args : CommitArgs) (v : Vidpn)
    (d : DisplayState) :
    (d.commitVidpn fail args v).2.numScanouts = d.numScanouts ∧
      ∀ mode t, HasMode mode (d.commitVidpn fail args v).2.outputs t ↔
        HasMode mode d.outputs t := by
  have hcase := d.commitCase fail args v
  generalize d.commitVidpn fail args v = r at hcase
  cases hcase with
  | failed e _ => exact ⟨rfl, fun _ _ => Iff.rfl⟩
  | nothing _ => exact ⟨rfl, fun _ _ => Iff.rfl⟩
  | stopped e mode _ => exact ⟨rfl, fun _ _ => hasMode_setMode⟩
  | committed mode _ _ => exact ⟨rfl, fun _ _ => hasMode_setMode⟩

end Call

/-! ### Commits that are accepted -/

section Accept

variable {d : DisplayState} {v : Vidpn} {source : ℕ} {m : SourceMode}

theorem exists_handled {numScanouts : ℕ} {mode : MonitorMode} {targets : List (ℕ × ℕ)}
    {outputs : ℕ → Option VidPnOutput} (hmem : ∀ x ∈ targets, x.1 ∈ v.targets source)
    (hpaths : ∀ p ∈ v.pathsFrom source, checkVidpnPresentPath numScanouts p = .ok ())
    (hmode : ∀ x ∈ targets, HasMode mode outputs x.1) :
    ∃ outputs', Handled (commitTarget (fun _ => none) ⟨source, false⟩ v numScanouts mode) targets
      outputs outputs' := by
  induction targets generalizing outputs with
  | nil => exact ⟨outputs, .nil _⟩
  | cons x targets ih =>
    rw [List.forall_mem_cons] at hmem hmode
    obtain ⟨o, ho, hx⟩ := hmode.1
    obtain ⟨i, hi⟩ := VidPnOutput.mem_modes_iff.1 hx
    obtain ⟨path, hpath⟩ := Vidpn.exists_path hmem.1
    have hcheck := hpaths path (Vidpn.path_eq_some hpath).1
    have head : commitTarget (fun _ => none) ⟨source, false⟩ v numScanouts mode outputs x =
        .ok (Function.update outputs x.1 (some { o with currentMode := some i })) :=
      commitTarget_eq_ok_iff.2 ⟨rfl, rfl, ⟨path, hpath, hcheck⟩, o, i, ho, hi, rfl⟩
    obtain ⟨outputs', tail⟩ := ih hmem.2 fun y hy => (hasMode_update ho).2 (hmode.2 y hy)
    exact ⟨outputs', .cons head tail⟩

/-- A source mode and paths that pass the checks can be committed if the outputs have the mode. -/
theorem commitVidpn_ok_iff (htargets : v.targets source ≠ [])
    (hpinned : (v.sourceModes source).pinned = some m) (hm : checkVidpnSourceMode m = .ok ())
    (hpaths : ∀ p ∈ v.pathsFrom source, checkVidpnPresentPath d.numScanouts p = .ok ()) :
    (d.commitVidpn (fun _ => none) ⟨source, false⟩ v).1 = .ok () ↔
      ∀ t ∈ v.targets source, HasMode m.size d.outputs t := by
  have hne : v.paths ≠ [] := fun hnil => htargets (by simp [Vidpn.targets, Vidpn.pathsFrom, hnil])
  constructor
  · intro h
    have hcase := d.commitCase (fun _ => none) ⟨source, false⟩ v
    generalize d.commitVidpn (fun _ => none) ⟨source, false⟩ v = r at h hcase
    cases hcase with
    | failed => cases h
    | stopped => cases h
    | nothing hnothing => exact absurd (hnothing.resolve_left (by simp)) hne
    | committed mode hreach =>
      have hmode := hreach.map_pinned
      rw [hpinned, Option.map_some, Option.some_inj] at hmode
      rwa [hmode]
  · intro h
    obtain ⟨t, ht⟩ := List.exists_mem_of_ne_nil _ htargets
    obtain ⟨path, hpath⟩ := Vidpn.exists_path ht
    obtain ⟨hmem, hsource, -⟩ := Vidpn.path_eq_some hpath
    have hlt := (checkVidpnPresentPath_eq_ok_iff.1 (hpaths path hmem)).1
    rw [hsource] at hlt
    have hreach : ReachesTargets (fun _ => none) ⟨source, false⟩ v d.numScanouts m.size :=
      ⟨hlt, rfl, hne, by simp, m, hpinned, hm, rfl⟩
    have hall : ∀ x ∈ (v.targets source).zipIdx, x.1 ∈ v.targets source :=
      fun x hx => List.fst_mem_of_mem_zipIdx hx
    obtain ⟨outputs', hdone⟩ := exists_handled hall hpaths fun x hx => h x.1 (hall x hx)
    unfold DisplayState.commitVidpn
    rw [commitMode_eq_some_iff.2 hreach]
    simp only [applyUntil_eq_ok_iff.2 hdone]

end Accept

/-! ### Failures -/

variable {outputs : ℕ → Option VidPnOutput} {targets : List ℕ}

theorem setMode_eq_self_iff {mode : MonitorMode} :
    setMode mode targets outputs = outputs ↔
      ∀ t ∈ targets, ∀ o, outputs t = some o → o.currentMode = o.position mode := by
  constructor
  · intro h t ht o ho
    have hmode := congrFun h t
    rw [setMode, if_pos ht, ho, Option.map_some, Option.some_inj] at hmode
    rw [← hmode]
    rfl
  · intro h
    funext t
    by_cases ht : t ∈ targets
    · rw [setMode, if_pos ht]
      cases ho : outputs t with
      | none => rfl
      | some o =>
        rw [Option.map_some, ← h t ht o ho]
    · rw [setMode, if_neg ht]

/-- **A commit that fails leaves the modes it has set**: the outputs of the targets before the first
one that it does not get past have the mode that is pinned, and all else is as before.  So nothing
has changed exactly if those outputs had that mode before. -/
theorem commit_error_iff (fail : Failures) (args : CommitArgs) (v : Vidpn) (d : DisplayState)
    {e : VidpnStatus} {d' : DisplayState} (h : d.commitVidpn fail args v = (.error e, d')) :
    (∀ mode, ReachesTargets fail args v d.numScanouts mode →
      d' = { d with outputs := setMode mode (handledTargets fail args v d mode) d.outputs }) ∧
    (d' = d ↔ ∀ mode, ReachesTargets fail args v d.numScanouts mode →
      ∀ t ∈ handledTargets fail args v d mode, ∀ o, d.outputs t = some o →
        o.currentMode = o.position mode) := by
  have hcase := d.commitCase fail args v
  rw [h] at hcase
  cases hcase with
  | failed e hnot =>
    exact ⟨fun mode hreach => absurd hreach (hnot mode),
      fun _ mode hreach => absurd hreach (hnot mode), fun _ => rfl⟩
  | stopped e mode hreach =>
    have huniq : ∀ mode', ReachesTargets fail args v d.numScanouts mode' → mode' = mode := by
      intro mode' hreach'
      have heq := hreach.map_pinned
      rw [hreach'.map_pinned] at heq
      exact Option.some.inj heq
    have hself : { d with outputs := setMode mode (handledTargets fail args v d mode) d.outputs } =
        d ↔ setMode mode (handledTargets fail args v d mode) d.outputs = d.outputs :=
      ⟨fun heq => congrArg DisplayState.outputs heq, fun heq => by rw [heq]⟩
    refine ⟨fun mode' hreach' => by rw [huniq mode' hreach'], ?_⟩
    rw [hself, setMode_eq_self_iff]
    constructor
    · intro hall mode' hreach'
      rw [huniq mode' hreach']
      exact hall
    · exact fun hall => hall mode hreach

/-- A source that is connected to both outputs of an adapter, with a mode that only the first one
has. -/
def twoOutputs : DisplayState where
  numScanouts := 2
  numScanouts_le := by decide
  outputs t := [⟨[⟨1024, 768⟩, ⟨800, 600⟩], some 0⟩, ⟨[⟨1024, 768⟩], some 0⟩][t]?
  sourceTargetMap _ := []

/-- A path that the driver accepts. -/
def PresentPath.plain (source target : ℕ) : PresentPath :=
  ⟨source, target, .default, .identity, .identity, .scrgb, [], [], []⟩

/-- The VidPN that connects a source to some targets, with a mode pinned on it. -/
def Vidpn.plain (source : ℕ) (targets : List ℕ) (mode : MonitorMode) : Vidpn where
  paths := targets.map (PresentPath.plain source)
  sourceModes _ := ⟨[mode.graphics], some mode.graphics⟩
  targetModes _ := ⟨[], none⟩

/-- The first output has the mode that is pinned, and the second has not. -/
def splitVidpn : Vidpn := .plain 0 [0, 1] ⟨800, 600⟩

theorem commit_error_iff_twoOutputs :
    let r := twoOutputs.commitVidpn (fun _ => none) ⟨0, false⟩ splitVidpn
    r.1 = .error .graphicsInvalidVideoPresentSourceMode ∧
      ReachesTargets (fun _ => none) ⟨0, false⟩ splitVidpn 2 ⟨800, 600⟩ ∧
      handledTargets (fun _ => none) ⟨0, false⟩ splitVidpn twoOutputs ⟨800, 600⟩ = [0] ∧
      r.2 = { twoOutputs with outputs := setMode ⟨800, 600⟩ [0] twoOutputs.outputs } ∧
      r.2 ≠ twoOutputs := by
  intro r
  have herror : r.1 = .error .graphicsInvalidVideoPresentSourceMode := by decide
  have hreach : ReachesTargets (fun _ => none) ⟨0, false⟩ splitVidpn 2 ⟨800, 600⟩ :=
    ⟨by decide, rfl, by decide, by decide, _, rfl, by decide, rfl⟩
  have hhandled :
      handledTargets (fun _ => none) ⟨0, false⟩ splitVidpn twoOutputs ⟨800, 600⟩ = [0] := by decide
  have h := commit_error_iff (fun _ => none) ⟨0, false⟩ splitVidpn twoOutputs
    (Prod.ext herror rfl)
  have hstate := h.1 _ hreach
  rw [hhandled] at hstate
  refine ⟨herror, hreach, hhandled, hstate, fun heq => ?_⟩
  have hmode := h.2.1 heq _ hreach 0 (by rw [hhandled]; exact List.mem_cons_self) _ rfl
  exact absurd hmode (by decide)

theorem commit_error_changes :
    (twoOutputs.commitVidpn (fun _ => none) ⟨0, false⟩ splitVidpn).1 =
        .error .graphicsInvalidVideoPresentSourceMode ∧
      (twoOutputs.outputs 0).bind VidPnOutput.currentMode = some 0 ∧
      ((twoOutputs.commitVidpn (fun _ => none) ⟨0, false⟩ splitVidpn).2.outputs 0).bind
        VidPnOutput.currentMode = some 1 := by
  decide

/-! ### Operations on a source -/

/-- `Flags` of a pointer shape, of which `update_cursor` knows three. -/
inductive PointerFormat where
  | color
  | monochrome
  | maskedColor
  | unsupported
  deriving DecidableEq

/-- The operations that go through the targets of a source. -/
inductive SourceOp where
  /-- `move_cursor`, which hides the cursor if it is not visible. -/
  | moveCursor (visible : Bool)
  | updateCursor (format : PointerFormat)
  | queueScanout

inductive DriveStop where
  | status (e : VidpnStatus)
  /-- `outputs[..].unwrap()` of a scanout that is no output. -/
  | unwrapNone (target : ℕ)

/-- `Adapter::targets_for_source` -/
def DisplayState.targetsForSource (d : DisplayState) (source : ℕ) :
    Except VidpnStatus (List ℕ) :=
  if maxScanouts ≤ source then .error .graphicsInvalidVideoPresentSource
  else if d.sourceTargetMap source = [] then .error .graphicsInvalidVideoPresentSource
  else .ok (d.sourceTargetMap source)

/-- The loop over the targets: how it ends, and the targets that were driven.  `fail` tells which
command for a target cannot be sent. -/
def driveTargets (fail : ℕ → Option NtStatus) (outputs : ℕ → Option VidPnOutput) :
    List ℕ → Except DriveStop Unit × List ℕ
  | [] => (.ok (), [])
  | t :: targets =>
    match outputs t with
    | none => (.error (.unwrapNone t), [])
    | some _ => match fail t with
      | some e => (.error (.status (.dxgkrnl e)), [t])
      | none => ((driveTargets fail outputs targets).1,
          t :: (driveTargets fail outputs targets).2)

/-- `Adapter::move_cursor`, `Adapter::update_cursor` and `Adapter::queue_scanout`.  A flip is put
into the queue of the output, whatever has to be dropped from it. -/
def DisplayState.drive (d : DisplayState) (source : ℕ) (fail : ℕ → Option NtStatus)
    (op : SourceOp) : Except DriveStop Unit × List ℕ :=
  match d.targetsForSource source with
  | .error e => (.error (.status e), [])
  | .ok targets => match op with
    | .updateCursor .unsupported => (.ok (), [])
    | .queueScanout => driveTargets (fun _ => none) d.outputs targets
    | _ => driveTargets fail d.outputs targets

theorem driveTargets_subset (fail : ℕ → Option NtStatus) (outputs : ℕ → Option VidPnOutput)
    (targets : List ℕ) : ∀ t ∈ (driveTargets fail outputs targets).2, t ∈ targets := by
  induction targets with
  | nil => simp [driveTargets]
  | cons t targets ih =>
    unfold driveTargets
    cases outputs t with
    | none => simp
    | some =>
      cases fail t with
      | some => simp
      | none =>
        intro t' ht'
        rw [List.mem_cons] at ht' ⊢
        exact ht'.imp_right (ih t')

theorem driveTargets_ne_unwrapNone {fail : ℕ → Option NtStatus}
    (h : ∀ t ∈ targets, (outputs t).isSome) (t : ℕ) :
    (driveTargets fail outputs targets).1 ≠ .error (.unwrapNone t) := by
  induction targets with
  | nil => simp [driveTargets]
  | cons x targets ih =>
    rw [List.forall_mem_cons] at h
    obtain ⟨o, ho⟩ := Option.isSome_iff_exists.1 h.1
    unfold driveTargets
    cases hfail : fail x with
    | some => simp [ho]
    | none => simpa [ho] using ih h.2

theorem DisplayState.drive_cases (d : DisplayState) (source : ℕ) (fail : ℕ → Option NtStatus)
    (op : SourceOp) :
    ((∀ t, (d.drive source fail op).1 ≠ .error (.unwrapNone t)) ∧
        (d.drive source fail op).2 = []) ∨
      ∃ fail', d.drive source fail op =
        driveTargets fail' d.outputs (d.sourceTargetMap source) := by
  cases htargets : d.targetsForSource source with
  | error =>
    left
    simp [drive, htargets]
  | ok targets =>
    have hmap : targets = d.sourceTargetMap source := by
      unfold targetsForSource at htargets
      split_ifs at htargets
      exact (Except.ok.inj htargets).symm
    subst hmap
    cases op with
    | moveCursor =>
      right
      exact ⟨fail, by simp [drive, htargets]⟩
    | queueScanout =>
      right
      exact ⟨fun _ => none, by simp [drive, htargets]⟩
    | updateCursor format =>
      cases format with
      | unsupported =>
        left
        simp [drive, htargets]
      | color | monochrome | maskedColor =>
        right
        exact ⟨fail, by simp [drive, htargets]⟩

theorem DisplayState.drive_subset (d : DisplayState) (source : ℕ) (fail : ℕ → Option NtStatus)
    (op : SourceOp) : ∀ t ∈ (d.drive source fail op).2, t ∈ d.sourceTargetMap source := by
  rcases d.drive_cases source fail op with ⟨-, hnone⟩ | ⟨fail', hdrive⟩
  · simp [hnone]
  · rw [hdrive]
    exact driveTargets_subset _ _ _

theorem DisplayState.drive_ne_unwrapNone {d : DisplayState} {source : ℕ}
    (h : ∀ t ∈ d.sourceTargetMap source, (d.outputs t).isSome) (fail : ℕ → Option NtStatus)
    (op : SourceOp) (t : ℕ) : (d.drive source fail op).1 ≠ .error (.unwrapNone t) := by
  rcases d.drive_cases source fail op with ⟨hstop, -⟩ | ⟨fail', hdrive⟩
  · exact hstop t
  · rw [hdrive]
    exact driveTargets_ne_unwrapNone h t

/-! ### Runs -/

/-- The display of an adapter, with what has been committed. -/
structure SourcesState where
  display : DisplayState
  /-- The targets that the VidPN committed last connects to each source. -/
  committed : ℕ → List ℕ
  /-- The sources and the targets that the last operation has driven. -/
  driven : List (ℕ × ℕ)

/-- What is done with the display. -/
inductive SourcesAct where
  | commit (fail : Failures) (args : CommitArgs) (v : Vidpn)
  | drive (source : ℕ) (fail : ℕ → Option NtStatus) (op : SourceOp)

namespace SourcesState

/-- After `start`, which leaves the sources without targets. -/
def init (d : DisplayState) : SourcesState :=
  ⟨{ d with sourceTargetMap := fun _ => [] }, fun _ => [], []⟩

def step (s : SourcesState) : SourcesAct → Outcome SourcesState DriveStop
  | .commit fail args v =>
    let r := s.display.commitVidpn fail args v
    match r.1, args.pathPoweredOff with
    | .ok (), false =>
      .next ⟨r.2, Function.update s.committed args.source (v.targets args.source), []⟩
    | _, _ => .next ⟨r.2, s.committed, []⟩
  | .drive source fail op =>
    let r := s.display.drive source fail op
    match r.1 with
    | .error (.unwrapNone t) => .panic (.unwrapNone t)
    | _ => .next { s with driven := r.2.map fun t => (source, t) }

/-- Every source has the targets of the VidPN that was committed last, and only they have been
driven. -/
def Tracks (s : SourcesState) : Prop :=
  s.display.sourceTargetMap = s.committed ∧ ∀ x ∈ s.driven, x.2 ∈ s.committed x.1

/-- A VidPN without paths is only committed for a source that has no targets. -/
def Vacated (s : SourcesState) : SourcesAct → Prop
  | .commit fail args v =>
    (s.display.commitVidpn fail args v).1 = .ok () → args.pathPoweredOff = false → v.paths = [] →
      s.display.sourceTargetMap args.source = []
  | .drive _ _ _ => True

end SourcesState

def sourcesMachine : Machine SourcesState SourcesAct DriveStop where
  step := SourcesState.step

/-- What one call does to the targets and the record. -/
inductive SourcesState.StepCase (s : SourcesState) : SourcesAct → SourcesState → Prop
  /-- The commit fails, or the paths are powered off. -/
  | kept {fail : Failures} {args : CommitArgs} {v : Vidpn} (d : DisplayState)
      (hmap : d.sourceTargetMap = s.display.sourceTargetMap)
      (houtputs : ∀ t, (s.display.outputs t).isSome → (d.outputs t).isSome)
      (h : (s.display.commitVidpn fail args v).1 ≠ .ok () ∨ args.pathPoweredOff = true) :
      StepCase s (.commit fail args v) ⟨d, s.committed, []⟩
  | empty {fail : Failures} {args : CommitArgs} {v : Vidpn}
      (hok : (s.display.commitVidpn fail args v).1 = .ok ())
      (hon : args.pathPoweredOff = false) (hpaths : v.paths = []) :
      StepCase s (.commit fail args v) ⟨s.display, Function.update s.committed args.source [], []⟩
  | replaced {fail : Failures} {args : CommitArgs} {v : Vidpn} (d : DisplayState)
      (hmap : d.sourceTargetMap =
        Function.update s.display.sourceTargetMap args.source (v.targets args.source))
      (houtputs : ∀ t, (s.display.outputs t).isSome → (d.outputs t).isSome)
      (htargets : ∀ t ∈ v.targets args.source, (d.outputs t).isSome) (hpaths : v.paths ≠ []) :
      StepCase s (.commit fail args v)
        ⟨d, Function.update s.committed args.source (v.targets args.source), []⟩
  | drive {source : ℕ} {fail : ℕ → Option NtStatus} {op : SourceOp} (driven : List ℕ)
      (h : ∀ t ∈ driven, t ∈ s.display.sourceTargetMap source) :
      StepCase s (.drive source fail op) { s with driven := driven.map fun t => (source, t) }

theorem isSome_setMode {mode : MonitorMode} {t : ℕ} :
    (setMode mode targets outputs t).isSome = (outputs t).isSome := by
  unfold setMode
  split_ifs <;> simp

theorem Vidpn.targets_of_paths_nil {v : Vidpn} (h : v.paths = []) (source : ℕ) :
    v.targets source = [] := by
  simp [targets, pathsFrom, h]

namespace SourcesState

variable {s s' : SourcesState} {a : SourcesAct}

theorem stepCase (h : sourcesMachine.step s a = .next s') : s.StepCase a s' := by
  cases a with
  | commit fail args v =>
    simp only [sourcesMachine, step] at h
    have hcase := s.display.commitCase fail args v
    generalize hr : s.display.commitVidpn fail args v = r at h hcase
    cases hcase with
    | failed e _ =>
      rw [← Outcome.next.inj h]
      exact .kept _ rfl (fun _ ht => ht) (.inl (by simp [hr]))
    | stopped e mode _ =>
      rw [← Outcome.next.inj h]
      exact .kept _ rfl (fun _ ht => by rwa [isSome_setMode]) (.inl (by simp [hr]))
    | nothing hnothing =>
      cases hoff : args.pathPoweredOff with
      | true =>
        simp only [hoff] at h
        rw [← Outcome.next.inj h]
        exact .kept _ rfl (fun _ ht => ht) (.inr hoff)
      | false =>
        simp only [hoff] at h
        rw [← Outcome.next.inj h]
        have hpaths := hnothing.resolve_left (by simp [hoff])
        rw [v.targets_of_paths_nil hpaths]
        exact .empty (by rw [hr]) hoff hpaths
    | committed mode hreach htargets =>
      simp only [hreach.poweredOn] at h
      rw [← Outcome.next.inj h]
      have houtputs : ∀ t ∈ v.targets args.source, (s.display.outputs t).isSome := by
        intro t ht
        obtain ⟨o, ho, -⟩ := htargets t ht
        rw [ho]
        rfl
      exact .replaced _ rfl (fun _ ht => by rwa [isSome_setMode])
        (fun t ht => by rw [isSome_setMode]; exact houtputs t ht) hreach.paths
  | drive source fail op =>
    simp only [sourcesMachine, step] at h
    split at h
    · cases h
    · rw [← Outcome.next.inj h]
      exact .drive _ (s.display.drive_subset source fail op)

/-- The targets of the sources are outputs. -/
def Connected (s : SourcesState) : Prop :=
  ∀ source, ∀ t ∈ s.display.sourceTargetMap source, (s.display.outputs t).isSome

theorem Connected.step (hs : s.Connected) (h : sourcesMachine.step s a = .next s') :
    s'.Connected := by
  intro source t ht
  cases stepCase h with
  | kept d hmap houtputs =>
    rw [hmap] at ht
    exact houtputs t (hs source t ht)
  | empty => exact hs source t ht
  | drive => exact hs source t ht
  | @replaced fail args v d hmap houtputs htargets =>
    rw [hmap] at ht
    by_cases hsource : source = args.source
    · rw [hsource, Function.update_self] at ht
      exact htargets t ht
    · rw [Function.update_of_ne hsource] at ht
      exact houtputs t (hs source t ht)

theorem Connected.exists_step (hs : s.Connected) (a : SourcesAct) :
    ∃ s', sourcesMachine.step s a = .next s' := by
  cases a with
  | commit =>
    simp only [sourcesMachine, SourcesState.step]
    split <;> exact ⟨_, rfl⟩
  | drive source fail op =>
    have hstop := DisplayState.drive_ne_unwrapNone (hs source) fail op
    -- The arm of the panic is ruled out by `hstop`.
    simp only [sourcesMachine, SourcesState.step]
    exact ⟨_, rfl⟩

theorem Connected.exists_run (hs : s.Connected) (acts : List SourcesAct) :
    ∃ t, sourcesMachine.run s acts = some t := by
  induction acts generalizing s with
  | nil => exact ⟨s, rfl⟩
  | cons a acts ih =>
    obtain ⟨s', hstep⟩ := hs.exists_step a
    obtain ⟨t, hrun⟩ := ih (hs.step hstep)
    exact ⟨t, (Machine.run_cons_next hstep).trans hrun⟩

theorem Tracks.step (hs : s.Tracks) (hok : s.Vacated a)
    (h : sourcesMachine.step s a = .next s') : s'.Tracks := by
  obtain ⟨hmap, hdriven⟩ := hs
  cases stepCase h with
  | kept d hmap' => exact ⟨hmap'.trans hmap, by simp⟩
  | @empty fail args v hr hon hpaths =>
    refine ⟨?_, by simp⟩
    have hempty := hok hr hon hpaths
    rw [← hmap, ← hempty, Function.update_eq_self]
  | replaced d hmap' => exact ⟨by rw [hmap', hmap], by simp⟩
  | @drive source fail op driven hsub =>
    refine ⟨hmap, fun x hx => ?_⟩
    obtain ⟨t, ht, rfl⟩ := List.mem_map.1 hx
    rw [← hmap]
    exact hsub t ht

/-- The targets of a VidPN that was committed before stay if the one that replaces it has no
paths. -/
theorem not_tracks_of_not_vacated (hok : ¬ s.Vacated a)
    (h : sourcesMachine.step s a = .next s') : ¬ s'.Tracks := by
  cases stepCase h with
  | drive => exact absurd trivial hok
  | @kept fail args v d _ _ hr =>
    refine absurd (fun hres hon => ?_) hok
    rcases hr with hr | hoff
    · exact absurd hres hr
    · simp [hoff] at hon
  | replaced d _ _ _ hpaths => exact absurd (fun _ _ hnil => absurd hnil hpaths) hok
  | @empty fail args =>
    intro htracks
    refine hok fun _ _ _ => ?_
    exact (congrFun htracks.1 args.source).trans (Function.update_self _ _ _)

end SourcesState

theorem DisplayState.commitVidpn_other (fail : Failures) (args : CommitArgs) (v : Vidpn)
    (d : DisplayState) {source : ℕ} (h : source ≠ args.source) :
    (d.commitVidpn fail args v).2.sourceTargetMap source = d.sourceTargetMap source := by
  have hcase := d.commitCase fail args v
  generalize d.commitVidpn fail args v = r at hcase
  cases hcase with
  | failed => rfl
  | nothing => rfl
  | stopped => rfl
  | committed mode _ _ => exact Function.update_of_ne h _ _

/-- **The targets of a source are those of the last VidPN, if it had paths.**  The sources have the
targets that were committed last, and only they are driven, exactly if each VidPN without paths is
committed for a source that has no targets. -/
theorem targets_committed_iff (d : DisplayState) (acts : List SourcesAct) :
    (∀ fail args v (d : DisplayState) source, source ≠ args.source →
      (d.commitVidpn fail args v).2.sourceTargetMap source = d.sourceTargetMap source) ∧
    (sourcesMachine.Always SourcesState.Tracks (.init d) acts ↔
      sourcesMachine.Meets SourcesState.Vacated (.init d) acts) := by
  refine ⟨fun fail args v d source h => d.commitVidpn_other fail args v h, ?_⟩
  have hinit : (SourcesState.init d).Connected := by
    simp [SourcesState.Connected, SourcesState.init]
  obtain ⟨t, hrun⟩ := hinit.exists_run acts
  have hstep : ∀ s a s', SourcesState.Tracks s → s.Vacated a →
      sourcesMachine.step s a = .next s' → s'.Tracks := fun _ _ _ hs hok h => hs.step hok h
  exact Machine.always_iff_meets hstep (fun _ hs => hs)
    (fun _ _ _ _ hok h => SourcesState.not_tracks_of_not_vacated hok h)
    ⟨rfl, by simp [SourcesState.init]⟩ hrun

/-- An output is committed, its source is left without paths, and the pointer is moved. -/
def unplugged : List SourcesAct :=
  [.commit (fun _ => none) ⟨0, false⟩ (.plain 0 [1] ⟨1024, 768⟩),
    .commit (fun _ => none) ⟨0, false⟩ (.plain 0 [] ⟨1024, 768⟩),
    .drive 0 (fun _ => none) (.moveCursor true)]

/-- The pointer is moved on the output that is no longer connected. -/
theorem targets_stale :
    (sourcesMachine.run (.init twoOutputs) unplugged).map
      (fun s => (s.display.sourceTargetMap 0, s.committed 0, s.driven)) =
      some ([1], [], [(0, 1)]) := by
  decide

end VirtioGpu
