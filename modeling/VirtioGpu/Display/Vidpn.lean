import VirtioGpu.Queue.Buffer
import Mathlib.Data.List.Basic

/-!
# Video present networks

A VidPN is how `dxgkrnl` describes a configuration of the displays: paths from sources, which are
rendered to, to targets, which are the outputs of the adapter; and for every source and every target
a set of modes, one of which may be pinned.  The driver has an output for each scanout of the host,
with the modes it has read from the EDID (`vidpn.rs`).

This file has the data, what the driver checks (`checkVidpnPresentPath`, `checkVidpnSourceMode`) and
the calls of `dxgkrnl` it makes, any of which may fail.
-/

namespace VirtioGpu

/-! ### Outputs -/

structure MonitorMode where
  width : UInt32
  height : UInt32
  deriving DecidableEq

/-- `VidPnOutput`, without its EDID, its flip queue and its cursor. -/
structure VidPnOutput where
  modes : List MonitorMode
  /-- `current_mode`, an index into `modes`. -/
  currentMode : Option ℕ
  deriving DecidableEq

/-- `gpu::DisplayOne`: the part of it that `VidPnOutput::new` reads. -/
structure DisplayOne where
  rect : MonitorMode
  enabled : UInt32

/-- The resolutions in an EDID. -/
structure EdidModes where
  /-- `preferred_resolution()`, which fails if the EDID has none. -/
  preferredResolution : Option MonitorMode
  standardTimings : List MonitorMode

namespace VidPnOutput

/-- `VidPnOutput::new`; it panics if the rectangle is small and the EDID has no preferred
resolution. -/
def new (info : DisplayOne) (edid : EdidModes) : Option VidPnOutput := do
  let preferred ← if info.rect.width < 640 ∨ info.rect.height < 480 then edid.preferredResolution
    else some info.rect
  let modes := preferred :: edid.standardTimings.filter (· ≠ preferred)
  return ⟨modes, if info.enabled = 0 then none else some 0⟩

/-- `modes.iter().position(..)` -/
def position (o : VidPnOutput) (mode : MonitorMode) : Option ℕ := o.modes.idxOf? mode

theorem mem_modes_iff {o : VidPnOutput} {mode : MonitorMode} :
    mode ∈ o.modes ↔ ∃ i, o.position mode = some i := by
  rw [← Option.ne_none_iff_exists', position, Ne, List.idxOf?_eq_none_iff, not_not]

end VidPnOutput

/-! ### Paths and modes -/

/-- `D3DDDI_GAMMARAMP_TYPE` -/
inductive GammaRampType where
  | uninitialized
  | default
  | rgb256x3x16
  | dxgi1
  | other (code : ℕ)
  deriving DecidableEq

/-- `D3DKMDT_VIDPN_PRESENT_PATH_SCALING` -/
inductive Scaling where
  | uninitialized
  | identity
  | centered
  | stretched
  | aspectRatioCenteredMax
  | custom
  | reserved1
  | unpinned
  | notSpecified
  | other (code : ℕ)
  deriving DecidableEq

/-- `D3DKMDT_VIDPN_PRESENT_PATH_ROTATION` -/
inductive Rotation where
  | uninitialized
  | identity
  | rotate90
  | rotate180
  | rotate270
  | unpinned
  | notSpecified
  | other (code : ℕ)
  deriving DecidableEq

/-- `D3DKMDT_COLOR_BASIS` -/
inductive ColorBasis where
  | uninitialized
  | intensity
  | srgb
  | scrgb
  | ycbcr
  | ypbpr
  | other (code : ℕ)
  deriving DecidableEq

/-- `D3DKMDT_VIDPN_SOURCE_MODE_TYPE` -/
inductive SourceModeType where
  | uninitialized
  | graphics
  | text
  | graphicsStereo
  | graphicsStereoAdvancedScan
  | other (code : ℕ)
  deriving DecidableEq

/-- `D3DKMDT_PIXEL_VALUE_ACCESS_MODE` -/
inductive PixelValueAccessMode where
  | uninitialized
  | direct
  | presetPalette
  | settablePalette
  | other (code : ℕ)
  deriving DecidableEq

/-- `D3DDDIFORMAT` -/
inductive PixelFormat where
  | a8r8g8b8
  | other (code : ℕ)
  deriving DecidableEq

/-- `D3DKMDT_VIDPN_PRESENT_PATH` -/
structure PresentPath where
  /-- `VidPnSourceId` -/
  source : ℕ
  /-- `VidPnTargetId` -/
  target : ℕ
  gammaRamp : GammaRampType
  scaling : Scaling
  rotation : Rotation
  targetColorBasis : ColorBasis
  scalingSupport : List Scaling
  /-- The rotations among the bits of `RotationSupport`. -/
  rotationSupport : List Rotation
  /-- The offsets among them, in degrees. -/
  offsetSupport : List ℕ
  deriving DecidableEq

/-- `D3DKMDT_VIDPN_SOURCE_MODE` -/
structure SourceMode where
  type : SourceModeType
  /-- `PrimSurfSize` -/
  size : MonitorMode
  pixelFormat : PixelFormat
  colorBasis : ColorBasis
  pixelValueAccessMode : PixelValueAccessMode
  deriving DecidableEq

/-- `D3DKMDT_VIDPN_TARGET_MODE` -/
structure TargetMode where
  /-- `VideoSignalInfo.TotalSize` -/
  size : MonitorMode
  /-- `Preference` -/
  preferred : Bool
  deriving DecidableEq

structure ModeSet (α : Type) where
  modes : List α
  pinned : Option α

structure Vidpn where
  /-- The paths of the topology, in the order `dxgkrnl` enumerates them in. -/
  paths : List PresentPath
  sourceModes : ℕ → ModeSet SourceMode
  targetModes : ℕ → ModeSet TargetMode

namespace Vidpn

/-- The paths from a source. -/
def pathsFrom (v : Vidpn) (source : ℕ) : List PresentPath :=
  v.paths.filter (·.source = source)

/-- The targets that are connected to a source. -/
def targets (v : Vidpn) (source : ℕ) : List ℕ := (v.pathsFrom source).map PresentPath.target

/-- The path between a source and a target. -/
def path (v : Vidpn) (source target : ℕ) : Option PresentPath :=
  v.paths.find? fun p => p.source = source ∧ p.target = target

theorem path_eq_some {v : Vidpn} {source target : ℕ} {p : PresentPath}
    (h : v.path source target = some p) :
    p ∈ v.pathsFrom source ∧ p.source = source ∧ p.target = target := by
  have hp := List.find?_some h
  simp only [decide_eq_true_eq] at hp
  refine ⟨List.mem_filter.2 ⟨List.mem_of_find?_eq_some h, ?_⟩, hp⟩
  simpa using hp.1

theorem exists_path {v : Vidpn} {source target : ℕ} (h : target ∈ v.targets source) :
    ∃ p, v.path source target = some p := by
  obtain ⟨p, hp, rfl⟩ := List.mem_map.1 h
  obtain ⟨hmem, hsource⟩ := List.mem_filter.1 hp
  refine Option.isSome_iff_exists.1 (List.find?_isSome.2 ⟨p, hmem, ?_⟩)
  simpa using hsource

end Vidpn

/-- `MonitorMode::fill_graphics_info`, and the type that goes with it. -/
def MonitorMode.graphics (mode : MonitorMode) : SourceMode where
  type := .graphics
  size := mode
  pixelFormat := .a8r8g8b8
  colorBasis := .scrgb
  pixelValueAccessMode := .direct

/-! ### Checks -/

/-- What the functions on VidPNs return if they fail. -/
inductive VidpnStatus where
  | invalidParameter
  | graphicsInvalidVideoPresentSource
  | graphicsInvalidVideoPresentTarget
  | graphicsInvalidVideoPresentSourceMode
  | graphicsInvalidVidpnTopology
  | graphicsGammaRampNotSupported
  | graphicsVidpnModalityNotSupported
  | graphicsDatasetIsEmpty
  /-- What a call of `dxgkrnl` has failed with. -/
  | dxgkrnl (e : NtStatus)
  deriving DecidableEq

def checkVidpnPresentPath (numScanouts : ℕ) (path : PresentPath) : Except VidpnStatus Unit :=
  if numScanouts ≤ path.source then .error .graphicsInvalidVideoPresentSource
  else if numScanouts ≤ path.target then .error .graphicsInvalidVideoPresentTarget
  else if path.gammaRamp ≠ .default then .error .graphicsGammaRampNotSupported
  else if path.scaling ∉ [.identity, .centered, .notSpecified, .uninitialized] then
    .error .graphicsVidpnModalityNotSupported
  else if path.rotation ∉ [.identity, .rotate90, .notSpecified, .uninitialized] then
    .error .graphicsVidpnModalityNotSupported
  else if path.targetColorBasis ∉ [.scrgb, .uninitialized] then
    .error .graphicsInvalidVideoPresentSourceMode
  else .ok ()

def checkVidpnSourceMode (mode : SourceMode) : Except VidpnStatus Unit :=
  if mode.type ≠ .graphics then .error .graphicsInvalidVideoPresentSourceMode
  else if mode.colorBasis ∉ [.scrgb, .uninitialized] then
    .error .graphicsInvalidVideoPresentSourceMode
  else if mode.pixelValueAccessMode ≠ .direct then .error .graphicsInvalidVideoPresentSourceMode
  else if mode.pixelFormat ≠ .a8r8g8b8 then .error .graphicsInvalidVideoPresentSourceMode
  else .ok ()

/-- What the driver offers passes its check. -/
theorem checkVidpnSourceMode_graphics (mode : MonitorMode) :
    checkVidpnSourceMode mode.graphics = .ok () := by
  simp [checkVidpnSourceMode, MonitorMode.graphics]

theorem checkVidpnPresentPath_eq_ok_iff {numScanouts : ℕ} {path : PresentPath} :
    checkVidpnPresentPath numScanouts path = .ok () ↔
      path.source < numScanouts ∧ path.target < numScanouts ∧ path.gammaRamp = .default ∧
      path.scaling ∈ [.identity, .centered, .notSpecified, .uninitialized] ∧
      path.rotation ∈ [.identity, .rotate90, .notSpecified, .uninitialized] ∧
      path.targetColorBasis ∈ [.scrgb, .uninitialized] := by
  unfold checkVidpnPresentPath
  constructor
  · intro h
    split_ifs at h with hsource htarget hgamma hscaling hrotation hbasis
    exact ⟨not_le.1 hsource, not_le.1 htarget, not_not.1 hgamma, hscaling, hrotation, hbasis⟩
  · rintro ⟨hsource, htarget, hgamma, hscaling, hrotation, hbasis⟩
    rw [if_neg (not_le.2 hsource), if_neg (not_le.2 htarget), if_neg (not_not.2 hgamma),
      if_neg (not_not.2 hscaling), if_neg (not_not.2 hrotation), if_neg (not_not.2 hbasis)]

/-! ### Calls of `dxgkrnl` -/

/-- The calls that `commit_vidpn` and `enum_cofunc_modality` make; `k` is the number of the path in
the loop, and `i` that of the mode. -/
inductive VidpnCall where
  | queryVidpnInterface
  | getTopology
  | getNumPaths
  | getNumPathsFromSource
  | enumPathTargetsFromSource (k : ℕ)
  | acquirePathInfo (k : ℕ)
  | acquireFirstPathInfo
  | acquireNextPathInfo (k : ℕ)
  | acquireSourceModeSet (k : ℕ)
  | acquirePinnedSourceMode (k : ℕ)
  | createNewSourceModeSet (k : ℕ)
  | createNewSourceMode (k i : ℕ)
  | addSourceMode (k i : ℕ)
  | assignSourceModeSet (k : ℕ)
  | acquireTargetModeSet (k : ℕ)
  | acquirePinnedTargetMode (k : ℕ)
  | createNewTargetModeSet (k : ℕ)
  | createNewTargetMode (k i : ℕ)
  | addTargetMode (k i : ℕ)
  | assignTargetModeSet (k : ℕ)
  | updatePathSupportInfo (k : ℕ)
  deriving DecidableEq

/-- Which calls fail, and with what. -/
abbrev Failures := VidpnCall → Option NtStatus

/-- A call and its `?`. -/
def Failures.call (fail : Failures) (c : VidpnCall) : Except VidpnStatus Unit :=
  match fail c with
  | some e => .error (.dxgkrnl e)
  | none => .ok ()

theorem Failures.call_eq_ok_iff {fail : Failures} {c : VidpnCall} :
    fail.call c = .ok () ↔ fail c = none := by
  unfold Failures.call
  cases fail c <;> simp

end VirtioGpu
