import VirtioGpu.Display.Commit

/-!
# Cofunctional modes

In `Adapter::enum_cofunc_modality` the driver completes a VidPN: for each path it offers the modes
of the output on the source and on the target, and the transformations it supports, wherever nothing
is pinned yet.  `dxgkrnl` pins what it likes of that and commits the result.

The mode set of a source is built again for each path from the source, out of the modes of the
target of that path alone.  The one that stays is that of the last path, and the other targets of
the source need not have its modes.

* `enumCofuncModality_sourceModes` : the modes that are offered on a source are those of the target
  of its last path.
* `enumCofuncModality_support`, `Supported.check` : the transformations that are offered pass the
  check.
* `offered_cofunctional_iff` : every mode that is offered is a mode of every connected target
  exactly if the modes of the last target are; and a mode that is offered can be committed exactly
  if every connected target has it.
* `offered_not_accepted` : a source with two targets that differ in a mode.
-/

namespace VirtioGpu

/-! ### The function -/

/-- `D3DKMDT_ENUMCOFUNCMODALITY_PIVOT_TYPE` -/
inductive PivotType where
  | uninitialized
  | vidpnSource
  | vidpnTarget
  | scaling
  | rotation
  | noPivot
  | other (code : ℕ)
  deriving DecidableEq

/-- `EnumPivotType` and `EnumPivot` of `DXGKARG_ENUMVIDPNCOFUNCMODALITY`. -/
structure EnumPivot where
  type : PivotType
  /-- `VidPnSourceId` -/
  source : ℕ
  /-- `VidPnTargetId` -/
  target : ℕ

/-- How `enum_cofunc_modality` stops. -/
inductive EnumStop where
  | status (e : VidpnStatus)
  /-- `outputs[..]` of a target that is out of range. -/
  | indexOutOfRange (target : ℕ)
  deriving DecidableEq

section Enum

variable (fail : Failures) (pivot : EnumPivot)

/-- A call and its `?`. -/
def Failures.attempt (c : VidpnCall) : Except EnumStop Unit :=
  (fail.call c).mapError .status

/-- `add_mode_autorelease` of a new mode.  One that is in the set already is not added again. -/
def addMode {α : Type} [DecidableEq α] (create add : ℕ → VidpnCall) (fill : ℕ → MonitorMode → α)
    (set : List α) (x : MonitorMode × ℕ) : Except EnumStop (List α) := do
  fail.attempt (create x.2)
  fail.attempt (add x.2)
  return if fill x.2 x.1 ∈ set then set else set ++ [fill x.2 x.1]

/-- The loop that fills a new mode set. -/
def addModes {α : Type} [DecidableEq α] (create add : ℕ → VidpnCall) (fill : ℕ → MonitorMode → α)
    (modes : List MonitorMode) : Except EnumStop (List α) :=
  modes.zipIdx.foldlM (addMode fail create add fill) []

/-- The source modes of the `k`-th path. -/
def enumSourceModes (k : ℕ) (path : PresentPath) (output : VidPnOutput) (v : Vidpn) :
    Except EnumStop Vidpn :=
  if pivot.type = .vidpnSource ∧ pivot.source = path.source then return v
  else do
    fail.attempt (.acquireSourceModeSet k)
    fail.attempt (.acquirePinnedSourceMode k)
    if (v.sourceModes path.source).pinned = none then do
      fail.attempt (.createNewSourceModeSet k)
      let modes ← addModes fail (.createNewSourceMode k) (.addSourceMode k)
        (fun _ mode => mode.graphics) output.modes
      fail.attempt (.assignSourceModeSet k)
      return { v with sourceModes := Function.update v.sourceModes path.source ⟨modes, none⟩ }
    else return v

/-- The target modes of the `k`-th path. -/
def enumTargetModes (k : ℕ) (path : PresentPath) (output : VidPnOutput) (v : Vidpn) :
    Except EnumStop Vidpn :=
  if pivot.type = .vidpnTarget ∧ pivot.target = path.target then return v
  else do
    fail.attempt (.acquireTargetModeSet k)
    fail.attempt (.acquirePinnedTargetMode k)
    if (v.targetModes path.target).pinned = none then do
      fail.attempt (.createNewTargetModeSet k)
      let modes ← addModes fail (.createNewTargetMode k) (.addTargetMode k)
        (fun i mode => TargetMode.mk mode (i = 0)) output.modes
      fail.attempt (.assignTargetModeSet k)
      return { v with targetModes := Function.update v.targetModes path.target ⟨modes, none⟩ }
    else return v

/-- The pivot is the scaling, or the rotation, of the path. -/
def EnumPivot.On (type : PivotType) (path : PresentPath) : Prop :=
  pivot.type = type ∧ pivot.source = path.source ∧ pivot.target = path.target
  deriving Decidable

/-- The scaling of the path is to be offered. -/
def OffersScaling (path : PresentPath) : Prop :=
  ¬ pivot.On .scaling path ∧ path.scaling = .unpinned
  deriving Decidable

/-- The rotation of the path is to be offered. -/
def OffersRotation (path : PresentPath) : Prop :=
  ¬ pivot.On .rotation path ∧ path.rotation = .unpinned
  deriving Decidable

def newPresentPath (path : PresentPath) : PresentPath :=
  let scaled := if OffersScaling pivot path then
      { path with scalingSupport := [.identity, .centered] }
    else path
  if OffersRotation pivot path then
    { scaled with rotationSupport := [.identity], offsetSupport := [0] }
  else scaled

/-- `pfnUpdatePathSupportInfo` -/
def PresentPath.updateSupport (new p : PresentPath) : PresentPath :=
  if p.source = new.source ∧ p.target = new.target then
    { p with
      scalingSupport := new.scalingSupport
      rotationSupport := new.rotationSupport
      offsetSupport := new.offsetSupport }
  else p

/-- The transformations of the `k`-th path. -/
def enumSupport (k : ℕ) (path : PresentPath) (v : Vidpn) : Except EnumStop Vidpn :=
  if OffersScaling pivot path ∨ OffersRotation pivot path then do
    fail.attempt (.updatePathSupportInfo k)
    return { v with paths := v.paths.map (newPresentPath pivot path).updateSupport }
  else return v

/-- One round of the loop, for a path and its number.  The iterator is one path ahead. -/
def enumPath (outputs : ℕ → Option VidPnOutput) (v : Vidpn) (x : PresentPath × ℕ) :
    Except EnumStop Vidpn := do
  fail.attempt (.acquireNextPathInfo x.2)
  if maxScanouts ≤ x.1.target then .error (.indexOutOfRange x.1.target)
  else match outputs x.1.target with
    | none => .error (.status .graphicsInvalidVideoPresentTarget)
    | some output => do
      let v ← enumSourceModes fail pivot x.2 x.1 output v
      let v ← enumTargetModes fail pivot x.2 x.1 output v
      enumSupport fail pivot x.2 x.1 v

/-- `Adapter::enum_cofunc_modality`, with the VidPN it leaves behind. -/
def DisplayState.enumCofuncModality (d : DisplayState) (v : Vidpn) : Except EnumStop Vidpn := do
  fail.attempt .queryVidpnInterface
  fail.attempt .getTopology
  fail.attempt .acquireFirstPathInfo
  if v.paths = [] then .error (.status .graphicsDatasetIsEmpty)
  else v.paths.zipIdx.foldlM (enumPath fail pivot d.outputs) v

end Enum

/-! ### What a round does -/

section Round

variable {fail : Failures} {pivot : EnumPivot} {outputs : ℕ → Option VidPnOutput}
  {v v' : Vidpn} {path : PresentPath} {output : VidPnOutput} {k : ℕ}

theorem Handled.mem_addMode {α : Type} [DecidableEq α] {create add : ℕ → VidpnCall}
    {fill : ℕ → MonitorMode → α} {done : List (MonitorMode × ℕ)} {set set' : List α}
    (h : Handled (addMode fail create add fill) done set set') (m : α) :
    m ∈ set' ↔ m ∈ set ∨ ∃ x ∈ done, fill x.2 x.1 = m := by
  induction h with
  | nil => simp
  | @cons x done set set₁ set' head tail ih =>
    unfold addMode at head
    obtain ⟨⟨⟩, -, head⟩ := bind_eq_ok.1 head
    obtain ⟨⟨⟩, -, head⟩ := bind_eq_ok.1 head
    have hset : m ∈ set₁ ↔ m ∈ set ∨ fill x.2 x.1 = m := by
      rw [← Except.ok.inj head]
      split_ifs with hmem
      · exact ⟨.inl, fun hm => hm.elim id fun heq => heq ▸ hmem⟩
      · simp [eq_comm]
    rw [ih, hset, or_assoc]
    simp

theorem enumSourceModes_eq_ok (h : enumSourceModes fail pivot k path output v = .ok v') :
    v'.paths = v.paths ∧
      (((pivot.type = .vidpnSource ∧ pivot.source = path.source) ∨
          (v.sourceModes path.source).pinned ≠ none) ∧ v'.sourceModes = v.sourceModes ∨
        ∃ set, (∀ m, m ∈ set ↔ ∃ mode ∈ output.modes, mode.graphics = m) ∧
          v'.sourceModes = Function.update v.sourceModes path.source ⟨set, none⟩) := by
  unfold enumSourceModes at h
  by_cases hpivot : pivot.type = .vidpnSource ∧ pivot.source = path.source
  · rw [if_pos hpivot] at h
    cases h
    exact ⟨rfl, .inl ⟨.inl hpivot, rfl⟩⟩
  rw [if_neg hpivot] at h
  obtain ⟨⟨⟩, -, h⟩ := bind_eq_ok.1 h
  obtain ⟨⟨⟩, -, h⟩ := bind_eq_ok.1 h
  by_cases hpinned : (v.sourceModes path.source).pinned = none
  · rw [if_pos hpinned] at h
    obtain ⟨⟨⟩, -, h⟩ := bind_eq_ok.1 h
    obtain ⟨set, hset, h⟩ := bind_eq_ok.1 h
    obtain ⟨⟨⟩, -, h⟩ := bind_eq_ok.1 h
    cases h
    refine ⟨rfl, .inr ⟨set, fun m => ?_, rfl⟩⟩
    rw [(foldlM_eq_ok_iff.1 hset).mem_addMode, or_iff_right List.not_mem_nil]
    constructor
    · rintro ⟨x, hx, rfl⟩
      exact ⟨x.1, List.fst_mem_of_mem_zipIdx hx, rfl⟩
    · rintro ⟨mode, hmode, rfl⟩
      obtain ⟨i, hi, rfl⟩ := List.mem_iff_getElem.1 hmode
      exact ⟨(output.modes[i], i), by simp [List.mem_zipIdx_iff_getElem?, hi], rfl⟩
  · rw [if_neg hpinned] at h
    cases h
    exact ⟨rfl, .inl ⟨.inr hpinned, rfl⟩⟩

theorem enumTargetModes_eq_ok (h : enumTargetModes fail pivot k path output v = .ok v') :
    v'.paths = v.paths ∧ v'.sourceModes = v.sourceModes := by
  unfold enumTargetModes at h
  by_cases hpivot : pivot.type = .vidpnTarget ∧ pivot.target = path.target
  · rw [if_pos hpivot] at h
    cases h
    exact ⟨rfl, rfl⟩
  rw [if_neg hpivot] at h
  obtain ⟨⟨⟩, -, h⟩ := bind_eq_ok.1 h
  obtain ⟨⟨⟩, -, h⟩ := bind_eq_ok.1 h
  by_cases hpinned : (v.targetModes path.target).pinned = none
  · rw [if_pos hpinned] at h
    obtain ⟨⟨⟩, -, h⟩ := bind_eq_ok.1 h
    obtain ⟨set, -, h⟩ := bind_eq_ok.1 h
    obtain ⟨⟨⟩, -, h⟩ := bind_eq_ok.1 h
    cases h
    exact ⟨rfl, rfl⟩
  · rw [if_neg hpinned] at h
    cases h
    exact ⟨rfl, rfl⟩

theorem enumSupport_eq_ok (h : enumSupport fail pivot k path v = .ok v') :
    v'.sourceModes = v.sourceModes ∧
      v'.paths = if OffersScaling pivot path ∨ OffersRotation pivot path then
          v.paths.map (newPresentPath pivot path).updateSupport
        else v.paths := by
  unfold enumSupport at h
  split_ifs at h ⊢
  · obtain ⟨⟨⟩, -, h⟩ := bind_eq_ok.1 h
    cases h
    exact ⟨rfl, rfl⟩
  · cases h
    exact ⟨rfl, rfl⟩

theorem enumPath_eq_ok (h : enumPath fail pivot outputs v (path, k) = .ok v') :
    ∃ output, outputs path.target = some output ∧
      (((pivot.type = .vidpnSource ∧ pivot.source = path.source) ∨
          (v.sourceModes path.source).pinned ≠ none) ∧ v'.sourceModes = v.sourceModes ∨
        ∃ set, (∀ m, m ∈ set ↔ ∃ mode ∈ output.modes, mode.graphics = m) ∧
          v'.sourceModes = Function.update v.sourceModes path.source ⟨set, none⟩) ∧
      v'.paths = if OffersScaling pivot path ∨ OffersRotation pivot path then
          v.paths.map (newPresentPath pivot path).updateSupport
        else v.paths := by
  unfold enumPath at h
  obtain ⟨⟨⟩, -, h⟩ := bind_eq_ok.1 h
  by_cases hrange : maxScanouts ≤ path.target
  · rw [if_pos hrange] at h
    cases h
  rw [if_neg hrange] at h
  cases houtput : outputs path.target with
  | none => simp [houtput] at h
  | some output =>
    simp only [houtput] at h
    obtain ⟨v₁, hsource, h⟩ := bind_eq_ok.1 h
    obtain ⟨v₂, htarget, h⟩ := bind_eq_ok.1 h
    obtain ⟨hpaths₁, hmodes₁⟩ := enumSourceModes_eq_ok hsource
    obtain ⟨hpaths₂, hmodes₂⟩ := enumTargetModes_eq_ok htarget
    obtain ⟨hmodes₃, hpaths₃⟩ := enumSupport_eq_ok h
    refine ⟨output, rfl, ?_, ?_⟩
    · rwa [hmodes₃, hmodes₂]
    · rw [hpaths₃, hpaths₂, hpaths₁]

theorem newPresentPath_source : (newPresentPath pivot path).source = path.source := by
  unfold newPresentPath
  split_ifs <;> rfl

theorem newPresentPath_target : (newPresentPath pivot path).target = path.target := by
  unfold newPresentPath
  split_ifs <;> rfl

/-- Only the support of a path changes, to that of the path of the round if it is the same one. -/
theorem mem_paths_of_enumPath (h : enumPath fail pivot outputs v (path, k) = .ok v')
    {p : PresentPath} (hp : p ∈ v'.paths) :
    ∃ q ∈ v.paths, q.source = p.source ∧ q.target = p.target ∧
      (p = q ∧ (OffersScaling pivot path →
          ¬ (p.source = path.source ∧ p.target = path.target)) ∨
        (p.source = path.source ∧ p.target = path.target) ∧
        p.scalingSupport = (newPresentPath pivot path).scalingSupport ∧
        p.rotationSupport = (newPresentPath pivot path).rotationSupport) := by
  obtain ⟨o, -, -, hpaths⟩ := enumPath_eq_ok h
  rw [hpaths] at hp
  split_ifs at hp with hoffers
  · obtain ⟨q, hq, rfl⟩ := List.mem_map.1 hp
    unfold PresentPath.updateSupport
    rw [newPresentPath_source, newPresentPath_target]
    split_ifs with hids
    · exact ⟨q, hq, rfl, rfl, .inr ⟨hids, rfl, rfl⟩⟩
    · exact ⟨q, hq, rfl, rfl, .inl ⟨rfl, fun _ => hids⟩⟩
  · exact ⟨p, hp, rfl, rfl, .inl ⟨rfl, fun hscaling => absurd (.inl hscaling) hoffers⟩⟩

end Round

/-! ### What the loop offers -/

section Loop

variable {fail : Failures} {pivot : EnumPivot} {outputs : ℕ → Option VidPnOutput}
  {v v' : Vidpn} {done : List (PresentPath × ℕ)} {source target : ℕ}

/-- The source has no pinned mode, and the modes of the target of `last`, if there is one. -/
def OfferedBy (outputs : ℕ → Option VidPnOutput) (source : ℕ) (last : Option PresentPath)
    (v : Vidpn) : Prop :=
  (v.sourceModes source).pinned = none ∧ ∀ p, last = some p → ∃ o, outputs p.target = some o ∧
    ∀ m, m ∈ (v.sourceModes source).modes ↔ ∃ mode ∈ o.modes, mode.graphics = m

/-- Each path from the source replaces the modes that those before it have offered. -/
theorem OfferedBy.enumPath {last : Option PresentPath} {path : PresentPath} {k : ℕ}
    (hv : OfferedBy outputs source last v)
    (hpivot : ¬ (pivot.type = .vidpnSource ∧ pivot.source = source))
    (h : enumPath fail pivot outputs v (path, k) = .ok v') :
    OfferedBy outputs source (if path.source = source then some path else last) v' := by
  obtain ⟨o, ho, hmodes, -⟩ := enumPath_eq_ok h
  split_ifs with hsource
  · subst hsource
    obtain ⟨hkept | hkept, -⟩ | ⟨set, hset, hnew⟩ := hmodes
    · exact absurd hkept hpivot
    · exact absurd hv.1 hkept
    · unfold OfferedBy
      rw [hnew, Function.update_self]
      refine ⟨rfl, fun p hp => ?_⟩
      cases hp
      exact ⟨o, ho, hset⟩
  · have hsame : v'.sourceModes source = v.sourceModes source := by
      obtain ⟨-, hsame⟩ | ⟨set, -, hnew⟩ := hmodes
      · rw [hsame]
      · rw [hnew, Function.update_of_ne (Ne.symm hsource)]
    unfold OfferedBy
    rw [hsame]
    exact hv

theorem OfferedBy.handled {last : Option PresentPath} (hv : OfferedBy outputs source last v)
    (hpivot : ¬ (pivot.type = .vidpnSource ∧ pivot.source = source))
    (h : Handled (VirtioGpu.enumPath fail pivot outputs) done v v') :
    OfferedBy outputs source
      (((done.map Prod.fst).filter (·.source = source)).getLast?.or last) v' := by
  induction h generalizing last with
  | nil => exact hv
  | @cons x done v v₁ v' head tail ih =>
    have hv' := ih (hv.enumPath hpivot head)
    rw [List.map_cons, List.filter_cons]
    by_cases hsource : x.1.source = source
    · rw [if_pos hsource] at hv'
      rw [if_pos (decide_eq_true hsource), List.getLast?_cons]
      rwa [Option.or_some] at hv'
    · rw [if_neg hsource] at hv'
      rwa [if_neg (by simpa using hsource)]

/-- The paths between the source and the target support what the driver supports. -/
def Supported (source target : ℕ) (v : Vidpn) : Prop :=
  ∀ p ∈ v.paths, p.source = source → p.target = target →
    p.scalingSupport = [.identity, .centered] ∧ p.rotationSupport = [.identity]

theorem newPresentPath_support {path : PresentPath} (hscaling : OffersScaling pivot path)
    (hrotation : OffersRotation pivot path) :
    (newPresentPath pivot path).scalingSupport = [.identity, .centered] ∧
      (newPresentPath pivot path).rotationSupport = [.identity] := by
  unfold newPresentPath
  rw [if_pos hscaling, if_pos hrotation]
  exact ⟨rfl, rfl⟩

theorem Supported.handled
    (h : Handled (VirtioGpu.enumPath fail pivot outputs) done v v')
    (hoffers : ∀ x ∈ done, x.1.source = source →
      OffersScaling pivot x.1 ∧ OffersRotation pivot x.1)
    (hv : Supported source target v ∨ ∃ x ∈ done, x.1.source = source ∧ x.1.target = target) :
    Supported source target v' := by
  induction h with
  | nil => exact hv.resolve_right (by simp)
  | @cons x done v v₁ v' head tail ih =>
    rw [List.forall_mem_cons] at hoffers
    refine ih hoffers.2 ?_
    have hround : x.1.source = source ∧ x.1.target = target ∨ Supported source target v →
        Supported source target v₁ := by
      intro hx p hp hsource htarget
      obtain ⟨q, hq, -, -, ⟨rfl, hother⟩ | ⟨⟨hsource', htarget'⟩, hsupport⟩⟩ :=
        mem_paths_of_enumPath head hp
      · -- A path that is left as it was is not that of this round, which has something to offer.
        rcases hx with ⟨hxsource, hxtarget⟩ | hv
        · refine absurd ⟨hsource.trans hxsource.symm, htarget.trans hxtarget.symm⟩ (hother ?_)
          exact (hoffers.1 hxsource).1
        · exact hv p hq hsource htarget
      · obtain ⟨hscaling, hrotation⟩ := hoffers.1 (hsource'.symm.trans hsource)
        rw [hsupport.1, hsupport.2]
        exact newPresentPath_support hscaling hrotation
    rcases hv with hv | ⟨y, hy, hids⟩
    · exact .inl (hround (.inr hv))
    · rcases List.mem_cons.1 hy with rfl | hy
      · exact .inl (hround (.inl hids))
      · exact .inr ⟨y, hy, hids⟩

end Loop

section Result

variable {fail : Failures} {pivot : EnumPivot} {d : DisplayState} {v v' : Vidpn} {source : ℕ}

section

variable (h : d.enumCofuncModality fail pivot v = .ok v')
include h

theorem handled_of_enumCofuncModality :
    Handled (enumPath fail pivot d.outputs) v.paths.zipIdx v v' := by
  unfold DisplayState.enumCofuncModality at h
  obtain ⟨⟨⟩, -, h⟩ := bind_eq_ok.1 h
  obtain ⟨⟨⟩, -, h⟩ := bind_eq_ok.1 h
  obtain ⟨⟨⟩, -, h⟩ := bind_eq_ok.1 h
  split_ifs at h
  exact foldlM_eq_ok_iff.1 h

/-- The modes that are offered on a source are those of the target of its last path. -/
theorem enumCofuncModality_sourceModes
    (hpivot : ¬ (pivot.type = .vidpnSource ∧ pivot.source = source))
    (hpinned : (v.sourceModes source).pinned = none) {last : ℕ}
    (hlast : (v.targets source).getLast? = some last) (m : SourceMode) :
    m ∈ (v'.sourceModes source).modes ↔
      ∃ mode, HasMode mode d.outputs last ∧ mode.graphics = m := by
  have hinit : OfferedBy d.outputs source none v := ⟨hpinned, fun p hp => by cases hp⟩
  have hoffered := (hinit.handled hpivot (handled_of_enumCofuncModality h)).2
  rw [List.zipIdx_map_fst, Option.or_none] at hoffered
  unfold Vidpn.targets at hlast
  rw [List.getLast?_map, Option.map_eq_some_iff] at hlast
  obtain ⟨p, hp, rfl⟩ := hlast
  obtain ⟨o, ho, hmodes⟩ := hoffered p hp
  rw [hmodes]
  constructor
  · rintro ⟨mode, hmode, rfl⟩
    exact ⟨mode, ⟨o, ho, hmode⟩, rfl⟩
  · rintro ⟨mode, ⟨o', ho', hmode⟩, rfl⟩
    rw [ho, Option.some_inj] at ho'
    exact ⟨mode, ho' ▸ hmode, rfl⟩

theorem exists_mem_paths :
    ∀ p ∈ v'.paths, ∃ q ∈ v.paths, q.source = p.source ∧ q.target = p.target := by
  refine (handled_of_enumCofuncModality h).invariant (I := fun w => ∀ p ∈ w.paths, ∃ q ∈ v.paths,
    q.source = p.source ∧ q.target = p.target) ?_ fun p hp => ⟨p, hp, rfl, rfl⟩
  intro w x w' hw hround p hp
  obtain ⟨r, hr, hsource, htarget, -⟩ := mem_paths_of_enumPath hround hp
  rw [← hsource, ← htarget]
  exact hw r hr

/-- If nothing is pinned on the paths from a source, they support what the driver supports. -/
theorem enumCofuncModality_support
    (hoffers : ∀ p ∈ v.pathsFrom source, OffersScaling pivot p ∧ OffersRotation pivot p)
    (target : ℕ) : Supported source target v' := by
  intro p hp hsource htarget
  obtain ⟨q, hq, hqsource, hqtarget⟩ := exists_mem_paths h p hp
  obtain ⟨i, hi, rfl⟩ := List.mem_iff_getElem.1 hq
  have hvisited : (v.paths[i], i) ∈ v.paths.zipIdx := by simp [List.mem_zipIdx_iff_getElem?, hi]
  refine Supported.handled (handled_of_enumCofuncModality h) (fun x hx hx' => ?_)
    (.inr ⟨_, hvisited, hqsource.trans hsource, hqtarget.trans htarget⟩) p hp hsource htarget
  exact hoffers x.1 (List.mem_filter.2 ⟨List.fst_mem_of_mem_zipIdx hx, decide_eq_true hx'⟩)

end

/-- The transformations that are offered pass the check, if whatever else the path asks for does. -/
theorem Supported.check {target numScanouts : ℕ} (hv : Supported source target v)
    {p : PresentPath} (hp : p ∈ v.paths) (hsource : p.source = source)
    (htarget : p.target = target) (hlt : source < numScanouts ∧ target < numScanouts)
    (hgamma : p.gammaRamp = .default) (hbasis : p.targetColorBasis ∈ [.scrgb, .uninitialized])
    {scaling : Scaling} (hscaling : scaling ∈ p.scalingSupport) {rotation : Rotation}
    (hrotation : rotation ∈ p.rotationSupport) :
    checkVidpnPresentPath numScanouts { p with scaling := scaling, rotation := rotation } =
      .ok () := by
  obtain ⟨hs, hr⟩ := hv p hp hsource htarget
  rw [hs] at hscaling
  rw [hr] at hrotation
  subst hsource htarget
  exact checkVidpnPresentPath_eq_ok_iff.2 ⟨hlt.1, hlt.2, hgamma,
    List.mem_append_left [Scaling.notSpecified, .uninitialized] hscaling,
    List.mem_append_left [Rotation.rotate90, .notSpecified, .uninitialized] hrotation, hbasis⟩

end Result

/-! ### The modes that are offered, and commits -/

/-- The state after some commits. -/
def DisplayState.commits (d : DisplayState) (calls : List (Failures × CommitArgs × Vidpn)) :
    DisplayState :=
  calls.foldl (fun d call => (d.commitVidpn call.1 call.2.1 call.2.2).2) d

/-- Commits change neither the number of outputs nor their modes. -/
theorem DisplayState.hasMode_commits (d : DisplayState)
    (calls : List (Failures × CommitArgs × Vidpn)) :
    (d.commits calls).numScanouts = d.numScanouts ∧
      ∀ mode t, HasMode mode (d.commits calls).outputs t ↔ HasMode mode d.outputs t := by
  induction calls generalizing d with
  | nil => exact ⟨rfl, fun _ _ => Iff.rfl⟩
  | cons call calls ih =>
    obtain ⟨hscanouts, hmode⟩ := ih (d.commitVidpn call.1 call.2.1 call.2.2).2
    obtain ⟨hscanouts', hmode'⟩ := d.hasMode_commitVidpn call.1 call.2.1 call.2.2
    exact ⟨hscanouts.trans hscanouts', fun mode t => (hmode mode t).trans (hmode' mode t)⟩

/-- **A mode that is offered need not be a mode of every target.**  Those offered on a source
without a pinned mode are modes of all connected targets exactly if those of the last target are.
One that is pinned is accepted exactly if all connected targets have it. -/
theorem offered_cofunctional_iff (fail : Failures) (pivot : EnumPivot) (d : DisplayState)
    (v : Vidpn) {v' : Vidpn} (h : d.enumCofuncModality fail pivot v = .ok v') {source last : ℕ}
    (hpivot : ¬ (pivot.type = .vidpnSource ∧ pivot.source = source))
    (hpinned : (v.sourceModes source).pinned = none)
    (hlast : (v.targets source).getLast? = some last) :
    ((∀ m ∈ (v'.sourceModes source).modes, ∀ t ∈ v.targets source,
        HasMode m.size d.outputs t) ↔
      ∀ mode, HasMode mode d.outputs last → ∀ t ∈ v.targets source, HasMode mode d.outputs t) ∧
    ∀ m ∈ (v'.sourceModes source).modes, ∀ calls (committed : Vidpn),
      committed.targets source = v.targets source →
      (committed.sourceModes source).pinned = some m →
      (∀ p ∈ committed.pathsFrom source, checkVidpnPresentPath d.numScanouts p = .ok ()) →
      (((d.commits calls).commitVidpn (fun _ => none) ⟨source, false⟩ committed).1 = .ok () ↔
        ∀ t ∈ v.targets source, HasMode m.size d.outputs t) := by
  have hoffered := enumCofuncModality_sourceModes h hpivot hpinned hlast
  refine ⟨⟨fun hall mode hmode => ?_, fun hall m hm => ?_⟩, ?_⟩
  · exact hall mode.graphics ((hoffered _).2 ⟨mode, hmode, rfl⟩)
  · obtain ⟨mode, hmode, rfl⟩ := (hoffered m).1 hm
    exact hall mode hmode
  · intro m hm calls committed htargets hm' hpaths
    obtain ⟨mode, -, rfl⟩ := (hoffered m).1 hm
    obtain ⟨hscanouts, hmodes⟩ := d.hasMode_commits calls
    have hne : committed.targets source ≠ [] := by
      rw [htargets]
      rintro hnil
      rw [hnil] at hlast
      cases hlast
    rw [← hscanouts] at hpaths
    rw [commitVidpn_ok_iff hne hm' (checkVidpnSourceMode_graphics mode) hpaths, htargets]
    exact forall₂_congr fun t _ => hmodes _ t

/-- The VidPN that connects a source to some targets, with nothing pinned. -/
def Vidpn.unpinned (source : ℕ) (targets : List ℕ) : Vidpn where
  paths := targets.map fun target =>
    ⟨source, target, .default, .unpinned, .unpinned, .scrgb, [], [], []⟩
  sourceModes _ := ⟨[], none⟩
  targetModes _ := ⟨[], none⟩

/-- Nothing is left to `dxgkrnl`. -/
def noPivot : EnumPivot := ⟨.noPivot, 0, 0⟩

theorem offered_cofunctional_iff_twoOutputs :
    ∃ v', twoOutputs.enumCofuncModality (fun _ => none) noPivot (.unpinned 0 [0, 1]) = .ok v' ∧
      (v'.sourceModes 0).modes = [MonitorMode.graphics ⟨1024, 768⟩] ∧
      ((∀ m ∈ (v'.sourceModes 0).modes, ∀ t ∈ (Vidpn.unpinned 0 [0, 1]).targets 0,
          HasMode m.size twoOutputs.outputs t) ↔
        ∀ mode, HasMode mode twoOutputs.outputs 1 → ∀ t ∈ (Vidpn.unpinned 0 [0, 1]).targets 0,
          HasMode mode twoOutputs.outputs t) := by
  have hmodes : (twoOutputs.enumCofuncModality (fun _ => none) noPivot
      (.unpinned 0 [0, 1])).map (fun v' => (v'.sourceModes 0).modes) =
        .ok [MonitorMode.graphics ⟨1024, 768⟩] := by decide
  cases h : twoOutputs.enumCofuncModality (fun _ => none) noPivot (.unpinned 0 [0, 1]) with
  | error =>
    rw [h] at hmodes
    cases hmodes
  | ok v' =>
    rw [h] at hmodes
    exact ⟨v', rfl, Except.ok.inj hmodes, (offered_cofunctional_iff (fun _ => none) noPivot
      twoOutputs (.unpinned 0 [0, 1]) h (by decide) rfl (by decide)).1⟩

/-- The last target has a mode that the other one has not.  It is offered, and not accepted. -/
theorem offered_not_accepted :
    twoOutputs.outputs 0 = VidPnOutput.new ⟨⟨1024, 768⟩, 1⟩ ⟨none, [⟨800, 600⟩]⟩ ∧
      twoOutputs.outputs 1 = VidPnOutput.new ⟨⟨1024, 768⟩, 1⟩ ⟨none, []⟩ ∧
      (twoOutputs.enumCofuncModality (fun _ => none) noPivot (.unpinned 0 [1, 0])).map
          (fun v' => (v'.sourceModes 0).modes) =
        .ok [MonitorMode.graphics ⟨1024, 768⟩, MonitorMode.graphics ⟨800, 600⟩] ∧
      (twoOutputs.commitVidpn (fun _ => none) ⟨0, false⟩ (.plain 0 [1, 0] ⟨800, 600⟩)).1 =
        .error .graphicsInvalidVideoPresentSourceMode := by
  decide

end VirtioGpu
