import VirtioGpu.Data.Fields
import VirtioGpu.Data.Raster
import VirtioGpu.Device.Layout
import VirtioGpu.Queue.Requests
import VirtioGpu.Resource.Creation

/-!
# Information about a resource

With a `RESOURCE_INFO` escape an application asks about a resource.  For a 3D resource the answer
has the layout: the driver queries it if the application asks for it, and copies the planes into
arrays of four entries.  The number of planes is one of the bytes the host has written, and nothing
compares it with four.

A layout that is queried for the first time goes through the slice `planes[0..num_planes]`.  From
then on the allocation keeps it, and the conversion of the resource goes through its planes too.
Either panics if there are more than four.

* `run_queries` : a run of escapes is a run of the queries they make.
* `completes_iff` : an escape returns, with the planes of the host, exactly if the layout it gets
  has at most four planes.
* `planes_iff` : in every sequence of escapes each one returns, with the planes of the host, exactly
  if every layout that a query reads has at most four planes.
* `fifth_plane` : a layout with five planes.
-/

namespace VirtioGpu

/-! ### Layouts in bytes -/

def drmFormatModInvalid : ℕ := 0x00ffffffffffffff

namespace VirglResourceLayout

/-- The layout of a resource whose layout is not known. -/
def unknown : VirglResourceLayout := { zero with modifier := drmFormatModInvalid }

def readFromPrefix (bytes : Bytes 80) : VirglResourceLayout where
  modifier := numberAt bytes.1 0 8
  numPlanes := numberAt bytes.1 8 4
  reserved := numberAt bytes.1 12 4
  planes := Vector.ofFn fun i => ⟨numberAt bytes.1 (16 + 16 * i) 8,
    numberAt bytes.1 (24 + 16 * i) 4, numberAt bytes.1 (28 + 16 * i) 4⟩

end VirglResourceLayout

/-! ### Planes in arrays -/

section Planes

variable (field : VirglResourceLayoutPlane → ℕ) (layout : VirglResourceLayout)

/-- An entry of an array is set to a field of a plane; both have four entries, and Rust panics at
any other. -/
def setPlane (array : Vector ℕ 4) (i : ℕ) : Option (Vector ℕ 4) :=
  if h : i < 4 then some (array.set i (field layout.planes[i])) else none

/-- A loop over the planes of the layout. -/
def setPlanes (array : Vector ℕ 4) : Option (Vector ℕ 4) :=
  forRange layout.numPlanes (setPlane field layout) array

/-- The array with the fields of the first `n` planes. -/
def withPlanes (n : ℕ) (array : Vector ℕ 4) : Vector ℕ 4 :=
  Vector.ofFn fun i => if i < n then field layout.planes[i] else array[i]

end Planes

section Planes

variable {field : VirglResourceLayoutPlane → ℕ} {layout : VirglResourceLayout}

variable (array : Vector ℕ 4)

theorem withPlanes_zero : withPlanes field layout 0 array = array := by
  ext i hi
  simp [withPlanes]

theorem setPlane_withPlanes {i : ℕ} (hi : i < 4) :
    setPlane field layout (withPlanes field layout i array) i =
      some (withPlanes field layout (i + 1) array) := by
  rw [setPlane, dif_pos hi, Option.some.injEq]
  ext j hj
  rw [Vector.getElem_set]
  by_cases hij : i = j
  · subst hij
    simp [withPlanes]
  · have hlt : j < i + 1 ↔ j < i := by omega
    rw [if_neg hij]
    simp only [withPlanes, Vector.getElem_ofFn, hlt]

theorem setPlane_of_le {i : ℕ} (hi : 4 ≤ i) : setPlane field layout array i = none :=
  dif_neg (Nat.not_lt.2 hi)

theorem setPlanes_eq :
    setPlanes field layout array =
      if layout.numPlanes ≤ 4 then some (withPlanes field layout layout.numPlanes array)
      else none := by
  have h : forRange layout.numPlanes (setPlane field layout)
      (withPlanes field layout 0 array) = _ :=
    forRange_bounded (fun _ hi => setPlane_withPlanes array hi)
      (fun _ _ hi => setPlane_of_le _ hi) _
  rwa [withPlanes_zero] at h

theorem getElem_withPlanes {n i : ℕ} (hi : i < 4) (hn : i < n) :
    (withPlanes field layout n array)[i] = field layout.planes[i] := by
  simp [withPlanes, hn]

end Planes

/-! ### The escape -/

structure Allocate3dFull where
  /-- `_3d` -/
  create : Allocate3d
  size : ℕ
  modifier : ℕ
  offsets : Vector ℕ 4
  strides : Vector ℕ 4
  sizes : Vector ℕ 4
  numPlanes : ℕ

/-- `AllocationInfo`.  What it has for a blob does not come from a layout. -/
inductive AllocationInfo where
  | threeD (info : Allocate3dFull)
  | blob

/-- `ResourceInfo`, as it is returned. -/
structure ResourceInfo where
  id : ℕ
  info : AllocationInfo

/-- `Into<AllocationInfo>` for a 3D resource, with the layout it keeps. -/
def Allocate3d.intoInfo (create : Allocate3d) (size : ℕ) (kept : Option VirglResourceLayout) :
    Option Allocate3dFull := do
  let layout := kept.getD .unknown
  let offsets ← setPlanes (·.offset) layout (.replicate 4 0)
  let strides ← setPlanes (·.stride) layout (.replicate 4 0)
  let sizes ← setPlanes (·.size) layout (.replicate 4 0)
  return ⟨create, size, layout.modifier, offsets, strides, sizes, layout.numPlanes⟩

namespace Allocate3dFull

/-- One round of the loop of the escape. -/
def setPlane (layout : VirglResourceLayout) (info : Allocate3dFull) (i : ℕ) :
    Option Allocate3dFull := do
  let offsets ← VirtioGpu.setPlane (·.offset) layout info.offsets i
  let strides ← VirtioGpu.setPlane (·.stride) layout info.strides i
  let sizes ← VirtioGpu.setPlane (·.size) layout info.sizes i
  return { info with offsets := offsets, strides := strides, sizes := sizes }

/-- What the escape does with the layout. -/
def setLayout (layout : VirglResourceLayout) (info : Allocate3dFull) : Option Allocate3dFull :=
  let info := { info with modifier := layout.modifier, numPlanes := layout.numPlanes }
  -- `planes[0..num_planes]`
  if 4 < layout.numPlanes then none
  else forRange layout.numPlanes (setPlane layout) info

end Allocate3dFull

/-- Allocations, with what their resources have been created from. -/
structure InfoAllocs (α : Type) extends QueriedAllocs α where
  create : α → Allocate3d
  size : α → ℕ

/-- What becomes of a query. -/
inductive LayoutAnswer where
  | notSent (e : NtStatus)
  | timedOut (e : NtStatus)
  | rejected (hdrType : ℕ)
  /-- The host has written these bytes into the query buffer. -/
  | wrote (bytes : Bytes 80)

/-- The answer, with the layout in the bytes. -/
def LayoutAnswer.answer : LayoutAnswer → QueryAnswer
  | .notSent e => .notSent e
  | .timedOut e => .timedOut e
  | .rejected hdrType => .rejected hdrType
  | .wrote bytes => .accepted (.readFromPrefix bytes)

/-- A `RESOURCE_INFO` escape, and what it meets. -/
structure InfoCall (α : Type) where
  alloc : α
  /-- `info._3d.modifier` in the buffer of the application. -/
  modifier : ℕ
  /-- `hDevice` is a device. -/
  device : Bool
  context : Option ℕ
  attach : Except NtStatus Unit
  ensureVirgl : Except NtStatus Unit
  newBuffer : Except NtStatus ℕ
  host : LayoutAnswer
  /-- What a query that timed out writes into the buffer before it is read. -/
  overwritten : Option (GetResourceLayout × Bytes 80)

inductive InfoPanic where
  /-- An index in the conversion. -/
  | planeIndex
  /-- The slice of the planes. -/
  | planeSlice

namespace InfoCall

variable {α : Type}

/-- What a query meets. -/
def env (c : InfoCall α) : QueryEnv :=
  ⟨c.context, c.attach, c.ensureVirgl, c.newBuffer, c.host.answer,
    c.overwritten.map fun w => (w.1, .readFromPrefix w.2)⟩

/-- The application asks for the layout. -/
def Asks (allocs : InfoAllocs α) (c : InfoCall α) : Prop :=
  allocs.is3d c.alloc ∧ c.modifier = drmFormatModInvalid ∧ c.device = true
  deriving Decidable

end InfoCall

namespace LayoutState

variable {α : Type} [DecidableEq α]

/-- The layout that the escape gets, if it asks for it. -/
def askLayout (allocs : InfoAllocs α) (s : LayoutState α) (c : InfoCall α) :
    Except NtStatus (Option VirglResourceLayout) × LayoutState α :=
  if c.Asks allocs then
    let r := s.queryLayout allocs.toQueriedAllocs c.alloc c.env
    (r.1, r.2.note c.alloc r.1)
  else (.ok none, s)

/-- `Adapter::escape` for `ESCAPE_RESOURCE_INFO_TAG`.  The resource is cloned before the query, with
the layout it has then. -/
def resourceInfo (allocs : InfoAllocs α) (s : LayoutState α) (c : InfoCall α) :
    Outcome (Except NtStatus ResourceInfo × LayoutState α) InfoPanic :=
  let kept := s.kept c.alloc
  match s.askLayout allocs c with
  | (.error e, s) => .next (.error e, s)
  | (.ok layout, s) =>
    if allocs.is3d c.alloc then
      match (allocs.create c.alloc).intoInfo (allocs.size c.alloc) kept with
      | none => .panic .planeIndex
      | some info => match info.setLayout (layout.getD .unknown) with
        | none => .panic .planeSlice
        | some info => .next (.ok ⟨allocs.id c.alloc, .threeD info⟩, s)
    else .next (.ok ⟨allocs.id c.alloc, .blob⟩, s)

end LayoutState

/-- Escapes, and what the host does between them. -/
inductive InfoAct (α : Type) where
  | escape (c : InfoCall α)
  /-- The host gets to a query that timed out, and writes an answer or rejects it. -/
  | executed (cmd : GetResourceLayout) (bytes : Option (Bytes 80))

/-- Escapes on one device. -/
def infoMachine {α : Type} [DecidableEq α] (allocs : InfoAllocs α) :
    Machine (LayoutState α) (InfoAct α) InfoPanic where
  step s
    | .escape c => (s.resourceInfo allocs c).bind fun r => .next r.2
    | .executed cmd bytes =>
      match s.step allocs.toQueriedAllocs (.executed cmd (bytes.map .readFromPrefix)) with
      | .next s' => .next s'
      | _ => .stuck

/-! ### The conversions -/

theorem VirglResourceLayout.numPlanes_unknown : unknown.numPlanes ≤ 4 := Nat.zero_le 4

theorem Allocate3d.intoInfo_eq (create : Allocate3d) (size : ℕ)
    (kept : Option VirglResourceLayout) :
    create.intoInfo size kept =
      let layout := kept.getD .unknown
      if layout.numPlanes ≤ 4 then
        some ⟨create, size, layout.modifier,
          withPlanes (·.offset) layout layout.numPlanes (.replicate 4 0),
          withPlanes (·.stride) layout layout.numPlanes (.replicate 4 0),
          withPlanes (·.size) layout layout.numPlanes (.replicate 4 0), layout.numPlanes⟩
      else none := by
  simp only [intoInfo, setPlanes_eq]
  by_cases hn : (kept.getD .unknown).numPlanes ≤ 4
  · simp [hn]
  · simp [hn]

namespace Allocate3dFull

variable {layout : VirglResourceLayout} {info : Allocate3dFull}

/-- The information with the first `n` planes of a layout. -/
def withPlanes (layout : VirglResourceLayout) (n : ℕ) (info : Allocate3dFull) : Allocate3dFull :=
  { info with
    offsets := VirtioGpu.withPlanes (·.offset) layout n info.offsets
    strides := VirtioGpu.withPlanes (·.stride) layout n info.strides
    sizes := VirtioGpu.withPlanes (·.size) layout n info.sizes }

/-- The information with a layout. -/
def withLayout (layout : VirglResourceLayout) (info : Allocate3dFull) : Allocate3dFull :=
  withPlanes layout layout.numPlanes
    { info with modifier := layout.modifier, numPlanes := layout.numPlanes }

theorem withPlanes_zero : withPlanes layout 0 info = info := by
  simp only [withPlanes, VirtioGpu.withPlanes_zero]

theorem setPlane_withPlanes {i : ℕ} (hi : i < 4) :
    setPlane layout (withPlanes layout i info) i = some (withPlanes layout (i + 1) info) := by
  simp only [setPlane, withPlanes, VirtioGpu.setPlane_withPlanes _ hi]
  rfl

theorem setPlane_of_le {i : ℕ} (hi : 4 ≤ i) : setPlane layout info i = none := by
  rw [setPlane, VirtioGpu.setPlane_of_le _ hi]
  rfl

theorem setLayout_eq :
    setLayout layout info =
      if layout.numPlanes ≤ 4 then some (withLayout layout info) else none := by
  by_cases hn : layout.numPlanes ≤ 4
  · have h : forRange layout.numPlanes (setPlane layout) (withPlanes layout 0
        { info with modifier := layout.modifier, numPlanes := layout.numPlanes }) = _ :=
      forRange_bounded (fun _ hi => setPlane_withPlanes hi) (fun _ _ hi => setPlane_of_le hi) _
    rw [withPlanes_zero, if_pos hn] at h
    rw [setLayout, if_neg (Nat.not_lt.2 hn), if_pos hn]
    exact h
  · rw [setLayout, if_pos (Nat.lt_of_not_le hn), if_neg hn]

/-- The planes are those of the layout. -/
def ShowsPlanes (info : Allocate3dFull) (layout : VirglResourceLayout) : Prop :=
  info.numPlanes = layout.numPlanes ∧ ∀ i (_ : i < 4), i < info.numPlanes →
    info.offsets[i] = layout.planes[i].offset ∧ info.strides[i] = layout.planes[i].stride ∧
      info.sizes[i] = layout.planes[i].size

theorem showsPlanes_withLayout : (info.withLayout layout).ShowsPlanes layout :=
  ⟨rfl, fun _ hi hn => ⟨getElem_withPlanes _ hi hn, getElem_withPlanes _ hi hn,
    getElem_withPlanes _ hi hn⟩⟩

end Allocate3dFull

/-! ### What an escape gets -/

namespace LayoutState

variable {α : Type} {s s' : LayoutState α} {c : InfoCall α} {allocs : InfoAllocs α}

theorem kept_submitCommandSync (s : LayoutState α) (cmd : GetResourceLayout)
    (w : Option (GetResourceLayout × VirglResourceLayout)) (answer : QueryAnswer) :
    (s.submitCommandSync cmd w answer).2.kept = s.kept := by
  cases answer with
  | notSent | timedOut => rfl
  | rejected => exact kept_overtake s w
  | accepted layout => exact kept_overtake (s.write cmd layout) w

theorem kept_deviceQueryLayout {allocs : QueriedAllocs α} {a : α} (env : QueryEnv)
    (h3d : allocs.is3d a) (hnone : s.kept a = none) :
    (s.deviceQueryLayout (allocs.id a) env).2.kept = s.kept := by
  by_cases hsends : s.Sends allocs a env
  · obtain ⟨context, b, -, hdevice⟩ := deviceQueryLayout_of_sends hsends
    rw [hdevice, kept_submitCommandSync]
  · obtain ⟨e, hdevice⟩ := deviceQueryLayout_of_not_sends h3d hnone hsends
    rw [hdevice]

variable [DecidableEq α] {r : Except NtStatus ResourceInfo} {layout : VirglResourceLayout}
  {act : InfoAct α}

/-- What an escape gets, and what the allocation then keeps. -/
inductive Asked (s : LayoutState α) (a : α) :
    Except NtStatus (Option VirglResourceLayout) → LayoutState α → Prop where
  | failed (e : NtStatus) (s' : LayoutState α) (hkept : s'.kept = s.kept) : Asked s a (.error e) s'
  | unknown (s' : LayoutState α) (hkept : s'.kept = s.kept) : Asked s a (.ok none) s'
  | known (layout : VirglResourceLayout) (s' : LayoutState α)
      (hold : s.kept a = none ∨ s.kept a = some layout)
      (hkept : s'.kept = Function.update s.kept a (some layout)) : Asked s a (.ok (some layout)) s'

theorem asked_queryLayout (allocs : QueriedAllocs α) (s : LayoutState α) (a : α) (env : QueryEnv) :
    Asked s a (s.queryLayout allocs a env).1 (s.queryLayout allocs a env).2 := by
  unfold queryLayout
  by_cases h3d : allocs.is3d a
  · rw [if_pos h3d]
    cases hkept : s.kept a with
    | some layout => exact .known layout s (.inr hkept) (by rw [← hkept, Function.update_eq_self])
    | none =>
      have hsame := kept_deviceQueryLayout env h3d hkept
      rcases hdevice : s.deviceQueryLayout (allocs.id a) env with ⟨e | layout, s'⟩ <;>
        rw [hdevice] at hsame
      · cases e with
        | reinitializationNeeded => exact .unknown s' hsame
        | _ => exact .failed _ s' hsame
      · exact .known layout _ (.inl hkept) (congrArg (Function.update · a (some layout)) hsame)
  · rw [if_neg h3d]
    exact .failed _ s rfl

theorem asked_askLayout (allocs : InfoAllocs α) (s : LayoutState α) (c : InfoCall α) :
    Asked s c.alloc (s.askLayout allocs c).1 (s.askLayout allocs c).2 := by
  unfold askLayout
  by_cases hasks : c.Asks allocs
  · rw [if_pos hasks]
    have h := asked_queryLayout allocs.toQueriedAllocs s c.alloc c.env
    revert h
    generalize s.queryLayout allocs.toQueriedAllocs c.alloc c.env = r
    obtain ⟨r, s'⟩ := r
    intro h
    cases h with
    | failed e s' hkept => exact .failed e _ hkept
    | unknown s' hkept => exact .unknown _ hkept
    | known layout s' hold hkept => exact .known layout _ hold hkept
  · rw [if_neg hasks]
    exact .unknown s rfl

theorem kept_of_device_ok (hasks : c.Asks allocs)
    (hsends : s.Sends allocs.toQueriedAllocs c.alloc c.env)
    (hdevice : s.deviceQueryLayout (allocs.id c.alloc) c.env = (.ok layout, s')) :
    (s.askLayout allocs c).2.kept c.alloc = some layout := by
  simp [askLayout, if_pos hasks, queryLayout, if_pos hsends.1, hsends.2.1, hdevice, note]

omit [DecidableEq α] in
theorem overwritten_alone (h : s.late = 0 ∨ c.overwritten = none) :
    s.late = 0 ∨ c.env.overwritten = none :=
  h.imp_right fun h => by rw [InfoCall.env, h]; rfl

theorem kept_of_wrote {bytes : Bytes 80} (hasks : c.Asks allocs)
    (hsends : s.Sends allocs.toQueriedAllocs c.alloc c.env)
    (halone : s.late = 0 ∨ c.overwritten = none) (hhost : c.host = .wrote bytes) :
    (s.askLayout allocs c).2.kept c.alloc = some (.readFromPrefix bytes) := by
  obtain ⟨context, b, -, hdevice⟩ := deviceQueryLayout_of_sends hsends
  have hanswer : c.env.answer = .accepted (.readFromPrefix bytes) := by
    rw [InfoCall.env, hhost]
    rfl
  rw [hanswer, submitCommandSync, overtake_alone (by exact overwritten_alone halone),
    contents_write rfl rfl] at hdevice
  exact kept_of_device_ok hasks hsends hdevice

omit [DecidableEq α] in
theorem contents_of_getBuffer {b : QueryBuffer} {env : QueryEnv} (hb : s.getBuffer env = .ok b) :
    { s with buffer := some b }.contents = s.contents := by
  unfold getBuffer at hb
  cases hbuffer : s.buffer with
  | some =>
    rw [hbuffer] at hb
    cases hb
    simp [contents, hbuffer]
  | none =>
    rw [hbuffer] at hb
    cases hnew : env.newBuffer with
    | error =>
      rw [hnew] at hb
      cases hb
    | ok =>
      rw [hnew] at hb
      cases hb
      simp [contents, hbuffer]

theorem kept_of_rejected {hdrType : ℕ} (hasks : c.Asks allocs)
    (hsends : s.Sends allocs.toQueriedAllocs c.alloc c.env)
    (halone : s.late = 0 ∨ c.overwritten = none) (hhost : c.host = .rejected hdrType) :
    (s.askLayout allocs c).2.kept c.alloc = some s.contents := by
  obtain ⟨context, b, hb, hdevice⟩ := deviceQueryLayout_of_sends hsends
  have hanswer : c.env.answer = .rejected hdrType := by
    rw [InfoCall.env, hhost]
    rfl
  rw [hanswer, submitCommandSync, overtake_alone (by exact overwritten_alone halone),
    contents_of_getBuffer hb] at hdevice
  exact kept_of_device_ok hasks hsends hdevice

/-! ### One escape -/

/-- No allocation keeps a layout with more than four planes. -/
def KeptFits (s : LayoutState α) : Prop :=
  ∀ a layout, s.kept a = some layout → layout.numPlanes ≤ 4

/-- The layout that an escape gets has at most four planes. -/
def FourPlanes (allocs : InfoAllocs α) (s : LayoutState α) : InfoAct α → Prop
  | .escape c => ∀ layout, (s.askLayout allocs c).1 = .ok (some layout) → layout.numPlanes ≤ 4
  | .executed .. => True

/-- The escape returns.  For a 3D resource the planes it returns, if any, are those of the layout
that the allocation keeps: the one it had, or the one in the query buffer, which is what the host
has just written unless it rejects the query or a query that timed out gets in between. -/
def Completes (allocs : InfoAllocs α) (s : LayoutState α) : InfoAct α → Prop
  | .escape c => ∃ r s', s.resourceInfo allocs c = .next (r, s') ∧
      (∀ id info, r = .ok ⟨id, .threeD info⟩ → info.numPlanes ≠ 0 →
        ∃ layout, s'.kept c.alloc = some layout ∧ info.ShowsPlanes layout) ∧
      (∀ layout, s.kept c.alloc = some layout → s'.kept c.alloc = some layout) ∧
      (c.Asks allocs → s.Sends allocs.toQueriedAllocs c.alloc c.env →
        s.late = 0 ∨ c.overwritten = none →
        (∀ bytes, c.host = .wrote bytes → s'.kept c.alloc = some (.readFromPrefix bytes)) ∧
        ∀ hdrType, c.host = .rejected hdrType → s'.kept c.alloc = some s.contents)
  | .executed .. => True

theorem Asked.kept_of_kept {r : Except NtStatus (Option VirglResourceLayout)} {a : α}
    (h : Asked s a r s') (hkept : s.kept a = some layout) :
    s'.kept a = some layout := by
  cases h with
  | failed e s' hsame => rw [hsame, hkept]
  | unknown s' hsame => rw [hsame, hkept]
  | known layout' s' hold hnew =>
    rw [hkept] at hold
    cases hold with
    | inl hnone => cases hnone
    | inr hsome => rw [hnew, Function.update_self, ← hsome]

theorem KeptFits.asked {r : Except NtStatus (Option VirglResourceLayout)} {a : α}
    (h : s.KeptFits) (hasked : Asked s a r s')
    (hr : ∀ layout, r = .ok (some layout) → layout.numPlanes ≤ 4) : s'.KeptFits := by
  intro a' layout' ha'
  cases hasked with
  | failed e s' hkept => exact h a' layout' (hkept ▸ ha')
  | unknown s' hkept => exact h a' layout' (hkept ▸ ha')
  | known layout s' hold hkept =>
    rw [hkept] at ha'
    by_cases haa : a' = a
    · subst haa
      rw [Function.update_self, Option.some.injEq] at ha'
      exact ha' ▸ hr layout rfl
    · rw [Function.update_of_ne haa] at ha'
      exact h a' layout' ha'

omit [DecidableEq α] in
theorem KeptFits.getD (h : s.KeptFits) (a : α) : ((s.kept a).getD .unknown).numPlanes ≤ 4 := by
  cases hkept : s.kept a with
  | none => exact Nat.zero_le 4
  | some layout => exact h a layout hkept

theorem resourceInfo_of_ok {layout : Option VirglResourceLayout} (h3d : allocs.is3d c.alloc)
    (hask : s.askLayout allocs c = (.ok layout, s')) :
    s.resourceInfo allocs c =
      match (allocs.create c.alloc).intoInfo (allocs.size c.alloc) (s.kept c.alloc) with
      | none => .panic .planeIndex
      | some info => match info.setLayout (layout.getD .unknown) with
        | none => .panic .planeSlice
        | some info => .next (.ok ⟨allocs.id c.alloc, .threeD info⟩, s') := by
  simp only [resourceInfo, hask, h3d, if_true]

/-- A layout with more than four planes that the allocation keeps: the conversion panics. -/
theorem resourceInfo_of_kept (h3d : allocs.is3d c.alloc) (hkept : s.kept c.alloc = some layout)
    (hn : 4 < layout.numPlanes) :
    s.resourceInfo allocs c = .panic .planeIndex := by
  have hinto : (allocs.create c.alloc).intoInfo (allocs.size c.alloc) (s.kept c.alloc) = none := by
    rw [Allocate3d.intoInfo_eq, hkept]
    exact if_neg (Nat.not_le.2 hn)
  by_cases hasks : c.Asks allocs
  · have hask : s.askLayout allocs c = (.ok (some layout), s.note c.alloc (.ok (some layout))) := by
      simp only [askLayout, if_pos hasks, queryLayout, if_pos h3d, hkept]
    rw [resourceInfo_of_ok h3d hask, hinto]
  · rw [resourceInfo_of_ok h3d (if_neg hasks), hinto]

/-- If no layout that is kept has more than four planes, the slice decides. -/
theorem KeptFits.resourceInfo {layout : Option VirglResourceLayout} (h : s.KeptFits)
    (h3d : allocs.is3d c.alloc) (hask : s.askLayout allocs c = (.ok layout, s')) :
    ∃ info : Allocate3dFull, s.resourceInfo allocs c =
      if (layout.getD .unknown).numPlanes ≤ 4 then
        .next (.ok ⟨allocs.id c.alloc, .threeD (info.withLayout (layout.getD .unknown))⟩, s')
      else .panic .planeSlice := by
  obtain ⟨info, hinto⟩ : ∃ info,
      (allocs.create c.alloc).intoInfo (allocs.size c.alloc) (s.kept c.alloc) = some info := by
    rw [Allocate3d.intoInfo_eq]
    exact ⟨_, if_pos (h.getD c.alloc)⟩
  refine ⟨info, ?_⟩
  rw [resourceInfo_of_ok h3d hask, hinto]
  simp only [Allocate3dFull.setLayout_eq]
  by_cases hn : (layout.getD .unknown).numPlanes ≤ 4
  · simp only [if_pos hn]
  · simp only [if_neg hn]

theorem resourceInfo_of_blob (h3d : ¬ allocs.is3d c.alloc) :
    s.resourceInfo allocs c = .next (.ok ⟨allocs.id c.alloc, .blob⟩, s) := by
  have hask : s.askLayout allocs c = (.ok none, s) := if_neg fun hasks => h3d hasks.1
  simp only [LayoutState.resourceInfo, hask, if_neg h3d]

theorem completes_of_next
    (hs : (s.askLayout allocs c).2 = s') (hnext : s.resourceInfo allocs c = .next (r, s'))
    (hplanes : ∀ id info, r = .ok ⟨id, .threeD info⟩ → info.numPlanes ≠ 0 →
      ∃ layout, s'.kept c.alloc = some layout ∧ info.ShowsPlanes layout) :
    s.Completes allocs (.escape c) := by
  subst hs
  exact ⟨r, _, hnext, hplanes, fun _ hkept => (asked_askLayout allocs s c).kept_of_kept hkept,
    fun hasks hsends halone => ⟨fun _ => kept_of_wrote hasks hsends halone,
      fun _ => kept_of_rejected hasks hsends halone⟩⟩

theorem completes_of_no_layout (hno : ∀ layout, (s.askLayout allocs c).1 ≠ .ok (some layout))
    (hs : (s.askLayout allocs c).2 = s') (hnext : s.resourceInfo allocs c = .next (r, s'))
    (hnone : ∀ id info, r = .ok ⟨id, .threeD info⟩ → info.numPlanes = 0) :
    s.Completes allocs (.escape c) ↔ s.FourPlanes allocs (.escape c) := by
  refine iff_of_true (completes_of_next hs hnext ?_)
    fun layout hlayout => absurd hlayout (hno layout)
  exact fun id info hr hn => absurd (hnone id info hr) hn

/-- **One escape** returns, with the planes of the host, exactly if the layout it gets has at most
four planes. -/
theorem completes_iff (h : s.KeptFits) :
    s.Completes allocs act ↔ s.FourPlanes allocs act := by
  cases act with
  | executed => exact Iff.rfl
  | escape c =>
    by_cases h3d : allocs.is3d c.alloc
    · have hasked := asked_askLayout allocs s c
      rcases hask : s.askLayout allocs c with ⟨r, s'⟩
      simp only [hask] at hasked
      cases hasked with
      | failed e _ =>
        have hnext : s.resourceInfo allocs c = .next (.error e, s') := by
          simp only [LayoutState.resourceInfo, hask]
        refine completes_of_no_layout ?_ (congrArg Prod.snd hask) hnext ?_
        · simp [hask]
        · intro id info hr
          cases hr
      | unknown _ =>
        obtain ⟨info, hinfo⟩ := h.resourceInfo h3d hask
        rw [if_pos (by exact VirglResourceLayout.numPlanes_unknown)] at hinfo
        refine completes_of_no_layout ?_ (congrArg Prod.snd hask) hinfo ?_
        · simp [hask]
        · intro id info' hr
          cases hr
          rfl
      | known layout _ hold hkept =>
        have hfour : s.FourPlanes allocs (.escape c) ↔ layout.numPlanes ≤ 4 := by
          simp [FourPlanes, hask]
        obtain ⟨info, hinfo⟩ := h.resourceInfo h3d hask
        rw [hfour]
        by_cases hn : layout.numPlanes ≤ 4
        · rw [if_pos (by exact hn)] at hinfo
          refine iff_of_true (completes_of_next (congrArg Prod.snd hask) hinfo ?_) hn
          intro id info' hr _
          cases hr
          refine ⟨layout, ?_, Allocate3dFull.showsPlanes_withLayout⟩
          rw [hkept, Function.update_self]
        · refine iff_of_false ?_ hn
          rintro ⟨r, s'', hnext, -⟩
          rw [hinfo, if_neg (by exact hn)] at hnext
          cases hnext
    · have hask : s.askLayout allocs c = (.ok none, s) := if_neg fun hasks => h3d hasks.1
      refine completes_of_no_layout ?_ (congrArg Prod.snd hask) (resourceInfo_of_blob h3d) ?_
      · simp [hask]
      · intro id info hr
        cases hr

/-! ### Any number of escapes -/

theorem snd_of_resourceInfo (hnext : s.resourceInfo allocs c = .next (r, s')) :
    s' = (s.askLayout allocs c).2 := by
  by_cases h3d : allocs.is3d c.alloc
  · rcases hask : s.askLayout allocs c with ⟨e | layout, s''⟩
    · simp only [LayoutState.resourceInfo, hask, Outcome.next.injEq, Prod.mk.injEq] at hnext
      exact hnext.2.symm
    · rw [resourceInfo_of_ok h3d hask] at hnext
      split at hnext
      · cases hnext
      · split at hnext
        · cases hnext
        · cases hnext
          rfl
  · rw [resourceInfo_of_blob h3d] at hnext
    rw [askLayout, if_neg fun hasks => h3d hasks.1]
    cases hnext
    rfl

/-- The queries that the escapes make. -/
def queries (allocs : InfoAllocs α) : InfoAct α → Option (LayoutAct α)
  | .escape c => if c.Asks allocs then some (.query c.alloc c.env) else none
  | .executed cmd bytes => some (.executed cmd (bytes.map .readFromPrefix))

theorem step_queries (hstep : (infoMachine allocs).step s act = .next s') :
    (∃ query, queries allocs act = some query ∧ s.step allocs.toQueriedAllocs query = .next s') ∨
      queries allocs act = none ∧ s' = s := by
  cases act with
  | executed =>
    refine .inl ⟨_, rfl, ?_⟩
    simp only [infoMachine] at hstep
    split at hstep
    · next hnext => exact hnext.trans (congrArg _ (Outcome.next.inj hstep))
    · cases hstep
  | escape c =>
    obtain ⟨⟨r, s''⟩, hnext, hs⟩ := Outcome.bind_eq_next.1 hstep
    cases hs
    obtain rfl := snd_of_resourceInfo hnext
    by_cases hasks : c.Asks allocs
    · refine .inl ⟨.query c.alloc c.env, if_pos hasks, ?_⟩
      rw [askLayout, if_pos hasks]
      rfl
    · refine .inr ⟨if_neg hasks, ?_⟩
      rw [askLayout, if_neg hasks]

/-- **Escapes are queries**: a run of escapes leads to the state that the queries lead to which they
make, so that what is true of the layouts that queries return is true here. -/
theorem run_queries {acts : List (InfoAct α)} (hrun : (infoMachine allocs).run s acts = some s') :
    (layoutMachine allocs.toQueriedAllocs).run s (acts.filterMap (queries allocs)) = some s' := by
  induction acts generalizing s with
  | nil => exact hrun
  | cons act acts ih =>
    obtain ⟨s₁, hstep, hrest⟩ := Machine.run_cons_eq_some.1 hrun
    rcases step_queries hstep with ⟨query, hquery, hnext⟩ | ⟨hnone, rfl⟩
    · rw [List.filterMap_cons_some hquery]
      exact (Machine.run_cons_next hnext).trans (ih hrest)
    · rw [List.filterMap_cons_none hnone]
      exact ih hrest

/-- A layout with more than four planes does not outlive the escape that gets it. -/
theorem KeptFits.step (h : s.KeptFits) (hstep : (infoMachine allocs).step s act = .next s') :
    s'.KeptFits := by
  cases act with
  | executed =>
    obtain ⟨query, hquery, hnext⟩ | ⟨hnone, -⟩ := step_queries hstep
    · cases hquery
      obtain ⟨-, -, hkept, -⟩ := executed_cases hnext
      exact fun a layout ha => h a layout (hkept ▸ ha)
    · cases hnone
  | escape c =>
    obtain ⟨⟨r, s''⟩, hnext, hs⟩ := Outcome.bind_eq_next.1 hstep
    cases hs
    obtain rfl := snd_of_resourceInfo hnext
    refine h.asked (asked_askLayout allocs s c) fun layout hlayout => ?_
    by_cases h3d : allocs.is3d c.alloc
    · by_contra hn
      have hask : s.askLayout allocs c = (.ok (some layout), (s.askLayout allocs c).2) :=
        Prod.ext hlayout rfl
      obtain ⟨info, hinfo⟩ := h.resourceInfo h3d hask
      rw [hinfo, if_neg (by exact hn)] at hnext
      cases hnext
    · rw [askLayout, if_neg fun hasks => h3d hasks.1] at hlayout
      cases hlayout

end LayoutState

/-- **When every escape returns the planes of the host**: exactly if every layout that an escape
gets has at most four planes.  Where an allocation keeps a layout with more, every escape on it
panics. -/
theorem planes_iff {α : Type} [DecidableEq α] (allocs : InfoAllocs α) (acts : List (InfoAct α)) :
    ((infoMachine allocs).Meets (LayoutState.Completes allocs) .init acts ↔
      (infoMachine allocs).Meets (LayoutState.FourPlanes allocs) .init acts) ∧
    ∀ (s : LayoutState α) (c : InfoCall α) (layout : VirglResourceLayout),
      allocs.is3d c.alloc → s.kept c.alloc = some layout → 4 < layout.numPlanes →
        s.resourceInfo allocs c = .panic .planeIndex := by
  constructor
  · have htrue : (infoMachine allocs).Meets (fun _ _ => True) .init acts :=
      Machine.meets_of_forall_mem fun _ _ => trivial
    refine Machine.meets_iff_meets (I := LayoutState.KeptFits) (fun _ _ _ h hstep => h.step hstep)
      (fun _ _ h _ => LayoutState.completes_iff h) ?_ htrue
    intro a layout ha
    cases ha
  · intro s c layout h3d hkept hn
    exact LayoutState.resourceInfo_of_kept h3d hkept hn

def oneTexture : InfoAllocs Unit where
  id _ := 1
  is3d _ := true
  create _ := ⟨2, 1, 2, 16, 16, 1, 1, 0, 0, 0⟩
  size _ := 4096

/-- What the host writes for a resource with that many planes. -/
def layoutBytes (numPlanes : UInt8) : Bytes 80 :=
  ⟨List.replicate 8 0 ++ numPlanes :: List.replicate 7 0 ++ List.replicate 64 1, rfl⟩

/-- An escape that asks for the layout. -/
def askingEscape (host : LayoutAnswer) : InfoCall Unit :=
  ⟨(), drmFormatModInvalid, true, some 5, .ok (), .ok (), .ok 7, host, none⟩

/-- Two planes, which the second escape does not query again. -/
theorem planes_iff_twoPlanes :
    (infoMachine oneTexture).Meets (LayoutState.Completes oneTexture) .init
      [.escape (askingEscape (.wrote (layoutBytes 2))),
        .escape (askingEscape (.rejected 0x1200))] := by
  refine (planes_iff oneTexture _).1.2 ⟨fun layout h => ?_, fun s hs => ⟨fun layout h => ?_, ?_⟩⟩
  · rw [← Option.some.inj (Except.ok.inj h)]
    decide
  · cases hs
    rw [← Option.some.inj (Except.ok.inj h)]
    decide
  · exact fun _ _ => trivial

theorem run_queries_twoPlanes :
    ∃ s, (layoutMachine oneTexture.toQueriedAllocs).run .init
      ([InfoAct.escape (askingEscape (.wrote (layoutBytes 2)))].filterMap
        (LayoutState.queries oneTexture)) = some s :=
  ⟨_, LayoutState.run_queries rfl⟩

/-- What the query of this escape leaves. -/
def afterFivePlanes : LayoutState Unit :=
  (LayoutState.init.askLayout oneTexture (askingEscape (.wrote (layoutBytes 5)))).2

/-- The host writes that the resource has five planes.  The escape panics, but the allocation keeps
the layout, and every later escape panics too. -/
theorem fifth_plane :
    ¬ (infoMachine oneTexture).Meets (LayoutState.Completes oneTexture) .init
        [.escape (askingEscape (.wrote (layoutBytes 5)))] ∧
      LayoutState.init.resourceInfo oneTexture (askingEscape (.wrote (layoutBytes 5))) =
        .panic .planeSlice ∧
      (afterFivePlanes.kept ()).map (·.numPlanes) = some 5 ∧
      ∀ host, afterFivePlanes.resourceInfo oneTexture (askingEscape host) = .panic .planeIndex := by
  refine ⟨?_, rfl, rfl, fun host => rfl⟩
  rintro ⟨⟨r, s', hnext, -⟩, -⟩
  cases hnext

end VirtioGpu
