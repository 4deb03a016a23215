import VirtioGpu.Display.Pointer

/-!
# What the host shows of the pointer

The hot spot of a shape goes through three functions with the order of its coordinates changed on
the way.  The two ways to a cursor do not agree: a shape that makes the cursor gets its hot spot as
it is, and one that finds a cursor gets it with the coordinates swapped.

Whether the cursor is hidden is a field of the cursor.  A shape is shown without a look at it, so a
pointer that is hidden comes back with the next shape.

* `hotspots_iff` : every update has the hot spot of the last shape exactly if every shape that finds
  a cursor has its hot spot on the diagonal; `hotspotSwapped` is an example of another one.
* `shown_iff` : the pointer is shown exactly when it is visible, exactly if no shape is set while it
  is not; `hiddenPointerShown` sets one.
-/

namespace VirtioGpu

/-- The pointer of an output, with what it should look like. -/
structure PointerState where
  cursor : Option Cursor
  /-- `XHot` and `YHot` of the last shape. -/
  lastShape : Option (UInt32 × UInt32)
  /-- `Visible` of the last position. -/
  lastVisible : Option Bool
  /-- The commands that have been sent, the last one first, with the hot spot of the last shape at
  that time. -/
  sent : List (CursorCommand × Option (UInt32 × UInt32))

/-- A call for the output, and what it meets.  The modes of the output may be others each time. -/
inductive PointerAct where
  /-- `SetPointerPosition` -/
  | position (o : VidPnOutput) (visible : Bool) (x y : Int32) (env : PointerEnv)
  /-- `SetPointerShape` -/
  | shape (shape : PointerShape) (env : PointerEnv)

/-- What the call meets. -/
def PointerAct.env : PointerAct → PointerEnv
  | .position _ _ _ _ env => env
  | .shape _ env => env

namespace PointerState

/-- A new output. -/
def init : PointerState := ⟨none, none, none, []⟩

def after (r : PointerCall) (lastShape : Option (UInt32 × UInt32)) (lastVisible : Option Bool)
    (sent : List (CursorCommand × Option (UInt32 × UInt32))) : PointerState :=
  ⟨r.cursor, lastShape, lastVisible, r.sent.toList.map (·, lastShape) ++ sent⟩

/-- A call that goes well.  A resource that is created has not the id of the empty cursor, which is
in use. -/
def step (scanout : ℕ) (empty : Cursor) (s : PointerState) (a : PointerAct) :
    Outcome PointerState Unit :=
  if a.env.newResource = .ok empty.id then .stuck
  else match a with
  | .position o visible x y env =>
    let r := o.setPointerPosition scanout empty visible x y env s.cursor
    if r.result = .ok () then .next (after r s.lastShape (some visible) s.sent) else .stuck
  | .shape shape env =>
    let r := VidPnOutput.setPointerShape scanout shape env s.cursor
    if r.result = .ok () then
      if shape.format = .unsupported then .next s
      else .next (after r (some (shape.xHot, shape.yHot)) s.lastVisible s.sent)
    else .stuck

end PointerState

def pointerMachine (scanout : ℕ) (empty : Cursor) : Machine PointerState PointerAct Unit where
  step := PointerState.step scanout empty

inductive PointerState.StepCase (scanout : ℕ) (empty : Cursor) (s : PointerState) :
    PointerAct → PointerState → Prop
  | position {o : VidPnOutput} {visible : Bool} {x y : Int32} {env : PointerEnv}
      (cursor : Option Cursor) (sent : Option CursorCommand)
      (h : PositionCase scanout empty env visible s.cursor cursor sent) :
      StepCase scanout empty s (.position o visible x y env)
        ⟨cursor, s.lastShape, some visible, sent.toList.map (·, s.lastShape) ++ s.sent⟩
  | shape {shape : PointerShape} {env : PointerEnv} (c : Cursor)
      (hformat : shape.format ≠ .unsupported)
      (h : VidPnOutput.PreparedFrom shape.xHot shape.yHot env c s.cursor) :
      StepCase scanout empty s (.shape shape env)
        ⟨some c, some (shape.xHot, shape.yHot), s.lastVisible,
          (.update scanout c.id c.hotspot c.position, some (shape.xHot, shape.yHot)) :: s.sent⟩
  | unsupported {shape : PointerShape} {env : PointerEnv} (hformat : shape.format = .unsupported) :
      StepCase scanout empty s (.shape shape env) s

namespace PointerState

variable {scanout : ℕ} {empty : Cursor} {s s' : PointerState} {a : PointerAct}

theorem stepCase (h : (pointerMachine scanout empty).step s a = .next s') :
    a.env.newResource ≠ .ok empty.id ∧ s.StepCase scanout empty a s' := by
  simp only [pointerMachine, step] at h
  by_cases hfresh : a.env.newResource = .ok empty.id
  · rw [if_pos hfresh] at h
    cases h
  refine ⟨hfresh, ?_⟩
  rw [if_neg hfresh] at h
  cases a with
  | position =>
    simp only at h
    split at h
    · next hok =>
      rw [← Outcome.next.inj h]
      exact .position _ _ (VidPnOutput.positionCase hok)
    · cases h
  | shape shape =>
    simp only at h
    split at h
    · next hok =>
      split at h
      · next hformat =>
        rw [← Outcome.next.inj h]
        exact .unsupported hformat
      · next hformat =>
        obtain ⟨c, hcursor, hsent, hfrom⟩ := VidPnOutput.setPointerShape_ok hformat hok
        rw [← Outcome.next.inj h, after, hcursor, hsent]
        exact .shape c hformat hfrom
    · cases h

/-- The cursor is not the empty one, and there is one if a shape has been set. -/
structure Consistent (empty : Cursor) (s : PointerState) : Prop where
  distinct : ∀ c, s.cursor = some c → c.id ≠ empty.id
  made : s.cursor = none → s.lastShape = none

theorem Consistent.init (empty : Cursor) : Consistent empty .init where
  distinct _ hc := by cases hc
  made _ := rfl

theorem Consistent.prepared {yHot xHot : UInt32} {env : PointerEnv} {c : Cursor}
    (hs : s.Consistent empty) (hfresh : env.newResource ≠ .ok empty.id)
    (h : VidPnOutput.PreparedFrom yHot xHot env c s.cursor) : c.id ≠ empty.id := by
  cases hc : s.cursor with
  | none =>
    rw [hc] at h
    intro hid
    exact hfresh (hid ▸ h.1)
  | some c₀ =>
    rw [hc] at h
    rw [h.1]
    exact hs.distinct c₀ hc

theorem Consistent.step (hs : s.Consistent empty)
    (h : (pointerMachine scanout empty).step s a = .next s') : s'.Consistent empty := by
  obtain ⟨hfresh, hcase⟩ := stepCase h
  cases hcase with
  | unsupported => exact hs
  | shape c _ hfrom =>
    refine ⟨fun c' hc => ?_, fun hnone => ?_⟩
    · cases hc
      exact hs.prepared hfresh hfrom
    · cases hnone
  | position cursor sent hpos =>
    generalize hbefore : s.cursor = before at hpos
    cases hpos with
    | hidden c₀ | unhidden c₀ _ _ | moved c₀ _ _ =>
      refine ⟨fun c hc => ?_, fun hnone => ?_⟩
      · cases hc
        exact hs.distinct c₀ hbefore
      · cases hnone
    | hiddenNone => exact ⟨nofun, fun _ => hs.made hbefore⟩
    | created c₀ hid _ =>
      refine ⟨fun c hc heq => ?_, fun hnone => ?_⟩
      · cases hc
        exact hfresh (heq ▸ hid)
      · cases hnone

/-! ### Hot spots -/

/-- If the command shows the cursor, it has the hot spot of the last shape. -/
def RightHotspot (empty : Cursor) : CursorCommand × Option (UInt32 × UInt32) → Prop
  | (.update _ resource hot _, some last) => resource ≠ empty.id → hot = last
  | _ => True

/-- Every update that shows the cursor has the hot spot of the last shape. -/
def HotspotsRight (empty : Cursor) (s : PointerState) : Prop :=
  ∀ x ∈ s.sent, RightHotspot empty x

/-- A shape that finds a cursor has its hot spot on the diagonal. -/
def OnDiagonal (s : PointerState) : PointerAct → Prop
  | .shape shape _ =>
    shape.format ≠ .unsupported → s.cursor.isSome → shape.xHot = shape.yHot
  | .position _ _ _ _ _ => True

/-- The cursor has the hot spot of the last shape. -/
def HotspotKept (s : PointerState) : Prop :=
  ∀ c hot, s.cursor = some c → s.lastShape = some hot → c.hotspot = hot

theorem rightHotspot_update {resource : ℕ} {hot position : UInt32 × UInt32}
    {last : Option (UInt32 × UInt32)}
    (h : ∀ hot', last = some hot' → resource ≠ empty.id → hot = hot') :
    RightHotspot empty (.update scanout resource hot position, last) := by
  cases last with
  | none => trivial
  | some hot' => exact h hot' rfl

theorem position_hotspots {env : PointerEnv} {visible : Bool} {cursor : Option Cursor}
    {sent : Option CursorCommand}
    (h : PositionCase scanout empty env visible s.cursor cursor sent)
    (hs : s.Consistent empty) (hkept : s.HotspotKept) :
    (∀ cmd, sent = some cmd → RightHotspot empty (cmd, s.lastShape)) ∧
      ∀ c hot, cursor = some c → s.lastShape = some hot → c.hotspot = hot := by
  generalize hbefore : s.cursor = before at h
  cases h with
  | hidden c =>
    refine ⟨fun cmd hcmd => ?_, fun c' hot hc hlast => ?_⟩
    · cases hcmd
      exact rightHotspot_update fun _ _ hne => absurd rfl hne
    · cases hc
      exact hkept c hot hbefore hlast
  | hiddenNone =>
    refine ⟨fun cmd hcmd => ?_, fun c' hot hc hlast => ?_⟩
    · cases hcmd
      exact rightHotspot_update fun _ _ hne => absurd rfl hne
    · cases hc
  | unhidden c =>
    refine ⟨fun cmd hcmd => ?_, fun c' hot hc' hlast => ?_⟩
    · cases hcmd
      exact rightHotspot_update fun hot hlast _ => hkept c hot hbefore hlast
    · cases hc'
      exact hkept c hot hbefore hlast
  | moved c =>
    refine ⟨fun cmd hcmd => ?_, fun c' hot hc' hlast => ?_⟩
    · cases hcmd
      trivial
    · cases hc'
      exact hkept c hot hbefore hlast
  | created =>
    refine ⟨fun cmd hcmd => ?_, fun c' hot hc' hlast => ?_⟩
    · cases hcmd
    · rw [hs.made hbefore] at hlast
      cases hlast

theorem shape_hotspots {shape : PointerShape} {env : PointerEnv} {c : Cursor}
    (hformat : shape.format ≠ .unsupported)
    (h : VidPnOutput.PreparedFrom shape.xHot shape.yHot env c s.cursor) :
    c.hotspot = (shape.xHot, shape.yHot) ↔ s.OnDiagonal (.shape shape env) := by
  cases hbefore : s.cursor with
  | none =>
    rw [hbefore] at h
    simp [OnDiagonal, hbefore, h.2.1]
  | some =>
    rw [hbefore] at h
    simp only [OnDiagonal, hbefore, h.2.1, Prod.mk.injEq]
    constructor
    · exact fun hboth _ _ => hboth.2
    · intro hdiag
      have heq := hdiag hformat rfl
      exact ⟨heq.symm, heq⟩

theorem hotspots_step (hs : s.Consistent empty) (hkept : s.HotspotsRight empty → s.HotspotKept)
    (h : (pointerMachine scanout empty).step s a = .next s') :
    (s'.HotspotsRight empty ↔ s.HotspotsRight empty ∧ s.OnDiagonal a) ∧
      (s'.HotspotsRight empty → s'.HotspotKept) := by
  obtain ⟨hfresh, hcase⟩ := stepCase h
  cases hcase with
  | @unsupported shape env hformat =>
    exact ⟨(and_iff_left fun hne => absurd hformat hne).symm, hkept⟩
  | @shape shape env c hformat hfrom =>
    have hne := hs.prepared hfresh hfrom
    have hright : RightHotspot empty (.update scanout c.id c.hotspot c.position,
        some (shape.xHot, shape.yHot)) ↔ s.OnDiagonal (.shape shape env) := by
      rw [← shape_hotspots hformat hfrom]
      exact ⟨fun h => h hne, fun h _ => h⟩
    have hiff : HotspotsRight empty ⟨some c, some (shape.xHot, shape.yHot), s.lastVisible,
        (.update scanout c.id c.hotspot c.position, some (shape.xHot, shape.yHot)) :: s.sent⟩ ↔
        s.HotspotsRight empty ∧ s.OnDiagonal (.shape shape env) := by
      unfold HotspotsRight
      rw [List.forall_mem_cons, hright, and_comm]
    refine ⟨hiff, fun hall c' hot hc hlast => ?_⟩
    cases hc
    cases hlast
    exact (shape_hotspots hformat hfrom).2 (hiff.1 hall).2
  | @position o visible x y env cursor sent hpos =>
    have hiff : HotspotsRight empty ⟨cursor, s.lastShape, some visible,
        sent.toList.map (·, s.lastShape) ++ s.sent⟩ ↔ s.HotspotsRight empty := by
      refine ⟨fun hall x hx => hall x (List.mem_append_right _ hx), fun hall x hx => ?_⟩
      rcases List.mem_append.1 hx with hx | hx
      · obtain ⟨cmd, hcmd, rfl⟩ := List.mem_map.1 hx
        exact (position_hotspots hpos hs (hkept hall)).1 cmd (Option.mem_toList.1 hcmd)
      · exact hall x hx
    refine ⟨hiff.trans (and_iff_left trivial).symm, fun hall => ?_⟩
    exact (position_hotspots hpos hs (hkept (hiff.1 hall))).2

end PointerState

/-- **The two ways to a cursor swap the hot spot differently.**  For every output and every sequence
of calls that go well, every update that shows the pointer has the hot spot of the last shape
exactly if every shape that is set while there is a cursor has its hot spot on the diagonal. -/
theorem hotspots_iff (scanout : ℕ) (empty : Cursor) {acts : List PointerAct} {t : PointerState}
    (hrun : (pointerMachine scanout empty).run .init acts = some t) :
    t.HotspotsRight empty ↔
      (pointerMachine scanout empty).Meets PointerState.OnDiagonal .init acts := by
  refine Machine.iff_meets_of_step (I := fun s => s.Consistent empty ∧
    (s.HotspotsRight empty → s.HotspotKept)) (fun s a s' hs h => ?_)
    (fun s a s' hs h => (PointerState.hotspots_step hs.1 hs.2 h).1)
    ⟨.init empty, fun _ c _ hc => by cases hc⟩
    (by simp [PointerState.HotspotsRight, PointerState.init]) hrun
  exact ⟨hs.1.step h, (PointerState.hotspots_step hs.1 hs.2 h).2⟩

/-- Calls in which nothing fails. -/
def PointerEnv.fine (id : ℕ) : PointerEnv := ⟨.ok id, .ok (), .ok ()⟩

/-- The empty cursor of the examples. -/
def Cursor.blank : Cursor := ⟨.zeroed 64 64, 1, (0, 0), (0, 0), false⟩

/-- The framebuffer of the cursor has its size. -/
def PointerState.Sized (s : PointerState) : Prop :=
  ∀ c, s.cursor = some c → c.pixels.width = 64 ∧ c.pixels.height = 64

theorem step_onePixel (xHot yHot : UInt32) {s : PointerState} (hs : s.Sized) :
    ∃ s' c, (pointerMachine 0 .blank).step s (.shape (.onePixel xHot yHot) (.fine 2)) = .next s' ∧
      s'.Sized ∧ VidPnOutput.PreparedFrom xHot yHot (.fine 2) c s.cursor ∧ s'.cursor = some c ∧
      s'.lastShape = some (xHot, yHot) ∧ s'.lastVisible = s.lastVisible ∧
      s'.sent = (.update 0 c.id c.hotspot c.position, some (xHot, yHot)) :: s.sent := by
  obtain ⟨c, hprep, hw, hh⟩ : ∃ c, VidPnOutput.prepareCursor xHot yHot (.fine 2) s.cursor = .ok c ∧
      c.pixels.width = 64 ∧ c.pixels.height = 64 := by
    cases hc : s.cursor with
    | none => exact ⟨_, rfl, rfl, rfl⟩
    | some c => exact ⟨_, rfl, hs c hc⟩
  obtain ⟨fb, hwrite, hw', hh', -⟩ := PointerShape.onePixel_write xHot yHot c.pixels hw hh
  have hcall : VidPnOutput.setPointerShape 0 (.onePixel xHot yHot) (.fine 2) s.cursor =
      ⟨.ok (), some { c with pixels := fb }, some (.update 0 c.id c.hotspot c.position)⟩ := by
    simp only [PointerShape.write, PointerShape.onePixel] at hwrite
    simp only [VidPnOutput.setPointerShape, PointerShape.onePixel, VidPnOutput.updateCursorBgra,
      VidPnOutput.updateCursor, hprep, hwrite]
    rfl
  have hfresh : (PointerAct.shape (.onePixel xHot yHot) (.fine 2)).env.newResource ≠
      .ok Cursor.blank.id := by
    simp [PointerAct.env, PointerEnv.fine, Cursor.blank]
  refine ⟨⟨some { c with pixels := fb }, some (xHot, yHot), s.lastVisible,
    (.update 0 c.id c.hotspot c.position, some (xHot, yHot)) :: s.sent⟩, { c with pixels := fb },
    ?_, ?_, ?_, rfl, rfl, rfl, rfl⟩
  · simp only [pointerMachine, PointerState.step, if_neg hfresh, hcall]
    rfl
  · rintro c' hc'
    cases hc'
    exact ⟨hw', hh'⟩
  · have hfrom := VidPnOutput.prepareCursor_ok hprep
    cases hc : s.cursor with
    | none => rwa [hc] at hfrom
    | some => rwa [hc] at hfrom

/-- The first shape makes the cursor; the hot spot of the second one is sent the other way round. -/
theorem run_twoShapes (x y x' y' : UInt32) : ∃ t position,
    (pointerMachine 0 .blank).run .init
        [.shape (.onePixel x y) (.fine 2), .shape (.onePixel x' y') (.fine 2)] = some t ∧
      t.sent.head? = some (.update 0 2 (y', x') position, some (x', y')) := by
  obtain ⟨s, c₁, hstep₁, hsized, hfrom₁, hcursor, -⟩ := step_onePixel x y (s := .init) nofun
  obtain ⟨t, c₂, hstep₂, -, hfrom₂, -, -, -, hsent⟩ := step_onePixel x' y' hsized
  rw [hcursor] at hfrom₂
  have hid : c₂.id = 2 := hfrom₂.1.trans (Except.ok.inj hfrom₁.1).symm
  refine ⟨t, c₂.position, ?_, ?_⟩
  · rw [Machine.run_cons_next hstep₁, Machine.run_cons_next hstep₂, Machine.run_nil]
  · rw [hsent, List.head?_cons, hid, hfrom₂.2.1]

/-- The second shape is on the diagonal. -/
theorem hotspots_iff_replaced :
    ∃ t position, (pointerMachine 0 .blank).run .init
        [.shape (.onePixel 3 7) (.fine 2), .shape (.onePixel 5 5) (.fine 2)] = some t ∧
      t.sent.head? = some (.update 0 2 (5, 5) position, some (5, 5)) ∧ t.HotspotsRight .blank := by
  obtain ⟨t, position, hrun, hsent⟩ := run_twoShapes 3 7 5 5
  refine ⟨t, position, hrun, hsent,
    (hotspots_iff 0 .blank hrun).2 ⟨fun _ hsome => ?_, fun _ _ => ⟨fun _ _ => rfl, ?_⟩⟩⟩
  · cases hsome
  · exact fun _ _ => trivial

/-- The second shape, with its hot spot at (3, 7), is sent with (7, 3). -/
theorem hotspotSwapped :
    ∃ t position, (pointerMachine 0 .blank).run .init
        [.shape (.onePixel 0 0) (.fine 2), .shape (.onePixel 3 7) (.fine 2)] = some t ∧
      t.sent.head? = some (.update 0 2 (7, 3) position, some (3, 7)) :=
  run_twoShapes 0 0 3 7

/-! ### Visibility -/

namespace PointerState

variable {scanout : ℕ} {empty : Cursor} {s s' : PointerState} {a : PointerAct}

/-- The resource that the host shows: the one that the last update names. -/
def shown (s : PointerState) : Option ℕ := s.sent.findSome? fun x => match x.1 with
  | .update _ resource _ _ => some resource
  | .move _ _ => none

/-- Once a shape and a position have been set, the host shows the cursor exactly if the last
position was visible, and the empty cursor otherwise. -/
def ShownRight (empty : Cursor) (s : PointerState) : Prop :=
  s.lastShape.isSome → ∀ visible, s.lastVisible = some visible →
    ((∃ c, s.cursor = some c ∧ s.shown = some c.id) ↔ visible = true) ∧
      (visible = false → s.shown = some empty.id)

/-- A shape is not set while the pointer is hidden. -/
def SetInSight (s : PointerState) : PointerAct → Prop
  | .shape shape _ => shape.format ≠ .unsupported → s.lastVisible ≠ some false
  | .position _ _ _ _ _ => True

/-- What the calls keep up if no shape is set while the pointer is hidden. -/
structure Tidy (empty : Cursor) (s : PointerState) : Prop where
  hidden : ∀ c, s.cursor = some c → c.hidden = true → s.lastVisible = some false
  out : ∀ c, s.cursor = some c → s.lastShape.isSome → s.lastVisible = some false →
    s.shown = some empty.id ∧ c.hidden = true
  inSight : ∀ c, s.cursor = some c → s.lastShape.isSome → s.lastVisible ≠ some false →
    s.shown = some c.id

theorem Tidy.init (empty : Cursor) : Tidy empty .init where
  hidden _ hc := by cases hc
  out _ hc := by cases hc
  inSight _ hc := by cases hc

theorem Tidy.shownRight (ht : s.Tidy empty) (hs : s.Consistent empty) : s.ShownRight empty := by
  intro hshape visible hvisible
  obtain ⟨c, hc⟩ : ∃ c, s.cursor = some c := by
    refine Option.ne_none_iff_exists'.1 fun hnone => ?_
    rw [hs.made hnone] at hshape
    cases hshape
  cases visible with
  | true =>
    have hshown := ht.inSight c hc hshape (by simp [hvisible])
    exact ⟨iff_of_true ⟨c, hc, hshown⟩ rfl, nofun⟩
  | false =>
    obtain ⟨hshown, -⟩ := ht.out c hc hshape hvisible
    refine ⟨iff_of_false ?_ Bool.false_ne_true, fun _ => hshown⟩
    rintro ⟨c', hc', hshown'⟩
    rw [hshown] at hshown'
    exact hs.distinct c' hc' (Option.some.inj hshown').symm

/-- The cursor of a shape is not hidden, whether it is new or not. -/
theorem Tidy.prepared {yHot xHot : UInt32} {env : PointerEnv} {c : Cursor} (ht : s.Tidy empty)
    (hvisible : s.lastVisible ≠ some false)
    (h : VidPnOutput.PreparedFrom yHot xHot env c s.cursor) : c.hidden = false := by
  cases hbefore : s.cursor with
  | none =>
    rw [hbefore] at h
    exact h.2.2
  | some c₀ =>
    rw [hbefore] at h
    rw [h.2.2]
    exact Bool.eq_false_of_not_eq_true fun hc₀ => hvisible (ht.hidden c₀ hbefore hc₀)

theorem Tidy.step (ht : s.Tidy empty) (hs : s.Consistent empty) (hok : s.SetInSight a)
    (h : (pointerMachine scanout empty).step s a = .next s') : s'.Tidy empty := by
  obtain ⟨hfresh, hcase⟩ := stepCase h
  cases hcase with
  | unsupported => exact ⟨ht.hidden, ht.out, ht.inSight⟩
  | @shape shape env c hformat hfrom =>
    have hvisible := hok hformat
    have hshown := ht.prepared hvisible hfrom
    refine ⟨fun c' hc hhidden => ?_, fun c' hc _ hlast => absurd hlast hvisible,
      fun c' hc _ _ => ?_⟩
    · cases hc
      simp [hshown] at hhidden
    · cases hc
      rfl
  | @position o visible x y env cursor sent hpos =>
    generalize hbefore : s.cursor = before at hpos
    cases hpos with
    | hidden =>
      refine ⟨fun c' hc hhidden => rfl, fun c' hc _ _ => ?_, fun c' hc _ hlast => absurd rfl hlast⟩
      cases hc
      exact ⟨rfl, rfl⟩
    | hiddenNone => exact ⟨nofun, nofun, nofun⟩
    | unhidden =>
      refine ⟨fun c' hc' hhidden => ?_, fun c' _ _ hlast => ?_, fun c' hc' _ _ => ?_⟩
      · cases hc'
        cases hhidden
      · cases hlast
      · cases hc'
        rfl
    | moved c position hc =>
      refine ⟨fun c' hc' hhidden => ?_, fun c' _ _ hlast => ?_, fun c' hc' hshape _ => ?_⟩
      · cases hc'
        simp [hc] at hhidden
      · cases hlast
      · cases hc'
        refine ht.inSight c hbefore hshape fun hlast => ?_
        have hhidden := (ht.out c hbefore hshape hlast).2
        simp [hc] at hhidden
    | created c hid hc =>
      refine ⟨fun c' hc' hhidden => ?_, fun c' _ _ hlast => ?_, fun c' _ hshape _ => ?_⟩
      · cases hc'
        simp [hc] at hhidden
      · cases hlast
      · simp [hs.made hbefore] at hshape

/-- A shape that is set while the pointer is hidden is seen. -/
theorem not_shownRight_of_not_setInSight (hs : s.Consistent empty) (hok : ¬ s.SetInSight a)
    (h : (pointerMachine scanout empty).step s a = .next s') : ¬ s'.ShownRight empty := by
  obtain ⟨hfresh, hcase⟩ := stepCase h
  cases hcase with
  | unsupported hformat => exact absurd (fun hne => absurd hformat hne) hok
  | position => exact absurd trivial hok
  | @shape shape env c hformat hfrom =>
    have hlast : s.lastVisible = some false := by
      by_contra hne
      exact hok fun _ => hne
    intro hright
    have hempty := (hright rfl false hlast).2 rfl
    exact hs.prepared hfresh hfrom (Option.some.inj hempty)

end PointerState

/-- **A shape brings a hidden pointer back.**  For every output and every sequence of calls that go
well, the host shows the pointer exactly when it is visible, all along, exactly if no shape is set
while it is hidden. -/
theorem shown_iff (scanout : ℕ) (empty : Cursor) {acts : List PointerAct} {t : PointerState}
    (hrun : (pointerMachine scanout empty).run .init acts = some t) :
    (pointerMachine scanout empty).Always (PointerState.ShownRight empty) .init acts ↔
      (pointerMachine scanout empty).Meets PointerState.SetInSight .init acts := by
  refine Machine.always_iff_meets (I := fun s => s.Consistent empty ∧ s.Tidy empty)
    (fun s a s' hs hok h => ?_) (fun s hs => hs.2.shownRight hs.1) (fun s a s' hs hok h => ?_)
    ⟨.init empty, .init empty⟩ hrun
  · exact ⟨hs.1.step h, hs.2.step hs.1 hok h⟩
  · exact PointerState.not_shownRight_of_not_setInSight hs.1 hok h

def PointerAct.hide : PointerAct := .position ⟨[], none⟩ false 0 0 (.fine 2)

theorem step_hide {s : PointerState} {c : Cursor} (hc : s.cursor = some c) :
    (pointerMachine 0 .blank).step s .hide = .next ⟨some { c with hidden := true }, s.lastShape,
      some false, (.update 0 1 c.hotspot c.position, s.lastShape) :: s.sent⟩ := by
  simp only [pointerMachine, PointerState.step, PointerAct.hide, hc]
  rfl

/-- A shape is set, and the pointer is hidden. -/
theorem shown_iff_hide :
    ∃ t, (pointerMachine 0 .blank).run .init [.shape (.onePixel 0 0) (.fine 2), .hide] = some t ∧
      (pointerMachine 0 .blank).Always (PointerState.ShownRight .blank) .init
        [.shape (.onePixel 0 0) (.fine 2), .hide] := by
  obtain ⟨s, c, hstep, -, -, hcursor, -⟩ := step_onePixel 0 0 (s := .init) nofun
  have hrun : (pointerMachine 0 .blank).run .init [.shape (.onePixel 0 0) (.fine 2), .hide] = _ :=
    (Machine.run_cons_next hstep).trans
      ((Machine.run_cons_next (step_hide hcursor)).trans (Machine.run_nil _))
  refine ⟨_, hrun, (shown_iff 0 .blank hrun).2 ⟨fun _ hlast => ?_, fun _ _ => ⟨trivial, ?_⟩⟩⟩
  · cases hlast
  · exact fun _ _ => trivial

/-- The pointer is hidden, and then a shape is set: the host shows the cursor, which is resource
2. -/
theorem hiddenPointerShown :
    ∃ t, (pointerMachine 0 .blank).run .init [.shape (.onePixel 0 0) (.fine 2), .hide,
        .shape (.onePixel 0 0) (.fine 2)] = some t ∧
      t.lastVisible = some false ∧ t.shown = some 2 := by
  obtain ⟨s, c₁, hstep₁, hsized, hfrom₁, hcursor, -⟩ := step_onePixel 0 0 (s := .init) nofun
  have hstep₂ := step_hide hcursor
  obtain ⟨t, c₂, hstep₃, -, hfrom₂, -, -, hvisible, hsent⟩ := step_onePixel 0 0
    (s := ⟨some { c₁ with hidden := true }, s.lastShape, some false,
      (.update 0 1 c₁.hotspot c₁.position, s.lastShape) :: s.sent⟩) fun c hc => by
        cases hc
        exact hsized c₁ hcursor
  have hid : c₂.id = 2 := hfrom₂.1.trans (Except.ok.inj hfrom₁.1).symm
  refine ⟨t, ?_, hvisible, ?_⟩
  · rw [Machine.run_cons_next hstep₁, Machine.run_cons_next hstep₂, Machine.run_cons_next hstep₃,
      Machine.run_nil]
  · rw [PointerState.shown, hsent, List.findSome?_cons]
    exact congrArg some hid

end VirtioGpu
