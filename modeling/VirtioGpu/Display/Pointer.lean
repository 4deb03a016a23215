import VirtioGpu.Display.PointerShape

/-!
# The pointer of an output

An output has a cursor, which is made by the first call that needs one, and its own small part in
three operations of the adapter: the pointer is moved, hidden or given a shape.  Each sends at most
one command to the host, which shows the resource that the last `UPDATE_CURSOR` names and keeps it
there until the next one.

`positionCase` and `setPointerShape_ok` say what a call does that goes well.  A shape goes one of
two ways (`VidPnOutput.prepareCursor`): it finds a cursor, or it makes one.
-/

namespace VirtioGpu

/-! ### The functions -/

/-- `Cursor`.  The id is that of the resource of its framebuffer. -/
structure Cursor where
  pixels : Framebuffer
  id : ℕ
  hotspot : UInt32 × UInt32
  position : UInt32 × UInt32
  hidden : Bool

/-- What is sent to the cursor queue. -/
inductive CursorCommand where
  | update (scanout resource : ℕ) (hot position : UInt32 × UInt32)
  | move (scanout : ℕ) (position : UInt32 × UInt32)

/-- What a call meets on its way. -/
structure PointerEnv where
  /-- `Framebuffer::try_new`: the id of the new resource. -/
  newResource : Except NtStatus ℕ
  transfer : Except NtStatus Unit
  /-- `request_async` for the command. -/
  send : Except NtStatus Unit

inductive PointerStop where
  | status (e : NtStatus)
  /-- The index into `modes` is out of range. -/
  | modeIndex
  /-- The upper bound that is given to `clamp` is negative. -/
  | clampBounds
  /-- The shape does not go into the framebuffer. -/
  | shapeBounds
  deriving DecidableEq

/-- What a call returns, the cursor it leaves and the command it has sent. -/
structure PointerCall where
  result : Except PointerStop Unit
  cursor : Option Cursor
  sent : Option CursorCommand

namespace Cursor

/-- `Cursor::try_new`, of 64 by 64 pixels. -/
def tryNew (env : PointerEnv) (xHot yHot x y : UInt32) : Except NtStatus Cursor :=
  env.newResource.map fun id => ⟨.zeroed 64 64, id, (xHot, yHot), (x, y), false⟩

def setPosition (c : Cursor) (x y : UInt32) : Cursor := { c with position := (x, y) }

def setHotspot (c : Cursor) (xHot yHot : UInt32) : Cursor := { c with hotspot := (xHot, yHot) }

/-- A command is sent, as the last thing a call does. -/
def sendLast (env : PointerEnv) (cursor : Option Cursor) (cmd : CursorCommand) : PointerCall :=
  match env.send with
  | .error e => ⟨.error (.status e), cursor, none⟩
  | .ok () => ⟨.ok (), cursor, some cmd⟩

def move (c : Cursor) (env : PointerEnv) (scanout : ℕ) : PointerCall :=
  sendLast env (some c) (.move scanout c.position)

def update (c : Cursor) (env : PointerEnv) (scanout : ℕ) : PointerCall :=
  sendLast env (some c) (.update scanout c.id c.hotspot c.position)

end Cursor

/-- `x.clamp(0, max as i32) as u32` -/
def clampTo (x : Int32) (max : UInt32) : Option UInt32 :=
  if max.toInt32 < 0 then none
  else some (if x < 0 then 0 else if max.toInt32 < x then max.toInt32 else x).toUInt32

namespace VidPnOutput

variable (scanout : ℕ) (yHot xHot : UInt32)

def hideCursor (empty : Cursor) (env : PointerEnv) (cursor : Option Cursor) : PointerCall :=
  match cursor with
  | some c =>
    Cursor.sendLast env (some { c with hidden := true })
      (.update scanout empty.id c.hotspot c.position)
  | none => Cursor.sendLast env none (.update scanout empty.id empty.hotspot empty.position)

/-- The mode that a position is clamped to. -/
def clampMode (o : VidPnOutput) : Option MonitorMode :=
  match o.currentMode with
  | some i => o.modes[i]?
  | none => o.modes[0]?

def moveCursor (o : VidPnOutput) (scanout : ℕ) (x y : Int32) (env : PointerEnv)
    (cursor : Option Cursor) : PointerCall :=
  match o.clampMode with
  | none => ⟨.error .modeIndex, cursor, none⟩
  | some mode => match clampTo x mode.width, clampTo y mode.height with
    | some x, some y => match cursor with
      | some c =>
        let c := c.setPosition x y
        if c.hidden then Cursor.update { c with hidden := false } env scanout
        else c.move env scanout
      | none => match Cursor.tryNew env 0 0 x y with
        | .error e => ⟨.error (.status e), none, none⟩
        | .ok c => ⟨.ok (), some c, none⟩
    | _, _ => ⟨.error .clampBounds, cursor, none⟩

/-- The cursor that a shape is written to.  The coordinates of the hot spot are swapped on the way
to `set_hotspot` and not on the way to `try_new`. -/
def prepareCursor (env : PointerEnv) : Option Cursor → Except NtStatus Cursor
  | some c => .ok (c.setHotspot xHot yHot)
  | none => Cursor.tryNew env yHot xHot 0 0

/-- What the three `update_cursor` functions have in common. -/
def updateCursor (write : Framebuffer → Option Framebuffer) (scanout : ℕ) (yHot xHot : UInt32)
    (env : PointerEnv) (cursor : Option Cursor) : PointerCall :=
  match prepareCursor yHot xHot env cursor with
  | .error e => ⟨.error (.status e), none, none⟩
  | .ok c => match write c.pixels with
    | none => ⟨.error .shapeBounds, some c, none⟩
    | some pixels =>
      let c := { c with pixels := pixels }
      match env.transfer with
      | .error e => ⟨.error (.status e), some c, none⟩
      | .ok () => c.update env scanout

def updateCursorBgra (pixels : List UInt8) (stride : ℕ) :
    PointerEnv → Option Cursor → PointerCall :=
  updateCursor (fun fb => Cursor.writeBgra fb pixels stride) scanout yHot xHot

def updateCursorMono (mask : List UInt8) (stride : ℕ) : PointerEnv → Option Cursor → PointerCall :=
  updateCursor (fun fb => Cursor.writeMono fb mask stride) scanout yHot xHot

def updateCursorMaskedColor (maskedColor : List UInt8) (stride : ℕ) :
    PointerEnv → Option Cursor → PointerCall :=
  updateCursor (fun fb => Cursor.writeMaskedColor fb maskedColor stride) scanout yHot xHot

/-- The part of `Adapter::update_cursor` for one output. -/
def setPointerShape (shape : PointerShape) (env : PointerEnv) (cursor : Option Cursor) :
    PointerCall :=
  match shape.format with
  | .color =>
    updateCursorBgra scanout shape.xHot shape.yHot shape.pixels shape.pitch env cursor
  | .monochrome =>
    updateCursorMono scanout shape.xHot shape.yHot shape.pixels shape.pitch env cursor
  | .maskedColor =>
    updateCursorMaskedColor scanout shape.xHot shape.yHot shape.pixels shape.pitch env cursor
  | .unsupported => ⟨.ok (), cursor, none⟩

/-- The part of `Adapter::move_cursor` for one output. -/
def setPointerPosition (o : VidPnOutput) (scanout : ℕ) (empty : Cursor) (visible : Bool)
    (x y : Int32) (env : PointerEnv) (cursor : Option Cursor) : PointerCall :=
  if visible then o.moveCursor scanout x y env cursor else hideCursor scanout empty env cursor

end VidPnOutput

/-! ### What a call that goes well does -/

/-- What becomes of the cursor, and the command, if the call goes well. -/
inductive PositionCase (scanout : ℕ) (empty : Cursor) (env : PointerEnv) :
    Bool → Option Cursor → Option Cursor → Option CursorCommand → Prop
  | hidden (c : Cursor) : PositionCase scanout empty env false (some c)
      (some { c with hidden := true }) (some (.update scanout empty.id c.hotspot c.position))
  | hiddenNone : PositionCase scanout empty env false none none
      (some (.update scanout empty.id empty.hotspot empty.position))
  | unhidden (c : Cursor) (position : UInt32 × UInt32) (hc : c.hidden = true) :
      PositionCase scanout empty env true (some c)
        (some { c with position := position, hidden := false })
        (some (.update scanout c.id c.hotspot position))
  | moved (c : Cursor) (position : UInt32 × UInt32) (hc : c.hidden = false) :
      PositionCase scanout empty env true (some c) (some { c with position := position })
        (some (.move scanout position))
  | created (c : Cursor) (hid : env.newResource = .ok c.id) (hc : c.hidden = false) :
      PositionCase scanout empty env true none (some c) none

theorem Cursor.sendLast_ok {env : PointerEnv} {cursor : Option Cursor} {cmd : CursorCommand}
    (h : (sendLast env cursor cmd).result = .ok ()) : sendLast env cursor cmd =
      ⟨.ok (), cursor, some cmd⟩ := by
  unfold sendLast at h ⊢
  cases hsend : env.send with
  | error => simp [hsend] at h
  | ok => rfl

theorem Cursor.tryNew_ok {env : PointerEnv} {xHot yHot x y : UInt32} {c : Cursor}
    (h : tryNew env xHot yHot x y = .ok c) :
    env.newResource = .ok c.id ∧ c.hotspot = (xHot, yHot) ∧ c.hidden = false := by
  unfold tryNew at h
  cases hid : env.newResource with
  | error => simp [hid, Except.map] at h
  | ok =>
    rw [hid] at h
    cases h
    exact ⟨rfl, rfl, rfl⟩

namespace VidPnOutput

variable {cursor : Option Cursor} {env : PointerEnv} {scanout : ℕ}

theorem positionCase {o : VidPnOutput} {empty : Cursor} {visible : Bool} {x y : Int32}
    (h : (o.setPointerPosition scanout empty visible x y env cursor).result = .ok ()) :
    PositionCase scanout empty env visible cursor
      (o.setPointerPosition scanout empty visible x y env cursor).cursor
      (o.setPointerPosition scanout empty visible x y env cursor).sent := by
  cases visible with
  | false =>
    simp only [setPointerPosition, hideCursor, Bool.false_eq_true, if_false] at h ⊢
    cases cursor with
    | none =>
      simp only at h ⊢
      rw [Cursor.sendLast_ok h]
      exact .hiddenNone
    | some c =>
      simp only at h ⊢
      rw [Cursor.sendLast_ok h]
      exact .hidden c
  | true =>
    simp only [setPointerPosition, moveCursor, if_true] at h ⊢
    cases hmode : o.clampMode with
    | none => simp [hmode] at h
    | some mode =>
      simp only [hmode] at h ⊢
      cases hx : clampTo x mode.width with
      | none => simp [hx] at h
      | some x' =>
        cases hy : clampTo y mode.height with
        | none => simp [hx, hy] at h
        | some y' =>
          simp only [hx, hy] at h ⊢
          cases cursor with
          | none =>
            simp only at h ⊢
            cases hnew : Cursor.tryNew env 0 0 x' y' with
            | error => simp [hnew] at h
            | ok c => exact .created c (Cursor.tryNew_ok hnew).1 (Cursor.tryNew_ok hnew).2.2
          | some c =>
            simp only at h ⊢
            by_cases hc : (c.setPosition x' y').hidden = true
            · rw [if_pos hc, Cursor.update] at h ⊢
              rw [Cursor.sendLast_ok h]
              exact .unhidden c (x', y') hc
            · rw [if_neg hc, Cursor.move] at h ⊢
              rw [Cursor.sendLast_ok h]
              exact .moved c (x', y') (Bool.eq_false_of_not_eq_true hc)

/-- Where the cursor of a shape comes from. -/
def PreparedFrom (yHot xHot : UInt32) (env : PointerEnv) (c : Cursor) : Option Cursor → Prop
  | none => env.newResource = .ok c.id ∧ c.hotspot = (yHot, xHot) ∧ c.hidden = false
  | some c₀ => c.id = c₀.id ∧ c.hotspot = (xHot, yHot) ∧ c.hidden = c₀.hidden

theorem prepareCursor_ok {yHot xHot : UInt32} {c : Cursor}
    (h : prepareCursor yHot xHot env cursor = .ok c) :
    PreparedFrom yHot xHot env c cursor := by
  cases cursor with
  | none => exact Cursor.tryNew_ok h
  | some =>
    cases h
    exact ⟨rfl, rfl, rfl⟩

theorem updateCursor_ok {write : Framebuffer → Option Framebuffer} {yHot xHot : UInt32}
    (h : (updateCursor write scanout yHot xHot env cursor).result = .ok ()) :
    ∃ c, (updateCursor write scanout yHot xHot env cursor).cursor = some c ∧
      (updateCursor write scanout yHot xHot env cursor).sent =
        some (.update scanout c.id c.hotspot c.position) ∧
      PreparedFrom yHot xHot env c cursor := by
  unfold updateCursor at h ⊢
  cases hprep : prepareCursor yHot xHot env cursor with
  | error => simp [hprep] at h
  | ok c =>
    simp only [hprep] at h ⊢
    have hfrom := prepareCursor_ok hprep
    cases hwrite : write c.pixels with
    | none => simp [hwrite] at h
    | some pixels =>
      simp only [hwrite] at h ⊢
      cases htransfer : env.transfer with
      | error => simp [htransfer] at h
      | ok =>
        simp only [htransfer, Cursor.update] at h ⊢
        rw [Cursor.sendLast_ok h]
        refine ⟨{ c with pixels := pixels }, rfl, rfl, ?_⟩
        cases cursor with
        | none => exact hfrom
        | some => exact hfrom

theorem setPointerShape_ok {shape : PointerShape} (hformat : shape.format ≠ .unsupported)
    (h : (setPointerShape scanout shape env cursor).result = .ok ()) :
    ∃ c, (setPointerShape scanout shape env cursor).cursor = some c ∧
      (setPointerShape scanout shape env cursor).sent =
        some (.update scanout c.id c.hotspot c.position) ∧
      PreparedFrom shape.xHot shape.yHot env c cursor := by
  unfold setPointerShape at h ⊢
  cases hf : shape.format with
  | unsupported => exact absurd hf hformat
  | color | monochrome | maskedColor =>
    simp only [hf] at h ⊢
    exact updateCursor_ok h

end VidPnOutput

end VirtioGpu
