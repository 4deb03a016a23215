import VirtioGpu.Device.Context

/-!
# The layout of a resource

`Allocation::query_layout` asks the host for the layout of a resource and keeps the answer in the
allocation.  The host writes it into a buffer that the device has for this and uses for one query
after the other.  `submit_command_sync` waits for the response to the command but does not look at
it.  If the host rejects the command, the function reads what the last answered query has left in
the buffer, returns it as the layout of this resource and keeps it for good; before the first answer
the buffer is zero.

A query may also time out.  The host may still execute its command, at any later time: also between
the answer to a later query and the moment when the buffer is read.  The command was on the stack of
the query, so by then it may be any other.

* `own_layouts_iff` : if no query is rejected, and none is overtaken by a command that timed out,
  every layout that is returned or kept is one that the host wrote for the same resource; and if
  every query is answered, only if none is rejected.
* `foreign_layout` : a rejected query that returns the layout of another resource.
-/

namespace VirtioGpu

structure VirglResourceLayoutPlane where
  offset : ℕ
  stride : ℕ
  size : ℕ
  deriving DecidableEq

/-- `VirglResourceLayout`.  Every byte sequence of its length is one. -/
structure VirglResourceLayout where
  modifier : ℕ
  numPlanes : ℕ
  reserved : ℕ
  planes : Vector VirglResourceLayoutPlane 4
  deriving DecidableEq

/-- The layout in a zeroed buffer. -/
def VirglResourceLayout.zero : VirglResourceLayout := ⟨0, 0, 0, .replicate 4 ⟨0, 0, 0⟩⟩

structure QueryBuffer where
  id : ℕ
  /-- What `read_from_prefix` reads from `buf`. -/
  contents : VirglResourceLayout

/-- `Command::virgl_get_resource_layout`: write the layout of `target` into `out`. -/
structure GetResourceLayout where
  context : ℕ
  out : ℕ
  target : ℕ

/-- What becomes of the command. -/
inductive QueryAnswer where
  /-- There was no memory for the request. -/
  | notSent (e : NtStatus)
  | timedOut (e : NtStatus)
  /-- The response is of another type than `OK_NODATA`. -/
  | rejected (hdrType : ℕ)
  /-- The host has written the layout. -/
  | accepted (layout : VirglResourceLayout)
  deriving DecidableEq

/-- What a call meets on its way. -/
structure QueryEnv where
  /-- `context_internal(true)` -/
  context : Option ℕ
  /-- `attach_to_device` -/
  attach : Except NtStatus Unit
  /-- `ensure_virgl_attached` -/
  ensureVirgl : Except NtStatus Unit
  /-- The id of the buffer that `QueryBuffer::new` returns. -/
  newBuffer : Except NtStatus ℕ
  answer : QueryAnswer
  /-- What a command that timed out, if there is one, writes between the answer and the moment when
  the buffer is read. -/
  overwritten : Option (GetResourceLayout × VirglResourceLayout)

/-- Allocations: their resources, and whether these are 3D resources. -/
structure QueriedAllocs (α : Type) where
  id : α → ℕ
  is3d : α → Bool

/-- A device and its allocations. -/
structure LayoutState (α : Type) where
  /-- `query_buffer` -/
  buffer : Option QueryBuffer
  /-- The field `layout` of each allocation. -/
  kept : α → Option VirglResourceLayout
  /-- The number of commands that timed out and that the host has not executed. -/
  late : ℕ
  /-- The layouts the host has written, with the resources they were asked for. -/
  written : List (ℕ × VirglResourceLayout)
  /-- The layouts that `query_layout` has returned. -/
  returned : List (α × VirglResourceLayout)

/-- Calls, and what the host does between them. -/
inductive LayoutAct (α : Type) where
  /-- `Allocation::query_layout` -/
  | query (a : α) (env : QueryEnv)
  /-- The host gets to a command that timed out, which may be any by now, and accepts or rejects
  it. -/
  | executed (cmd : GetResourceLayout) (layout : Option VirglResourceLayout)

namespace LayoutState

variable {α : Type}

/-- `Device::new` and new allocations. -/
def init : LayoutState α := ⟨none, fun _ => none, 0, [], []⟩

/-- The layout that is in the buffer. -/
def contents (s : LayoutState α) : VirglResourceLayout :=
  (s.buffer.map QueryBuffer.contents).getD .zero

variable (allocs : QueriedAllocs α) (s : LayoutState α)

/-- The host writes a layout. -/
def write (cmd : GetResourceLayout) (layout : VirglResourceLayout) : LayoutState α :=
  { s with
    buffer := s.buffer.map fun b => if b.id = cmd.out then { b with contents := layout } else b
    written := (cmd.target, layout) :: s.written }

/-- A command that timed out is executed, if there is one. -/
def overtake : Option (GetResourceLayout × VirglResourceLayout) → LayoutState α
  | none => s
  | some (cmd, layout) =>
    if s.late = 0 then s else { s with late := s.late - 1 }.write cmd layout

/-- The buffer of the device, which is made by the first query. -/
def getBuffer (env : QueryEnv) : Except NtStatus QueryBuffer :=
  match s.buffer with
  | some b => .ok b
  | none => env.newBuffer.map fun id => ⟨id, .zero⟩

/-- `submit_command_sync`, and reading the buffer. -/
def submitCommandSync (cmd : GetResourceLayout)
    (overwritten : Option (GetResourceLayout × VirglResourceLayout)) :
    QueryAnswer → Except NtStatus VirglResourceLayout × LayoutState α
  | .notSent e => (.error e, s)
  | .timedOut e => (.error e, { s with late := s.late + 1 })
  -- The type of the response is not checked.
  | .rejected _ => (.ok (s.overtake overwritten).contents, s.overtake overwritten)
  | .accepted layout =>
    let s := (s.write cmd layout).overtake overwritten
    (.ok s.contents, s)

/-- `Device::query_layout` -/
def deviceQueryLayout (target : ℕ) (env : QueryEnv) :
    Except NtStatus VirglResourceLayout × LayoutState α :=
  match env.context with
  | none => (.error .reinitializationNeeded, s)
  | some context => match env.attach with
    | .error e => (.error e, s)
    | .ok () => match env.ensureVirgl with
      | .error e => (.error e, s)
      | .ok () => match s.getBuffer env with
        | .error e => (.error e, s)
        | .ok b => { s with buffer := some b }.submitCommandSync ⟨context, b.id, target⟩
            env.overwritten env.answer

variable [DecidableEq α]

/-- `Allocation::query_layout` -/
def queryLayout (a : α) (env : QueryEnv) :
    Except NtStatus (Option VirglResourceLayout) × LayoutState α :=
  if allocs.is3d a then
    match s.kept a with
    | some layout => (.ok (some layout), s)
    | none => match s.deviceQueryLayout (allocs.id a) env with
      | (.ok layout, s) =>
        (.ok (some layout), { s with kept := Function.update s.kept a (some layout) })
      | (.error .reinitializationNeeded, s) => (.ok none, s)
      | (.error e, s) => (.error e, s)
  else (.error .invalidParameter, s)

/-- Note what a call has returned. -/
def note (a : α) : Except NtStatus (Option VirglResourceLayout) → LayoutState α
  | .ok (some layout) => { s with returned := (a, layout) :: s.returned }
  | _ => s

def step : LayoutAct α → Outcome (LayoutState α) Empty
  | .query a env =>
    let r := s.queryLayout allocs a env
    .next (r.2.note a r.1)
  | .executed cmd layout => match s.late with
    | 0 => .stuck
    | late + 1 => match layout with
      | some layout => .next ({ s with late := late }.write cmd layout)
      | none => .next { s with late := late }

/-- The host wrote `layout` in answer to a query for the resource of `a`. -/
def Own (a : α) (layout : VirglResourceLayout) : Prop :=
  (allocs.id a, layout) ∈ s.written

/-- Every layout that was returned or is kept is the host's answer for the same resource. -/
structure OwnLayouts (allocs : QueriedAllocs α) (s : LayoutState α) : Prop where
  returned : ∀ r ∈ s.returned, s.Own allocs r.1 r.2
  kept : ∀ a layout, s.kept a = some layout → s.Own allocs a layout

/-- The call gets as far as sending the command. -/
def Sends (a : α) (env : QueryEnv) : Prop :=
  allocs.is3d a ∧ s.kept a = none ∧ env.context ≠ none ∧ env.attach = .ok () ∧
    env.ensureVirgl = .ok () ∧ ∃ b, s.getBuffer env = .ok b

/-- The host does not reject a command whose sender waits for it. -/
def NotRejected : LayoutAct α → Prop
  | .query a env => s.Sends allocs a env → ∀ hdrType, env.answer ≠ .rejected hdrType
  | .executed .. => True

/-- No command that timed out writes while the answer to another one is to be read. -/
def NotOvertaken : LayoutAct α → Prop
  | .query a env => s.Sends allocs a env → s.late = 0 ∨ env.overwritten = none
  | .executed .. => True

/-- The host accepts or rejects the command in time. -/
def Answered : LayoutAct α → Prop
  | .query a env => s.Sends allocs a env → ∀ e, env.answer ≠ .timedOut e
  | .executed .. => True

end LayoutState

/-- Queries on one device. -/
def layoutMachine {α : Type} [DecidableEq α] (allocs : QueriedAllocs α) :
    Machine (LayoutState α) (LayoutAct α) Empty :=
  ⟨fun s => s.step allocs⟩

/-! ### One call -/

namespace LayoutState

variable {α : Type} {s s₁ s' : LayoutState α} {a : α} {env : QueryEnv} {allocs : QueriedAllocs α}
  {layout : VirglResourceLayout} {act : LayoutAct α}

theorem contents_write {b : QueryBuffer} {cmd : GetResourceLayout} (hb : s.buffer = some b)
    (hout : b.id = cmd.out) : (s.write cmd layout).contents = layout := by
  simp [contents, write, hb, hout]

theorem overtake_alone {w : Option (GetResourceLayout × VirglResourceLayout)}
    (h : s.late = 0 ∨ w = none) : s.overtake w = s := by
  cases w with
  | none => rfl
  | some w => exact if_pos (h.resolve_right (Option.some_ne_none w))

theorem kept_overtake (s : LayoutState α) (w : Option (GetResourceLayout × VirglResourceLayout)) :
    (s.overtake w).kept = s.kept := by
  cases w with
  | none => rfl
  | some =>
    unfold overtake
    split_ifs <;> rfl

theorem deviceQueryLayout_of_sends (hsends : s.Sends allocs a env) :
    ∃ context b, s.getBuffer env = .ok b ∧ s.deviceQueryLayout (allocs.id a) env =
      { s with buffer := some b }.submitCommandSync ⟨context, b.id, allocs.id a⟩ env.overwritten
        env.answer := by
  obtain ⟨-, -, hcontext, hattach, hvirgl, b, hb⟩ := hsends
  obtain ⟨context, hcontext⟩ := Option.ne_none_iff_exists'.1 hcontext
  exact ⟨context, b, hb, by simp [deviceQueryLayout, hcontext, hattach, hvirgl, hb]⟩

theorem deviceQueryLayout_of_not_sends (h3d : allocs.is3d a) (hnone : s.kept a = none)
    (hsends : ¬ s.Sends allocs a env) :
    ∃ e, s.deviceQueryLayout (allocs.id a) env = (.error e, s) := by
  unfold deviceQueryLayout
  cases hcontext : env.context with
  | none => exact ⟨_, rfl⟩
  | some =>
    cases hattach : env.attach with
    | error e => exact ⟨e, rfl⟩
    | ok u =>
      cases hvirgl : env.ensureVirgl with
      | error e => exact ⟨e, rfl⟩
      | ok =>
        cases hb : s.getBuffer env with
        | error e => exact ⟨e, rfl⟩
        | ok b => exact absurd ⟨h3d, hnone, by simp [hcontext], hattach, hvirgl, b, hb⟩ hsends

theorem OwnLayouts.of_written (h : s.OwnLayouts allocs) (hreturned : s'.returned = s.returned)
    (hkept : s'.kept = s.kept) (hwritten : s.written ⊆ s'.written) : s'.OwnLayouts allocs where
  returned r hr := hwritten (h.returned r (hreturned ▸ hr))
  kept a layout ha := hwritten (h.kept a layout (hkept ▸ ha))

theorem ownLayouts_init : (init : LayoutState α).OwnLayouts allocs := by
  refine ⟨fun r hr => ?_, fun a layout ha => ?_⟩
  · cases hr
  · cases ha

variable [DecidableEq α]

/-- What a call does to the state. -/
inductive QueryCase (allocs : QueriedAllocs α) (s : LayoutState α) (a : α) (env : QueryEnv)
    (s' : LayoutState α) : Prop where
  /-- It returns no layout. -/
  | nothing (hreturned : s'.returned = s.returned) (hkept : s'.kept = s.kept)
      (hwritten : s'.written = s.written)
      (hlate : s'.late = s.late ∨ s.Sends allocs a env ∧ ∃ e, env.answer = .timedOut e)
  /-- It returns the layout the allocation has. -/
  | again (layout : VirglResourceLayout) (hlayout : s.kept a = some layout)
      (hs : s' = { s with returned := (a, layout) :: s.returned })
  /-- It returns what is in the buffer. -/
  | fresh (layout : VirglResourceLayout) (hsends : s.Sends allocs a env)
      (hreturned : s'.returned = (a, layout) :: s.returned)
      (hkept : s'.kept = Function.update s.kept a (some layout))
      (hwritten : s'.written = (allocs.id a, layout) :: s.written ∨
        s'.written = s.written ∧ ∃ hdrType, env.answer = .rejected hdrType)
      (hlate : s'.late = s.late)

theorem step_of_device_error {e : NtStatus} (h3d : allocs.is3d a) (hnone : s.kept a = none)
    (h : s.deviceQueryLayout (allocs.id a) env = (.error e, s₁)) :
    s.step allocs (.query a env) = .next s₁ := by
  cases e <;> simp [step, queryLayout, note, h3d, hnone, h]

theorem step_of_device_ok (h3d : allocs.is3d a) (hnone : s.kept a = none)
    (h : s.deviceQueryLayout (allocs.id a) env = (.ok layout, s₁)) :
    s.step allocs (.query a env) = .next { s₁ with
      kept := Function.update s₁.kept a (some layout)
      returned := (a, layout) :: s₁.returned } := by
  simp [step, queryLayout, note, h3d, hnone, h]

theorem query_cases (halone : s.NotOvertaken allocs (.query a env))
    (hstep : s.step allocs (.query a env) = .next s') : QueryCase allocs s a env s' := by
  by_cases h3d : allocs.is3d a
  · cases hkept : s.kept a with
    | some layout =>
      refine .again layout hkept ?_
      simpa [step, queryLayout, note, h3d, hkept, eq_comm] using hstep
    | none =>
      by_cases hsends : s.Sends allocs a env
      · obtain ⟨context, b, hb, hdevice⟩ := deviceQueryLayout_of_sends hsends
        cases hanswer : env.answer with
        | notSent =>
          rw [step_of_device_error h3d hkept (by rw [hdevice, hanswer]; rfl)] at hstep
          cases hstep
          exact .nothing rfl rfl rfl (.inl rfl)
        | timedOut e =>
          rw [step_of_device_error h3d hkept (by rw [hdevice, hanswer]; rfl)] at hstep
          cases hstep
          exact .nothing rfl rfl rfl (.inr ⟨hsends, e, hanswer⟩)
        | rejected hdrType =>
          rw [hanswer, submitCommandSync, overtake_alone (by exact halone hsends)] at hdevice
          rw [step_of_device_ok h3d hkept hdevice] at hstep
          cases hstep
          exact .fresh _ hsends rfl rfl (.inr ⟨rfl, hdrType, hanswer⟩) rfl
        | accepted layout =>
          rw [hanswer, submitCommandSync, overtake_alone (by exact halone hsends),
            contents_write rfl rfl] at hdevice
          rw [step_of_device_ok h3d hkept hdevice] at hstep
          cases hstep
          exact .fresh layout hsends rfl rfl (.inl rfl) rfl
      · obtain ⟨e, hdevice⟩ := deviceQueryLayout_of_not_sends h3d hkept hsends
        rw [step_of_device_error h3d hkept hdevice] at hstep
        cases hstep
        exact .nothing rfl rfl rfl (.inl rfl)
  · have hsame : s.step allocs (.query a env) = .next s := by simp [step, queryLayout, note, h3d]
    cases hsame.symm.trans hstep
    exact .nothing rfl rfl rfl (.inl rfl)

/-! ### Any number of calls -/

theorem OwnLayouts.fresh (h : s.OwnLayouts allocs)
    (hreturned : s'.returned = (a, layout) :: s.returned)
    (hkept : s'.kept = Function.update s.kept a (some layout))
    (hwritten : s'.written = (allocs.id a, layout) :: s.written) : s'.OwnLayouts allocs := by
  have hnew : s'.Own allocs a layout := by
    rw [Own, hwritten]
    exact List.mem_cons_self
  have hold : s.written ⊆ s'.written := hwritten ▸ List.subset_cons_self _ _
  constructor
  · intro r hr
    rw [hreturned, List.mem_cons] at hr
    rcases hr with rfl | hr
    · exact hnew
    · exact hold (h.returned r hr)
  · intro a' layout' ha'
    rw [hkept] at ha'
    by_cases haa : a' = a
    · subst haa
      rw [Function.update_self, Option.some.injEq] at ha'
      exact ha' ▸ hnew
    · rw [Function.update_of_ne haa] at ha'
      exact hold (h.kept a' layout' ha')

theorem executed_cases {cmd : GetResourceLayout} {layout : Option VirglResourceLayout}
    (hstep : s.step allocs (.executed cmd layout) = .next s') :
    s.late ≠ 0 ∧ s'.returned = s.returned ∧ s'.kept = s.kept ∧ s.written ⊆ s'.written := by
  cases hlate : s.late with
  | zero => simp [step, hlate] at hstep
  | succ =>
    refine ⟨Nat.succ_ne_zero _, ?_⟩
    cases layout with
    | none =>
      simp only [step, hlate] at hstep
      cases hstep
      exact ⟨rfl, rfl, List.Subset.refl _⟩
    | some =>
      simp only [step, hlate] at hstep
      cases hstep
      exact ⟨rfl, rfl, List.subset_cons_self _ _⟩

/-- **One step** without a rejection. -/
theorem OwnLayouts.step (h : s.OwnLayouts allocs) (hok : s.NotRejected allocs act)
    (halone : s.NotOvertaken allocs act) (hstep : s.step allocs act = .next s') :
    s'.OwnLayouts allocs := by
  cases act with
  | executed =>
    obtain ⟨-, hreturned, hkept, hwritten⟩ := executed_cases hstep
    exact h.of_written hreturned hkept hwritten
  | query a =>
    cases query_cases halone hstep with
    | nothing hreturned hkept hwritten =>
      exact h.of_written hreturned hkept (hwritten ▸ List.Subset.refl _)
    | again layout hlayout hs =>
      subst hs
      refine ⟨fun r hr => ?_, h.kept⟩
      rcases List.mem_cons.1 hr with rfl | hr
      · exact h.kept a layout hlayout
      · exact h.returned r hr
    | fresh layout hsends hreturned hkept hwritten =>
      rcases hwritten with hwritten | ⟨-, hdrType, hrejected⟩
      · exact h.fresh hreturned hkept hwritten
      · exact absurd hrejected (hok hsends hdrType)

/-- Every query is answered in time, and the allocations have what the host has written. -/
structure AllKept (allocs : QueriedAllocs α) (s : LayoutState α) : Prop
    extends s.OwnLayouts allocs where
  late : s.late = 0
  own_kept : ∀ a layout, s.Own allocs a layout → s.kept a ≠ none

omit [DecidableEq α] in
theorem AllKept.notOvertaken (h : s.AllKept allocs) (act : LayoutAct α) :
    s.NotOvertaken allocs act := by
  cases act with
  | executed => trivial
  | query => exact fun _ => .inl h.late

theorem AllKept.step (hid : Function.Injective allocs.id) (h : s.AllKept allocs)
    (hans : s.Answered allocs act) (hok : s.NotRejected allocs act)
    (hstep : s.step allocs act = .next s') : s'.AllKept allocs := by
  have halone := h.notOvertaken act
  refine ⟨h.toOwnLayouts.step hok halone hstep, ?_, ?_⟩ <;> cases act with
  | executed => exact absurd h.late (executed_cases hstep).1
  | query a env => ?_
  · cases query_cases halone hstep with
    | nothing hreturned hkept hwritten hlate =>
      rcases hlate with hlate | ⟨hsends, e, htimedOut⟩
      · exact hlate.trans h.late
      · exact absurd htimedOut (hans hsends e)
    | again layout hlayout hs => exact hs ▸ h.late
    | fresh layout hsends hreturned hkept hwritten hlate => exact hlate.trans h.late
  · cases query_cases halone hstep with
    | nothing hreturned hkept hwritten =>
      intro a' layout' hown
      rw [Own, hwritten] at hown
      exact hkept ▸ h.own_kept a' layout' hown
    | again layout hlayout hs => exact hs ▸ h.own_kept
    | fresh layout hsends hreturned hkept hwritten =>
      have hwritten := hwritten.resolve_right fun hrejected => by
        obtain ⟨-, hdrType, hrejected⟩ := hrejected
        exact hok hsends hdrType hrejected
      intro a' layout' hown
      rw [hkept]
      by_cases haa : a' = a
      · simp [haa]
      · rw [Function.update_of_ne haa]
        rw [Own, hwritten, List.mem_cons] at hown
        rcases hown with heq | hown
        · exact absurd (hid (congrArg Prod.fst heq)) haa
        · exact h.own_kept a' layout' hown

/-- A rejected query returns a layout that is not the host's answer for its resource. -/
theorem AllKept.not_own (h : s.AllKept allocs) (hbad : ¬ s.NotRejected allocs act)
    (hstep : s.step allocs act = .next s') :
    ¬ s'.OwnLayouts allocs := by
  cases act with
  | executed => exact absurd trivial hbad
  | query a env =>
    obtain ⟨hsends, hdrType, hrejected⟩ : s.Sends allocs a env ∧ ∃ t, env.answer = .rejected t := by
      simpa [NotRejected] using hbad
    obtain ⟨context, b, hb, hdevice⟩ := deviceQueryLayout_of_sends hsends
    rw [hrejected, submitCommandSync, overtake_alone (by exact .inl h.late)] at hdevice
    rw [step_of_device_ok hsends.1 hsends.2.1 hdevice] at hstep
    cases hstep
    intro hown
    exact h.own_kept a _ (hown.returned _ List.mem_cons_self) hsends.2.1

end LayoutState

/-- **When layouts are the host's own.**  If no query is rejected, and none is overtaken by a
command that timed out, every layout that has been returned or is kept is one that the host wrote
for that resource.  If no query times out, this is so exactly if none is rejected. -/
theorem own_layouts_iff {α : Type} [DecidableEq α] (allocs : QueriedAllocs α)
    (acts : List (LayoutAct α)) (s : LayoutState α)
    (hrun : (layoutMachine allocs).run .init acts = some s) :
    ((layoutMachine allocs).Meets
        (fun s a => s.NotRejected allocs a ∧ s.NotOvertaken allocs a) .init acts →
      (layoutMachine allocs).Always (LayoutState.OwnLayouts allocs) .init acts) ∧
    (Function.Injective allocs.id →
      (layoutMachine allocs).Meets (LayoutState.Answered allocs) .init acts →
      ((layoutMachine allocs).Always (LayoutState.OwnLayouts allocs) .init acts ↔
        (layoutMachine allocs).Meets (LayoutState.NotRejected allocs) .init acts)) := by
  constructor
  · exact Machine.always_of_meets (fun _ _ _ hs hok hst => hs.step hok.1 hok.2 hst)
      (fun _ hs => hs) LayoutState.ownLayouts_init
  · intro hid hans
    refine Machine.always_iff_meets_of_meets
      (fun _ _ _ hs hans hok hst => LayoutState.AllKept.step hid hs hans hok hst)
      (fun _ hs => hs.toOwnLayouts) (fun _ _ _ hs _ hbad hst => hs.not_own hbad hst) ?_ hans hrun
    exact ⟨LayoutState.ownLayouts_init, rfl, fun a layout hown => by cases hown⟩

/-- Two allocations with the resources 1 and 2. -/
def twoAllocs : QueriedAllocs Bool := ⟨fun a => if a then 2 else 1, fun _ => true⟩

/-- A query that is sent. -/
def sentQuery (answer : QueryAnswer) : QueryEnv := ⟨some 5, .ok (), .ok (), .ok 7, answer, none⟩

/-- A layout with one plane. -/
def linearLayout (stride : ℕ) : VirglResourceLayout := { VirglResourceLayout.zero with
  numPlanes := 1
  planes := #v[⟨0, stride, 0⟩, ⟨0, 0, 0⟩, ⟨0, 0, 0⟩, ⟨0, 0, 0⟩] }

/-- Both resources are queried, the first one twice. -/
def acceptedQueries : List (LayoutAct Bool) :=
  [.query false (sentQuery (.accepted (linearLayout 64))),
    .query true (sentQuery (.accepted (linearLayout 128))),
    .query false (sentQuery (.rejected 0x1200))]

theorem own_layouts_iff_accepted :
    (layoutMachine twoAllocs).Always (LayoutState.OwnLayouts twoAllocs) .init acceptedQueries := by
  have hid : Function.Injective twoAllocs.id := by decide
  have hans : (layoutMachine twoAllocs).Meets (LayoutState.Answered twoAllocs) .init
      acceptedQueries := by
    refine ⟨?_, fun s₁ _ => ⟨?_, fun s₂ _ => ⟨?_, fun _ _ => trivial⟩⟩⟩ <;>
      · intro _ e he
        cases he
  refine ((own_layouts_iff twoAllocs acceptedQueries _ rfl).2 hid hans).2 ?_
  refine ⟨?_, fun s₁ h₁ => ⟨?_, fun s₂ h₂ => ⟨?_, fun _ _ => trivial⟩⟩⟩
  · intro _ t ht
    cases ht
  · intro _ t ht
    cases ht
  · -- The layout of the first resource is kept, so the third query is not sent.
    cases h₁
    cases h₂
    intro hsends
    exact absurd hsends.2.1 (Option.some_ne_none (linearLayout 64))

/-- The query for the resource 1 is accepted, and the one for the resource 2 rejected. -/
def rejectedQuery : List (LayoutAct Bool) :=
  [.query false (sentQuery (.accepted (linearLayout 64))),
    .query true (sentQuery (.rejected 0x1200))]

/-- The layout of the resource 1 is returned, and kept, for the resource 2. -/
theorem foreign_layout :
    ∃ s, (layoutMachine twoAllocs).run .init rejectedQuery = some s ∧
      s.written = [(1, linearLayout 64)] ∧
      s.returned = [(true, linearLayout 64), (false, linearLayout 64)] ∧
      s.kept true = some (linearLayout 64) ∧ ¬ s.OwnLayouts twoAllocs := by
  refine ⟨_, rfl, rfl, rfl, rfl, fun hown => ?_⟩
  have hmem : (2, linearLayout 64) ∈ [(1, linearLayout 64)] := hown.returned _ List.mem_cons_self
  exact absurd (congrArg Prod.fst (List.mem_singleton.1 hmem)) (by decide)

end VirtioGpu
