import VirtioGpu.Machine.Basic
import VirtioGpu.Queue.Buffer

/-!
# The host contexts of a device

`Device::init_context` creates a context at the host, and a second one (for blits) if the first does
not speak Virgl.  The device destroys the contexts it has when it is dropped.

Nothing stops a second call: the function logs an error and goes on, and the new context takes the
place of the old one, which is then never destroyed.  And if the second context of a call cannot be
created, the call fails with the first one created and stored.

* `contexts_accounted_iff` : every context is destroyed exactly once by the drop exactly if no call
  creates a context while the device has one; and a call that fails leaves no trace exactly if it
  does not fail between its two contexts.
* `context_leaked` : both can happen.
-/

namespace VirtioGpu

inductive CapsetId where
  | virgl
  | virgl2
  | gfxstream
  | venus
  | crossDomain
  | drm
  deriving DecidableEq

structure Context3D where
  id : ℕ
  capset : CapsetId
  deriving DecidableEq

/-- The contexts of a device, and what the host has been asked. -/
structure DeviceContexts where
  /-- `main_context`. -/
  main : Option Context3D
  /-- `virgl_blit_context`. -/
  blit : Option Context3D
  /-- The contexts the host has created for the device. -/
  created : List ℕ
  /-- The contexts the host has been asked to destroy. -/
  destroyed : List ℕ
  deriving DecidableEq

/-! ### Names -/

/-- `name.len()`. -/
def utf8Len (name : List Char) : ℕ := (name.map Char.utf8Size).sum

/-- The text of a `BufferWriter` with room for `n` bytes after `text` has been written to it;
nothing if it ends in the middle of a character, where `as_str` panics. -/
def writerText : ℕ → List Char → Option (List Char)
  | _, [] => some []
  | n, c :: text =>
    if c.utf8Size ≤ n then (writerText (n - c.utf8Size) text).map (c :: ·)
    else if n = 0 then some [] else none

/-- `ContextInit::debug_name`: it comes from 64 bytes. -/
abbrev DebugName := { name : List Char // utf8Len name ≤ 64 }

/-! ### The calls -/

/-- What happens to one call of `context_create`. -/
structure ContextAnswer where
  /-- `next_context_id`. -/
  id : Option ℕ
  accept : Bool

/-- A call of `init_context`, with the answers to the contexts it asks for. -/
structure InitContext where
  /-- `supported_capsets`. -/
  supported : List CapsetId
  capset : CapsetId
  name : DebugName
  main : ContextAnswer
  blit : ContextAnswer

/-- `as_str` on half a character. -/
inductive NotUtf8 where
  | notUtf8
  deriving DecidableEq

/-- The capset does not speak Virgl and needs a second context. -/
def CapsetId.needsBlit : CapsetId → Bool
  | venus | drm => true
  | _ => false

namespace DeviceContexts

/-- `Device::new`. -/
def new : DeviceContexts := ⟨none, none, [], []⟩

variable (s : DeviceContexts)

/-- `GpuChannel::context_create`. -/
def contextCreate (name : List Char) (ans : ContextAnswer) : Except NtStatus ℕ × DeviceContexts :=
  match ans.id with
  | none => (.error .insufficientResources, s)
  | some id =>
    if 64 < utf8Len name then (.error .bufferTooSmall, s)
    else if ans.accept then (.ok id, { s with created := s.created ++ [id] })
    else (.error .ioDeviceError, s)

/-- The second part of `init_context`: the context for blits. -/
def initBlit (call : InitContext) : Outcome (Except NtStatus Unit × DeviceContexts) NotUtf8 :=
  if call.capset.needsBlit then
    let capset := if .virgl2 ∈ call.supported then .virgl2 else .virgl
    match writerText 64 ("shadow-virgl-".toList ++ call.name.1) with
    | none => .panic .notUtf8
    | some name => match s.contextCreate name call.blit with
      | (.error e, s) => .next (.error e, s)
      | (.ok id, s) => .next (.ok (), { s with blit := some ⟨id, capset⟩ })
  else .next (.ok (), s)

/-- `Device::init_context`. -/
def initContext (call : InitContext) : Outcome (Except NtStatus Unit × DeviceContexts) NotUtf8 :=
  if call.capset ∉ call.supported then .next (.error .notSupported, s)
  else match s.contextCreate call.name.1 call.main with
    | (.error e, s) => .next (.error e, s)
    | (.ok id, s) => { s with main := some ⟨id, call.capset⟩ }.initBlit call

/-- The ids of the contexts the device has. -/
def held : List ℕ :=
  (s.main.map Context3D.id).toList ++ (s.blit.map Context3D.id).toList

/-- `Device::drop`, as far as contexts are concerned. -/
def drop : DeviceContexts := { s with destroyed := s.destroyed ++ s.held }

end DeviceContexts

/-- The ids of the contexts that a call may create. -/
def InitContext.ids (call : InitContext) : List ℕ := call.main.id.toList ++ call.blit.id.toList

/-- A device on which `init_context` is called; the ids are new every time. -/
def contextMachine : Machine DeviceContexts InitContext NotUtf8 where
  step s call :=
    if call.ids.Nodup ∧ ∀ id ∈ call.ids, id ∉ s.created then
      (s.initContext call).bind fun r => .next r.2
    else .stuck

namespace InitContext

/-- The host is asked for the main context and creates it. -/
def createsMain (call : InitContext) : Prop :=
  call.capset ∈ call.supported ∧ call.main.id.isSome = true ∧ call.main.accept = true

/-- No context is created while the device has one. -/
def Once (s : DeviceContexts) (call : InitContext) : Prop :=
  call.createsMain → s.main = none

/-- The main context is created, and the one for blits is needed and is not. -/
def FailsBetween (call : InitContext) : Prop :=
  call.createsMain ∧ call.capset.needsBlit = true ∧
    ¬ (call.blit.id.isSome = true ∧ call.blit.accept = true)

end InitContext

/-! ### What a call does -/

theorem utf8Len_writerText :
    ∀ {n : ℕ} {text t : List Char}, writerText n text = some t → utf8Len t ≤ n := by
  intro n text
  induction text generalizing n with
  | nil =>
    intro t h
    cases h
    exact Nat.zero_le n
  | cons c text ih =>
    intro t h
    simp only [writerText] at h
    split_ifs at h with hc hn
    · obtain ⟨t', ht', rfl⟩ := Option.map_eq_some_iff.1 h
      have hle := ih ht'
      simp only [utf8Len, List.map_cons, List.sum_cons] at hle ⊢
      omega
    · cases h
      exact Nat.zero_le n

namespace DeviceContexts

variable {s s' : DeviceContexts} {call : InitContext} {r : Except NtStatus Unit}

/-- The four ways through `init_context`. -/
inductive InitCase (s : DeviceContexts) (call : InitContext) :
    Except NtStatus Unit → DeviceContexts → Prop where
  /-- No context is created. -/
  | refused (e : NtStatus) (h : ¬ call.createsMain) : InitCase s call (.error e) s
  /-- Only the main context is needed. -/
  | main (id : ℕ) (h : call.createsMain) (hid : call.main.id = some id)
      (hblit : call.capset.needsBlit = false) :
      InitCase s call (.ok ())
        { s with main := some ⟨id, call.capset⟩, created := s.created ++ [id] }
  /-- The context for blits is not created. -/
  | between (id : ℕ) (e : NtStatus) (h : call.FailsBetween) (hid : call.main.id = some id) :
      InitCase s call (.error e)
        { s with main := some ⟨id, call.capset⟩, created := s.created ++ [id] }
  | both (id id' : ℕ) (capset : CapsetId) (h : call.createsMain) (hid : call.main.id = some id)
      (hid' : call.blit.id = some id') (hblit : call.capset.needsBlit = true)
      (haccept : call.blit.accept = true) :
      InitCase s call (.ok ())
        { s with
          main := some ⟨id, call.capset⟩
          blit := some ⟨id', capset⟩
          created := s.created ++ [id, id'] }

theorem contextCreate_of_le (s : DeviceContexts) {name : List Char} (ans : ContextAnswer)
    (h : utf8Len name ≤ 64) :
    (∃ id, ans.id = some id ∧ ans.accept = true ∧
      s.contextCreate name ans = (.ok id, { s with created := s.created ++ [id] })) ∨
    ¬ (ans.id.isSome = true ∧ ans.accept = true) ∧
      ∃ e, s.contextCreate name ans = (.error e, s) := by
  unfold contextCreate
  cases hid : ans.id with
  | none => exact .inr ⟨by simp, _, rfl⟩
  | some id =>
    cases haccept : ans.accept with
    | false => exact .inr ⟨by simp, .ioDeviceError, by simp [not_lt.2 h]⟩
    | true => exact .inl ⟨id, rfl, rfl, by simp [not_lt.2 h]⟩

theorem initContext_cases (h : s.initContext call = .next (r, s')) : InitCase s call r s' := by
  unfold initContext at h
  by_cases hsupported : call.capset ∈ call.supported
  · rw [if_neg (not_not.2 hsupported)] at h
    rcases contextCreate_of_le s call.main call.name.2 with
      ⟨id, hid, haccept, hcreate⟩ | ⟨hno, e, hcreate⟩
    · have hmain : call.createsMain := ⟨hsupported, by simp [hid], haccept⟩
      rw [hcreate] at h
      dsimp only [initBlit] at h
      by_cases hblit : call.capset.needsBlit = true
      · rw [if_pos hblit] at h
        split at h
        · cases h
        · -- The name is cut to the 64 bytes of the writer, so the second one is not too long.
          rename_i name hname
          rcases contextCreate_of_le
              { s with main := some ⟨id, call.capset⟩, created := s.created ++ [id] }
              call.blit (utf8Len_writerText hname) with
            ⟨id', hid', haccept', hcreate'⟩ | ⟨hno, e, hcreate'⟩
          · simp only [hcreate'] at h
            cases h
            simp only [List.append_assoc]
            exact .both id id' _ hmain hid hid' hblit haccept'
          · simp only [hcreate'] at h
            cases h
            exact .between id e ⟨hmain, hblit, hno⟩ hid
      · rw [if_neg hblit] at h
        cases h
        exact .main id hmain hid (by simpa using hblit)
    · rw [hcreate] at h
      cases h
      exact .refused e fun hcreates => hno hcreates.2
  · rw [if_pos hsupported] at h
    cases h
    exact .refused _ fun hcreates => hsupported hcreates.1

/-- The call leaves the contexts of the device, and those of the host, as they were. -/
def Untouched (s s' : DeviceContexts) : Prop :=
  s'.main = s.main ∧ s'.blit = s.blit ∧ s'.created = s.created

theorem untouched_iff {e : NtStatus} (h : s.initContext call = .next (.error e, s')) :
    s.Untouched s' ↔ ¬ call.FailsBetween := by
  cases initContext_cases h with
  | refused e hno => exact iff_of_true ⟨rfl, rfl, rfl⟩ fun hfails => hno hfails.1
  | between id e hfails =>
    refine iff_of_false (fun hsame => ?_) (not_not.2 hfails)
    -- The host has one more context.
    have hlen := congrArg List.length hsame.2.2
    simp at hlen

/-! ### Accounting -/

/-- What the device has has been created, only once, and it has a context for blits only along with
a main one. -/
structure Inv (s : DeviceContexts) : Prop where
  subperm : s.held.Subperm s.created
  blit : s.main = none → s.blit = none
  destroyed : s.destroyed = []

/-- The contexts that have been created and that the device does not have. -/
def lost (s : DeviceContexts) : ℕ := s.created.length - s.held.length

theorem initCase_of_step (h : contextMachine.step s call = .next s') :
    ∃ r, InitCase s call r s' := by
  simp only [contextMachine] at h
  split_ifs at h
  obtain ⟨⟨r, t⟩, hinit, ht⟩ := Outcome.bind_eq_next.1 h
  cases ht
  exact ⟨r, initContext_cases hinit⟩

theorem length_held (s : DeviceContexts) :
    s.held.length = (if s.main = none then 0 else 1) + if s.blit = none then 0 else 1 := by
  cases hmain : s.main <;> cases hblit : s.blit <;> simp [held, hmain, hblit]

theorem Inv.subperm_main (hs : s.Inv) (id : ℕ) :
    (id :: (s.blit.map Context3D.id).toList).Subperm (s.created ++ [id]) := by
  have hblit : (s.blit.map Context3D.id).toList.Subperm s.created :=
    (List.sublist_append_right _ _).subperm.trans hs.subperm
  exact ((List.subperm_cons id).2 hblit).trans
    (List.perm_append_singleton id s.created).symm.subperm

theorem inv_step (hs : s.Inv) (hstep : contextMachine.step s call = .next s') : s'.Inv := by
  obtain ⟨r, hcase⟩ := initCase_of_step hstep
  cases hcase with
  | refused => exact hs
  | main id _ _ _ | between id _ _ _ => exact ⟨hs.subperm_main id, nofun, hs.destroyed⟩
  | both => exact ⟨(List.sublist_append_right _ _).subperm, nofun, hs.destroyed⟩

theorem Inv.length_le (hs : s.Inv) : s.held.length ≤ s.created.length := hs.subperm.length_le

/-- A call loses a context if it creates one too many, and never finds one again. -/
theorem lost_eq_zero_iff (hs : s.Inv) (hstep : contextMachine.step s call = .next s') :
    s'.lost = 0 ↔ s.lost = 0 ∧ InitContext.Once s call := by
  obtain ⟨r, hcase⟩ := initCase_of_step hstep
  have hle := hs.length_le
  have hblit := hs.blit
  simp only [lost, length_held, InitContext.Once] at hle ⊢
  -- A device without a main context has none for blits, so everything it creates it has.  With one,
  -- `main_context` (and perhaps `virgl_blit_context`) is replaced by as many as are created.
  cases hcase with
  | refused e hno => exact (and_iff_left fun h => absurd h hno).symm
  | main id hmain hid hneeds =>
    by_cases hnone : s.main = none
    · simp [hnone, hblit hnone]
    · simp only [hnone, if_false, List.length_append, List.length_singleton, reduceCtorEq,
        hmain, forall_const, and_false, iff_false] at hle ⊢
      omega
  | between id e hmain hid =>
    by_cases hnone : s.main = none
    · simp [hnone, hblit hnone]
    · simp only [hnone, if_false, List.length_append, List.length_singleton, reduceCtorEq,
        hmain.1, forall_const, and_false, iff_false] at hle ⊢
      omega
  | both id id' capset hmain =>
    by_cases hnone : s.main = none
    · simp [hnone, hblit hnone]
    · simp only [hnone, if_false, List.length_append, List.length_cons, List.length_nil,
        reduceCtorEq, hmain, forall_const, and_false, iff_false] at hle ⊢
      omega

theorem Inv.perm_iff (hs : s.Inv) : s.drop.destroyed.Perm s.created ↔ s.lost = 0 := by
  have hdestroyed : s.drop.destroyed = s.held := by simp [drop, hs.destroyed]
  rw [hdestroyed, lost, Nat.sub_eq_zero_iff_le]
  exact ⟨fun h => h.length_eq.ge, hs.subperm.perm_of_length_le⟩

theorem inv_new : new.Inv := ⟨List.nil_subperm, fun _ => rfl, rfl⟩

end DeviceContexts

/-- **When host contexts are accounted for.**  Every context the host has created for a device is
destroyed once by the end of the drop exactly if no call creates one while the device has one.  A
call that fails changes nothing exactly if it does not fail after its first and before its second
context. -/
theorem contexts_accounted_iff (calls : List InitContext) (s : DeviceContexts)
    (hrun : contextMachine.run .new calls = some s) :
    (s.drop.destroyed.Perm s.created ↔ contextMachine.Meets InitContext.Once .new calls) ∧
    ∀ (call : InitContext) (e : NtStatus) (s' : DeviceContexts),
      s.initContext call = .next (.error e, s') → (s.Untouched s' ↔ ¬ call.FailsBetween) := by
  refine ⟨?_, fun call e s' h => DeviceContexts.untouched_iff h⟩
  have hinv : s.Inv := Machine.run_invariant (fun _ _ _ => DeviceContexts.inv_step)
    DeviceContexts.inv_new hrun
  rw [hinv.perm_iff]
  exact Machine.iff_meets_of_step (fun _ _ _ => DeviceContexts.inv_step)
    (fun _ _ _ => DeviceContexts.lost_eq_zero_iff) DeviceContexts.inv_new rfl hrun

/-- A call for a Venus context under the name `a`; the host accepts the first context, and the
second if `accept`. -/
def initVenus (id : ℕ) (accept : Bool) : InitContext where
  supported := [.venus, .virgl2]
  capset := .venus
  name := ⟨['a'], by decide⟩
  main := ⟨some id, true⟩
  blit := ⟨some (id + 1), accept⟩

/-- A call whose first context is refused. -/
def initRefused : InitContext := { initVenus 3 true with main := ⟨some 3, false⟩ }

/-- The contexts of a device after one call for a Venus context. -/
def venusContexts : DeviceContexts := ⟨some ⟨1, .venus⟩, some ⟨2, .virgl2⟩, [1, 2], []⟩

/-- A call that succeeds and one that is refused: both contexts are destroyed, and another call that
is refused leaves no trace. -/
theorem contexts_accounted_iff_once :
    contextMachine.run .new [initVenus 1 true, initRefused] = some venusContexts ∧
      venusContexts.drop.destroyed.Perm venusContexts.created ∧
      venusContexts.initContext initRefused = .next (.error .ioDeviceError, venusContexts) ∧
      venusContexts.Untouched venusContexts := by
  have hrun : contextMachine.run .new [initVenus 1 true, initRefused] = some venusContexts := by
    decide
  have hcall : venusContexts.initContext initRefused =
      .next (.error .ioDeviceError, venusContexts) := by decide
  obtain ⟨hdrop, hfail⟩ := contexts_accounted_iff _ _ hrun
  refine ⟨hrun, hdrop.2 ⟨fun _ => rfl, fun s' _ => ⟨?_, fun _ _ => trivial⟩⟩, hcall,
    (hfail _ _ _ hcall).2 ?_⟩
  · exact fun hcreates => absurd hcreates.2.2 (by decide)
  · exact fun hfails => absurd hfails.1.2.2 (by decide)

/-- **Contexts can leak.**  After two calls the first two contexts of the host are never destroyed.
A call whose second context is refused fails and leaves its first one behind. -/
theorem context_leaked :
    ((contextMachine.run .new [initVenus 1 true, initVenus 3 true]).map fun s =>
      (s.created, s.drop.destroyed)) = some ([1, 2, 3, 4], [3, 4]) ∧
    DeviceContexts.initContext .new (initVenus 1 false) =
      .next (.error .ioDeviceError, ⟨some ⟨1, .venus⟩, none, [1], []⟩) := by
  decide

end VirtioGpu
