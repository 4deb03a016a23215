import VirtioGpu.Device.Context
import VirtioGpu.Resource.Ids

/-!
# Creations that are refused

`context_create`, `resource_create_2d` and `resource_create_3d` draw an id, send a request and wait
for its answer.  The two functions for resources give the id back if the answer is not a success.
`context_create` does not, and it also returns without giving the id back if the name of the context
is too long, which it checks after the id has been drawn.

`creationMachine` interleaves any number of these calls with each other and with the owners of
contexts and resources, who give ids back through the callbacks of `CTX_DESTROY` and
`RESOURCE_UNREF`.  A call is two steps, up to its request and from the answer on.  A request that
gets no answer (a time-out, no memory) is another matter: its id stays with the caller.

* `refused_creations_iff` : a refused call leaves its id exactly once in the free queue exactly if
  it is one for resources; and the available ids are those that nobody has, as if no refused call
  had been made, exactly if no call of `context_create` was refused.
* `context_id_lost` : a name of 65 bytes, and an error of the host.
-/

namespace VirtioGpu

/-! ### The calls -/

/-- The two allocators of `GpuData`. -/
inductive IdKind where
  | context
  | resource
  deriving DecidableEq

/-- `Allocate3d`, without the tag and the size, which `resource_create_3d` does not read. -/
structure Allocate3d where
  target : ℕ
  format : ℕ
  bind : ℕ
  width : ℕ
  height : ℕ
  depth : ℕ
  arraySize : ℕ
  lastLevel : ℕ
  nrSamples : ℕ
  flags : ℕ
  deriving DecidableEq

/-- A call that creates something at the host. -/
inductive CreateCall where
  | contextCreate (capset : CapsetId) (name : List Char)
  | resourceCreate2d (width height format : ℕ)
  | resourceCreate3d (info : Allocate3d)
  deriving DecidableEq

/-- What follows the header of the request, and the context of the header. -/
inductive CreateRequest where
  | ctxCreate (ctxId nlen contextInit : ℕ) (debugName : List UInt8)
  | create2d (resourceId format width height : ℕ)
  | create3d (resourceId : ℕ) (info : Allocate3d)

/-- `capset_id as u32` -/
def CapsetId.code : CapsetId → ℕ
  | virgl => 1
  | virgl2 => 2
  | gfxstream => 3
  | venus => 4
  | crossDomain => 5
  | drm => 6

/-- The 64 bytes of a name. -/
def debugName (name : List Char) : List UInt8 :=
  name.flatMap String.utf8EncodeChar ++ List.replicate (64 - utf8Len name) 0

/-- `Command::OK_NODATA` -/
def okNodata : ℕ := 0x1100

/-- `CtrlHeader::check_type`, with the error mapped to a status. -/
def checkType (hdrType expected : ℕ) : Except NtStatus Unit :=
  if hdrType = expected then .ok () else .error .ioDeviceError

/-- A call up to its request. -/
structure Begun where
  /-- The id that was drawn. -/
  id : Option ℕ
  /-- The request, or the error the call returns. -/
  request : Except NtStatus CreateRequest
  ids : SimpleIdAllocator

namespace CreateCall

/-- The allocator of the call. -/
def kind : CreateCall → IdKind
  | contextCreate .. => .context
  | resourceCreate2d .. | resourceCreate3d .. => .resource

def start (ids : SimpleIdAllocator) : CreateCall → Begun
  | contextCreate capset name => match ids.nextNonZero with
    | (none, ids) => ⟨none, .error .insufficientResources, ids⟩
    | (some id, ids) =>
      -- The id is not given back.
      if 64 < utf8Len name then ⟨some id, .error .bufferTooSmall, ids⟩
      else ⟨some id, .ok (.ctxCreate id (utf8Len name) capset.code (debugName name)), ids⟩
  | resourceCreate2d width height format => match ids.nextNonZero with
    | (none, ids) => ⟨none, .error .noMemory, ids⟩
    | (some id, ids) => ⟨some id, .ok (.create2d id format width height), ids⟩
  | resourceCreate3d info => match ids.nextNonZero with
    | (none, ids) => ⟨none, .error .noMemory, ids⟩
    | (some id, ids) => ⟨some id, .ok (.create3d id info), ids⟩

/-- What the call does with an answer that is not a success. -/
def undo (ids : SimpleIdAllocator) (id : ℕ) : CreateCall → SimpleIdAllocator
  | contextCreate .. => ids
  | resourceCreate2d .. | resourceCreate3d .. => ids.free id

/-- The call from the answer on; `rsp` is what `request_blocking` returns, the type of the response
or an error. -/
def finish (ids : SimpleIdAllocator) (id : ℕ) (rsp : Except NtStatus ℕ) (call : CreateCall) :
    Except NtStatus ℕ × SimpleIdAllocator :=
  match rsp with
  | .error e => (.error e, ids)
  | .ok hdrType => match checkType hdrType okNodata with
    | .error e => (.error e, call.undo ids id)
    | .ok () => (.ok id, ids)

end CreateCall

/-! ### The callers and the owners -/

/-- An allocator, and who has its ids. -/
structure IdLedger where
  ids : SimpleIdAllocator
  /-- The calls that wait for an answer. -/
  waiting : List (CreateCall × ℕ)
  /-- The ids of what has been created and not destroyed, and of requests without an answer. -/
  kept : List ℕ

/-- The steps of the callers and the owners. -/
inductive CreateAct where
  /-- A call up to its request, or up to its return if it makes none. -/
  | start (call : CreateCall)
  /-- `request_blocking` returns, and so does the call. -/
  | answer (call : CreateCall) (id : ℕ) (rsp : Except NtStatus ℕ)
  /-- The callback `FreeContextId` or `FreeResourceId`. -/
  | giveBack (kind : IdKind) (id : ℕ)

/-- The host has answered with anything but success. -/
def NotSuccess (rsp : Except NtStatus ℕ) : Prop := ∃ hdrType, rsp = .ok hdrType ∧ hdrType ≠ okNodata

instance (rsp : Except NtStatus ℕ) : Decidable (NotSuccess rsp) :=
  match rsp with
  | .error _ => isFalse (by simp [NotSuccess])
  | .ok hdrType => decidable_of_iff (hdrType ≠ okNodata) (by simp [NotSuccess])

namespace IdLedger

/-- A call up to its request. -/
def start (l : IdLedger) (call : CreateCall) : IdLedger :=
  let b := call.start l.ids
  match b.id, b.request with
  | some id, .ok _ => { l with ids := b.ids, waiting := (call, id) :: l.waiting }
  | _, _ => { l with ids := b.ids }

/-- A call from the answer on. -/
def answer (l : IdLedger) (call : CreateCall) (id : ℕ) (rsp : Except NtStatus ℕ) : IdLedger where
  ids := (call.finish l.ids id rsp).2
  waiting := l.waiting.erase (call, id)
  kept := if NotSuccess rsp then l.kept else id :: l.kept

/-- The id of something that has been destroyed. -/
def giveBack (l : IdLedger) (id : ℕ) : IdLedger :=
  { l with ids := l.ids.free id, kept := l.kept.erase id }

/-- The ids that callers and owners have. -/
def out (l : IdLedger) : Multiset ℕ := (l.waiting.map Prod.snd : List ℕ) + l.kept

/-- The ids that `next` can return, now or later, are those that nobody has, and each of them
once. -/
structure NothingLost (l : IdLedger) : Prop where
  nodup : l.ids.freed.Nodup
  available : ∀ id, (id ∈ l.ids.freed ∨ l.ids.counter ≤ id ∧ id < u32Max) ↔
    0 < id ∧ id < u32Max ∧ id ∉ l.out

end IdLedger

/-- Both allocators. -/
abbrev CreationState := IdKind → IdLedger

namespace CreationState

/-- `GpuData::new` -/
def init : CreationState := fun _ => ⟨.new 1, [], []⟩

def step (s : CreationState) : CreateAct → Outcome CreationState Empty
  | .start call => .next (Function.update s call.kind ((s call.kind).start call))
  | .answer call id rsp =>
    if (call, id) ∈ (s call.kind).waiting then
      .next (Function.update s call.kind ((s call.kind).answer call id rsp))
    else .stuck
  | .giveBack kind id =>
    if id ∈ (s kind).kept then .next (Function.update s kind ((s kind).giveBack id)) else .stuck

/-- A call that has drawn `id` returns an error, because its argument is refused or because the host
has answered with anything but success. -/
def Refuses (s : CreationState) (kind : IdKind) (id : ℕ) : CreateAct → Prop
  | .start call => call.kind = kind ∧ (call.start (s kind).ids).id = some id ∧
      ∃ e, (call.start (s kind).ids).request = .error e
  | .answer call id' rsp => call.kind = kind ∧ id' = id ∧ NotSuccess rsp
  | .giveBack .. => False

/-- No call of `context_create` is refused. -/
def NoContextRefused (s : CreationState) (a : CreateAct) : Prop := ∀ id, ¬ s.Refuses .context id a

end CreationState

def creationMachine : Machine CreationState CreateAct Empty := ⟨CreationState.step⟩

/-! ### One allocator -/

namespace SimpleIdAllocator

variable {a : SimpleIdAllocator} {out : Multiset ℕ} {id : ℕ}

theorem tracks_new : (new 1).Tracks 0 := by
  refine ⟨by simp [new], fun id hid => ?_, by decide⟩
  simp [new] at hid

theorem covers_new : (new 1).Covers 0 := by
  intro id hpos hlt
  exact absurd hlt (Nat.not_lt.2 hpos)

theorem Tracks.free (h : a.Tracks (id ::ₘ out)) :
    (a.free id).Tracks out ∧ ((a.free id).Covers out ↔ a.Covers (id ::ₘ out)) := by
  refine h.of_places rfl ?_
  rw [SimpleIdAllocator.free, ← Multiset.coe_add, Multiset.coe_singleton, add_assoc,
    Multiset.singleton_add]

theorem Tracks.lose (h : a.Tracks (id ::ₘ out)) : a.Tracks out ∧ ¬ a.Covers out := by
  have hplaces : (a.freed : Multiset ℕ) + id ::ₘ out = id ::ₘ (a.freed + out) :=
    Multiset.add_cons _ _ _
  have hnodup := Multiset.nodup_cons.1 (hplaces ▸ h.nodup)
  have hrange : ∀ id' ∈ id ::ₘ ((a.freed : Multiset ℕ) + out), 0 < id' ∧ id' < a.counter :=
    hplaces ▸ h.range
  refine ⟨⟨hnodup.2, fun id' hid' => hrange id' (Multiset.mem_cons_of_mem hid'), h.counter⟩,
    fun hcov => hnodup.1 ?_⟩
  have hid := hrange id (Multiset.mem_cons_self _ _)
  exact hcov id hid.1 hid.2

theorem Tracks.not_mem_freed (h : a.Tracks (id ::ₘ out)) : id ∉ a.freed := fun hmem =>
  Multiset.disjoint_left.1 (Multiset.nodup_add.1 h.nodup).2.2 hmem (Multiset.mem_cons_self _ _)

end SimpleIdAllocator

namespace CreateCall

variable {ids : SimpleIdAllocator} {call : CreateCall} {id : ℕ} {e : NtStatus}

theorem start_id (ids : SimpleIdAllocator) (call : CreateCall) :
    (call.start ids).id = ids.nextNonZero.1 := by
  cases call <;> simp only [start] <;> split <;> rename_i heq <;> simp only [heq]
  split <;> rfl

theorem start_ids (ids : SimpleIdAllocator) (call : CreateCall) :
    (call.start ids).ids = ids.nextNonZero.2 := by
  cases call <;> simp only [start] <;> split <;> rename_i heq <;> simp only [heq]
  split <;> rfl

theorem kind_of_refused (hid : (call.start ids).id = some id)
    (hrequest : (call.start ids).request = .error e) : call.kind = .context := by
  cases call with
  | contextCreate => rfl
  | resourceCreate2d width height format | resourceCreate3d info =>
    simp only [start] at hid hrequest
    split at hid <;> simp_all

end CreateCall

/-! ### One step -/

namespace IdLedger

variable {l : IdLedger} {call : CreateCall} {id : ℕ}

/-- The ids that somebody has or that are free are in one place each. -/
abbrev Tracked (l : IdLedger) : Prop := l.ids.Tracks l.out

/-- All ids that have been handed out are free, or somebody has them. -/
abbrev Complete (l : IdLedger) : Prop := l.ids.Covers l.out

theorem nothingLost_iff (h : l.Tracked) : l.NothingLost ↔ l.Complete := by
  have hle := h.counter.2
  constructor
  · intro hlost id hpos hlt
    rw [Multiset.mem_add]
    by_cases hout : id ∈ l.out
    · exact .inr hout
    · have havail := (hlost.available id).2 ⟨hpos, by omega, hout⟩
      exact .inl (Multiset.mem_coe.2 (havail.resolve_right (by omega)))
  · intro hcov
    obtain ⟨hnodup, -, hdisj⟩ := Multiset.nodup_add.1 h.nodup
    refine ⟨hnodup, fun id => ⟨?_, ?_⟩⟩
    · rintro (hfreed | ⟨hge, hlt⟩)
      · have hrange := h.range id (Multiset.mem_add.2 (.inl hfreed))
        exact ⟨hrange.1, by omega, Multiset.disjoint_left.1 hdisj hfreed⟩
      · refine ⟨by have := h.counter.1; omega, hlt, fun hout => ?_⟩
        have hrange := h.range id (Multiset.mem_add.2 (.inr hout))
        omega
    · rintro ⟨hpos, hlt, hout⟩
      by_cases hcounter : id < l.ids.counter
      · exact .inl ((Multiset.mem_add.1 (hcov id hpos hcounter)).resolve_right hout)
      · exact .inr ⟨by omega, hlt⟩

theorem start_spec (h : l.Tracked) (call : CreateCall) :
    (l.start call).Tracked ∧ ((l.start call).Complete ↔ l.Complete ∧
      ¬ ∃ id e, (call.start l.ids).id = some id ∧ (call.start l.ids).request = .error e) := by
  cases hid : (call.start l.ids).id with
  | none =>
    have hids : (call.start l.ids).ids = l.ids := by
      refine h.next_none (Prod.ext ?_ (call.start_ids _).symm)
      rw [← call.start_id, hid]
    have hstart : l.start call = l := by simp [start, hid, hids]
    rw [hstart]
    exact ⟨h, (and_iff_left (by simp)).symm⟩
  | some id =>
    have hnext : l.ids.nextNonZero = (some id, (call.start l.ids).ids) :=
      Prod.ext (by rw [← call.start_id, hid]) (call.start_ids _).symm
    obtain ⟨htracks, hcovers⟩ := h.next hnext
    cases hrequest : (call.start l.ids).request with
    | ok =>
      have hids : (l.start call).ids = (call.start l.ids).ids := by simp [start, hid, hrequest]
      have hout : (l.start call).out = id ::ₘ l.out := by
        simp only [start, hid, hrequest, out, List.map_cons, ← Multiset.cons_coe,
          Multiset.cons_add]
      rw [Tracked, Complete, hids, hout]
      exact ⟨htracks, hcovers.trans (and_iff_left (by simp)).symm⟩
    | error e =>
      have hstart : l.start call = { l with ids := (call.start l.ids).ids } := by
        simp [start, hid, hrequest]
      rw [hstart]
      exact ⟨htracks.lose.1, iff_of_false htracks.lose.2 fun hno => hno.2 ⟨id, e, rfl, rfl⟩⟩

theorem out_of_waiting (hmem : (call, id) ∈ l.waiting) :
    l.out = id ::ₘ (((l.waiting.erase (call, id)).map Prod.snd : List ℕ) + l.kept) := by
  have hperm := Multiset.coe_eq_coe.2 ((List.perm_cons_erase hmem).map Prod.snd)
  rw [out, hperm, List.map_cons, ← Multiset.cons_coe, Multiset.cons_add]

theorem answer_spec (h : l.Tracked) (hmem : (call, id) ∈ l.waiting) (rsp : Except NtStatus ℕ) :
    (l.answer call id rsp).Tracked ∧ ((l.answer call id rsp).Complete ↔
      l.Complete ∧ ¬ (call.kind = .context ∧ NotSuccess rsp)) := by
  have hout := out_of_waiting hmem
  rw [Tracked, hout] at h
  rw [Complete, Complete, hout]
  by_cases hrsp : NotSuccess rsp
  · have ⟨hdrType, hok, hne⟩ := hrsp
    subst hok
    have hans : l.answer call id (.ok hdrType) =
        ⟨call.undo l.ids id, l.waiting.erase (call, id), l.kept⟩ := by
      simp [answer, CreateCall.finish, checkType, hne, hrsp]
    rw [hans]
    cases call with
    | contextCreate =>
      exact ⟨h.lose.1, iff_of_false h.lose.2 fun hno => hno.2 ⟨rfl, hrsp⟩⟩
    | resourceCreate2d width height format | resourceCreate3d info =>
      exact ⟨h.free.1, h.free.2.trans (and_iff_left (by simp [CreateCall.kind])).symm⟩
  · have hids : (call.finish l.ids id rsp).2 = l.ids := by
      cases rsp with
      | error => rfl
      | ok hdrType =>
        have heq : hdrType = okNodata := by simpa [NotSuccess] using hrsp
        simp [CreateCall.finish, checkType, heq]
    have hout' : (l.answer call id rsp).out =
        id ::ₘ (((l.waiting.erase (call, id)).map Prod.snd : List ℕ) + l.kept) := by
      simp only [out, answer, if_neg hrsp, ← Multiset.cons_coe, Multiset.add_cons]
    rw [Tracked, hout', show (l.answer call id rsp).ids = l.ids from hids]
    exact ⟨h, (and_iff_left (by simp [hrsp])).symm⟩

theorem giveBack_spec (h : l.Tracked) (hmem : id ∈ l.kept) :
    (l.giveBack id).Tracked ∧ ((l.giveBack id).Complete ↔ l.Complete) := by
  have hout : l.out = id ::ₘ (l.giveBack id).out := by
    have hperm := Multiset.coe_eq_coe.2 (List.perm_cons_erase hmem)
    rw [out, hperm, ← Multiset.cons_coe, Multiset.add_cons]
    rfl
  rw [Tracked, hout] at h
  rw [Complete, Complete, hout]
  exact h.free

end IdLedger

namespace CreationState

variable {s s' : CreationState} {a : CreateAct} {kind : IdKind} {id : ℕ} {l : IdLedger}

theorem tracked_update (h : ∀ kind, (s kind).Tracked) (hl : l.Tracked) (k : IdKind) :
    (Function.update s kind l k).Tracked := by
  by_cases hk : k = kind
  · subst hk
    rwa [Function.update_self]
  · rw [Function.update_of_ne hk]
    exact h k

theorem complete_update_iff {ok : Prop} (hl : l.Complete ↔ (s kind).Complete ∧ ok) :
    (∀ k, (Function.update s kind l k).Complete) ↔ (∀ k, (s k).Complete) ∧ ok := by
  rw [Function.forall_update_iff s fun _ l => l.Complete, hl]
  constructor
  · rintro ⟨⟨hkind, hok⟩, hrest⟩
    refine ⟨fun k => ?_, hok⟩
    by_cases hk : k = kind
    · exact hk ▸ hkind
    · exact hrest k hk
  · rintro ⟨hall, hok⟩
    exact ⟨⟨hall kind, hok⟩, fun k _ => hall k⟩

/-- **One step**: the ids stay in one place each, and an id gets lost exactly if a call of
`context_create` is refused. -/
theorem step_spec (h : ∀ kind, (s kind).Tracked) (hstep : creationMachine.step s a = .next s') :
    (∀ kind, (s' kind).Tracked) ∧
      ((∀ kind, (s' kind).Complete) ↔ (∀ kind, (s kind).Complete) ∧ s.NoContextRefused a) := by
  simp only [creationMachine] at hstep
  cases a with
  | start call =>
    cases hstep
    obtain ⟨htracked, hcomplete⟩ := IdLedger.start_spec (h call.kind) call
    refine ⟨tracked_update h htracked, complete_update_iff (hcomplete.trans ?_)⟩
    refine and_congr_right fun _ => ?_
    simp only [NoContextRefused, Refuses]
    constructor
    · rintro hno id ⟨hkind, hid, e, he⟩
      rw [← hkind] at hid he
      exact hno ⟨id, e, hid, he⟩
    · rintro hno ⟨id, e, hid, he⟩
      have hkind := CreateCall.kind_of_refused hid he
      rw [hkind] at hid he
      exact hno id ⟨hkind, hid, e, he⟩
  | answer call id rsp =>
    simp only [step] at hstep
    split_ifs at hstep with hmem
    cases hstep
    obtain ⟨htracked, hcomplete⟩ := IdLedger.answer_spec (h call.kind) hmem rsp
    refine ⟨tracked_update h htracked, complete_update_iff (hcomplete.trans ?_)⟩
    refine and_congr_right fun _ => ?_
    simp [NoContextRefused, Refuses]
  | giveBack kind =>
    simp only [step] at hstep
    split_ifs at hstep with hmem
    cases hstep
    obtain ⟨htracked, hcomplete⟩ := IdLedger.giveBack_spec (h kind) hmem
    refine ⟨tracked_update h htracked, complete_update_iff (hcomplete.trans ?_)⟩
    exact (and_iff_left (by simp [NoContextRefused, Refuses])).symm

/-- A refused call gives its id back exactly if it is one for resources. -/
theorem count_of_refused (h : ∀ kind, (s kind).Tracked)
    (hstep : creationMachine.step s a = .next s') (hrefused : s.Refuses kind id a) :
    (s' kind).ids.freed.count id = 1 ↔ kind = .resource := by
  simp only [creationMachine] at hstep
  cases a with
  | giveBack => exact hrefused.elim
  | start call =>
    obtain ⟨rfl, hid, e, he⟩ := hrefused
    cases hstep
    have hnext : (s call.kind).ids.nextNonZero = (some id, (call.start (s call.kind).ids).ids) :=
      Prod.ext (by rw [← call.start_id, hid]) (call.start_ids _).symm
    have hfreed := ((h call.kind).next hnext).1.not_mem_freed
    have hids : ((s call.kind).start call).ids = (call.start (s call.kind).ids).ids := by
      simp [IdLedger.start, hid, he]
    rw [Function.update_self, hids, List.count_eq_zero_of_not_mem hfreed,
      CreateCall.kind_of_refused hid he]
    simp
  | answer call id' =>
    obtain ⟨rfl, rfl, hdrType, rfl, hne⟩ := hrefused
    simp only [step] at hstep
    split_ifs at hstep with hmem
    cases hstep
    have htracks := h call.kind
    rw [IdLedger.Tracked, IdLedger.out_of_waiting hmem] at htracks
    have hcount := List.count_eq_zero_of_not_mem htracks.not_mem_freed
    have hids : ((s call.kind).answer call id' (.ok hdrType)).ids =
        call.undo (s call.kind).ids id' := by
      simp [IdLedger.answer, CreateCall.finish, checkType, hne]
    rw [Function.update_self, hids]
    cases call with
    | contextCreate =>
      simp only [CreateCall.kind] at hcount
      simp [CreateCall.undo, CreateCall.kind, hcount]
    | resourceCreate2d width height format | resourceCreate3d info =>
      simpa [CreateCall.undo, CreateCall.kind, SimpleIdAllocator.free] using hcount

end CreationState

/-- **What refused creations cost.**  The next call that is refused leaves its id in the free queue
once exactly if it is one for resources.  And the available ids of both allocators are those that no
waiting call and no owner has, once each, exactly if no call of `context_create` was refused. -/
theorem refused_creations_iff (acts : List CreateAct) (s : CreationState)
    (hrun : creationMachine.run .init acts = some s) :
    (∀ a s' kind id, creationMachine.step s a = .next s' → s.Refuses kind id a →
      ((s' kind).ids.freed.count id = 1 ↔ kind = .resource)) ∧
    ((∀ kind, (s kind).NothingLost) ↔
      creationMachine.Meets CreationState.NoContextRefused .init acts) := by
  have hinit : ∀ kind, (CreationState.init kind).Tracked := fun _ =>
    SimpleIdAllocator.tracks_new
  have hstep : ∀ (s : CreationState) a s', (∀ kind, (s kind).Tracked) →
      creationMachine.step s a = .next s' → ∀ kind, (s' kind).Tracked :=
    fun s a s' hs hst => (CreationState.step_spec hs hst).1
  have htracked := Machine.run_invariant hstep hinit hrun
  refine ⟨fun a s' kind id => CreationState.count_of_refused htracked, ?_⟩
  have hcomplete := Machine.iff_meets_of_step hstep
    (fun s a s' hs hst => (CreationState.step_spec hs hst).2) hinit
    (fun _ => SimpleIdAllocator.covers_new) hrun
  rw [← hcomplete]
  exact forall_congr' fun kind => IdLedger.nothingLost_iff (htracked kind)

/-- A resource that the host refuses (`ERR_OUT_OF_MEMORY`), and a context that it creates. -/
def resourceRefused : List CreateAct :=
  [.start (.resourceCreate2d 640 480 1), .start (.contextCreate .venus []),
    .answer (.resourceCreate2d 640 480 1) 1 (.ok 0x1201),
    .answer (.contextCreate .venus []) 1 (.ok okNodata)]

theorem refused_creations_iff_resource :
    ∃ s, creationMachine.run .init resourceRefused = some s ∧
      (s .resource).ids = ⟨2, [1]⟩ ∧ ∀ kind, (s kind).NothingLost := by
  refine ⟨_, rfl, rfl, (refused_creations_iff resourceRefused _ rfl).2.2 ?_⟩
  refine ⟨?_, fun s₁ h₁ => ⟨?_, fun s₂ h₂ => ⟨?_, fun s₃ h₃ => ⟨?_, fun _ _ => trivial⟩⟩⟩⟩
  · exact fun id hrefused => absurd hrefused.1 (by decide)
  · cases h₁
    rintro id ⟨-, -, e, he⟩
    cases he
  · exact fun id hrefused => absurd hrefused.1 (by decide)
  · exact fun id hrefused => absurd hrefused.2.2 (by decide)

/-- A name of 65 bytes. -/
def longName : List Char := List.replicate 65 'a'

/-- The id 1 is lost with the name, and the id 2 with an error of the host. -/
theorem context_id_lost :
    ∃ s, creationMachine.run .init [.start (.contextCreate .venus longName),
        .start (.contextCreate .venus []), .answer (.contextCreate .venus []) 2 (.ok 0x1200)] =
          some s ∧
      s .context = ⟨⟨3, []⟩, [], []⟩ ∧ ¬ (s .context).NothingLost := by
  refine ⟨_, rfl, rfl, fun hlost => ?_⟩
  have havail := (hlost.available 1).2 (by decide)
  exact absurd havail (by decide)

end VirtioGpu
