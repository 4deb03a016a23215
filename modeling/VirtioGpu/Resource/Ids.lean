import VirtioGpu.Data.Memory
import VirtioGpu.Machine.Basic
import Mathlib.Algebra.Order.Group.Multiset
import Mathlib.Data.Multiset.UnionInter
import Mathlib.Tactic.Abel

/-!
# Resource ids

`GpuChannel` numbers the host's resources with a `SimpleIdAllocator`: a counter, and a queue of ids
that have been given back and are handed out again first.  An id is given back by the callback of
the answered `RESOURCE_UNREF`, and by the functions that create a resource when the device refuses.
`resource_transfer_to_host_2d` follows their pattern and gives its id back on an error too, although
it has not allocated it: the caller still owns the resource.

`idMachine` interleaves any number of callers with the device.  A blocking call is two steps, the
request and the answer (or the time-out), so that other calls may come in between.  An owner whose
request is not answered yet is waiting for it and does not unref.

* `ids_exclusive_iff` : no id has two owners, or an owner while it is free, or is free twice, all
  along a run, exactly when no `TRANSFER_TO_HOST_2D` of the run is answered with an error.
* `id_has_two_owners` : a run with such an answer after which one id belongs to two resources.
-/

namespace VirtioGpu

structure SimpleIdAllocator where
  /-- `next`: the smallest id that has never been handed out. -/
  counter : ℕ
  /-- `free`: the ids that have been given back, oldest first. -/
  freed : List ℕ

namespace SimpleIdAllocator

def new (initial : ℕ) : SimpleIdAllocator := ⟨initial, []⟩

def next (a : SimpleIdAllocator) : Option ℕ × SimpleIdAllocator :=
  match a.freed with
  | id :: freed => (some id, { a with freed := freed })
  | [] =>
    if a.counter ≠ u32Max then (some a.counter, { a with counter := (a.counter + 1) % 2 ^ 32 })
    else (none, { a with counter := u32Max })

def free (a : SimpleIdAllocator) (id : ℕ) : SimpleIdAllocator :=
  { a with freed := a.freed ++ [id] }

/-- `next_resource_id`, and `next_context_id`: `next` without the id 0. -/
def nextNonZero (a : SimpleIdAllocator) : Option ℕ × SimpleIdAllocator :=
  (a.next.1.filter (· ≠ 0), a.next.2)

end SimpleIdAllocator

/-! ### The callers and the device -/

/-- The functions of `GpuChannel` that send a request about a resource id and wait for it. -/
inductive IdCall where
  | resourceCreate2d
  | resourceCreate3d
  | resourceCreateBlob
  | resourceTransferToHost2d
  deriving DecidableEq

namespace IdCall

/-- The function allocates the id itself, and hands it to its caller if the device agrees. -/
def allocates : IdCall → Bool
  | resourceCreate2d | resourceCreate3d => true
  | resourceCreateBlob | resourceTransferToHost2d => false

/-- The function gives the id back if the device answers with an error. -/
def freesOnError : IdCall → Bool
  | resourceCreate2d | resourceCreate3d | resourceTransferToHost2d => true
  | resourceCreateBlob => false

end IdCall

/-- The allocator, and who has which id. -/
structure IdState where
  ids : SimpleIdAllocator
  /-- The ids of the owners that have not called `resource_unref` yet. -/
  held : List ℕ
  /-- The requests whose callers are waiting. -/
  pending : List (IdCall × ℕ)
  /-- The `RESOURCE_UNREF` requests that have not been answered. -/
  unrefs : List ℕ

/-- The steps of the callers and of the device. -/
inductive IdAct where
  | nextResourceId
  /-- A call of `resource_create_2d` or `resource_create_3d` up to its request. -/
  | create (call : IdCall)
  /-- An owner's call of another function of `IdCall` up to its request. -/
  | request (call : IdCall) (id : ℕ)
  /-- The device answers, with success or with an error, and the call returns. -/
  | answer (call : IdCall) (id : ℕ) (ok : Bool)
  | timeout (call : IdCall) (id : ℕ)
  | resourceUnref (id : ℕ)
  /-- The answer to a `RESOURCE_UNREF`, whatever it is: the callback `FreeResourceId`. -/
  | unrefAnswered (id : ℕ)
  deriving DecidableEq

namespace IdState

/-- `GpuData::new`: nothing has been allocated. -/
def init : IdState := ⟨.new 1, [], [], []⟩

/-- What the call does with the answer before it returns. -/
def answered (s : IdState) (call : IdCall) (id : ℕ) (ok : Bool) : IdState :=
  match ok with
  | true => if call.allocates then { s with held := id :: s.held } else s
  | false => if call.freesOnError then { s with ids := s.ids.free id } else s

/-- One step; calls that do not allocate their id are made by its owner. -/
def step (s : IdState) : IdAct → Outcome IdState Empty
  | .nextResourceId => match s.ids.nextNonZero with
    | (some id, ids) => .next { s with ids := ids, held := id :: s.held }
    | (none, ids) => .next { s with ids := ids }
  | .create call =>
    if call.allocates then
      match s.ids.nextNonZero with
      | (some id, ids) => .next { s with ids := ids, pending := (call, id) :: s.pending }
      | (none, ids) => .next { s with ids := ids }
    else .stuck
  | .request call id =>
    if call.allocates = false ∧ id ∈ s.held then
      .next { s with pending := (call, id) :: s.pending }
    else .stuck
  | .answer call id ok =>
    if (call, id) ∈ s.pending then
      .next ({ s with pending := s.pending.erase (call, id) }.answered call id ok)
    else .stuck
  | .timeout call id =>
    if (call, id) ∈ s.pending then .next { s with pending := s.pending.erase (call, id) }
    else .stuck
  | .resourceUnref id =>
    if id ∈ s.held ∧ ∀ r ∈ s.pending, r.2 ≠ id then
      .next { s with held := s.held.erase id, unrefs := id :: s.unrefs }
    else .stuck
  | .unrefAnswered id =>
    if id ∈ s.unrefs then
      .next { s with unrefs := s.unrefs.erase id, ids := s.ids.free id }
    else .stuck

/-- No id has two owners, or one while it is free, or is free twice. -/
structure Exclusive (s : IdState) : Prop where
  nodup_held : s.held.Nodup
  held_not_free : ∀ id ∈ s.held, id ∉ s.ids.freed
  nodup_freed : s.ids.freed.Nodup

/-- The ids of the resources that are being created. -/
def creating (s : IdState) : List ℕ :=
  (s.pending.filter fun r => r.1.allocates).map Prod.snd

/-- Every place where an id can be. -/
def places (s : IdState) : Multiset ℕ :=
  s.ids.freed + s.held + s.creating + s.unrefs

/-- Every id is in one place, and those that are in none are leaked or have never been handed
out. -/
structure Inv (s : IdState) : Prop where
  nodup : s.places.Nodup
  range : ∀ id ∈ s.places, 0 < id ∧ id < s.ids.counter
  counter : 0 < s.ids.counter ∧ s.ids.counter ≤ u32Max
  owned : ∀ r ∈ s.pending, r.1.allocates = false → r.2 ∈ s.held

end IdState

/-- Resource ids in use. -/
def idMachine : Machine IdState IdAct Empty := ⟨IdState.step⟩

namespace SimpleIdAllocator

variable {a a' : SimpleIdAllocator} {out : Multiset ℕ} {id : ℕ}

theorem nextNonZero_some (h : a.nextNonZero = (some id, a')) :
    id ≠ 0 ∧ (a.freed = id :: a'.freed ∧ a'.counter = a.counter ∨
      a.freed = [] ∧ a'.freed = [] ∧ id = a.counter ∧ a.counter ≠ u32Max ∧
        a'.counter = (id + 1) % 2 ^ 32) := by
  simp only [nextNonZero, Prod.mk.injEq, Option.filter_eq_some_iff, decide_eq_true_eq] at h
  obtain ⟨⟨hnext, hid⟩, rfl⟩ := h
  refine ⟨hid, ?_⟩
  unfold next at hnext ⊢
  cases hfreed : a.freed with
  | cons =>
    simp only [hfreed, Option.some.injEq] at hnext ⊢
    exact .inl ⟨by rw [hnext], trivial⟩
  | nil =>
    simp only [hfreed] at hnext ⊢
    split_ifs at hnext ⊢ with hmax
    cases hnext
    exact .inr ⟨trivial, rfl, rfl, hmax, rfl⟩

theorem nextNonZero_none (h : a.nextNonZero = (none, a')) (hcounter : a.counter ≠ 0)
    (hfreed : 0 ∉ a.freed) : a' = a := by
  simp only [nextNonZero, Prod.mk.injEq] at h
  obtain ⟨hnone, rfl⟩ := h
  unfold next at hnone ⊢
  cases hq : a.freed with
  | cons id =>
    have hid : id ≠ 0 := fun h0 => hfreed (by simp [hq, h0])
    simp [hq, hid] at hnone
  | nil =>
    simp only [hq] at hnone ⊢
    split_ifs at hnone ⊢ with hmax
    · simp [hcounter] at hnone
    · cases a
      simp_all

/-- The ids that are free or `out` are below the counter, and each of them is in one place. -/
structure Tracks (a : SimpleIdAllocator) (out : Multiset ℕ) : Prop where
  nodup : ((a.freed : Multiset ℕ) + out).Nodup
  range : ∀ id ∈ (a.freed : Multiset ℕ) + out, 0 < id ∧ id < a.counter
  counter : 0 < a.counter ∧ a.counter ≤ u32Max

/-- Every id below the counter is free or `out`. -/
def Covers (a : SimpleIdAllocator) (out : Multiset ℕ) : Prop :=
  ∀ id, 0 < id → id < a.counter → id ∈ (a.freed : Multiset ℕ) + out

theorem Tracks.of_places {out' : Multiset ℕ} (h : a.Tracks out) (hcounter : a'.counter = a.counter)
    (hplaces : (a'.freed : Multiset ℕ) + out' = a.freed + out) :
    a'.Tracks out' ∧ (a'.Covers out' ↔ a.Covers out) := by
  refine ⟨⟨hplaces ▸ h.nodup, ?_, hcounter ▸ h.counter⟩, ?_⟩
  · rw [hplaces, hcounter]
    exact h.range
  · rw [Covers, Covers, hplaces, hcounter]

theorem Tracks.next (h : a.Tracks out) (hnext : a.nextNonZero = (some id, a')) :
    a'.Tracks (id ::ₘ out) ∧ (a'.Covers (id ::ₘ out) ↔ a.Covers out) := by
  obtain ⟨-, ⟨hfreed, hcounter⟩ | ⟨hnil, hnil', rfl, hmax, hcounter⟩⟩ := nextNonZero_some hnext
  · refine h.of_places hcounter ?_
    rw [hfreed, ← Multiset.cons_coe, Multiset.cons_add, Multiset.add_cons]
  · -- The counter goes up by one, and the id is new.
    have hle := h.counter.2
    have hlast : u32Max + 1 = 2 ^ 32 := by decide
    have hsucc : a'.counter = a.counter + 1 := by
      rw [hcounter]
      exact Nat.mod_eq_of_lt (by omega)
    have hplaces : (a'.freed : Multiset ℕ) + a.counter ::ₘ out = a.counter ::ₘ (a.freed + out) := by
      rw [hnil, hnil', Multiset.add_cons]
    have hnew : a.counter ∉ (a.freed : Multiset ℕ) + out := fun hmem =>
      absurd (h.range _ hmem).2 (lt_irrefl _)
    refine ⟨⟨?_, ?_, by omega⟩, ?_⟩
    · rw [hplaces, Multiset.nodup_cons]
      exact ⟨hnew, h.nodup⟩
    · intro id hid
      rw [hplaces, Multiset.mem_cons] at hid
      rcases hid with rfl | hid
      · exact ⟨h.counter.1, by omega⟩
      · have := h.range id hid
        omega
    · rw [Covers, Covers, hplaces, hsucc]
      refine forall_congr' fun id => forall_congr' fun _ => ⟨fun hcov hlt => ?_, fun hcov hlt => ?_⟩
      · exact (Multiset.mem_cons.1 (hcov (by omega))).resolve_left (by omega)
      · rcases Nat.lt_succ_iff_lt_or_eq.1 hlt with hlt | rfl
        · exact Multiset.mem_cons_of_mem (hcov hlt)
        · exact Multiset.mem_cons_self _ _

theorem Tracks.next_none (h : a.Tracks out) (hnext : a.nextNonZero = (none, a')) : a' = a := by
  refine nextNonZero_none hnext h.counter.1.ne' fun hmem => ?_
  exact absurd (h.range 0 (Multiset.mem_add.2 (.inl hmem))).1 (lt_irrefl 0)

end SimpleIdAllocator

namespace IdState

variable {s s' : IdState} {id : ℕ}

/-- The ids that have been handed out and not given back. -/
def out (s : IdState) : Multiset ℕ := s.held + s.creating + s.unrefs

theorem places_eq (s : IdState) : s.places = s.ids.freed + s.out := by
  simp only [places, out, add_assoc]

theorem Inv.tracks (hs : s.Inv) : s.ids.Tracks s.out :=
  ⟨places_eq s ▸ hs.nodup, places_eq s ▸ hs.range, hs.counter⟩

theorem Inv.of_tracks (htracks : s.ids.Tracks s.out)
    (howned : ∀ r ∈ s.pending, r.1.allocates = false → r.2 ∈ s.held) : s.Inv where
  nodup := places_eq s ▸ htracks.nodup
  range := places_eq s ▸ htracks.range
  counter := htracks.counter
  owned := howned

theorem Inv.of_le (hs : s.Inv) (hplaces : s'.places ≤ s.places)
    (hcounter : s'.ids.counter = s.ids.counter)
    (howned : ∀ r ∈ s'.pending, r.1.allocates = false → r.2 ∈ s'.held) : s'.Inv where
  nodup := Multiset.nodup_of_le hplaces hs.nodup
  range id hid := hcounter ▸ hs.range id (Multiset.mem_of_le hplaces hid)
  counter := hcounter ▸ hs.counter
  owned := howned

theorem Inv.of_next (hs : s.Inv) (hnext : s.ids.nextNonZero = (some id, s'.ids))
    (hout : s'.out = id ::ₘ s.out)
    (howned : ∀ r ∈ s'.pending, r.1.allocates = false → r.2 ∈ s'.held) : s'.Inv := by
  refine .of_tracks ?_ howned
  rw [hout]
  exact (hs.tracks.next hnext).1

theorem Inv.of_none (hs : s.Inv) {ids : SimpleIdAllocator}
    (hnext : s.ids.nextNonZero = (none, ids)) : ({ s with ids := ids } : IdState).Inv := by
  rw [hs.tracks.next_none hnext]
  exact hs

theorem Inv.exclusive (hs : s.Inv) : s.Exclusive := by
  have hnodup := hs.nodup
  unfold places at hnodup
  have hfh := (Multiset.nodup_add.1 (Multiset.nodup_add.1 hnodup).1).1
  obtain ⟨hfreed, hheld, hdisjoint⟩ := Multiset.nodup_add.1 hfh
  exact ⟨Multiset.coe_nodup.1 hheld, fun id hid hfree =>
    Multiset.disjoint_left.1 hdisjoint hfree hid, Multiset.coe_nodup.1 hfreed⟩

theorem coe_of_mem {l : List ℕ} (h : id ∈ l) : (l : Multiset ℕ) = id ::ₘ (l.erase id : List ℕ) := by
  rw [← Multiset.coe_erase, Multiset.cons_erase (Multiset.mem_coe.2 h)]

theorem coe_creating {call : IdCall} (h : (call, id) ∈ s.pending) :
    (s.creating : Multiset ℕ) =
      (if call.allocates then {id} else 0) +
        (({ s with pending := s.pending.erase (call, id) } : IdState).creating : Multiset ℕ) := by
  have hperm := List.perm_cons_erase h
  have hmap := (hperm.filter fun r => r.1.allocates).map Prod.snd
  rw [creating, Multiset.coe_eq_coe.2 hmap, List.filter_cons]
  split_ifs
  · simp [creating, ← Multiset.cons_coe]
  · simp [creating]

theorem places_answered {call : IdCall} {ok : Bool} (h : (call, id) ∈ s.pending)
    (hok : ok = false → call ≠ .resourceTransferToHost2d) :
    (({ s with pending := s.pending.erase (call, id) } : IdState).answered call id ok).places =
      s.places := by
  rw [places, places, coe_creating h]
  cases call <;> cases ok <;>
    simp_all [answered, IdCall.allocates, IdCall.freesOnError, SimpleIdAllocator.free,
      creating, ← Multiset.coe_add, ← Multiset.cons_coe, ← Multiset.singleton_add] <;> abel

theorem answered_of_error {id : ℕ} (s : IdState) :
    s.answered .resourceTransferToHost2d id false = { s with ids := s.ids.free id } := rfl

section

variable (s : IdState) (call : IdCall) (id : ℕ) (ok : Bool)

theorem held_answered : s.held ⊆ (s.answered call id ok).held := by
  cases ok <;> simp only [answered] <;> split_ifs <;> simp

theorem pending_answered : (s.answered call id ok).pending = s.pending := by
  cases ok <;> simp only [answered] <;> split_ifs <;> rfl

theorem counter_answered : (s.answered call id ok).ids.counter = s.ids.counter := by
  cases ok <;> simp only [answered] <;> split_ifs <;> rfl

end

/-- `TRANSFER_TO_HOST_2D` is not answered with an error. -/
def NoTransferError (_ : IdState) (a : IdAct) : Prop :=
  ∀ id, a ≠ .answer .resourceTransferToHost2d id false

theorem inv_step {a : IdAct} (hs : s.Inv) (hok : s.NoTransferError a)
    (hstep : idMachine.step s a = .next s') : s'.Inv := by
  cases a with
  | nextResourceId =>
    simp only [idMachine, step] at hstep
    split at hstep <;> cases hstep
    · rename_i id ids hnext
      refine hs.of_next hnext ?_ fun r hr hcall => .tail _ (hs.owned r hr hcall)
      simp [out, creating, ← Multiset.cons_coe]
    · rename_i ids hnext
      exact hs.of_none hnext
  | create call =>
    simp only [idMachine, step] at hstep
    split_ifs at hstep with hcall
    split at hstep <;> cases hstep
    · rename_i id ids hnext
      refine hs.of_next hnext ?_ fun r hr hr' => ?_
      · simp [out, creating, hcall, ← Multiset.cons_coe]
      · rcases List.mem_cons.1 hr with rfl | hr
        · exact absurd (hcall.symm.trans hr') (by decide)
        · exact hs.owned r hr hr'
    · rename_i ids hnext
      exact hs.of_none hnext
  | request =>
    simp only [idMachine, step] at hstep
    split_ifs at hstep with hcall
    cases hstep
    refine hs.of_le (le_of_eq ?_) rfl fun r hr hr' => ?_
    · simp [places, creating, hcall.1]
    · rcases List.mem_cons.1 hr with rfl | hr
      · exact hcall.2
      · exact hs.owned r hr hr'
  | answer call id =>
    simp only [idMachine, step] at hstep
    split_ifs at hstep with hmem
    cases hstep
    refine hs.of_le (places_answered hmem ?_).le (counter_answered _ _ _ _) fun r hr hr' => ?_
    · -- The one answer that frees an id with an owner is excluded.
      rintro rfl rfl
      exact hok id rfl
    · rw [pending_answered] at hr
      exact held_answered _ _ _ _ (hs.owned r (List.mem_of_mem_erase hr) hr')
  | timeout call id =>
    simp only [idMachine, step] at hstep
    split_ifs at hstep with hmem
    cases hstep
    -- The id of a creation that times out is never seen again.
    refine hs.of_le ?_ rfl fun r hr hr' => hs.owned r (List.mem_of_mem_erase hr) hr'
    rw [places, places, coe_creating hmem]
    gcongr
    exact Multiset.le_add_left _ _
  | resourceUnref =>
    simp only [idMachine, step] at hstep
    split_ifs at hstep with hmem
    cases hstep
    refine hs.of_le (le_of_eq ?_) rfl fun r hr hr' => ?_
    · simp only [places, creating, coe_of_mem hmem.1, ← Multiset.cons_coe,
        ← Multiset.singleton_add]
      abel
    · exact (List.mem_erase_of_ne (hmem.2 r hr)).2 (hs.owned r hr hr')
  | unrefAnswered =>
    simp only [idMachine, step] at hstep
    split_ifs at hstep with hmem
    cases hstep
    refine hs.of_le (le_of_eq ?_) rfl hs.owned
    simp only [places, creating, SimpleIdAllocator.free, coe_of_mem hmem, ← Multiset.coe_add,
      Multiset.coe_singleton, ← Multiset.singleton_add]
    abel

theorem inv_init : init.Inv where
  nodup := List.nodup_nil
  range _ hid := absurd hid (Multiset.notMem_zero _)
  counter := by decide
  owned _ hr := absurd hr List.not_mem_nil

end IdState

/-- **When resource ids are exclusive.**  In every run of the callers and the device, all along: the
ids of the owners that have not unref'd them are pairwise distinct, none of them is free, and no id
is free twice, exactly if no `TRANSFER_TO_HOST_2D` is answered with an error. -/
theorem ids_exclusive_iff (as : List IdAct) (s : IdState)
    (hrun : idMachine.run .init as = some s) :
    idMachine.Always IdState.Exclusive .init as ↔
      idMachine.Meets IdState.NoTransferError .init as := by
  refine Machine.always_iff_meets (fun _ _ _ => IdState.inv_step)
    (fun _ hs => hs.exclusive) (fun s a s' hs hbad hstep hexcl => ?_) IdState.inv_init hrun
  -- the owner of the id waits for the transfer, so the id is free and has an owner
  obtain ⟨id, rfl⟩ : ∃ id, a = .answer .resourceTransferToHost2d id false := by
    simpa [IdState.NoTransferError] using hbad
  simp only [idMachine, IdState.step] at hstep
  split_ifs at hstep with hmem
  cases hstep
  rw [IdState.answered_of_error] at hexcl
  refine hexcl.held_not_free id (hs.owned _ hmem rfl) ?_
  simp [SimpleIdAllocator.free]

/-- A resource is created, filled and released, and its id is used again. -/
def idReused : List IdAct :=
  [.create .resourceCreate2d, .answer .resourceCreate2d 1 true,
    .request .resourceTransferToHost2d 1, .nextResourceId,
    .answer .resourceTransferToHost2d 1 true, .resourceUnref 1, .unrefAnswered 1,
    .create .resourceCreate3d, .answer .resourceCreate3d 1 true]

theorem ids_exclusive_iff_reused :
    (idMachine.run .init idReused).map IdState.held = some [1, 2] ∧
      idMachine.Always IdState.Exclusive .init idReused := by
  have hrun : (idMachine.run .init idReused).map IdState.held = some [1, 2] := by decide
  obtain ⟨s, hs, -⟩ := Option.map_eq_some_iff.1 hrun
  refine ⟨hrun, (ids_exclusive_iff idReused s hs).2 (Machine.meets_of_forall_mem ?_)⟩
  rintro a ha id rfl
  simp [idReused] at ha

/-- **An id can have two owners.**  The device refuses to transfer a framebuffer, and the next
resource to be created gets its id. -/
theorem id_has_two_owners :
    (idMachine.run .init [.create .resourceCreate2d, .answer .resourceCreate2d 1 true,
      .request .resourceTransferToHost2d 1, .answer .resourceTransferToHost2d 1 false,
      .nextResourceId]).map IdState.held = some [1, 1] := by
  decide

end VirtioGpu
