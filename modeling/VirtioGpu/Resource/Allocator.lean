import VirtioGpu.Resource.Ids
import Mathlib.Data.Fintype.Basic

/-!
# Drawing ids from several threads

`SimpleIdAllocator::next` looks for an id that was given back, under a lock, and otherwise takes one
from a counter with an unconditional `fetch_add`.  If that was the last value of the counter, which
is not an id, the counter has wrapped around; `next` then puts the last value back with a `store`
and returns `None`.  Here each of the three is a step of its own, for any number of threads.

As long as no other thread comes to its `fetch_add` between such a `fetch_add` and the `store` that
repairs the counter, the ids are in range and never in two hands.  A thread that does gets an id
from the start of the number range, which was never to be handed out or has been handed out before.

* `ids_handed_out_once` : the condition gives what is wanted in every state of a run; and it is met
  exactly if in every state, moreover, no id is free while somebody holds it.
* `id_out_of_range` : two threads at the end of the counter.
-/

namespace VirtioGpu

/-- Where a thread is in `next`. -/
inductive NextPc where
  | idle
  /-- It has found no free id. -/
  | fetch
  /-- Its `fetch_add` has returned the last value. -/
  | store
  deriving DecidableEq

/-- The allocator, its threads, and the ids that were handed out and not given back. -/
structure IdThreads (τ : Type) where
  ids : SimpleIdAllocator
  pc : τ → NextPc
  held : List ℕ

inductive NextAct (τ : Type) where
  /-- The lock section of `next`. -/
  | lock (t : τ)
  | fetchAdd (t : τ)
  /-- `store(u32::MAX)` -/
  | store (t : τ)
  /-- The lock section of `free`, called by the holder of the id. -/
  | free (t : τ) (id : ℕ)

namespace IdThreads

variable {τ : Type} [DecidableEq τ]

/-- `SimpleIdAllocator::new`, and nobody has an id. -/
def start (initial : ℕ) : IdThreads τ := ⟨.new initial, fun _ => .idle, []⟩

variable (s : IdThreads τ)

def goto (t : τ) (pc : NextPc) : IdThreads τ :=
  { s with pc := Function.update s.pc t pc }

def setCounter (counter : ℕ) : IdThreads τ :=
  { s with ids := { s.ids with counter := counter } }

def handOut (id : ℕ) : IdThreads τ := { s with held := id :: s.held }

def step : NextAct τ → Outcome (IdThreads τ) Empty
  | .lock t =>
    if s.pc t = .idle then
      match s.ids.freed with
      | id :: freed =>
        .next ({ s with ids := { s.ids with freed := freed } }.handOut id)
      | [] => .next (s.goto t .fetch)
    else .stuck
  | .fetchAdd t =>
    if s.pc t = .fetch then
      let s' := s.setCounter ((s.ids.counter + 1) % 2 ^ 32)
      if s.ids.counter ≠ u32Max then
        .next ((s'.goto t .idle).handOut s.ids.counter)
      else .next (s'.goto t .store)
    else .stuck
  | .store t =>
    if s.pc t = .store then .next ((s.setCounter u32Max).goto t .idle) else .stuck
  | .free t id =>
    if s.pc t = .idle ∧ id ∈ s.held then
      .next { s with ids := s.ids.free id, held := s.held.erase id }
    else .stuck

/-- Every id that somebody holds is one of `[initial, u32::MAX)`, and nobody else holds it. -/
structure Sound (initial : ℕ) (s : IdThreads τ) : Prop where
  inRange : ∀ id ∈ s.held, initial ≤ id ∧ id < u32Max
  nodup : s.held.Nodup

/-- Moreover nobody can get it: no id is free while it is held, or free twice. -/
structure Exclusive (initial : ℕ) (s : IdThreads τ) : Prop extends Sound initial s where
  nodup_places : (s.held ++ s.ids.freed).Nodup

/-- No thread is about to repair the counter when another adds to it. -/
def NoWrap : NextAct τ → Prop
  | .fetchAdd _ => ∀ t, s.pc t ≠ .store
  | _ => True

instance [Fintype τ] (s : IdThreads τ) (a : NextAct τ) : Decidable (s.NoWrap a) := by
  cases a <;> unfold NoWrap <;> infer_instance

/-- The ids up to `bound` have been handed out, and each of them is held or free. -/
structure Inv (initial bound : ℕ) (s : IdThreads τ) : Prop where
  initial_le : initial ≤ bound
  bound_le : bound ≤ u32Max
  nodup : (s.held ++ s.ids.freed).Nodup
  mem_iff : ∀ id, id ∈ s.held ++ s.ids.freed ↔ initial ≤ id ∧ id < bound
  counter : (∀ t, s.pc t ≠ .store) → s.ids.counter = bound
  /-- A thread about to repair the counter is the only one, all ids are gone and the counter has
  wrapped around. -/
  wrapped : ∀ t, s.pc t = .store →
    bound = u32Max ∧ s.ids.counter = 0 ∧ ∀ t', s.pc t' = .store → t' = t

end IdThreads

/-- Threads that draw ids and give them back. -/
def nextMachine (τ : Type) [DecidableEq τ] : Machine (IdThreads τ) (NextAct τ) Empty :=
  ⟨IdThreads.step⟩

namespace IdThreads

variable {τ : Type} {s s' : IdThreads τ} {initial bound : ℕ}

theorem Inv.exclusive (h : s.Inv initial bound) : s.Exclusive initial where
  inRange id hid :=
    have hmem := (h.mem_iff id).1 (List.mem_append_left _ hid)
    ⟨hmem.1, hmem.2.trans_le h.bound_le⟩
  nodup := h.nodup.sublist (List.sublist_append_left _ _)
  nodup_places := h.nodup

theorem Sound.initial_eq_zero (h : s.Sound initial) (hmem : 0 ∈ s.held) : initial = 0 :=
  Nat.le_zero.1 (h.inRange 0 hmem).1

theorem inv_start (h : initial ≤ u32Max) : (start initial : IdThreads τ).Inv initial initial where
  initial_le := le_rfl
  bound_le := h
  nodup := List.nodup_nil
  mem_iff id := by
    simp only [start, SimpleIdAllocator.new, List.append_nil, List.not_mem_nil, false_iff]
    omega
  counter _ := rfl
  wrapped t ht := by cases ht

theorem Inv.of_perm (h : s.Inv initial bound) (hcounter : s'.ids.counter = s.ids.counter)
    (hpc : ∀ t, s'.pc t = .store ↔ s.pc t = .store)
    (hperm : (s'.held ++ s'.ids.freed).Perm (s.held ++ s.ids.freed)) : s'.Inv initial bound where
  initial_le := h.initial_le
  bound_le := h.bound_le
  nodup := hperm.nodup_iff.2 h.nodup
  mem_iff id := by rw [hperm.mem_iff, h.mem_iff]
  counter hno := by
    rw [hcounter]
    exact h.counter fun t ht => hno t ((hpc t).2 ht)
  wrapped t ht := by
    obtain ⟨hbound, hzero, hone⟩ := h.wrapped t ((hpc t).1 ht)
    exact ⟨hbound, hcounter.trans hzero, fun t' ht' => hone t' ((hpc t').1 ht')⟩

variable [DecidableEq τ] {a : NextAct τ} {t : τ}

theorem goto_store_iff {pc : NextPc} (hpc : pc ≠ .store) (hs : s.pc t ≠ .store) (t' : τ) :
    (s.goto t pc).pc t' = .store ↔ s.pc t' = .store := by
  by_cases ht : t' = t
  · subst ht
    simp [goto, hpc, hs]
  · simp [goto, Function.update_of_ne ht]

theorem Inv.fetchAdd (h : s.Inv initial bound) (hno : ∀ t, s.pc t ≠ .store)
    (hlt : bound ≠ u32Max) :
    Inv initial (bound + 1)
      (((s.setCounter ((bound + 1) % 2 ^ 32)).goto t .idle).handOut bound) := by
  have hbound := h.bound_le
  have hlast : u32Max + 1 = 2 ^ 32 := by decide
  have hnew : bound ∉ s.held ++ s.ids.freed := fun hmem => by
    have := ((h.mem_iff bound).1 hmem).2
    omega
  have hstore : ∀ t', Function.update s.pc t .idle t' ≠ .store := fun t' => by
    by_cases ht : t' = t
    · simp [ht]
    · simpa [Function.update_of_ne ht] using hno t'
  refine ⟨by have := h.initial_le; omega, by omega, List.nodup_cons.2 ⟨hnew, h.nodup⟩,
    fun id => ?_, fun _ => ?_, fun t' ht' => absurd ht' (hstore t')⟩
  · have hmem : id ∈ bound :: (s.held ++ s.ids.freed) ↔ initial ≤ id ∧ id < bound + 1 := by
      rw [List.mem_cons, h.mem_iff]
      have := h.initial_le
      omega
    exact hmem
  · exact Nat.mod_eq_of_lt (by omega)

theorem Inv.wrap (h : s.Inv initial u32Max) (hno : ∀ t, s.pc t ≠ .store) :
    Inv initial u32Max ((s.setCounter 0).goto t .store) := by
  have honly : ∀ t', ((s.setCounter 0).goto t .store).pc t' = .store → t' = t := by
    intro t' ht'
    by_contra hne
    refine hno t' ?_
    simpa [goto, setCounter, Function.update_of_ne hne] using ht'
  refine ⟨h.initial_le, le_rfl, h.nodup, h.mem_iff, fun hno' => ?_, fun t' ht' => ?_⟩
  · exact absurd (by simp [goto]) (hno' t)
  · refine ⟨rfl, rfl, fun t'' ht'' => ?_⟩
    rw [honly t' ht', honly t'' ht'']

theorem Inv.store (h : s.Inv initial bound) (ht : s.pc t = .store) :
    Inv initial bound ((s.setCounter u32Max).goto t .idle) := by
  obtain ⟨rfl, -, hone⟩ := h.wrapped t ht
  have hno : ∀ t', ((s.setCounter u32Max).goto t .idle).pc t' ≠ .store := by
    intro t' ht'
    by_cases htt : t' = t
    · subst htt
      simp [goto] at ht'
    · exact htt (hone t' (by simpa [goto, setCounter, Function.update_of_ne htt] using ht'))
  exact ⟨h.initial_le, h.bound_le, h.nodup, h.mem_iff, fun _ => rfl,
    fun t' ht' => absurd ht' (hno t')⟩

theorem inv_step (h : s.Inv initial bound) (hok : s.NoWrap a)
    (hstep : (nextMachine τ).step s a = .next s') : ∃ bound', s'.Inv initial bound' := by
  simp only [nextMachine] at hstep
  cases a with
  | lock t =>
    simp only [step] at hstep
    split_ifs at hstep with hpc
    cases hfreed : s.ids.freed with
    | cons =>
      simp only [hfreed] at hstep
      cases hstep
      refine ⟨bound, h.of_perm rfl (fun _ => Iff.rfl) ?_⟩
      rw [hfreed]
      exact List.perm_middle.symm
    | nil =>
      simp only [hfreed] at hstep
      cases hstep
      exact ⟨bound, h.of_perm rfl (goto_store_iff (by decide) (by simp [hpc])) (.refl _)⟩
  | fetchAdd t =>
    have hcounter := h.counter hok
    simp only [step] at hstep
    split_ifs at hstep with hpc hmax
    · cases hstep
      rw [hcounter] at hmax ⊢
      exact ⟨bound + 1, h.fetchAdd hok hmax⟩
    · cases hstep
      obtain rfl : bound = u32Max := hcounter.symm.trans (not_not.1 hmax)
      rw [hcounter, show (u32Max + 1) % 2 ^ 32 = 0 by decide]
      exact ⟨u32Max, h.wrap hok⟩
  | store =>
    simp only [step] at hstep
    split_ifs at hstep with hpc
    cases hstep
    exact ⟨bound, h.store hpc⟩
  | free t id =>
    simp only [step] at hstep
    split_ifs at hstep with hpc
    cases hstep
    refine ⟨bound, h.of_perm rfl (fun _ => Iff.rfl) ?_⟩
    have herase := (List.perm_cons_erase hpc.2).append_right s.ids.freed
    refine List.Perm.trans ?_ herase.symm
    refine List.Perm.trans ?_ List.perm_middle
    exact ((List.perm_append_singleton id s.ids.freed).append_left _)

/-- The other steps hand out the id 0.  If 0 is an id at all, it has been handed out before. -/
theorem wrap_step (h : s.Inv initial bound) (hbad : ¬ s.NoWrap a)
    (hstep : (nextMachine τ).step s a = .next s') :
    0 ∈ s'.held ∧ (initial = 0 → ¬ (s'.held ++ s'.ids.freed).Nodup) := by
  simp only [nextMachine] at hstep
  cases a with
  | lock t | store t | free t id => exact absurd trivial hbad
  | fetchAdd t =>
    obtain ⟨t', ht'⟩ : ∃ t', s.pc t' = .store := by simpa [NoWrap] using hbad
    obtain ⟨rfl, hzero, -⟩ := h.wrapped t' ht'
    simp only [step, hzero] at hstep
    split_ifs at hstep with hpc hmax
    · cases hstep
      refine ⟨List.mem_cons_self, fun hinitial hnodup => ?_⟩
      have hmem := (h.mem_iff 0).2 ⟨hinitial.le, by decide⟩
      exact (List.nodup_cons.1 hnodup).1 hmem
    · exact absurd (by decide) hmax

end IdThreads

/-- **When ids are handed out once.**  If no thread adds to the counter while another is about to
repair it, every id that somebody holds is one of `[initial, u32::MAX)` and nobody else holds it:
exactly then, unless the ids start at 0; and for all initial values exactly then the ids are
exclusive. -/
theorem ids_handed_out_once {τ : Type} [DecidableEq τ] (initial : ℕ) (hinitial : initial ≤ u32Max)
    (acts : List (NextAct τ)) (s : IdThreads τ)
    (hrun : (nextMachine τ).run (.start initial) acts = some s) :
    ((nextMachine τ).Meets IdThreads.NoWrap (.start initial) acts →
      (nextMachine τ).Always (IdThreads.Sound initial) (.start initial) acts) ∧
    (initial ≠ 0 → (nextMachine τ).Always (IdThreads.Sound initial) (.start initial) acts →
      (nextMachine τ).Meets IdThreads.NoWrap (.start initial) acts) ∧
    ((nextMachine τ).Always (IdThreads.Exclusive initial) (.start initial) acts ↔
      (nextMachine τ).Meets IdThreads.NoWrap (.start initial) acts) := by
  have hstart : ∃ bound, (IdThreads.start initial : IdThreads τ).Inv initial bound :=
    ⟨initial, IdThreads.inv_start hinitial⟩
  have hstep : ∀ (s : IdThreads τ) a s', (∃ bound, s.Inv initial bound) → s.NoWrap a →
      (nextMachine τ).step s a = .next s' → ∃ bound, s'.Inv initial bound := by
    rintro s a s' ⟨bound, hs⟩ hok hst
    exact IdThreads.inv_step hs hok hst
  have hexcl : ∀ s : IdThreads τ, (∃ bound, s.Inv initial bound) → s.Exclusive initial := by
    rintro s ⟨bound, hs⟩
    exact hs.exclusive
  refine ⟨?_, fun hne => ?_, ?_⟩
  · exact Machine.always_of_meets hstep (fun s hs => (hexcl s hs).toSound) hstart
  · refine (Machine.always_iff_meets hstep (fun s hs => (hexcl s hs).toSound) ?_ hstart hrun).1
    rintro s a s' ⟨bound, hs⟩ hbad hst hsound
    exact hne (hsound.initial_eq_zero (IdThreads.wrap_step hs hbad hst).1)
  · refine Machine.always_iff_meets hstep hexcl ?_ hstart hrun
    rintro s a s' ⟨bound, hs⟩ hbad hst hex
    obtain ⟨hmem, hdup⟩ := IdThreads.wrap_step hs hbad hst
    exact hdup (hex.initial_eq_zero hmem) hex.nodup_places

/-- Two threads one after the other at the end of the counter, and an id that is given back. -/
def lastIdsInTurn : List (NextAct Bool) :=
  [.lock true, .fetchAdd true, .lock true, .fetchAdd true, .store true, .lock false,
    .fetchAdd false, .store false, .free true (u32Max - 1), .lock false]

theorem ids_handed_out_once_in_turn :
    (nextMachine Bool).Always (IdThreads.Sound (u32Max - 1)) (.start (u32Max - 1))
      lastIdsInTurn := by
  obtain ⟨s, hrun⟩ : ∃ s, (nextMachine Bool).run (.start (u32Max - 1)) lastIdsInTurn = some s :=
    Option.isSome_iff_exists.1 (by decide)
  exact (ids_handed_out_once (u32Max - 1) (by decide) lastIdsInTurn s hrun).1 (by decide)

/-- Three threads find no free id; the first then finds the last value of the counter. -/
def lastIdsAtOnce : List (NextAct (Fin 3)) :=
  [.lock 0, .lock 1, .lock 2, .fetchAdd 0, .fetchAdd 1, .fetchAdd 2]

/-- The second and the third of them get the ids 0 and 1, although the ids start at the last value:
nothing was to be handed out at all. -/
theorem id_out_of_range :
    ∃ s, (nextMachine (Fin 3)).run (.start u32Max) lastIdsAtOnce = some s ∧
      s.held = [1, 0] ∧ ¬ s.Sound u32Max := by
  have hheld : ((nextMachine (Fin 3)).run (.start u32Max) lastIdsAtOnce).map (·.held) =
      some [1, 0] := by decide
  obtain ⟨s, hrun, hs⟩ := Option.map_eq_some_iff.1 hheld
  refine ⟨s, hrun, hs, fun hsound => ?_⟩
  have hrange := (hsound.inRange 1 (by simp [hs])).1
  exact absurd hrange (by decide)

end VirtioGpu
