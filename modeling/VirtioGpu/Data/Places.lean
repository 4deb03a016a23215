import Mathlib.Data.List.Nodup
import Mathlib.Logic.Function.Basic

/-!
# Tokens handed from place to place

Work that several threads pass to one another (a call, a request, a buffer) is a *token*, and at any
moment a token is in a *place*: with a thread, in a shared list, or among the finished ones.  A step
of a thread takes tokens from one place to another.  `Apart place` says that no token is in two
places or twice in one; the rules below say which changes of `place` keep it.

* `Apart.permute` : a place rearranges its tokens.
* `Apart.move` : two places divide their tokens in a new way.
* `Apart.insert` : a token that is nowhere appears.

The usual places are the threads, one list that they share, and the finished tokens: `Place`, and
`Place.fill` for what is in them.
-/

namespace VirtioGpu

/-- No token is in two places, and none is twice in one. -/
structure Apart {P α : Type*} (place : P → List α) : Prop where
  nodup : ∀ p, (place p).Nodup
  unique : ∀ {p q c}, c ∈ place p → c ∈ place q → p = q

namespace Apart

variable {P α : Type*} {place : P → List α}

theorem empty : Apart fun _ : P => ([] : List α) :=
  ⟨fun _ => List.nodup_nil, fun h => by cases h⟩

theorem nodup_append (h : Apart place) {p q : P} (hpq : p ≠ q) :
    (place p ++ place q).Nodup :=
  (h.nodup p).append (h.nodup q) fun _ hp hq => hpq (h.unique hp hq)

variable [DecidableEq P]

theorem exists_mem_of_permute {p r : P} {l : List α} {c : α} (hl : l.Perm (place p))
    (hc : c ∈ Function.update place p l r) : ∃ q, c ∈ place q := by
  by_cases hr : r = p
  · rw [hr, Function.update_self] at hc
    exact ⟨p, hl.mem_iff.1 hc⟩
  · rw [Function.update_of_ne hr] at hc
    exact ⟨r, hc⟩

theorem exists_mem_of_move {p q r : P} {l m : List α} {c : α}
    (hlm : (l ++ m).Perm (place p ++ place q))
    (hc : c ∈ Function.update (Function.update place p l) q m r) : ∃ r', c ∈ place r' := by
  have hboth : c ∈ l ++ m → ∃ r', c ∈ place r' := fun hc =>
    (List.mem_append.1 (hlm.mem_iff.1 hc)).elim (fun hc => ⟨p, hc⟩) fun hc => ⟨q, hc⟩
  by_cases hrq : r = q
  · rw [hrq, Function.update_self] at hc
    exact hboth (List.mem_append_right l hc)
  · rw [Function.update_of_ne hrq] at hc
    by_cases hrp : r = p
    · rw [hrp, Function.update_self] at hc
      exact hboth (List.mem_append_left m hc)
    · rw [Function.update_of_ne hrp] at hc
      exact ⟨r, hc⟩

theorem permute (h : Apart place) {p : P} {l : List α} (hl : l.Perm (place p)) :
    Apart (Function.update place p l) := by
  have hmem : ∀ r c, c ∈ Function.update place p l r ↔ c ∈ place r := by
    intro r c
    by_cases hr : r = p
    · rw [hr, Function.update_self, hl.mem_iff]
    · rw [Function.update_of_ne hr]
  refine ⟨fun r => ?_, fun hp hq => h.unique ((hmem _ _).1 hp) ((hmem _ _).1 hq)⟩
  by_cases hr : r = p
  · rw [hr, Function.update_self, hl.nodup_iff]
    exact h.nodup p
  · rw [Function.update_of_ne hr]
    exact h.nodup r

theorem move (h : Apart place) {p q : P} (hpq : p ≠ q) {l m : List α}
    (hlm : (l ++ m).Perm (place p ++ place q)) :
    Apart (Function.update (Function.update place p l) q m) := by
  obtain ⟨hl, hm, hdisj⟩ := List.nodup_append'.1 (hlm.nodup_iff.2 (h.nodup_append hpq))
  have hmem : ∀ r c, c ∈ Function.update (Function.update place p l) q m r →
      (r = p ∧ c ∈ l) ∨ (r = q ∧ c ∈ m) ∨ (r ≠ p ∧ r ≠ q ∧ c ∈ place r) := by
    intro r c hc
    by_cases hrq : r = q
    · rw [hrq, Function.update_self] at hc
      exact .inr (.inl ⟨hrq, hc⟩)
    · rw [Function.update_of_ne hrq] at hc
      by_cases hrp : r = p
      · rw [hrp, Function.update_self] at hc
        exact .inl ⟨hrp, hc⟩
      · rw [Function.update_of_ne hrp] at hc
        exact .inr (.inr ⟨hrp, hrq, hc⟩)
  -- A token of one of the two places was in one of them before, so it is in no third place.
  have hthird : ∀ {c r}, c ∈ l ++ m → r ≠ p → r ≠ q → c ∉ place r := by
    intro c r hc hrp hrq hr
    rcases List.mem_append.1 (hlm.mem_iff.1 hc) with hc | hc
    · exact hrp (h.unique hr hc)
    · exact hrq (h.unique hr hc)
  refine ⟨fun r => ?_, fun {r r' c} hr hr' => ?_⟩
  · by_cases hrq : r = q
    · rw [hrq, Function.update_self]
      exact hm
    · rw [Function.update_of_ne hrq]
      by_cases hrp : r = p
      · rw [hrp, Function.update_self]
        exact hl
      · rw [Function.update_of_ne hrp]
        exact h.nodup r
  · rcases hmem r c hr with ⟨rfl, hc⟩ | ⟨rfl, hc⟩ | ⟨hp, hq, hc⟩ <;>
      rcases hmem r' c hr' with ⟨rfl, hc'⟩ | ⟨rfl, hc'⟩ | ⟨hp', hq', hc'⟩
    · rfl
    · exact absurd hc' (hdisj hc)
    · exact absurd hc' (hthird (List.mem_append_left m hc) hp' hq')
    · exact absurd hc (hdisj hc')
    · rfl
    · exact absurd hc' (hthird (List.mem_append_right l hc) hp' hq')
    · exact absurd hc (hthird (List.mem_append_left m hc') hp hq)
    · exact absurd hc (hthird (List.mem_append_right l hc') hp hq)
    · exact h.unique hc hc'

theorem insert (h : Apart place) {p : P} {c : α} (hc : ∀ q, c ∉ place q) :
    Apart (Function.update place p (c :: place p)) := by
  have hmem : ∀ r d, d ∈ Function.update place p (c :: place p) r ↔
      d ∈ place r ∨ (d = c ∧ r = p) := by
    intro r d
    by_cases hr : r = p
    · subst hr
      simp [or_comm]
    · simp [hr]
  refine ⟨fun r => ?_, fun {r r' d} hr hr' => ?_⟩
  · by_cases hr : r = p
    · rw [hr, Function.update_self]
      exact List.nodup_cons.2 ⟨hc p, h.nodup p⟩
    · rw [Function.update_of_ne hr]
      exact h.nodup r
  · rcases (hmem r d).1 hr with hd | ⟨rfl, rfl⟩ <;> rcases (hmem r' _).1 hr' with hd' | ⟨hd', rfl⟩
    · exact h.unique hd hd'
    · exact absurd (hd' ▸ hd) (hc r)
    · exact absurd hd' (hc r')
    · rfl

end Apart

/-- Where something that threads hand on to one another can be. -/
inductive Place (τ : Type*) where
  | thread (t : τ)
  /-- In the list that the threads share. -/
  | shared
  | done
  deriving DecidableEq

namespace Place

variable {τ π α : Type*} {own : π → List α} {pc pc' : τ → π} {l l' m m' : List α}

/-- What is in the places: `own p` with a thread that is at `p`, and the two lists. -/
def fill (own : π → List α) (pc : τ → π) (shared done : List α) : Place τ → List α
  | .thread t => own (pc t)
  | .shared => shared
  | .done => done

variable [DecidableEq τ]

theorem fill_thread {t : τ} {p : π} (hpc : pc' = Function.update pc t p) :
    fill own pc' l m = Function.update (fill own pc l m) (.thread t) (own p) := by
  subst hpc
  funext q
  cases q with
  | thread u =>
    by_cases hu : u = t
    · subst hu
      simp [fill]
    · simp [fill, hu]
  | shared => rw [Function.update_of_ne (by simp)]; rfl
  | done => rw [Function.update_of_ne (by simp)]; rfl

theorem fill_thread_same {t : τ} {p : π} (hpc : pc' = Function.update pc t p)
    (hown : own p = own (pc t)) : fill own pc' l m = fill own pc l m := by
  rw [fill_thread hpc, hown]
  exact Function.update_eq_self (.thread t) (fill own pc l m)

theorem fill_shared : fill own pc l' m = Function.update (fill own pc l m) .shared l' := by
  funext q
  cases q with
  | shared => rw [Function.update_self]; rfl
  | thread => rw [Function.update_of_ne (by simp)]; rfl
  | done => rw [Function.update_of_ne (by simp)]; rfl

theorem fill_done : fill own pc l m' = Function.update (fill own pc l m) .done m' := by
  funext q
  cases q with
  | done => rw [Function.update_self]; rfl
  | thread => rw [Function.update_of_ne (by simp)]; rfl
  | shared => rw [Function.update_of_ne (by simp)]; rfl

end Place

end VirtioGpu
