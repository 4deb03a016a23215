import Mathlib.Data.List.Basic

/-!
# Sweeps over a raster

A picture is changed in place, cell by cell and row by row.  What a step finds is then neither the
old picture nor the new one: the cells behind it are new and the ones before it are old
(`swept`).  `forRaster_sweep` reduces such a sweep to one step of it, and it is up to the step to
say how it reads a picture that is half done.

A step may panic, so a loop has a result or none; the rules say that it has one.
-/

namespace VirtioGpu

variable {σ α : Type*}

/-! ### Loops over a range -/

/-- The loop `for i in 0..n`; nothing if a step panics. -/
def forRange (n : ℕ) (step : σ → ℕ → Option σ) (s : σ) : Option σ := (List.range n).foldlM step s

theorem forRange_succ (n : ℕ) (step : σ → ℕ → Option σ) (s : σ) :
    forRange (n + 1) step s = (forRange n step s).bind fun s' => step s' n := by
  simp [forRange, List.range_succ, List.foldlM_append]

/-- **The rule for loops.**  If no step panics where the invariant holds, and each hands it on to
the next, the loop ends with it. -/
theorem forRange_spec {n : ℕ} {step : σ → ℕ → Option σ} {s : σ} (I : ℕ → σ → Prop) (h0 : I 0 s)
    (hstep : ∀ i t, i < n → I i t → ∃ t', step t i = some t' ∧ I (i + 1) t') :
    ∃ t, forRange n step s = some t ∧ I n t := by
  induction n with
  | zero => exact ⟨s, rfl, h0⟩
  | succ n ih =>
    obtain ⟨t, hloop, ht⟩ := ih fun i t hi => hstep i t (Nat.lt_succ_of_lt hi)
    obtain ⟨t', hlast, ht'⟩ := hstep n t (Nat.lt_succ_self n) ht
    exact ⟨t', by rw [forRange_succ, hloop, Option.bind_some, hlast], ht'⟩

theorem forRange_bounded {step : σ → ℕ → Option σ} {g : ℕ → σ} {k : ℕ}
    (hnext : ∀ i < k, step (g i) i = some (g (i + 1))) (hstop : ∀ t i, k ≤ i → step t i = none)
    (n : ℕ) : forRange n step (g 0) = if n ≤ k then some (g n) else none := by
  induction n with
  | zero => rfl
  | succ n ih =>
    rw [forRange_succ, ih]
    by_cases hn : n < k
    · rw [if_pos (Nat.le_of_lt hn), if_pos (Nat.succ_le_of_lt hn), Option.bind_some, hnext n hn]
    · rw [if_neg (by omega : ¬ n + 1 ≤ k), Option.bind_eq_none_iff]
      exact fun t _ => hstop t n (Nat.le_of_not_lt hn)

/-- The loops `for y in 0..h` and, within it, `for x in 0..w`. -/
def forRaster (h w : ℕ) (step : σ → ℕ → ℕ → Option σ) (s : σ) : Option σ :=
  forRange h (fun s y => forRange w (fun s x => step s x y) s) s

/-! ### Pictures -/

/-- The picture `g` with `v` in the cell `(x, y)`. -/
def setCell (g : ℕ → ℕ → α) (x y : ℕ) (v : α) : ℕ → ℕ → α :=
  fun x' y' => if x' = x ∧ y' = y then v else g x' y'

theorem setCell_self (g : ℕ → ℕ → α) (x y : ℕ) : setCell g x y (g x y) = g := by
  funext x' y'
  unfold setCell
  split
  · next h => rw [h.1, h.2]
  · rfl

/-- The picture that is `new` within `w` columns and `h` rows, and `old` around them. -/
def inArea (w h : ℕ) (new old : ℕ → ℕ → α) : ℕ → ℕ → α :=
  fun x y => if x < w ∧ y < h then new x y else old x y

theorem inArea_of_lt {w h x y : ℕ} (hx : x < w) (hy : y < h) (new old : ℕ → ℕ → α) :
    inArea w h new old x y = new x y := if_pos ⟨hx, hy⟩

theorem inArea_of_not {w h x y : ℕ} (hout : ¬ (x < w ∧ y < h)) (new old : ℕ → ℕ → α) :
    inArea w h new old x y = old x y := if_neg hout

/-- The picture a sweep over `w` columns finds when it gets to the cell `(x, y)`. -/
def swept (w x y : ℕ) (new old : ℕ → ℕ → α) : ℕ → ℕ → α :=
  fun x' y' => if x' < w ∧ (y' < y ∨ y' = y ∧ x' < x) then new x' y' else old x' y'

section Swept

variable {w x y : ℕ} {new old : ℕ → ℕ → α}

theorem swept_zero : swept w 0 0 new old = old := by
  funext x' y'
  simp [swept]

theorem swept_self : swept w x y new old x y = old x y := by
  simp [swept]

theorem swept_succ (hx : x < w) :
    swept w (x + 1) y new old = setCell (swept w x y new old) x y (new x y) := by
  funext x' y'
  unfold setCell swept
  by_cases h : x' = x ∧ y' = y
  · obtain ⟨rfl, rfl⟩ := h
    rw [if_pos ⟨hx, .inr ⟨rfl, Nat.lt_succ_self _⟩⟩, if_pos ⟨rfl, rfl⟩]
  · rw [if_neg h]
    refine if_congr ?_ rfl rfl
    omega

theorem swept_row : swept w w y new old = swept w 0 (y + 1) new old := by
  funext x' y'
  unfold swept
  refine if_congr ?_ rfl rfl
  omega

theorem swept_end (h : ℕ) : swept w 0 h new old = inArea w h new old := by
  funext x' y'
  unfold swept inArea
  refine if_congr ?_ rfl rfl
  omega

/-- A property that the old and the new picture share cell by cell is one of the picture in
between. -/
theorem swept_congr {p : α → Prop} {x' y' : ℕ} (h : p (new x' y') ↔ p (old x' y')) :
    p (swept w x y new old x' y') ↔ p (old x' y') := by
  unfold swept
  split
  · exact h
  · exact Iff.rfl

end Swept

/-- **The rule for sweeps.**  `Shows s g` says that the state `s` holds the picture `g`. -/
theorem forRaster_sweep {h w : ℕ} {step : σ → ℕ → ℕ → Option σ} {s : σ}
    {new old : ℕ → ℕ → α} (Shows : σ → (ℕ → ℕ → α) → Prop) (h0 : Shows s old)
    (hstep : ∀ t x y, x < w → y < h → Shows t (swept w x y new old) →
      ∃ t', step t x y = some t' ∧ Shows t' (setCell (swept w x y new old) x y (new x y))) :
    ∃ t, forRaster h w step s = some t ∧ Shows t (inArea w h new old) := by
  have hrow : ∀ y t, y < h → Shows t (swept w 0 y new old) →
      ∃ t', forRange w (fun s x => step s x y) t = some t' ∧
        Shows t' (swept w 0 (y + 1) new old) := by
    intro y t hy ht
    rw [← swept_row]
    refine forRange_spec (fun x t => Shows t (swept w x y new old)) ht fun x t hx ht => ?_
    rw [swept_succ hx]
    exact hstep t x y hx hy ht
  rw [← swept_end]
  exact forRange_spec (fun y t => Shows t (swept w 0 y new old)) (by rwa [swept_zero]) hrow

end VirtioGpu
