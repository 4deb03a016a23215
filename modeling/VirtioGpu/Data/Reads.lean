import VirtioGpu.Data.Memory

/-!
# Programs that read memory

Unsafe code that parses a buffer reads bytes at offsets it computes from what it has read before.
`Reads ε α` is the result of such code together with the ranges it has read on the way, so that
"it never reads beyond the end of the buffer" is a statement about a value (`Reads.Within`).  The
code may also stop with an error of type `ε`; the ranges read before that still count.

`Reads.whileLoop` is a loop with a bound on its rounds.  With enough rounds the bound is not felt
(`whileLoop_done`).
-/

namespace VirtioGpu

theorem mapError_eq_ok {ε ε' α : Type} {f : ε → ε'} {x : Except ε α} {a : α} :
    x.mapError f = .ok a ↔ x = .ok a := by
  cases x <;> simp [Except.mapError]

/-- A computation that reads memory: the ranges it has read, in order, and how it ended. -/
structure Reads (ε α : Type) where
  log : List Slice
  result : Except ε α

namespace Reads

variable {ε ε' α β σ : Type}

instance : Monad (Reads ε) where
  pure a := ⟨[], .ok a⟩
  bind x f := match x.result with
    | .error e => ⟨x.log, .error e⟩
    | .ok a => ⟨x.log ++ (f a).log, (f a).result⟩

def throw (e : ε) : Reads ε α := ⟨[], .error e⟩

def read (r : Slice) : Reads ε Unit := ⟨[r], .ok ()⟩

/-- Go on with a value that was computed without reading. -/
def ofExcept (x : Except ε α) : Reads ε α := ⟨[], x⟩

def mapErr (f : ε → ε') (x : Reads ε α) : Reads ε' α := ⟨x.log, x.result.mapError f⟩

/-- Every range read lies below `n`. -/
def Within (n : ℕ) (x : Reads ε α) : Prop := ∀ r ∈ x.log, r.addr + r.len ≤ n
  deriving Decidable

variable {n : ℕ} {x : Reads ε α} {f : α → Reads ε β} {a : α} {b : β}

/-! ### Results -/

@[simp] theorem result_pure : (pure a : Reads ε α).result = .ok a := rfl

@[simp] theorem result_throw (e : ε) : (throw e : Reads ε α).result = .error e := rfl

@[simp] theorem result_read (r : Slice) : (read r : Reads ε Unit).result = .ok () := rfl

@[simp] theorem result_ofExcept (y : Except ε α) : (ofExcept y).result = y := rfl

theorem result_bind_eq_ok :
    (x >>= f).result = .ok b ↔ ∃ a, x.result = .ok a ∧ (f a).result = .ok b := by
  cases h : x.result <;> simp [bind, h]

theorem result_bind_ne_ok (h : ∀ a, (f a).result ≠ .ok b) : (x >>= f).result ≠ .ok b := by
  intro hx
  obtain ⟨a, -, ha⟩ := result_bind_eq_ok.1 hx
  exact h a ha

theorem result_bind_eq_error {e : ε} : (x >>= f).result = .error e ↔
    x.result = .error e ∨ ∃ a, x.result = .ok a ∧ (f a).result = .error e := by
  cases h : x.result <;> simp [bind, h]

theorem result_bind_of_error {e : ε} (h : x.result = .error e) : (x >>= f).result = .error e := by
  simp [bind, h]

theorem result_bind_of_ok (h : x.result = .ok a) : (x >>= f).result = (f a).result := by
  simp [bind, h]

theorem result_mapErr_eq_ok {g : ε → ε'} : (x.mapErr g).result = .ok a ↔ x.result = .ok a :=
  mapError_eq_ok

/-! ### Ranges -/

@[simp] theorem within_pure : (pure a : Reads ε α).Within n := by simp [Within, pure]

@[simp] theorem within_throw (e : ε) : (throw e : Reads ε α).Within n := by simp [Within, throw]

@[simp] theorem within_ofExcept (y : Except ε α) : (ofExcept y).Within n := by
  simp [Within, ofExcept]

@[simp] theorem within_read (r : Slice) :
    (read r : Reads ε Unit).Within n ↔ r.addr + r.len ≤ n := by
  simp [Within, read]

@[simp] theorem within_mapErr {g : ε → ε'} : (x.mapErr g).Within n ↔ x.Within n := Iff.rfl

theorem within_bind :
    (x >>= f).Within n ↔ x.Within n ∧ ∀ a, x.result = .ok a → (f a).Within n := by
  cases h : x.result with
  | error => simp [Within, bind, h]
  | ok =>
    simp only [Within, bind, h, List.mem_append, Except.ok.injEq, forall_eq', or_imp, forall_and]

theorem within_read_bind {r : Slice} {f : Unit → Reads ε β} :
    (read r >>= f).Within n ↔ r.addr + r.len ≤ n ∧ (f ()).Within n := by
  rw [within_bind, within_read]
  exact and_congr_right fun _ => ⟨fun h => h () rfl, fun h _ _ => h⟩

/-! ### Errors -/

/-- The computation ends well, or with an error that satisfies `Q`. -/
def Stops (Q : ε → Prop) (x : Reads ε α) : Prop := ∀ e, x.result = .error e → Q e

variable {Q : ε → Prop}

theorem Stops.mono {Q' : ε → Prop} (h : x.Stops Q) (hQ : ∀ e, Q e → Q' e) : x.Stops Q' :=
  fun e he => hQ e (h e he)

theorem stops_pure : (pure a : Reads ε α).Stops Q := nofun

theorem stops_read (r : Slice) : (read r : Reads ε Unit).Stops Q := nofun

theorem stops_throw {e : ε} : (throw e : Reads ε α).Stops Q ↔ Q e :=
  ⟨fun h => h e rfl, fun h _ he => by cases he; exact h⟩

theorem stops_bind (hx : x.Stops Q) (hf : ∀ a, x.result = .ok a → (f a).Stops Q) :
    (x >>= f).Stops Q := by
  intro e he
  cases h : x.result with
  | error =>
    simp only [bind, h] at he
    cases he
    exact hx _ h
  | ok a =>
    simp only [bind, h] at he
    exact hf a h e he

theorem stops_ofExcept_bind {y : Except ε α} (hy : ∀ e, y = .error e → Q e)
    (hf : ∀ a, y = .ok a → (f a).Stops Q) : (ofExcept y >>= f).Stops Q := stops_bind hy hf

theorem stops_mapErr {g : ε' → ε} {y : Reads ε' α} (h : y.Stops fun e => Q (g e)) :
    (y.mapErr g).Stops Q := by
  intro e he
  cases hy : y.result with
  | error e' =>
    simp only [mapErr, hy, Except.mapError] at he
    cases he
    exact h e' hy
  | ok =>
    simp only [mapErr, hy, Except.mapError] at he
    cases he

/-! ### Loops -/

/-- At most `fuel` rounds of a loop that goes on as long as `more` says so. -/
def whileLoop (more : σ → Bool) (step : σ → Reads ε σ) : ℕ → σ → Reads ε σ
  | 0, s => pure s
  | fuel + 1, s => if more s then step s >>= whileLoop more step fuel else pure s

section Loop

variable {more : σ → Bool} {step : σ → Reads ε σ} {μ : σ → ℕ} {bound : ℕ}

/-- One round of the loop leads from one state to another. -/
def Round (more : σ → Bool) (step : σ → Reads ε σ) (s s' : σ) : Prop :=
  more s = true ∧ (step s).result = .ok s'

/-- If every round raises `μ` and none starts at or above `bound`, then `bound` rounds are enough
for the loop to end. -/
theorem whileLoop_done (hμ : ∀ s s', Round more step s s' → μ s < μ s')
    (hbound : ∀ s, more s = true → μ s < bound) {s' : σ} :
    ∀ fuel s, bound ≤ fuel + μ s → (whileLoop more step fuel s).result = .ok s' →
      more s' = false := by
  intro fuel
  induction fuel with
  | zero =>
    intro s hfuel hres
    cases hres
    by_contra hmore
    have := hbound s' (by simpa using hmore)
    omega
  | succ fuel ih =>
    intro s hfuel hres
    unfold whileLoop at hres
    split_ifs at hres with hmore
    · obtain ⟨s₁, hstep, hres⟩ := result_bind_eq_ok.1 hres
      have := hμ s s₁ ⟨hmore, hstep⟩
      exact ih s₁ (by omega) hres
    · cases hres
      simpa using hmore

theorem stops_whileLoop {I : σ → Prop} {Q : ε → Prop}
    (hI : ∀ s s', I s → Round more step s s' → I s')
    (hQ : ∀ s, I s → more s = true → (step s).Stops Q) :
    ∀ fuel s, I s → (whileLoop more step fuel s).Stops Q := by
  intro fuel
  induction fuel with
  | zero => exact fun _ _ => stops_pure
  | succ fuel ih =>
    intro s hs
    unfold whileLoop
    split_ifs with hmore
    · exact stops_bind (hQ s hs hmore) fun s' hstep => ih s' (hI s s' hs ⟨hmore, hstep⟩)
    · exact stops_pure

/-- The state in which the loop ends, or stops with an error. -/
def lastState (more : σ → Bool) (step : σ → Reads ε σ) : ℕ → σ → σ
  | 0, s => s
  | fuel + 1, s =>
    if more s then match (step s).result with
      | .ok s' => lastState more step fuel s'
      | .error _ => s
    else s

theorem lastState_of_ok {s' : σ} : ∀ fuel s, (whileLoop more step fuel s).result = .ok s' →
    lastState more step fuel s = s' := by
  intro fuel
  induction fuel with
  | zero => exact fun s h => Except.ok.inj h
  | succ fuel ih =>
    intro s h
    unfold whileLoop at h
    unfold lastState
    split_ifs at h ⊢ with hmore
    · obtain ⟨s₁, hstep, h⟩ := result_bind_eq_ok.1 h
      simp only [hstep]
      exact ih s₁ h
    · exact Except.ok.inj h

theorem lastState_invariant {I : σ → Prop} (hI : ∀ s s', I s → Round more step s s' → I s') :
    ∀ fuel s, I s → I (lastState more step fuel s) := by
  intro fuel
  induction fuel with
  | zero => exact fun _ hs => hs
  | succ fuel ih =>
    intro s hs
    unfold lastState
    split_ifs with hmore
    · cases hstep : (step s).result with
      | ok s' => exact ih s' (hI s s' hs ⟨hmore, hstep⟩)
      | error => exact hs
    · exact hs

end Loop

end Reads

end VirtioGpu
