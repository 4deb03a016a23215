import Mathlib.Data.List.Basic
import Mathlib.Data.List.Count

/-!
# Objects on loan

A program obtains objects from another party and has to give each of them back exactly once: it
either releases an object or hands it over for good.  It may fail at any point, and what it holds
then has to be given back too.  In Rust this is the work of guards, values that release their object
when they go out of scope unless it has been taken out of them.

`Loaned κ ν ε π` is the monad of such programs.  It has a log of what is obtained and given back,
errors that a caller gets to see, and panics, after which nothing happens any more.

* `Loaned.Balances held m keeps` : the program takes over the loans in `held`.  If it succeeds it
  leaves exactly those in `keeps`, and if it fails it leaves none.  There is a rule for each
  operation (`Balances.bind`, `Balances.onError`, `Balances.holding`, …).
* `Loaned.Balances.settled` : in the log of a program that keeps nothing, every object is given back
  exactly once.
* `Loaned.Computes` : what a program computes, apart from its log; again with a rule for each
  operation.
-/

namespace VirtioGpu

/-! ### Programs -/

/-- An object of some kind that has been obtained. -/
structure Loan (κ : Type) where
  id : ℕ
  kind : κ
  deriving DecidableEq

/-- What happens to loans; and anything else that is worth noting. -/
inductive LoanEvent (κ ν : Type) where
  | obtained (l : Loan κ)
  | handedOver (l : Loan κ)
  | released (l : Loan κ)
  | noted (n : ν)
  deriving DecidableEq

/-- Programs that obtain objects of the kinds `κ`, make notes `ν`, fail with `ε` and panic with
`π`. -/
abbrev Loaned (κ ν ε π : Type) := ExceptT ε (StateT (List (LoanEvent κ ν)) (Except π))

namespace Loaned

variable {κ ν ε π α β σ : Type}

variable (g : Option (Loan κ)) (m : Loaned κ ν ε π α)

/-- How the program ends, and its log, if it does not panic. -/
def exec (log : List (LoanEvent κ ν)) :
    Except π (Except ε α × List (LoanEvent κ ν)) := StateT.run (ExceptT.run m) log

/-- Append to the log. -/
def record (e : LoanEvent κ ν) : Loaned κ ν ε π Unit :=
  ExceptT.mk fun log => .ok (.ok (), log ++ [e])

/-- Obtain an object.  The length of the log serves as its number. -/
def acquire (kind : κ) : Loaned κ ν ε π (Loan κ) :=
  ExceptT.mk fun log => .ok (.ok ⟨log.length, kind⟩, log ++ [.obtained ⟨log.length, kind⟩])

def release (l : Loan κ) : Loaned κ ν ε π Unit := record (.released l)

def handOver (l : Loan κ) : Loaned κ ν ε π Unit := record (.handedOver l)

def note (n : ν) : Loaned κ ν ε π Unit := record (.noted n)

def panic (p : π) : Loaned κ ν ε π α := ExceptT.mk fun _ => .error p

/-- A guard goes out of scope. -/
def dropGuard : Option (Loan κ) → Loaned κ ν ε π Unit
  | none => pure ()
  | some l => release l

/-- Run a part of the program that is left early if it fails, which drops the guard. -/
def onError : Loaned κ ν ε π α :=
  tryCatch m fun e => do
    dropGuard g
    throw e

/-- Run a part of the program at the end of which the guard is dropped. -/
def holding : Loaned κ ν ε π α := do
  let a ← onError g m
  dropGuard g
  return a

/-! ### Executions -/

variable {log log' : List (LoanEvent κ ν)} {r : Except ε β}

@[simp] theorem exec_pure (a : α) : (pure a : Loaned κ ν ε π α).exec log = .ok (.ok a, log) := rfl

@[simp] theorem exec_throw (e : ε) :
    (throw e : Loaned κ ν ε π α).exec log = .ok (.error e, log) := rfl

@[simp] theorem exec_record (e : LoanEvent κ ν) :
    (record e : Loaned κ ν ε π Unit).exec log = .ok (.ok (), log ++ [e]) := rfl

@[simp] theorem exec_acquire (kind : κ) : (acquire kind : Loaned κ ν ε π _).exec log =
    .ok (.ok ⟨log.length, kind⟩, log ++ [.obtained ⟨log.length, kind⟩]) := rfl

theorem exec_bind (f : α → Loaned κ ν ε π β) :
    (m >>= f).exec log = match m.exec log with
      | .error p => .error p
      | .ok (.error e, log) => .ok (.error e, log)
      | .ok (.ok a, log) => (f a).exec log := by
  unfold exec
  rw [ExceptT.run_bind, StateT.run_bind]
  cases StateT.run (ExceptT.run m) log with
  | error => rfl
  | ok x =>
    obtain ⟨r, log⟩ := x
    cases r <;> rfl

theorem exec_bind_eq_ok {m : Loaned κ ν ε π α} {f : α → Loaned κ ν ε π β} :
    (m >>= f).exec log = .ok (r, log') ↔
      (∃ e, m.exec log = .ok (.error e, log') ∧ r = .error e) ∨
        ∃ a log₁, m.exec log = .ok (.ok a, log₁) ∧ (f a).exec log₁ = .ok (r, log') := by
  rw [exec_bind]
  cases m.exec log with
  | error => simp
  | ok x =>
    obtain ⟨s, log₁⟩ := x
    cases s with
    | error => simp [eq_comm, and_comm]
    | ok => simp

theorem exec_note_bind {n : ν} {f : Unit → Loaned κ ν ε π α} :
    (note n >>= f).exec log = (f ()).exec (log ++ [.noted n]) := by
  rw [exec_bind, note, exec_record]

@[simp] theorem exec_dropGuard :
    (dropGuard g : Loaned κ ν ε π Unit).exec log =
      .ok (.ok (), log ++ (g.map .released).toList) := by
  cases g with
  | none => simp [dropGuard]
  | some => rfl

theorem exec_onError :
    (onError g m).exec log = match m.exec log with
      | .error p => .error p
      | .ok (.error e, log) => .ok (.error e, log ++ (g.map .released).toList)
      | .ok (.ok a, log) => .ok (.ok a, log) := by
  have hcatch : (onError g m).exec log = match m.exec log with
      | .error p => .error p
      | .ok (.error e, log) =>
        (do dropGuard g; throw e : Loaned κ ν ε π α).exec log
      | .ok (.ok a, log) => .ok (.ok a, log) := by
    change (StateT.run (ExceptT.run m) log >>= _) = _
    unfold exec
    cases StateT.run (ExceptT.run m) log with
    | error => rfl
    | ok x =>
      obtain ⟨r, log⟩ := x
      cases r <;> rfl
  rw [hcatch]
  cases m.exec log with
  | error => rfl
  | ok x =>
    obtain ⟨r, log⟩ := x
    cases r with
    | error => simp [exec_bind]
    | ok => rfl

/-! ### What a program computes -/

section Computes

variable {γ δ η : Type} (stop : π ⊕ ε → η)

/-- The program ends as `x` does, whatever is in the log: with the same error, where `stop` says
what its errors and its panics are, or with a value that `R` relates to that of `x`. -/
def Computes (R : α → γ → Prop) (m : Loaned κ ν ε π α) (x : Except η γ) : Prop :=
  ∀ log, match m.exec log with
    | .error p => x = .error (stop (.inl p))
    | .ok (.error e, _) => x = .error (stop (.inr e))
    | .ok (.ok a, _) => ∃ c, x = .ok c ∧ R a c

variable {stop} {R : α → γ → Prop} {S : β → δ → Prop} {m} {x : Except η γ}

namespace Computes

theorem of_error {log log' : List (LoanEvent κ ν)} {e : ε} (h : Computes stop R m x)
    (hm : m.exec log = .ok (.error e, log')) : x = .error (stop (.inr e)) := by
  have hlog := h log
  rwa [hm] at hlog

theorem of_ok {log log' : List (LoanEvent κ ν)} {a : α} (h : Computes stop R m x)
    (hm : m.exec log = .ok (.ok a, log')) : ∃ c, x = .ok c ∧ R a c := by
  have hlog := h log
  rwa [hm] at hlog

theorem pure {a : α} {c : γ} (h : R a c) :
    Computes stop R (Pure.pure a : Loaned κ ν ε π α) (.ok c) := fun _ => ⟨c, rfl, h⟩

theorem throw (e : ε) :
    Computes stop R (throw e : Loaned κ ν ε π α) (.error (stop (.inr e))) := fun _ => rfl

theorem panic (p : π) :
    Computes stop R (panic p : Loaned κ ν ε π α) (.error (stop (.inl p))) := fun _ => rfl

variable {g}

theorem dropGuard {c : γ} {R : Unit → γ → Prop} (h : R () c) :
    Computes stop R (dropGuard g : Loaned κ ν ε π Unit) (.ok c) := by
  intro log
  rw [exec_dropGuard]
  exact ⟨c, rfl, h⟩

theorem bind {f : α → Loaned κ ν ε π β} {h : γ → Except η δ} (hm : Computes stop R m x)
    (hf : ∀ a c, R a c → Computes stop S (f a) (h c)) :
    Computes stop S (m >>= f) (x >>= h) := by
  intro log
  have hlog := hm log
  rw [exec_bind]
  cases hexec : m.exec log with
  | error =>
    rw [hexec] at hlog
    rw [hlog]
    rfl
  | ok y =>
    obtain ⟨r, log₁⟩ := y
    rw [hexec] at hlog
    cases r with
    | error =>
      rw [hlog]
      rfl
    | ok a =>
      obtain ⟨c, rfl, hR⟩ := hlog
      exact hf a c hR log₁

theorem acquire_bind {kind : κ} {f : Loan κ → Loaned κ ν ε π α}
    (hf : ∀ l, Computes stop R (f l) x) : Computes stop R (acquire kind >>= f) x := by
  intro log
  rw [exec_bind, exec_acquire]
  exact hf _ _

theorem record_bind {e : LoanEvent κ ν} {f : Unit → Loaned κ ν ε π α}
    (hf : Computes stop R (f ()) x) : Computes stop R (record e >>= f) x := by
  intro log
  rw [exec_bind, exec_record]
  exact hf _

theorem drop_bind {f : Unit → Loaned κ ν ε π α} (hf : Computes stop R (f ()) x) :
    Computes stop R (Loaned.dropGuard g >>= f) x := by
  intro log
  rw [exec_bind, exec_dropGuard]
  exact hf _

theorem onError (hm : Computes stop R m x) :
    Computes stop R (onError g m) x := by
  intro log
  have hlog := hm log
  rw [exec_onError]
  cases hexec : m.exec log with
  | error =>
    rw [hexec] at hlog
    exact hlog
  | ok y =>
    obtain ⟨r, log₁⟩ := y
    rw [hexec] at hlog
    cases r <;> exact hlog

theorem holding (hm : Computes stop R m x) :
    Computes stop R (holding g m) x := by
  have hbind : Computes stop R (Loaned.holding g m) (x >>= fun c => .ok c) :=
    bind (onError hm) fun a c hR => drop_bind (pure hR)
  cases x <;> exact hbind

theorem foldlM {f : σ → α → Loaned κ ν ε π σ} {h : δ → α → Except η δ} {R : σ → δ → Prop}
    (hf : ∀ s t a, R s t → Computes stop R (f s a) (h t a)) {s : σ} {t : δ} (hR : R s t)
    (l : List α) : Computes stop R (l.foldlM f s) (l.foldlM h t) := by
  induction l generalizing s t with
  | nil => exact pure hR
  | cons a l ih => exact bind (hf s t a hR) fun s' t' hR' => ih hR'

end Computes

end Computes

/-! ### Loans that are owed -/

/-- What has been noted. -/
def notes (log : List (LoanEvent κ ν)) : List ν :=
  log.filterMap fun e => match e with
    | .noted n => some n
    | _ => none

variable [DecidableEq κ] [DecidableEq ν]

/-- **Every object is given back exactly once**, and none that was not obtained. -/
def Settled (log : List (LoanEvent κ ν)) : Prop := ∀ l,
  log.count (.handedOver l) + log.count (.released l) = log.count (.obtained l) ∧
    log.count (.obtained l) ≤ 1

/-- The loans that have not been given back are those in `held`. -/
structure Owing (held : List (Loan κ)) (log : List (LoanEvent κ ν)) : Prop where
  balance : ∀ l, log.count (.handedOver l) + log.count (.released l) + held.count l =
    log.count (.obtained l)
  once : ∀ l, log.count (.obtained l) ≤ 1
  fresh : ∀ l, .obtained l ∈ log → l.id < log.length

variable {held held' frame : List (Loan κ)}

theorem Owing.nil : Owing ([] : List (Loan κ)) ([] : List (LoanEvent κ ν)) where
  balance _ := rfl
  once _ := Nat.zero_le 1
  fresh _ h := absurd h List.not_mem_nil

theorem Owing.settled (h : Owing [] log) : Settled log := fun l =>
  ⟨by simpa using h.balance l, h.once l⟩

theorem Owing.perm (h : Owing held log) (hperm : held.Perm held') : Owing held' log where
  balance l := by rw [← hperm.count_eq]; exact h.balance l
  once := h.once
  fresh := h.fresh

theorem Owing.acquire (h : Owing held log) (kind : κ) :
    Owing (⟨log.length, kind⟩ :: held) (log ++ [.obtained ⟨log.length, kind⟩]) := by
  -- The number is new: the objects in the log have smaller ones.
  have hnew : LoanEvent.obtained ⟨log.length, kind⟩ ∉ log :=
    fun hmem => Nat.lt_irrefl _ (h.fresh _ hmem)
  have hzero : log.count (.obtained ⟨log.length, kind⟩) = 0 := List.count_eq_zero_of_not_mem hnew
  constructor
  · intro l
    have hl := h.balance l
    simp only [List.count_append, List.count_cons, List.count_nil, beq_iff_eq,
      LoanEvent.obtained.injEq, reduceCtorEq, if_false]
    omega
  · intro l
    have hl := h.once l
    by_cases heq : l = ⟨log.length, kind⟩
    · subst heq
      simp [hzero]
    · have hne : (⟨log.length, kind⟩ : Loan κ) ≠ l := fun h => heq h.symm
      simpa [List.count_append, List.count_cons, List.count_nil, hne] using hl
  · intro l hl
    rw [List.length_append, List.length_singleton]
    rw [List.mem_append, List.mem_singleton] at hl
    obtain hl | hl := hl
    · exact Nat.lt_succ_of_lt (h.fresh l hl)
    · rw [LoanEvent.obtained.inj hl]
      exact Nat.lt_succ_self _

/-- Giving back a loan by either event. -/
theorem Owing.giveBack {l : Loan κ} (h : Owing (l :: held) log) {e : LoanEvent κ ν}
    (he : e = .handedOver l ∨ e = .released l) : Owing held (log ++ [e]) := by
  constructor
  · intro l'
    have hl := h.balance l'
    obtain rfl | rfl := he <;> simp [List.count_cons] at hl ⊢ <;> omega
  · intro l'
    have hl := h.once l'
    obtain rfl | rfl := he <;> simpa using hl
  · intro l' hl'
    rw [List.length_append, List.length_singleton]
    refine Nat.lt_succ_of_lt (h.fresh l' ?_)
    obtain rfl | rfl := he <;> simpa using hl'

omit [DecidableEq κ] [DecidableEq ν] in
theorem notes_append_noted (log : List (LoanEvent κ ν)) (n : ν) :
    notes (log ++ [.noted n]) = notes log ++ [n] := by
  simp [notes]

theorem Owing.note (h : Owing held log) (n : ν) : Owing held (log ++ [.noted n]) where
  balance l := by simpa using h.balance l
  once l := by simpa using h.once l
  fresh l hl := by
    rw [List.length_append, List.length_singleton]
    exact Nat.lt_succ_of_lt (h.fresh l (by simpa using hl))

/-! ### Programs that give back what they take -/

/-- The loans that are left at the end. -/
def leaves (keeps : α → List (Loan κ)) : Except ε α → List (Loan κ)
  | .ok a => keeps a
  | .error _ => []

/-- The program takes over the loans in `held`, and leaves those in `keeps` if it succeeds and none
if it fails.  Other loans are not touched, and nothing is noted. -/
def Balances (held : List (Loan κ)) (m : Loaned κ ν ε π α) (keeps : α → List (Loan κ)) : Prop :=
  ∀ frame log r log', Owing (held ++ frame) log → m.exec log = .ok (r, log') →
    Owing (leaves keeps r ++ frame) log' ∧ notes log' = notes log

variable {m} {keeps : α → List (Loan κ)} {g}

/-- **In the log of a program that keeps nothing every object is given back exactly once.** -/
theorem Balances.settled (h : Balances [] m fun _ => []) {r : Except ε α}
    (hm : m.exec [] = .ok (r, log)) : Settled log := by
  have hleft := (h [] [] r log .nil hm).1
  rw [List.append_nil] at hleft
  cases r <;> exact hleft.settled

namespace Balances

theorem pure {a : α} (ha : held = keeps a) :
    Balances held (Pure.pure a : Loaned κ ν ε π α) keeps := by
  intro frame log r log' h hm
  cases hm
  rw [ha] at h
  exact ⟨h, rfl⟩

theorem throw (e : ε) : Balances [] (throw e : Loaned κ ν ε π α) keeps := by
  intro frame log r log' h hm
  cases hm
  exact ⟨h, rfl⟩

theorem panic (p : π) : Balances held (panic p : Loaned κ ν ε π α) keeps := by
  intro frame log r log' h hm
  cases hm

theorem bind {mid : α → List (Loan κ)} {f : α → Loaned κ ν ε π β} {keeps : β → List (Loan κ)}
    (hm : Balances held m mid) (hf : ∀ a, Balances (mid a) (f a) keeps) :
    Balances held (m >>= f) keeps := by
  intro frame log r log' h hrun
  obtain ⟨e, hrun₁, rfl⟩ | ⟨a, log₁, hrun₁, hrun₂⟩ := exec_bind_eq_ok.1 hrun
  · exact hm frame log _ log' h hrun₁
  · obtain ⟨howing, hnotes⟩ := hm frame log _ log₁ h hrun₁
    obtain ⟨howing', hnotes'⟩ := hf a frame log₁ r log' howing hrun₂
    exact ⟨howing', hnotes'.trans hnotes⟩

theorem acquire_bind {kind : κ} {f : Loan κ → Loaned κ ν ε π α}
    (hf : ∀ l, Balances (l :: held) (f l) keeps) :
    Balances held (acquire kind >>= f) keeps := by
  intro frame log r log' h hrun
  rw [exec_bind, exec_acquire] at hrun
  obtain ⟨howing, hnotes⟩ := hf _ frame _ r log' (h.acquire kind) hrun
  exact ⟨howing, hnotes.trans (by simp [notes])⟩

theorem handOver (l : Loan κ) :
    Balances [l] (Loaned.handOver l : Loaned κ ν ε π Unit) fun _ => [] := by
  intro frame log r log' h hm
  cases hm
  exact ⟨h.giveBack (.inl rfl), by simp [notes]⟩

theorem release (l : Loan κ) :
    Balances [l] (Loaned.release l : Loaned κ ν ε π Unit) fun _ => [] := by
  intro frame log r log' h hm
  cases hm
  exact ⟨h.giveBack (.inr rfl), by simp [notes]⟩

theorem dropGuard (g : Option (Loan κ)) :
    Balances g.toList (Loaned.dropGuard g : Loaned κ ν ε π Unit) fun _ => [] := by
  cases g with
  | none => exact pure rfl
  | some l => exact .release l

theorem perm (hm : Balances held m keeps) (hperm : held'.Perm held) :
    Balances held' m keeps :=
  fun frame log r log' h hrun => hm frame log r log' (h.perm (hperm.append_right frame)) hrun

variable {f : Unit → Loaned κ ν ε π α}

theorem drop_bind (hf : Balances held (f ()) keeps) :
    Balances (g.toList ++ held) (Loaned.dropGuard g >>= f) keeps := by
  intro frame log r log' h hrun
  have hdrop : Balances g.toList (Loaned.dropGuard g : Loaned κ ν ε π Unit) fun _ => [] :=
    dropGuard g
  rw [List.append_assoc] at h
  obtain ⟨howing, hnotes⟩ := hdrop (held ++ frame) log _ _ h (exec_dropGuard g)
  rw [exec_bind, exec_dropGuard] at hrun
  obtain ⟨howing', hnotes'⟩ := hf frame _ r log' howing hrun
  exact ⟨howing', hnotes'.trans hnotes⟩

/-- The loan in the guard is kept unless the program fails. -/
theorem onError (hm : Balances held m keeps) :
    Balances (g.toList ++ held) (Loaned.onError g m) fun a => g.toList ++ keeps a := by
  intro frame log r log' h hrun
  have hperm : (g.toList ++ held ++ frame).Perm (held ++ (g.toList ++ frame)) := by
    rw [List.append_assoc]
    exact List.perm_append_comm_assoc ..
  have howing := h.perm hperm
  rw [exec_onError] at hrun
  cases hexec : m.exec log with
  | error => simp [hexec] at hrun
  | ok x =>
    obtain ⟨s, log₁⟩ := x
    obtain ⟨hleft, hnotes⟩ := hm _ log s log₁ howing hexec
    rw [hexec] at hrun
    cases s with
    | error =>
      have hdrop : Balances g.toList (Loaned.dropGuard g : Loaned κ ν ε π Unit) fun _ => [] :=
        dropGuard g
      obtain ⟨hdropped, hnotes'⟩ := hdrop frame log₁ _ _ hleft (exec_dropGuard g)
      cases hrun
      exact ⟨hdropped, hnotes'.trans hnotes⟩
    | ok =>
      cases hrun
      refine ⟨hleft.perm ?_, hnotes⟩
      rw [leaves, leaves, List.append_assoc]
      exact List.perm_append_comm_assoc ..

/-- The loan in the guard is given back at the end. -/
theorem holding (hm : Balances held m fun _ => []) :
    Balances (g.toList ++ held) (Loaned.holding g m) fun _ => [] := by
  refine bind (onError hm) fun a => ?_
  rw [List.append_nil]
  exact bind (dropGuard g) fun _ => pure rfl

/-! The same for a guard that is empty, or has a loan. -/

variable {l : Loan κ}

theorem drop_none_bind (hf : Balances held (f ()) keeps) :
    Balances held (Loaned.dropGuard none >>= f) keeps :=
  drop_bind (g := none) hf

theorem drop_some_bind (hf : Balances held (f ()) keeps) :
    Balances (l :: held) (Loaned.dropGuard (some l) >>= f) keeps :=
  drop_bind (g := some l) hf

theorem onError_some (hm : Balances held m keeps) :
    Balances (l :: held) (Loaned.onError (some l) m) fun a => l :: keeps a :=
  onError (g := some l) hm

theorem holding_some (hm : Balances held m fun _ => []) :
    Balances (l :: held) (Loaned.holding (some l) m) fun _ => [] :=
  holding (g := some l) hm

/-- Every round of a loop gives back what it obtains. -/
theorem foldlM {f : σ → α → Loaned κ ν ε π σ} (hf : ∀ s a, Balances [] (f s a) fun _ => [])
    (s : σ) (l : List α) : Balances [] (l.foldlM f s) fun _ => [] := by
  induction l generalizing s with
  | nil => exact pure rfl
  | cons a l ih => exact bind (hf s a) fun s' => ih s'

end Balances

end Loaned

end VirtioGpu
