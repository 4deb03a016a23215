import VirtioGpu.Queue.Buffer
import Mathlib.Data.List.Count

/-!
# Closing device allocations

`Device::close_allocation` is given a list of handles.  Behind each of them is a strong reference to
a `DeviceSpecificAllocation`, which the call takes over and gives up; and if the last strong
reference to an `Allocation` goes with it, `destroy_allocation_inner` is to release its resource.
Between the two stands `detach_from_device`, and the `?` behind it: it fails if the device is gone,
if the device has no context, or if the allocation has no entry for the context.

A `DeviceSpecificAllocation` that was made by `Device::allocate` owns a strong reference to its
allocation.  The strong count of an allocation is therefore not a number of its own here: it is the
number of references others have, and of the `DeviceSpecificAllocation`s that own one.

* `closed_iff` : every handle is given up, and every allocation that loses its last reference is
  torn down, exactly if no detach fails, or none but that of the last valid handle, and its
  allocation has other references.
* `closed_early` : two handles, of which the second is never given up; and an allocation that is
  never torn down.
-/

namespace VirtioGpu

/-- `DeviceSpecificAllocation`, by index; the handle is its address. -/
structure DeviceAlloc where
  /-- The number of strong references; there is none to one that is gone. -/
  strong : ℕ
  device : ℕ
  alloc : ℕ
  /-- `owned` has a strong reference to the allocation. -/
  owned : Bool

/-- The allocations of an adapter and the devices they are opened on. -/
structure CloseWorld where
  dsas : List DeviceAlloc
  /-- The devices that still exist, and the ids of their contexts. -/
  devices : ℕ → Option (Option ℕ)
  /-- The strong references to each allocation, but for those of `owned`. -/
  others : ℕ → ℕ
  /-- `device_specific` of each allocation: weak references by context. -/
  attached : ℕ → ℕ → Option ℕ
  /-- The allocations for which `destroy_allocation_inner` has been called. -/
  torn : List ℕ

namespace CloseWorld

variable (w : CloseWorld)

/-- `Arc::strong_count` of a `DeviceSpecificAllocation`. -/
def dsaStrong (h : ℕ) : ℕ := match w.dsas[h]? with
  | some d => d.strong
  | none => 0

/-- The `DeviceSpecificAllocation` keeps the allocation alive. -/
def owns (a : ℕ) (d : DeviceAlloc) : Bool :=
  decide (0 < d.strong) && d.owned && decide (d.alloc = a)

/-- `Arc::strong_count` of an allocation. -/
def strong (a : ℕ) : ℕ := w.others a + w.dsas.countP (owns a)

/-- A strong reference to the allocation is taken. -/
def addRef (a : ℕ) : CloseWorld :=
  { w with others := Function.update w.others a (w.others a + 1) }

/-- A strong reference to the allocation is dropped. -/
def dropRef (a : ℕ) : CloseWorld :=
  { w with others := Function.update w.others a (w.others a - 1) }

/-- A strong reference to the `DeviceSpecificAllocation` is dropped; with the last one goes what it
owns. -/
def dropDsa (h : ℕ) (d : DeviceAlloc) : CloseWorld :=
  { w with dsas := w.dsas.set h { d with strong := d.strong - 1 } }

/-- `Arc::into_inner`, and `destroy_allocation_inner` if the value comes out of it. -/
def intoInner (a : ℕ) : CloseWorld :=
  if w.strong a = 1 then { w.dropRef a with torn := w.torn ++ [a] } else w.dropRef a

/-- `Allocation::detach_from_device`. -/
def detachFromDevice (h : ℕ) (d : DeviceAlloc) : CloseWorld × Except NtStatus Unit :=
  match w.devices d.device with
  | none => (w.dropDsa h d, .error .invalidHandle)
  | some none => (w.dropDsa h d, .error .reinitializationNeeded)
  | some (some context) =>
    let w := w.dropDsa h d
    match w.attached d.alloc context with
    | none => (w, .error .invalidParameter)
    | some entry =>
      if w.dsaStrong entry = 0 then
        let removed := Function.update (w.attached d.alloc) context none
        ({ w with attached := Function.update w.attached d.alloc removed }, .ok ())
      else (w, .ok ())

/-- One round of the loop of `close_allocation`. -/
def closeOne (h : ℕ) : CloseWorld × Except NtStatus Unit :=
  match w.dsas[h]? with
  | none => (w, .ok ())
  | some d =>
    -- the tag is cleared when the last reference goes
    if d.strong = 0 then (w, .ok ())
    else if w.strong d.alloc = 0 then (w.dropDsa h d, .ok ())
    else match (w.addRef d.alloc).detachFromDevice h d with
      | (w, .error e) => (w.dropRef d.alloc, .error e)
      | (w, .ok ()) => (w.intoInner d.alloc, .ok ())

/-- `Device::close_allocation`. -/
def closeAllocation : CloseWorld → List ℕ → CloseWorld × Except NtStatus Unit
  | w, [] => (w, .ok ())
  | w, h :: hs => match w.closeOne h with
    | (w, .error e) => (w, .error e)
    | (w, .ok ()) => closeAllocation w hs

/-- The handles are given up, and what has lost its last reference is torn down. -/
structure Closed (w w' : CloseWorld) (hs : List ℕ) : Prop where
  /-- Each handle stands for one reference, if there is one left. -/
  released : ∀ h, w'.dsaStrong h = w.dsaStrong h - hs.count h
  torn : ∀ a, w'.torn.count a = w.torn.count a + if 0 < w.strong a ∧ w'.strong a = 0 then 1 else 0

/-- The handle and its allocation are valid, but the device is gone or has no context, or the
allocation has no entry for the context. -/
def DetachFails (h : ℕ) : Prop :=
  ∃ d ∈ w.dsas[h]?, 0 < d.strong ∧ 0 < w.strong d.alloc ∧
    (w.devices d.device).join.bind (w.attached d.alloc) = none
  deriving Decidable

/-- With the reference behind `h` gone, no other handle is valid; and it does not take the last
reference to the allocation with it. -/
def CanStopAt (h : ℕ) (hs : List ℕ) : Prop :=
  (∀ h' ∈ hs, w.dsaStrong h' ≤ [h].count h') ∧
    ∀ d ∈ w.dsas[h]?, d.strong = 1 → d.owned = true → 1 < w.strong d.alloc

/-- No detach fails but that of the last valid handle, and its allocation has other references. -/
def Spared : CloseWorld → List ℕ → Prop
  | _, [] => True
  | w, h :: hs => (w.DetachFails h → w.CanStopAt h hs) ∧
      (¬ w.DetachFails h → Spared (w.closeOne h).1 hs)

/-! ### One round -/

variable {w} {w' : CloseWorld} {h a : ℕ} {d : DeviceAlloc}

section

variable (w : CloseWorld)

theorem dropRef_addRef (a : ℕ) :
    Function.update (w.addRef a).others a ((w.addRef a).others a - 1) = w.others := by
  funext b
  by_cases hb : b = a
  · simp [addRef, hb]
  · simp [addRef, hb]

theorem intoInner_eq (a : ℕ) (hpos : 0 < w.others a) :
    (w.intoInner a).dsas = w.dsas ∧ (w.intoInner a).others = (w.dropRef a).others ∧
      (w.intoInner a).torn = if (w.intoInner a).strong a = 0 then w.torn ++ [a] else w.torn := by
  have hlast : w.strong a = (w.dropRef a).strong a + 1 := by
    simp only [strong, dropRef, Function.update_self]
    omega
  have hstrong : (w.intoInner a).strong a = (w.dropRef a).strong a := by
    unfold intoInner
    split_ifs <;> rfl
  rw [hstrong]
  unfold intoInner
  split_ifs with hone hzero hzero
  · exact ⟨rfl, rfl, rfl⟩
  · omega
  · omega
  · exact ⟨rfl, rfl, rfl⟩

theorem detachFromDevice_eq (h : ℕ) (d : DeviceAlloc) :
    (w.detachFromDevice h d).1.dsas = (w.dropDsa h d).dsas ∧
      (w.detachFromDevice h d).1.others = w.others ∧
      (w.detachFromDevice h d).1.torn = w.torn := by
  unfold detachFromDevice
  split
  · exact ⟨rfl, rfl, rfl⟩
  · exact ⟨rfl, rfl, rfl⟩
  · dsimp only
    split
    · exact ⟨rfl, rfl, rfl⟩
    · split_ifs <;> exact ⟨rfl, rfl, rfl⟩

theorem detachFromDevice_error_iff (h : ℕ) (d : DeviceAlloc) :
    (∃ e, (w.detachFromDevice h d).2 = .error e) ↔
      (w.devices d.device).join.bind (w.attached d.alloc) = none := by
  unfold detachFromDevice
  split
  · rename_i hdevice
    simp [hdevice]
  · rename_i hdevice
    simp [hdevice]
  · rename_i context hdevice
    simp only [hdevice, Option.join_some, Option.bind_some]
    show (∃ e, (match w.attached d.alloc context with
      | none => _
      | some entry => _ : CloseWorld × Except NtStatus Unit).2 = _) ↔ _
    split
    · rename_i hentry
      simp [hentry]
    · rename_i entry hentry
      split_ifs <;> simp [hentry]

theorem closeOne_error_iff (h : ℕ) : (∃ e, (w.closeOne h).2 = .error e) ↔ w.DetachFails h := by
  cases hd : w.dsas[h]? with
  | none => simp [closeOne, DetachFails, hd]
  | some d =>
    have hdetach := (w.addRef d.alloc).detachFromDevice_error_iff h d
    simp only [DetachFails, hd, Option.mem_def, Option.some.injEq, exists_eq_left', closeOne]
    split_ifs with hzero hgone
    · simp [hzero]
    · simp [hgone]
    · rw [and_iff_right (Nat.pos_of_ne_zero hzero), and_iff_right (Nat.pos_of_ne_zero hgone)]
      refine Iff.trans ?_ hdetach
      rcases (w.addRef d.alloc).detachFromDevice h d with ⟨w₁, e | ⟨⟩⟩
      · exact Iff.rfl
      · exact Iff.rfl

/-- **One round.**  The handle is not valid, or its reference is given up; nobody else gains or
loses one. -/
theorem closeOne_cases (h : ℕ) :
    (w.dsaStrong h = 0 ∧ w.closeOne h = (w, .ok ())) ∨
    ∃ d, w.dsas[h]? = some d ∧ 0 < d.strong ∧
      (w.closeOne h).1.dsas = w.dsas.set h { d with strong := d.strong - 1 } ∧
      (w.closeOne h).1.others = w.others ∧
      ((w.strong d.alloc = 0 ∧ (w.closeOne h).2 = .ok () ∧ (w.closeOne h).1.torn = w.torn) ∨
        (0 < w.strong d.alloc ∧ (∃ e, (w.closeOne h).2 = .error e) ∧
          (w.closeOne h).1.torn = w.torn) ∨
        (0 < w.strong d.alloc ∧ (w.closeOne h).2 = .ok () ∧ (w.closeOne h).1.torn =
          if (w.closeOne h).1.strong d.alloc = 0 then w.torn ++ [d.alloc] else w.torn)) := by
  cases hd : w.dsas[h]? with
  | none =>
    refine .inl ⟨?_, ?_⟩
    · rw [dsaStrong, hd]
    · rw [closeOne, hd]
  | some d =>
    have heq : w.closeOne h = if d.strong = 0 then (w, .ok ())
        else if w.strong d.alloc = 0 then (w.dropDsa h d, .ok ())
        else match (w.addRef d.alloc).detachFromDevice h d with
          | (w, .error e) => (w.dropRef d.alloc, .error e)
          | (w, .ok ()) => (w.intoInner d.alloc, .ok ()) := by
      rw [closeOne, hd]
    rcases Nat.eq_zero_or_pos d.strong with hzero | hpos
    · refine .inl ⟨?_, ?_⟩
      · rw [dsaStrong, hd]
        exact hzero
      · rw [heq, if_pos hzero]
    refine .inr ⟨d, rfl, hpos, ?_⟩
    rw [if_neg hpos.ne'] at heq
    rcases Nat.eq_zero_or_pos (w.strong d.alloc) with hgone | halive
    · rw [heq, if_pos hgone]
      exact ⟨rfl, rfl, .inl ⟨hgone, rfl, rfl⟩⟩
    rw [if_neg halive.ne'] at heq
    obtain ⟨hdsas, hothers, htorn⟩ := (w.addRef d.alloc).detachFromDevice_eq h d
    rcases hdetach : (w.addRef d.alloc).detachFromDevice h d with ⟨w₁, e | ⟨⟩⟩
    · rw [hdetach] at hdsas hothers htorn heq
      rw [heq]
      refine ⟨hdsas, ?_, .inr (.inl ⟨halive, ⟨e, rfl⟩, htorn⟩)⟩
      dsimp only at hothers ⊢
      rw [dropRef, hothers, dropRef_addRef]
    · rw [hdetach] at hdsas hothers htorn heq
      dsimp only at hdsas hothers htorn
      have hpos : 0 < w₁.others d.alloc := by
        simp only [hothers, addRef, Function.update_self]
        exact Nat.succ_pos _
      obtain ⟨hdsas', hothers', htorn'⟩ := w₁.intoInner_eq d.alloc hpos
      rw [htorn] at htorn'
      rw [heq]
      refine ⟨hdsas'.trans hdsas, hothers'.trans ?_, .inr (.inr ⟨halive, rfl, htorn'⟩)⟩
      rw [dropRef, hothers, dropRef_addRef]

end

theorem strong_set (hd : w.dsas[h]? = some d)
    (hdsas : w'.dsas = w.dsas.set h { d with strong := d.strong - 1 })
    (hothers : w'.others = w.others) (a : ℕ) :
    w'.strong a ≤ w.strong a ∧ (a ≠ d.alloc → w'.strong a = w.strong a) := by
  obtain ⟨hlt, hget⟩ := List.getElem?_eq_some_iff.1 hd
  have howns : owns a { d with strong := d.strong - 1 } = true → owns a d = true := by
    simp only [owns, Bool.and_eq_true, decide_eq_true_eq]
    rintro ⟨⟨hstrong, howned⟩, halloc⟩
    exact ⟨⟨by omega, howned⟩, halloc⟩
  have hpos : owns a d = true → 0 < w.dsas.countP (owns a) := fun h =>
    List.countP_pos_iff.2 ⟨d, hget ▸ List.getElem_mem hlt, h⟩
  rw [strong, strong, hothers, hdsas, List.countP_set hlt, hget]
  constructor
  · split_ifs with hold hnew hnew
    · have := hpos hold
      omega
    · omega
    · exact absurd (howns hnew) hold
    · omega
  · intro hne
    have hold : ¬ owns a d = true := fun h => by simp [owns, Ne.symm hne] at h
    rw [if_neg hold, if_neg (mt howns hold)]
    rfl

theorem strong_set_self (hd : w.dsas[h]? = some d) (hpos : 0 < d.strong)
    (hdsas : w'.dsas = w.dsas.set h { d with strong := d.strong - 1 })
    (hothers : w'.others = w.others) (halive : 0 < w.strong d.alloc) :
    0 < w'.strong d.alloc ↔ (d.strong = 1 → d.owned = true → 1 < w.strong d.alloc) := by
  obtain ⟨hlt, hget⟩ := List.getElem?_eq_some_iff.1 hd
  have hmem : owns d.alloc d = true → 0 < w.dsas.countP (owns d.alloc) := fun h =>
    List.countP_pos_iff.2 ⟨d, hget ▸ List.getElem_mem hlt, h⟩
  rw [strong] at halive
  rw [strong, strong, hothers, hdsas, List.countP_set hlt, hget]
  by_cases howned : d.owned = true
  · have hold : owns d.alloc d = true := by simp [owns, howned, hpos]
    have := hmem hold
    rw [if_pos hold]
    by_cases hone : d.strong = 1
    · rw [if_neg (by simp [owns, hone])]
      simp only [hone, howned, true_implies]
      omega
    · have hnew : owns d.alloc { d with strong := d.strong - 1 } = true := by
        simp only [owns, Bool.and_eq_true, decide_eq_true_eq, and_true]
        exact ⟨by omega, howned⟩
      rw [if_pos hnew]
      simp only [hone, false_implies, iff_true]
      omega
  · simp only [owns, howned]
    simpa using halive

theorem dsaStrong_set (hd : w.dsas[h]? = some d)
    (hdsas : w'.dsas = w.dsas.set h { d with strong := d.strong - 1 }) (h' : ℕ) :
    w'.dsaStrong h' = w.dsaStrong h' - [h].count h' := by
  obtain ⟨hlt, -⟩ := List.getElem?_eq_some_iff.1 hd
  rw [dsaStrong, dsaStrong, hdsas, List.count_singleton]
  by_cases hh : h = h'
  · subst hh
    rw [List.getElem?_set_self hlt, hd, if_pos (beq_self_eq_true h)]
  · rw [List.getElem?_set_ne hh, if_neg (by simpa using hh), Nat.sub_zero]

theorem closeOne_spec (w : CloseWorld) (h : ℕ) :
    (∀ h', (w.closeOne h).1.dsaStrong h' = w.dsaStrong h' - [h].count h') ∧
    (∀ a, (w.closeOne h).1.strong a ≤ w.strong a) ∧
    ((w.closeOne h).2 = .ok () → w.Closed (w.closeOne h).1 [h]) ∧
    ∀ e, (w.closeOne h).2 = .error e → (w.closeOne h).1.torn = w.torn ∧
      ∃ d, w.dsas[h]? = some d ∧ 0 < w.strong d.alloc ∧
        (0 < (w.closeOne h).1.strong d.alloc ↔
          (d.strong = 1 → d.owned = true → 1 < w.strong d.alloc)) ∧
        ∀ a, a ≠ d.alloc → (w.closeOne h).1.strong a = w.strong a := by
  rcases w.closeOne_cases h with ⟨hzero, heq⟩ | ⟨d, hd, hpos, hdsas, hothers, hcases⟩
  · have hreleased : ∀ h', w.dsaStrong h' = w.dsaStrong h' - [h].count h' := by
      intro h'
      rw [List.count_singleton]
      split_ifs with hh
      · rw [← eq_of_beq hh, hzero]
      · rfl
    rw [heq]
    refine ⟨hreleased, fun _ => le_rfl, fun _ => ⟨hreleased, fun a => ?_⟩, fun e he => ?_⟩
    · rw [if_neg fun h => h.1.ne' h.2]
      rfl
    · cases he
  · have hreleased := dsaStrong_set hd hdsas
    have hstrong := strong_set hd hdsas hothers
    -- only the allocation of the handle can lose its last reference
    have hkept : ∀ a, a ≠ d.alloc → ¬ (0 < w.strong a ∧ (w.closeOne h).1.strong a = 0) :=
      fun a ha hlost => by
        rw [(hstrong a).2 ha] at hlost
        exact hlost.1.ne' hlost.2
    refine ⟨hreleased, fun a => (hstrong a).1, fun hok => ⟨hreleased, fun a => ?_⟩, fun e he => ?_⟩
    · rcases hcases with ⟨hgone, -, htorn⟩ | ⟨-, ⟨e, he⟩, -⟩ | ⟨halive, -, htorn⟩
      · rw [htorn, if_neg fun hlost => ?_]
        · rfl
        · by_cases ha : a = d.alloc
          · rw [ha, hgone] at hlost
            exact lt_irrefl 0 hlost.1
          · exact hkept a ha hlost
      · rw [he] at hok
        cases hok
      · rw [htorn]
        by_cases ha : a = d.alloc
        · subst ha
          by_cases hlast : (w.closeOne h).1.strong d.alloc = 0
          · rw [if_pos hlast, if_pos ⟨halive, hlast⟩, List.count_append, List.count_singleton_self]
          · rw [if_neg hlast, if_neg fun hlost => hlast hlost.2, Nat.add_zero]
        · rw [if_neg (hkept a ha), Nat.add_zero]
          split_ifs
          · rw [List.count_append, List.count_singleton, if_neg (by simpa using Ne.symm ha),
              Nat.add_zero]
          · rfl
    · rcases hcases with ⟨-, hok, -⟩ | ⟨halive, -, htorn⟩ | ⟨-, hok, -⟩
      · rw [hok] at he
        cases he
      · exact ⟨htorn, d, hd, halive, strong_set_self hd hpos hdsas hothers halive,
          fun a ha => (hstrong a).2 ha⟩
      · rw [hok] at he
        cases he

/-! ### The whole call -/

theorem strong_closeAllocation_le (w : CloseWorld) (hs : List ℕ) (a : ℕ) :
    (w.closeAllocation hs).1.strong a ≤ w.strong a := by
  induction hs generalizing w with
  | nil => exact le_rfl
  | cons h hs ih =>
    have hone := (w.closeOne_spec h).2.1 a
    rw [closeAllocation]
    rcases hround : w.closeOne h with ⟨w', e | ⟨⟩⟩
    · rw [hround] at hone
      exact hone
    · rw [hround] at hone
      exact (ih w').trans hone

theorem count_cons_handle (h : ℕ) (hs : List ℕ) (h' : ℕ) :
    (h :: hs).count h' = [h].count h' + hs.count h' := by
  rw [← List.singleton_append, List.count_append]

theorem Closed.cons_iff {w'' : CloseWorld} {hs : List ℕ} (hone : w.Closed w' [h])
    (hle : ∀ a, w'.strong a ≤ w.strong a) (hle' : ∀ a, w''.strong a ≤ w'.strong a) :
    w.Closed w'' (h :: hs) ↔ w'.Closed w'' hs := by
  have hlost : ∀ a, (if 0 < w.strong a ∧ w''.strong a = 0 then 1 else 0) =
      (if 0 < w.strong a ∧ w'.strong a = 0 then 1 else 0) +
        if 0 < w'.strong a ∧ w''.strong a = 0 then 1 else 0 := by
    intro a
    have := hle a
    have := hle' a
    split_ifs <;> omega
  have hreleased := hone.released
  have htorn := hone.torn
  constructor
  · intro hclosed
    refine ⟨fun h' => ?_, fun a => ?_⟩
    · rw [hclosed.released, hreleased, count_cons_handle h hs]
      omega
    · rw [hclosed.torn, htorn, hlost]
      omega
  · intro hclosed
    refine ⟨fun h' => ?_, fun a => ?_⟩
    · rw [hclosed.released, hreleased, count_cons_handle h hs]
      omega
    · rw [hclosed.torn, htorn, hlost]
      omega

theorem closed_error_iff {hs : List ℕ} (hd : w.dsas[h]? = some d)
    (hreleased : ∀ h', w'.dsaStrong h' = w.dsaStrong h' - [h].count h') (htorn : w'.torn = w.torn)
    (halive : 0 < w.strong d.alloc)
    (hkept : 0 < w'.strong d.alloc ↔ (d.strong = 1 → d.owned = true → 1 < w.strong d.alloc))
    (hothers : ∀ a, a ≠ d.alloc → w'.strong a = w.strong a) :
    w.Closed w' (h :: hs) ↔ w.CanStopAt h hs := by
  constructor
  · intro hclosed
    refine ⟨fun h' hh' => ?_, fun d' hd' => ?_⟩
    · have hall := hclosed.released h'
      have hfirst := hreleased h'
      have hpos := List.count_pos_iff.2 hh'
      rw [count_cons_handle h hs] at hall
      omega
    · obtain rfl : d = d' := Option.some.inj (hd.symm.trans hd')
      refine hkept.1 (Nat.pos_of_ne_zero fun hzero => ?_)
      have hall := hclosed.torn d.alloc
      rw [htorn, if_pos ⟨halive, hzero⟩] at hall
      omega
  · rintro ⟨hrest, hlast⟩
    refine ⟨fun h' => ?_, fun a => ?_⟩
    · have hfirst := hreleased h'
      rw [count_cons_handle h hs]
      by_cases hh' : h' ∈ hs
      · have := hrest h' hh'
        omega
      · rw [List.count_eq_zero_of_not_mem hh']
        exact hfirst
    · rw [htorn, if_neg]
      · rfl
      · rintro ⟨hpos, hzero⟩
        by_cases ha : a = d.alloc
        · exact (hkept.2 (hlast d hd)).ne' (ha ▸ hzero)
        · exact hpos.ne' ((hothers a ha).symm.trans hzero)

end CloseWorld

/-- **When all handles are closed.**  `close_allocation` gives up the reference behind each valid
handle once, and tears down each allocation that loses its last one by it, exactly if no detach
fails, or none but that of the last valid handle, whose allocation has other references. -/
theorem closed_iff (w : CloseWorld) (hs : List ℕ) :
    w.Closed (w.closeAllocation hs).1 hs ↔ w.Spared hs := by
  induction hs generalizing w with
  | nil =>
    refine iff_of_true ⟨fun _ => rfl, fun a => ?_⟩ trivial
    rw [if_neg fun h => h.1.ne' h.2]
    rfl
  | cons h hs ih =>
    obtain ⟨hreleased, hle, hok, herror⟩ := w.closeOne_spec h
    have hfails := w.closeOne_error_iff h
    rw [CloseWorld.closeAllocation, CloseWorld.Spared]
    rcases hround : w.closeOne h with ⟨w', e | ⟨⟩⟩
    · rw [hround] at hreleased herror hfails
      obtain ⟨htorn, d, hd, halive, hkept, hothers⟩ := herror e rfl
      have hfails := hfails.1 ⟨e, rfl⟩
      rw [and_iff_left (fun hno => absurd hfails hno), forall_prop_of_true hfails]
      exact CloseWorld.closed_error_iff hd hreleased htorn halive hkept hothers
    · rw [hround] at hok hle hfails
      have hfails : ¬ w.DetachFails h := fun h => by simpa using hfails.2 h
      rw [and_iff_right (fun h => absurd h hfails), forall_prop_of_true hfails,
        (hok rfl).cons_iff hle (w'.strong_closeAllocation_le hs)]
      exact ih w'

/-- Two allocations, each owned by a `DeviceSpecificAllocation`; the context of the device has no
entry in the first one any more if `lost` is set. -/
def twoOwned (lost : Bool) : CloseWorld where
  dsas := [⟨1, 0, 0, true⟩, ⟨1, 0, 1, true⟩]
  devices _ := some (some 3)
  others _ := 0
  attached a context := if context = 3 ∧ ¬ (lost = true ∧ a = 0) then some a else none
  torn := []

/-- Both are closed, and torn down. -/
theorem closed_iff_twoOwned :
    ((twoOwned false).closeAllocation [0, 1]).2 = .ok () ∧
      (twoOwned false).Closed ((twoOwned false).closeAllocation [0, 1]).1 [0, 1] ∧
      ((twoOwned false).closeAllocation [0, 1]).1.torn = [0, 1] :=
  ⟨rfl, (closed_iff (twoOwned false) [0, 1]).2
    ⟨fun h => absurd h (by decide), fun _ => ⟨fun h => absurd h (by decide), fun _ => trivial⟩⟩,
    rfl⟩

/-- The first detach fails.  Its allocation has lost its last reference, and is not torn down; the
second handle is not given up. -/
theorem closed_early :
    ((twoOwned true).closeAllocation [0, 1]).2 = .error .invalidParameter ∧
      ((twoOwned true).closeAllocation [0, 1]).1.strong 0 = 0 ∧
      ((twoOwned true).closeAllocation [0, 1]).1.torn = [] ∧
      ((twoOwned true).closeAllocation [0, 1]).1.dsaStrong 1 = 1 := by
  decide

end VirtioGpu
