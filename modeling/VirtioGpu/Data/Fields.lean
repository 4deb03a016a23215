import VirtioGpu.Data.Memory

/-!
# Fields and records

A structure on the wire is a string of bytes in which every field has an offset and a length, and an
array of structures is a string of records of one length.  `fieldAt` and `numberAt` read a field,
`writeAt` writes one; the lemmas say how fields of a concatenation and of an array are found, and
what a write leaves as it was.
-/

namespace VirtioGpu

variable {α β : Type*}

/-- The `n` entries from `off` on. -/
def fieldAt (l : List α) (off n : ℕ) : List α := (l.drop off).take n

/-- The little-endian number in the `n` bytes from `off` on. -/
def numberAt (bytes : List UInt8) (off n : ℕ) : ℕ := leNat (fieldAt bytes off n)

/-- `new` is written over the entries from `off` on. -/
def writeAt (l : List α) (off : ℕ) (new : List α) : List α :=
  l.take off ++ new ++ l.drop (off + new.length)

section Fields

variable {l m : List α} {off n : ℕ} {new : List α}

theorem fieldAt_append_left (h : off + n ≤ l.length) :
    fieldAt (l ++ m) off n = fieldAt l off n := by
  unfold fieldAt
  rw [List.drop_append_of_le_length (by omega), List.take_append_of_le_length]
  rw [List.length_drop]
  omega

theorem fieldAt_append_right (l m : List α) (off n : ℕ) :
    fieldAt (l ++ m) (l.length + off) n = fieldAt m off n := by
  rw [fieldAt, List.drop_append, List.drop_eq_nil_of_le (Nat.le_add_right _ _), List.nil_append,
    Nat.add_sub_cancel_left, fieldAt]

theorem fieldAt_length (l m : List α) : fieldAt (l ++ m) 0 l.length = l := by
  simp [fieldAt]

theorem writeAt_append (l m new : List α) :
    writeAt (l ++ m) l.length new = l ++ new ++ m.drop new.length := by
  simp [writeAt]

theorem fieldAt_flatMap {f : β → List α} {size : ℕ} (hf : ∀ x, (f x).length = size) :
    ∀ {xs : List β} {i : ℕ} {x : β}, xs[i]? = some x → off + n ≤ size →
      fieldAt (xs.flatMap f) (i * size + off) n = fieldAt (f x) off n := by
  intro xs
  induction xs with
  | nil => intro i x hx; cases hx
  | cons y ys ih =>
    intro i x hx hoff
    rw [List.flatMap_cons]
    cases i with
    | zero =>
      cases hx
      rw [Nat.zero_mul, Nat.zero_add, fieldAt_append_left (by rw [hf]; exact hoff)]
    | succ i =>
      have hskip : (i + 1) * size + off = (f y).length + (i * size + off) := by
        rw [hf, Nat.succ_mul]
        omega
      rw [hskip, fieldAt_append_right, ih hx hoff]

theorem length_flatMap_const {f : β → List α} {size : ℕ} (hf : ∀ x, (f x).length = size)
    (xs : List β) : (xs.flatMap f).length = xs.length * size := by
  rw [List.length_flatMap, List.map_congr_left (fun x _ => hf x), List.map_const',
    List.sum_replicate_nat]

/-! ### Writes -/

@[simp] theorem length_writeAt (h : off + new.length ≤ l.length) :
    (writeAt l off new).length = l.length := by
  simp only [writeAt, List.length_append, List.length_take, List.length_drop]
  omega

theorem getElem?_writeAt (h : off + new.length ≤ l.length) (i : ℕ) :
    (writeAt l off new)[i]? =
      if off ≤ i ∧ i < off + new.length then new[i - off]? else l[i]? := by
  have htake : (l.take off).length = off := by
    rw [List.length_take]
    omega
  rw [writeAt, List.append_assoc, List.getElem?_append, List.getElem?_append, htake,
    List.getElem?_take, List.getElem?_drop]
  by_cases hbefore : i < off
  · rw [if_pos hbefore, if_pos hbefore, if_neg (by omega)]
  · by_cases hin : i - off < new.length
    · rw [if_neg hbefore, if_pos hin, if_pos (by omega)]
    · rw [if_neg hbefore, if_neg hin, if_neg (by omega)]
      congr 1
      omega

theorem getElem?_fieldAt (l : List α) (off n i : ℕ) :
    (fieldAt l off n)[i]? = if i < n then l[off + i]? else none := by
  rw [fieldAt, List.getElem?_take, List.getElem?_drop]

theorem fieldAt_writeAt_self (h : off + new.length ≤ l.length) :
    fieldAt (writeAt l off new) off new.length = new := by
  refine List.ext_getElem? fun i => ?_
  rw [getElem?_fieldAt, getElem?_writeAt h]
  by_cases hi : i < new.length
  · rw [if_pos hi, if_pos (by omega), Nat.add_sub_cancel_left]
  · rw [if_neg hi, List.getElem?_eq_none (by omega)]

theorem fieldAt_writeAt_of_disjoint {off' : ℕ} (h : off + new.length ≤ l.length)
    (hdisj : off' + n ≤ off ∨ off + new.length ≤ off') :
    fieldAt (writeAt l off new) off' n = fieldAt l off' n := by
  refine List.ext_getElem? fun i => ?_
  rw [getElem?_fieldAt, getElem?_fieldAt, getElem?_writeAt h]
  by_cases hi : i < n
  · rw [if_pos hi, if_pos hi, if_neg (by omega)]
  · rw [if_neg hi, if_neg hi]

end Fields

section Numbers

variable {l m : List UInt8} {start off n x : ℕ}

theorem numberAt_field (hoff : l.length = off) (hx : x < 256 ^ n) (m : List UInt8) :
    numberAt (l ++ (leBytes n x ++ m)) off n = x := by
  have hfield := fieldAt_append_right l (leBytes n x ++ m) 0 n
  rw [Nat.add_zero, hoff] at hfield
  have hbytes := fieldAt_length (leBytes n x) m
  rw [length_leBytes] at hbytes
  rw [numberAt, hfield, hbytes, leNat_leBytes hx]

theorem numberAt_record {f : β → List UInt8} {xs : List β} {size i : ℕ} {y : β}
    (hf : ∀ x, (f x).length = size) (hoff : l.length = start) (hy : xs[i]? = some y)
    (hfit : off + n ≤ size) (m : List UInt8) :
    numberAt (l ++ (xs.flatMap f ++ m)) (start + (i * size + off)) n = numberAt (f y) off n := by
  have hi : i < xs.length := (List.getElem?_eq_some_iff.1 hy).1
  have hend : (i + 1) * size ≤ xs.length * size := Nat.mul_le_mul_right _ hi
  rw [Nat.succ_mul] at hend
  have hlen := length_flatMap_const hf xs
  rw [numberAt, ← hoff, fieldAt_append_right, fieldAt_append_left (by omega),
    fieldAt_flatMap hf hy hfit, numberAt]

end Numbers

end VirtioGpu
