import VirtioGpu.Data.Fields
import VirtioGpu.Data.Utf8
import VirtioGpu.Device.Context
import VirtioGpu.Queue.Requests

/-!
# Names of contexts

An application gives its context a name of 64 bytes, of which `debug_name` takes those up to the
first zero, if they are UTF-8.  For the second context the driver puts `shadow-virgl-` in front of
the name, with a `BufferWriter` of 64 bytes (`logger.rs`).

A `BufferWriter` cuts what does not fit at a byte, while `as_str` unwraps the result of decoding its
bytes.  If the cut is inside a character, it panics.  The name has 51 bytes left, so an application
can choose one that does this.

* `BufferWriter.asStr_written` : what is in a writer is what has been written, cut to its size.
* `writerText_eq_asStr` : `writerText` in `Context` is what a writer has.
* `asStr_isPrefix_iff` : `as_str` gives a prefix of what was written exactly if no character is cut;
  and `init_context` does not panic exactly if that is so for its name.
* `asStr_panics` : a name for which it does.
-/

namespace VirtioGpu

/-! ### The writer -/

/-- `BufferWriter<MAX_LEN>`.  Its length is a `u16`, and never more than that of its buffer. -/
structure BufferWriter (maxLen : ℕ) where
  len : UInt16
  buf : List UInt8
  maxLen_lt : maxLen < 2 ^ 16
  length_buf : buf.length = maxLen
  len_le : len.toNat ≤ maxLen

namespace BufferWriter

variable {maxLen : ℕ}

def default (h : maxLen < 2 ^ 16) : BufferWriter maxLen where
  len := 0
  buf := List.replicate maxLen 0
  maxLen_lt := h
  length_buf := List.length_replicate
  len_le := Nat.zero_le maxLen

variable (w : BufferWriter maxLen) (text : List Char)

/-- The bytes of a text that are written: as many as there is room for. -/
def fitting : List UInt8 :=
  let bytes := utf8Bytes text
  let free := maxLen - w.len.toNat
  if bytes.length ≤ free then bytes else bytes.take free

theorem fitting_eq : w.fitting text = (utf8Bytes text).take (maxLen - w.len.toNat) := by
  unfold fitting
  simp only
  split_ifs with h
  · exact (List.take_of_length_le h).symm
  · rfl

theorem len_add_fitting_le : w.len.toNat + (w.fitting text).length ≤ maxLen := by
  have hle := w.len_le
  rw [fitting_eq, List.length_take]
  omega

theorem toNat_len_add :
    (w.len + UInt16.ofNat (w.fitting text).length).toNat =
      w.len.toNat + (w.fitting text).length := by
  have hfits := w.len_add_fitting_le text
  have hmax := w.maxLen_lt
  rw [UInt16.toNat_add, UInt16.toNat_ofNat']
  omega

def writeStr : BufferWriter maxLen where
  len := w.len + UInt16.ofNat (w.fitting text).length
  buf := writeAt w.buf w.len.toNat (w.fitting text)
  maxLen_lt := w.maxLen_lt
  length_buf := by
    rw [length_writeAt (by rw [w.length_buf]; exact w.len_add_fitting_le text), w.length_buf]
  len_le := by rw [toNat_len_add]; exact w.len_add_fitting_le text

/-- `&self.buf[..self.len]` -/
def bytes : List UInt8 := w.buf.take w.len.toNat

/-- `as_str`; it panics if the bytes are not UTF-8. -/
def asStr : Option (List Char) := fromUtf8 w.bytes

/-- A writer after some texts have been written to it. -/
def written (h : maxLen < 2 ^ 16) (texts : List (List Char)) : BufferWriter maxLen :=
  texts.foldl writeStr (default h)

/-! ### What is in a writer -/

theorem length_bytes : w.bytes.length = w.len.toNat := by
  rw [bytes, List.length_take, w.length_buf]
  exact min_eq_left w.len_le

theorem bytes_writeStr : (w.writeStr text).bytes = (w.bytes ++ utf8Bytes text).take maxLen := by
  have hmax : w.bytes.take maxLen = w.bytes :=
    List.take_of_length_le (w.length_bytes.trans_le w.len_le)
  calc (w.writeStr text).bytes
      = (w.bytes ++ w.fitting text ++ w.buf.drop (w.len.toNat + (w.fitting text).length)).take
          (w.len.toNat + (w.fitting text).length) := by
        change (writeAt _ _ _).take (w.len + UInt16.ofNat _).toNat = _
        rw [toNat_len_add]
        rfl
    _ = w.bytes ++ w.fitting text := by
        rw [← w.length_bytes, ← List.length_append]
        exact List.take_left
    _ = (w.bytes ++ utf8Bytes text).take maxLen := by
        rw [List.take_append, hmax, w.length_bytes, fitting_eq]

theorem bytes_foldl (texts : List (List Char)) (w : BufferWriter maxLen) {text : List Char}
    (h : w.bytes = (utf8Bytes text).take maxLen) :
    (texts.foldl writeStr w).bytes = (utf8Bytes (text ++ texts.flatten)).take maxLen := by
  induction texts generalizing w text with
  | nil => rw [List.flatten_nil, List.append_nil, List.foldl_nil, h]
  | cons s texts ih =>
    rw [List.foldl_cons, List.flatten_cons, ← List.append_assoc]
    refine ih (w.writeStr s) ?_
    -- What is cut from the texts before would not have been there for this one either.
    rw [bytes_writeStr, h, utf8Bytes_append, List.take_append, List.take_append, List.take_take,
      List.length_take, min_self]
    congr 2
    omega

/-- **What is in a writer** is what has been written to it, cut to its size. -/
theorem asStr_written (h : maxLen < 2 ^ 16) (texts : List (List Char)) :
    (written h texts).asStr = fromUtf8 ((utf8Bytes texts.flatten).take maxLen) := by
  have hempty : (default h).bytes = (utf8Bytes []).take maxLen := by
    simp [default, bytes, utf8Bytes]
  rw [asStr, written, bytes_foldl texts (default h) hempty, List.nil_append]

end BufferWriter

/-! ### The texts of `Context` -/

theorem length_utf8Bytes (text : List Char) : (utf8Bytes text).length = utf8Len text := by
  rw [utf8Bytes, List.length_flatMap, utf8Len]
  congr 2
  funext c
  exact String.length_utf8EncodeChar c

theorem utf8Len_nil : utf8Len [] = 0 := rfl

theorem utf8Len_cons (c : Char) (text : List Char) :
    utf8Len (c :: text) = c.utf8Size + utf8Len text := by
  simp [utf8Len]

theorem writerText_eq_some_iff {n : ℕ} {text t : List Char} :
    writerText n text = some t ↔ t <+: text ∧ utf8Len t = min n (utf8Len text) := by
  induction text generalizing n t with
  | nil =>
    rw [writerText, Option.some_inj, List.prefix_nil, eq_comm]
    refine (and_iff_left_of_imp ?_).symm
    rintro rfl
    exact (Nat.min_zero n).symm
  | cons c text ih =>
    have hpos := c.utf8Size_pos
    rw [List.prefix_cons_iff, utf8Len_cons, writerText]
    split_ifs with hc hn
    · rw [Option.map_eq_some_iff]
      constructor
      · rintro ⟨t', ht', rfl⟩
        obtain ⟨hstart, hlen⟩ := ih.1 ht'
        exact ⟨.inr ⟨t', rfl, hstart⟩, by rw [utf8Len_cons]; omega⟩
      · rintro ⟨rfl | ⟨t', rfl, hstart⟩, hlen⟩
        · rw [utf8Len_nil] at hlen
          omega
        · rw [utf8Len_cons] at hlen
          exact ⟨t', ih.2 ⟨hstart, by omega⟩, rfl⟩
    · rw [Option.some_inj]
      constructor
      · rintro rfl
        exact ⟨.inl rfl, by rw [utf8Len_nil]; omega⟩
      · rintro ⟨rfl | ⟨t', rfl, -⟩, hlen⟩
        · rfl
        · rw [utf8Len_cons] at hlen
          omega
    · refine iff_of_false not_false ?_
      rintro ⟨rfl | ⟨t', rfl, -⟩, hlen⟩
      · rw [utf8Len_nil] at hlen
        omega
      · rw [utf8Len_cons] at hlen
        omega

theorem writerText_eq_fromUtf8 (n : ℕ) (text : List Char) :
    writerText n text = fromUtf8 ((utf8Bytes text).take n) := by
  ext t
  rw [fromUtf8_take_eq_some_iff, writerText_eq_some_iff, length_utf8Bytes, length_utf8Bytes]

/-- **`writerText` is what a writer has.** -/
theorem writerText_eq_asStr {n : ℕ} (h : n < 2 ^ 16) (texts : List (List Char)) :
    writerText n texts.flatten = (BufferWriter.written h texts).asStr := by
  rw [BufferWriter.asStr_written, writerText_eq_fromUtf8]

theorem writerText_eq_none_iff {n : ℕ} {text : List Char} :
    writerText n text = none ↔ ¬ EndsAtChar n text := by
  rw [writerText_eq_fromUtf8, ← exists_fromUtf8_take_iff, ← Option.isSome_iff_exists,
    Option.not_isSome_iff_eq_none]

/-! ### Names from an application -/

/-- `ContextInit::debug_name`: the bytes up to the first zero, if they are UTF-8. -/
def debugNameText (raw : Bytes 64) : List Char :=
  (fromUtf8 (raw.1.takeWhile (· ≠ 0))).getD "<invalid>".toList

theorem utf8Len_debugNameText (raw : Bytes 64) : utf8Len (debugNameText raw) ≤ 64 := by
  unfold debugNameText
  cases hname : fromUtf8 (raw.1.takeWhile (· ≠ 0)) with
  | none => decide
  | some =>
    rw [Option.getD_some, ← length_utf8Bytes, ← fromUtf8_eq_some_iff.1 hname]
    exact (List.takeWhile_sublist _).length_le.trans_eq raw.2

/-- The name that `init_context` gets. -/
def ContextInit.debugName (raw : Bytes 64) : DebugName :=
  ⟨debugNameText raw, utf8Len_debugNameText raw⟩

/-- What is put in front of the name takes 13 of the 64 bytes. -/
theorem endsAtChar_shadow (name : List Char) :
    EndsAtChar 64 ("shadow-virgl-".toList ++ name) ↔ EndsAtChar 51 name := by
  have hlen : (utf8Bytes "shadow-virgl-".toList).length = 13 := by
    rw [length_utf8Bytes]
    decide
  rw [← endsAtChar_append (n := 51) (t := "shadow-virgl-".toList), hlen]

theorem DeviceContexts.initContext_eq_panic_iff (s : DeviceContexts) (call : InitContext) :
    s.initContext call = .panic .notUtf8 ↔
      call.createsMain ∧ call.capset.needsBlit = true ∧ ¬ EndsAtChar 51 call.name.1 := by
  unfold initContext
  by_cases hsupported : call.capset ∈ call.supported
  · rw [if_neg (not_not.2 hsupported)]
    obtain ⟨id, hid, haccept, hcreate⟩ | ⟨hno, e, hcreate⟩ :=
      contextCreate_of_le s call.main call.name.2
    · have hmain : call.createsMain := ⟨hsupported, by simp [hid], haccept⟩
      rw [hcreate, and_iff_right hmain, ← endsAtChar_shadow, ← writerText_eq_none_iff]
      simp only [initBlit]
      by_cases hblit : call.capset.needsBlit = true
      · rw [if_pos hblit, and_iff_right hblit]
        cases writerText 64 ("shadow-virgl-".toList ++ call.name.1) with
        | none => exact iff_of_true rfl rfl
        | some name =>
          refine iff_of_false ?_ (Option.some_ne_none name)
          simp only
          split <;> simp
      · rw [if_neg hblit]
        exact iff_of_false (fun h => nomatch h) fun h => hblit h.1
    · rw [hcreate]
      exact iff_of_false (fun h => nomatch h) fun h => hno h.1.2
  · rw [if_pos hsupported]
    exact iff_of_false (fun h => nomatch h) fun h => hsupported h.1.1

/-! ### When `as_str` panics -/

/-- **When `as_str` gives a prefix of what has been written**: exactly if no character is cut;
otherwise it panics.  And `init_context` does not panic exactly if byte 51 of the name is not inside
a character, the second context is not needed, or the first one is not created. -/
theorem asStr_isPrefix_iff {maxLen : ℕ} (hmax : maxLen < 2 ^ 16) (texts : List (List Char))
    (s : DeviceContexts) (call : InitContext) (raw : Bytes 64) :
    ((∃ t, (BufferWriter.written hmax texts).asStr = some t ∧ t <+: texts.flatten) ↔
      EndsAtChar maxLen texts.flatten) ∧
    (s.initContext { call with name := ContextInit.debugName raw } ≠ .panic .notUtf8 ↔
      (call.createsMain → call.capset.needsBlit = true → EndsAtChar 51 (debugNameText raw))) := by
  constructor
  · rw [BufferWriter.asStr_written, ← exists_fromUtf8_take_iff]
    refine exists_congr fun t => and_iff_left_of_imp fun ht => ?_
    exact (fromUtf8_take_eq_some_iff.1 ht).1
  · rw [Ne, DeviceContexts.initContext_eq_panic_iff]
    have hmain : InitContext.createsMain { call with name := ContextInit.debugName raw } ↔
        call.createsMain := Iff.rfl
    rw [hmain]
    simp only [not_and, not_not]
    rfl

/-- The size of the writer of `init_context`. -/
theorem sixtyFour_lt : 64 < 2 ^ 16 := by decide

/-- `n` letters and one that takes two bytes, and zeros up to 64 bytes. -/
def cutName (n : Fin 63) : Bytes 64 :=
  ⟨List.replicate n 97 ++ [0xc3, 0xa9] ++ List.replicate (62 - n) 0, by simp; omega⟩

theorem debugNameText_cutName {n : Fin 63} (h : (cutName n).1.takeWhile (· ≠ 0) =
      utf8Bytes (List.replicate n 'a' ++ ['é'])) :
    debugNameText (cutName n) = List.replicate n 'a' ++ ['é'] := by
  rw [debugNameText, fromUtf8_eq_some_iff.2 h, Option.getD_some]

/-- The last letter starts at byte 51, where the writer is full. -/
theorem asStr_isPrefix_iff_boundary :
    (∃ t, (BufferWriter.written sixtyFour_lt
        ["shadow-virgl-".toList, List.replicate 51 'a' ++ ['é']]).asStr = some t ∧
      t <+: ["shadow-virgl-".toList, List.replicate 51 'a' ++ ['é']].flatten) ∧
    DeviceContexts.new.initContext
      { initVenus 1 true with name := ContextInit.debugName (cutName 51) } ≠
        .panic .notUtf8 := by
  have hends : EndsAtChar 51 (List.replicate 51 'a' ++ ['é']) :=
    not_not.1 (writerText_eq_none_iff.not.1 (by decide))
  obtain ⟨hstart, hpanic⟩ := asStr_isPrefix_iff sixtyFour_lt
    ["shadow-virgl-".toList, List.replicate 51 'a' ++ ['é']] .new (initVenus 1 true) (cutName 51)
  refine ⟨hstart.2 ?_, hpanic.2 fun _ _ => ?_⟩
  · rw [List.flatten_cons, List.flatten_cons, List.flatten_nil, List.append_nil, endsAtChar_shadow]
    exact hends
  · rw [debugNameText_cutName (n := 51) (by decide)]
    exact hends

/-- **A name that makes `init_context` panic**: its last letter is at the bytes 50 and 51, and the
writer has room for the first of them. -/
theorem asStr_panics :
    (BufferWriter.written sixtyFour_lt
      ["shadow-virgl-".toList, debugNameText (cutName 50)]).asStr = none ∧
    DeviceContexts.new.initContext
      { initVenus 1 true with name := ContextInit.debugName (cutName 50) } = .panic .notUtf8 := by
  have hcut : ¬ EndsAtChar 51 (debugNameText (cutName 50)) := by
    rw [debugNameText_cutName (n := 50) (by decide), ← writerText_eq_none_iff]
    decide
  constructor
  · rw [← writerText_eq_asStr, writerText_eq_none_iff, List.flatten_cons, List.flatten_cons,
      List.flatten_nil, List.append_nil, endsAtChar_shadow]
    exact hcut
  · exact (DeviceContexts.initContext_eq_panic_iff _ _).2 ⟨⟨by decide, rfl, rfl⟩, rfl, hcut⟩

end VirtioGpu
