import Mathlib.Data.List.Basic
import Mathlib.Data.List.Infix

/-!
# Texts cut at a byte

A text is a list of characters, and its bytes are their UTF-8 encodings.  A text that is cut to a
number of bytes is a text again exactly if the cut is not inside a character (`EndsAtChar`), and
then it is a prefix of the text.

The encoding is that of the core library.  What is used of it is that decoding is its inverse, and
that a text whose bytes are a prefix of those of another is a prefix of it.
-/

namespace VirtioGpu

/-- The bytes of a text. -/
def utf8Bytes (text : List Char) : List UInt8 := text.flatMap String.utf8EncodeChar

/-- The text with the given bytes, if there is one. -/
def fromUtf8 (bytes : List UInt8) : Option (List Char) :=
  bytes.toByteArray.utf8Decode?.map Array.toList

variable {text t rest : List Char} {n : ℕ}

theorem utf8Bytes_append (text rest : List Char) :
    utf8Bytes (text ++ rest) = utf8Bytes text ++ utf8Bytes rest := List.flatMap_append

theorem toByteArray_utf8Bytes (text : List Char) :
    (utf8Bytes text).toByteArray = text.utf8Encode := rfl

theorem toByteArray_injective {l m : List UInt8} (h : l.toByteArray = m.toByteArray) : l = m := by
  have hdata := congrArg (fun b => b.data.toList) h
  simpa using hdata

theorem fromUtf8_eq_some_iff {bytes : List UInt8} :
    fromUtf8 bytes = some text ↔ bytes = utf8Bytes text := by
  constructor
  · intro h
    obtain ⟨a, ha, rfl⟩ := Option.map_eq_some_iff.1 h
    have hsome : bytes.toByteArray.utf8Decode?.isSome := by rw [ha, Option.isSome_some]
    have hget : bytes.toByteArray.utf8Decode?.get hsome = a := Option.get_of_eq_some hsome ha
    have hencode := ByteArray.utf8Encode_get_utf8Decode? (b := bytes.toByteArray) (h := hsome)
    rw [hget] at hencode
    exact toByteArray_injective hencode.symm
  · rintro rfl
    rw [fromUtf8, toByteArray_utf8Bytes, List.utf8Decode?_utf8Encode, Option.map_some]

theorem isPrefix_of_utf8Bytes {bytes : List UInt8} (h : utf8Bytes t ++ bytes = utf8Bytes text) :
    t <+: text := by
  refine List.isPrefix_of_utf8Encode_append_eq_utf8Encode bytes.toByteArray ?_
  rw [← toByteArray_utf8Bytes, ← toByteArray_utf8Bytes, ← h, List.toByteArray_append]

theorem utf8Bytes_mono (h : t <+: text) : utf8Bytes t <+: utf8Bytes text := by
  obtain ⟨rest, rfl⟩ := h
  rw [utf8Bytes_append]
  exact List.prefix_append ..

/-- **Cutting a text.**  The first bytes of a text are those of another one exactly if that is a
prefix with as many bytes. -/
theorem fromUtf8_take_eq_some_iff :
    fromUtf8 ((utf8Bytes text).take n) = some t ↔
      t <+: text ∧ (utf8Bytes t).length = min n (utf8Bytes text).length := by
  rw [fromUtf8_eq_some_iff]
  constructor
  · intro h
    have hbytes : utf8Bytes t ++ (utf8Bytes text).drop n = utf8Bytes text := by
      rw [← h, List.take_append_drop]
    refine ⟨isPrefix_of_utf8Bytes hbytes, ?_⟩
    rw [← h, List.length_take]
  · rintro ⟨⟨rest, rfl⟩, hlen⟩
    rw [utf8Bytes_append, List.length_append] at hlen
    rw [utf8Bytes_append]
    by_cases hn : n ≤ (utf8Bytes t).length
    · obtain rfl : n = (utf8Bytes t).length := by omega
      exact List.take_left
    · have hrest : utf8Bytes rest = [] := List.length_eq_zero_iff.1 (by omega)
      rw [hrest, List.append_nil]
      exact List.take_of_length_le (by omega)

/-- The first `n` bytes of the text, or all of them if it has less, end where a character ends. -/
def EndsAtChar (n : ℕ) (text : List Char) : Prop :=
  (utf8Bytes text).length ≤ n ∨ ∃ t, t <+: text ∧ (utf8Bytes t).length = n

theorem exists_fromUtf8_take_iff :
    (∃ t, fromUtf8 ((utf8Bytes text).take n) = some t) ↔ EndsAtChar n text := by
  unfold EndsAtChar
  constructor
  · rintro ⟨t, ht⟩
    obtain ⟨hstart, hlen⟩ := fromUtf8_take_eq_some_iff.1 ht
    by_cases hle : (utf8Bytes text).length ≤ n
    · exact .inl hle
    · exact .inr ⟨t, hstart, by omega⟩
  · rintro (hle | ⟨t, ⟨rest, rfl⟩, rfl⟩)
    · exact ⟨text, fromUtf8_take_eq_some_iff.2 ⟨List.prefix_rfl, (min_eq_right hle).symm⟩⟩
    · refine ⟨t, fromUtf8_take_eq_some_iff.2 ⟨List.prefix_append t rest, ?_⟩⟩
      rw [utf8Bytes_append, List.length_append]
      omega

theorem endsAtChar_append : EndsAtChar ((utf8Bytes t).length + n) (t ++ text) ↔
    EndsAtChar n text := by
  unfold EndsAtChar
  rw [utf8Bytes_append, List.length_append]
  refine or_congr (by omega) ⟨?_, ?_⟩
  · rintro ⟨u, hu, hlen⟩
    obtain ⟨bytes, hbytes⟩ : utf8Bytes t <+: utf8Bytes u :=
      List.prefix_of_prefix_length_le (utf8Bytes_mono (List.prefix_append t text))
        (utf8Bytes_mono hu) (by omega)
    obtain ⟨v, rfl⟩ := isPrefix_of_utf8Bytes hbytes
    refine ⟨v, (List.prefix_append_right_inj t).1 hu, ?_⟩
    rw [utf8Bytes_append, List.length_append] at hlen
    omega
  · rintro ⟨u, hu, rfl⟩
    refine ⟨t ++ u, (List.prefix_append_right_inj t).2 hu, ?_⟩
    rw [utf8Bytes_append, List.length_append]

end VirtioGpu
