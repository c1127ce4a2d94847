import Mathlib.Data.List.Basic
import MaterialText.Text.Encoding

namespace MaterialText.Text

variable {s t : Text} {c : Char}

def bytes (s : Text) : List UInt8 := (encode s).data.toList

/-- What is allocated for a text that is handed out. -/
def buffer (s : Text) : List UInt8 := bytes s ++ [0]

/-- What the reader of a terminated buffer gets to see. -/
def beforeZero (buffer : List UInt8) : List UInt8 := buffer.takeWhile (· != 0)

theorem bytes_eq_flatMap (s : Text) : bytes s = s.flatMap String.utf8EncodeChar := by
  rw [bytes, encode, String.toUTF8_eq_toByteArray, String.toByteArray_ofList, List.utf8Encode,
    List.data_toByteArray]

@[simp]
theorem bytes_append (s t : Text) : bytes (s ++ t) = bytes s ++ bytes t := by
  simp only [bytes_eq_flatMap, List.flatMap_append]

@[simp]
theorem bytes_inj : bytes s = bytes t ↔ s = t := by
  refine ⟨fun h => ?_, fun h => by rw [h]⟩
  have hencode : encode s = encode t := ByteArray.ext (Array.toList_inj.mp h)
  have hdecode := congrArg decode? hencode
  rw [decode?_encode, decode?_encode] at hdecode
  exact Option.some.inj hdecode

/-- The first byte of a longer encoding has its upper bit set, and so have those that follow it. -/
theorem zero_not_mem_bytes_singleton (h : c ≠ '\x00') : 0 ∉ bytes [c] := by
  have hzero (n : Nat) : 0 = UInt8.ofNat n ↔ n % 256 = 0 := by
    rw [← UInt8.toNat_inj, UInt8.toNat_ofNat', UInt8.toNat_zero, eq_comm]
  have hpos : c.val.toNat ≠ 0 := fun hval => h (Char.toNat_inj.mp hval)
  rw [bytes_eq_flatMap, List.flatMap_singleton, String.utf8EncodeChar.eq_1]
  split_ifs
  all_goals
    simp only [List.mem_cons, List.not_mem_nil, or_false, hzero]
    omega

theorem beforeZero_buffer (s : Text) : beforeZero (buffer s) = bytes (terminated s) := by
  induction s with
  | nil => rfl
  | cons c s ih =>
    have hbuffer : buffer (c :: s) = bytes [c] ++ buffer s := by
      rw [buffer, ← List.singleton_append, bytes_append, List.append_assoc, buffer]
    by_cases h : c = '\x00'
    · subst h
      have hnull : terminated ('\x00' :: s) = [] := rfl
      rw [hbuffer, hnull]
      rfl
    · have hbytes : ∀ byte ∈ bytes [c], (byte != 0) = true := by
        intro byte hbyte
        rw [bne_iff_ne]
        rintro rfl
        exact zero_not_mem_bytes_singleton h hbyte
      have hterminated : terminated (c :: s) = [c] ++ terminated s := by simp [terminated, h]
      rw [hterminated, bytes_append, ← ih, hbuffer, beforeZero, beforeZero,
        List.takeWhile_append_of_pos hbytes]

theorem beforeZero_buffer_eq_iff : beforeZero (buffer s) = bytes s ↔ '\x00' ∉ s := by
  rw [beforeZero_buffer, bytes_inj, terminated_eq_self_iff]

theorem length_beforeZero_buffer_iff :
    (beforeZero (buffer s)).length + 1 = (buffer s).length ↔ '\x00' ∉ s := by
  have hstart : beforeZero (buffer s) <+: bytes s := by
    obtain ⟨t, ht⟩ : terminated s <+: s := List.takeWhile_prefix _
    refine ⟨bytes t, ?_⟩
    rw [beforeZero_buffer, ← bytes_append, ht]
  rw [← beforeZero_buffer_eq_iff, buffer, List.length_append, List.length_singleton,
    Nat.add_right_cancel_iff]
  exact ⟨hstart.eq_of_length, congrArg List.length⟩

end MaterialText.Text
