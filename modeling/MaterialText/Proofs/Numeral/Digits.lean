import Mathlib.Data.List.Induction
import Mathlib.Data.Nat.Digits.Defs
import MaterialText.Numeral.Basic

namespace MaterialText.Numeral

def IsOctalDigit (c : Char) : Prop := '0' ≤ c ∧ c ≤ '7'

def IsHexDigit (c : Char) : Prop := c.isDigit = true ∨ ('a' ≤ c ∧ c ≤ 'f') ∨ ('A' ≤ c ∧ c ≤ 'F')

variable {radix : Nat} {digits : Text} {c : Char}

/-- The value of a digit in any radix up to sixteen. -/
def digitValue : Char → Nat
  | '0' => 0
  | '1' => 1
  | '2' => 2
  | '3' => 3
  | '4' => 4
  | '5' => 5
  | '6' => 6
  | '7' => 7
  | '8' => 8
  | '9' => 9
  | 'a' | 'A' => 10
  | 'b' | 'B' => 11
  | 'c' | 'C' => 12
  | 'd' | 'D' => 13
  | 'e' | 'E' => 14
  | 'f' | 'F' => 15
  | _ => 0

/-- The values of a run of digits, the least significant first. -/
def placeValues (digits : Text) : List Nat := digits.reverse.map digitValue

@[simp]
theorem placeValues_append_singleton (digits : Text) (c : Char) :
    placeValues (digits ++ [c]) = digitValue c :: placeValues digits := by
  simp [placeValues]

@[simp]
theorem placeValues_append (a b : Text) :
    placeValues (a ++ b) = placeValues b ++ placeValues a := by
  simp [placeValues]

theorem isDigit_iff : c.isDigit = true ↔ 48 ≤ c.toNat ∧ c.toNat ≤ 57 := by
  simp [Char.isDigit, UInt32.le_iff_toNat_le]

theorem le_iff_toNat_le {c d : Char} : c ≤ d ↔ c.toNat ≤ d.toNat := by
  rw [Char.le_def, UInt32.le_iff_toNat_le]
  rfl

theorem nonzero_digit_iff : ('1' ≤ c ∧ c ≤ '9') ↔ c.isDigit = true ∧ c ≠ '0' := by
  have h1 : '1'.toNat = 49 := rfl
  have h9 : '9'.toNat = 57 := rfl
  have hzero : c ≠ '0' ↔ c.toNat ≠ 48 := not_congr Char.toNat_inj.symm
  rw [le_iff_toNat_le, le_iff_toNat_le, isDigit_iff, hzero, h1, h9]
  omega

theorem digit?_eq_some_iff {n : Nat} : digit? c = some n ↔
    (48 ≤ c.toNat ∧ c.toNat ≤ 57 ∧ n = c.toNat - 48) ∨
      (97 ≤ c.toNat ∧ c.toNat ≤ 102 ∧ n = c.toNat - 87) ∨
      (65 ≤ c.toNat ∧ c.toNat ≤ 70 ∧ n = c.toNat - 55) := by
  have h0 : '0'.toNat = 48 := rfl
  have ha : 'a'.toNat = 97 := rfl
  have hf : 'f'.toNat = 102 := rfl
  have hA : 'A'.toNat = 65 := rfl
  have hF : 'F'.toNat = 70 := rfl
  simp only [digit?, isDigit_iff, le_iff_toNat_le, h0, ha, hf, hA, hF]
  split_ifs <;> simp only [Option.some.injEq, false_iff] <;> omega

/-- What the digits are read as, whatever else counts as nothing. -/
theorem getD_digit? (c : Char) : (digit? c).getD 0 = digitValue c := by
  cases h : digit? c with
  | some n =>
    have htable : ∀ k ∈ List.range' 48 10 ++ (List.range' 65 6 ++ List.range' 97 6),
        digit? (Char.ofNat k) = some (digitValue (Char.ofNat k)) := by decide
    have hmem : c.toNat ∈ List.range' 48 10 ++ (List.range' 65 6 ++ List.range' 97 6) := by
      have hc := digit?_eq_some_iff.mp h
      simp only [List.mem_append, List.mem_range'_1]
      omega
    have hc := htable c.toNat hmem
    rw [Char.ofNat_toNat, h] at hc
    exact Option.some.inj hc
  | none =>
    unfold digitValue
    split <;> first | rfl | cases h

theorem value_append_singleton (radix : Nat) (digits : Text) (c : Char) :
    value radix (digits ++ [c]) = radix * value radix digits + digitValue c := by
  simp [value, getD_digit?]

theorem value_eq_ofDigits (radix : Nat) (digits : Text) :
    value radix digits = Nat.ofDigits radix (placeValues digits) := by
  induction digits using List.reverseRecOn with
  | nil => simp [value, placeValues]
  | append_singleton digits c ih =>
    rw [value_append_singleton, placeValues_append_singleton, Nat.ofDigits_cons, ih, Nat.add_comm]

theorem value_append (radix : Nat) (a b : Text) :
    value radix (a ++ b) = value radix a * radix ^ b.length + value radix b := by
  have hlen : (placeValues b).length = b.length := by simp [placeValues]
  simp only [value_eq_ofDigits, placeValues_append, Nat.ofDigits_append, hlen]
  rw [Nat.add_comm, Nat.mul_comm]

theorem digit?_digitChar {n : Nat} (h : n < 10) : digit? n.digitChar = some n := by
  have hn := Nat.toNat_digitChar_of_lt_ten h
  rw [digit?_eq_some_iff]
  omega

theorem isDigitOf_iff : isDigitOf radix c = true ↔ ∃ n, digit? c = some n ∧ n < radix := by
  simp [isDigitOf, Option.any_eq_true]

theorem isDigitOf_eight_iff : isDigitOf 8 c = true ↔ IsOctalDigit c := by
  have h0 : '0'.toNat = 48 := rfl
  have h7 : '7'.toNat = 55 := rfl
  rw [isDigitOf_iff, IsOctalDigit, le_iff_toNat_le, le_iff_toNat_le, h0, h7]
  refine ⟨fun h => ?_, fun h => ⟨c.toNat - 48, digit?_eq_some_iff.mpr (by omega), by omega⟩⟩
  obtain ⟨n, hn, hlt⟩ := h
  have hc := digit?_eq_some_iff.mp hn
  omega

theorem isDigitOf_sixteen_iff : isDigitOf 16 c = true ↔ IsHexDigit c := by
  have ha : 'a'.toNat = 97 := rfl
  have hf : 'f'.toNat = 102 := rfl
  have hA : 'A'.toNat = 65 := rfl
  have hF : 'F'.toNat = 70 := rfl
  simp only [isDigitOf_iff, IsHexDigit, isDigit_iff, le_iff_toNat_le, ha, hf, hA, hF]
  refine ⟨fun h => ?_, fun h => ?_⟩
  · obtain ⟨n, hn, -⟩ := h
    have hc := digit?_eq_some_iff.mp hn
    omega
  · rcases h with h | h | h
    · exact ⟨c.toNat - 48, digit?_eq_some_iff.mpr (by omega), by omega⟩
    · exact ⟨c.toNat - 87, digit?_eq_some_iff.mpr (by omega), by omega⟩
    · exact ⟨c.toNat - 55, digit?_eq_some_iff.mpr (by omega), by omega⟩

end MaterialText.Numeral
