import MaterialText.Text.Basic

namespace MaterialText.Numeral

def digit? (c : Char) : Option Nat :=
  if c.isDigit then some (c.toNat - '0'.toNat)
  else if 'a' ≤ c ∧ c ≤ 'f' then some (10 + (c.toNat - 'a'.toNat))
  else if 'A' ≤ c ∧ c ≤ 'F' then some (10 + (c.toNat - 'A'.toNat))
  else none

def isDigitOf (radix : Nat) (c : Char) : Bool := (digit? c).any (· < radix)

/-- The value of a run of digits, the most significant first. -/
def value (radix : Nat) (digits : Text) : Nat :=
  digits.foldl (fun v c => radix * v + (digit? c).getD 0) 0

theorem isDigitOf_ten (c : Char) : isDigitOf 10 c = c.isDigit := by
  cases h : c.isDigit with
  | true =>
    have hc : c.toNat - '0'.toNat < 10 := by
      have : 48 ≤ c.toNat ∧ c.toNat ≤ 57 := by
        simpa [Char.isDigit, UInt32.le_iff_toNat_le] using h
      have hz : '0'.toNat = 48 := rfl
      omega
    simp only [isDigitOf, digit?, h, if_true, Option.any_some, hc, decide_true]
  | false =>
    have hten (n : Nat) : ¬10 + n < 10 := by omega
    simp only [isDigitOf, digit?, h, Bool.false_eq_true, if_false]
    split
    · simp [hten]
    · split <;> simp [hten]

theorem value_ten (digits : Text) (h : ∀ c ∈ digits, c.isDigit = true) :
    value 10 digits = Nat.ofDigitChars 10 digits 0 := by
  rw [value, Nat.ofDigitChars_eq_foldl]
  suffices ∀ v, digits.foldl (fun v c => 10 * v + (digit? c).getD 0) v =
      digits.foldl (fun v c => 10 * v + (c.toNat - '0'.toNat)) v from this 0
  induction digits with
  | nil => intro v; rfl
  | cons c digits ih =>
    intro v
    have hc : c.isDigit = true := h c (by simp)
    have hd : ∀ d ∈ digits, d.isDigit = true := fun d hd => h d (by simp [hd])
    simp only [List.foldl_cons, digit?, hc, if_true, Option.getD_some]
    exact ih hd _

def tenPow (k : Nat) : Nat := Nat.pow 10 k

theorem tenPow_pos (k : Nat) : 0 < tenPow k := Nat.pow_pos (by decide)

def signed (negative : Bool) (n : Nat) : Int := if negative then -n else n

/-- The decimal digits of a number, without superfluous zeros. -/
def decimal (n : Nat) : Text := Nat.toDigits 10 n

theorem isDigit_of_mem_decimal {n : Nat} {c : Char} (h : c ∈ decimal n) : c.isDigit = true :=
  Nat.isDigit_of_mem_toDigits (by decide) (by decide) h

@[simp]
theorem value_decimal (n : Nat) : value 10 (decimal n) = n := by
  rw [value_ten _ fun _ => isDigit_of_mem_decimal, decimal, Nat.ofDigitChars_ten_toDigits]

end MaterialText.Numeral
