import MaterialText.Single.Basic
import MaterialText.Numeral.Basic

namespace MaterialText

/-- The whole number nearest to a quotient; of two that are equally near, the even one. -/
def roundDiv (num den : Nat) : Nat :=
  if 2 * (num % den) < den ∨ (2 * (num % den) = den ∧ num / den % 2 = 0) then num / den
  else num / den + 1

theorem roundDiv_le (num den : Nat) : roundDiv num den ≤ num / den + 1 := by
  unfold roundDiv
  split <;> omega

theorem le_roundDiv (num den : Nat) : num / den ≤ roundDiv num den := by
  unfold roundDiv
  split <;> omega

theorem roundDiv_near (num : Nat) {den : Nat} (h : 0 < den) :
    2 * (roundDiv num den * den) ≤ 2 * num + den ∧
      2 * num ≤ 2 * (roundDiv num den * den) + den := by
  have hd : num / den * den + num % den = num := Nat.div_add_mod' num den
  have hr : num % den < den := Nat.mod_lt _ h
  unfold roundDiv
  split
  · omega
  · rw [Nat.add_mul]; omega

namespace Single

/-- The code nearest to a quotient counted in units: the quotient is scaled down to twenty-four
bits, rounded, and the scale added to the exponent. A fraction that rounds up to the next power of
two carries into it. -/
def nearestCode (num den : Nat) : Nat :=
  let scale := (num / den).log2 - 23
  roundDiv num (den <<< scale) + scale * binade

/-- The code nearest to digits times a power of ten. From 10^39 on that is infinity, and below
10^-46 it is zero, so no large power is taken there. -/
def decimalCode (digits : Text) (exponent : Int) : Nat :=
  let n := Numeral.value 10 digits
  if n = 0 then 0
  else if 39 ≤ exponent then infinityCode
  else if 0 ≤ exponent then nearestCode (n * Numeral.tenPow exponent.toNat * unitsInOne) 1
  else if exponent + digits.length ≤ -46 then 0
  else nearestCode (n * unitsInOne) (Numeral.tenPow (-exponent).toNat)

end Single
end MaterialText
