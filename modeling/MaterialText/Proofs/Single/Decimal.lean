import Mathlib.Tactic
import MaterialText.Proofs.Numeral.Digits
import MaterialText.Proofs.Single.Nearest

namespace MaterialText

namespace Numeral

theorem tenPow_eq (k : Nat) : tenPow k = 10 ^ k := rfl

theorem value_lt {digits : Text} (h : ∀ c ∈ digits, c.isDigit = true) :
    value 10 digits < 10 ^ digits.length := by
  have hlen : (placeValues digits).length = digits.length := by simp [placeValues]
  rw [value_eq_ofDigits, ← hlen]
  apply Nat.ofDigits_lt_base_pow_length (by decide)
  intro n hn
  obtain ⟨c, hc, rfl⟩ := List.mem_map.mp hn
  have hd := isDigit_iff.mp (h c (List.mem_reverse.mp hc))
  rw [← getD_digit?, digit?_eq_some_iff.mpr (.inl ⟨hd.1, hd.2, rfl⟩), Option.getD_some]
  omega

end Numeral

namespace Single
open Numeral

variable {digits : Text} {u : ℚ} {d n k : Nat} {exponent : Int}

def decimalUnits (digits : Text) (exponent : Int) : ℚ :=
  value 10 digits * 10 ^ exponent * 2 ^ 149

theorem nearer_zero (h0 : 0 ≤ u) (h : u < 1 / 2) (d : Nat) : Nearer u 0 d := by
  have hzero : (unitsOf 0 : ℚ) = 0 := by norm_num [unitsOf, binade_eq]
  rw [Nearer, hzero, zero_sub, abs_neg, abs_of_nonneg h0]
  by_cases hd : d = 0
  · rw [hd, hzero, zero_sub, abs_neg, abs_of_nonneg h0]
    exact ⟨le_rfl, fun _ => .inl rfl⟩
  · have hone : (1 : ℚ) ≤ unitsOf d := by
      exact_mod_cast (Nat.one_le_iff_ne_zero.mpr hd).trans unitsOf_strictMono.le_apply
    refine ⟨le_trans (by linarith) (le_abs_self _), fun _ => .inr rfl⟩

/-- From this exponent on no number but zero is below the midpoint to infinity. -/
theorem midpoint_le_of_huge (hn : 1 ≤ (n : ℚ)) (hhuge : 39 ≤ exponent) :
    (2 ^ 25 - 1) * 2 ^ 252 ≤ (n : ℚ) * 10 ^ exponent * 2 ^ 149 := by
  have hpow : (10 : ℚ) ^ (39 : Int) ≤ 10 ^ exponent := zpow_le_zpow_right₀ (by norm_num) hhuge
  calc
    ((2 : ℚ) ^ 25 - 1) * 2 ^ 252 ≤ 1 * (10 : ℚ) ^ (39 : Int) * 2 ^ 149 := by norm_num
    _ ≤ (n : ℚ) * 10 ^ exponent * 2 ^ 149 := by gcongr

/-- A number whose first digit stands this far behind the point is below half a unit. -/
theorem lt_half_of_tiny (hn : n < 10 ^ k) (htiny : exponent + k ≤ -46) :
    (n : ℚ) * 10 ^ exponent * 2 ^ 149 < 1 / 2 := by
  have hten : (0 : ℚ) < 10 ^ exponent := by positivity
  have hn' : (n : ℚ) < 10 ^ (k : Int) := by exact_mod_cast hn
  have hpow : (10 : ℚ) ^ (exponent + k) ≤ 10 ^ (-46 : Int) :=
    zpow_le_zpow_right₀ (by norm_num) htiny
  calc
    (n : ℚ) * 10 ^ exponent * 2 ^ 149 < 10 ^ (k : Int) * 10 ^ exponent * 2 ^ 149 := by gcongr
    _ = 10 ^ (exponent + k) * 2 ^ 149 := by
      rw [zpow_add₀ (by norm_num), mul_comm ((10 : ℚ) ^ exponent)]
    _ ≤ 10 ^ (-46 : Int) * 2 ^ 149 := by gcongr
    _ < 1 / 2 := by norm_num

theorem units_of_natCast (n k : Nat) : (n : ℚ) * 10 ^ (k : Int) * 2 ^ 149 =
    ((n * tenPow k * unitsInOne : Nat) : ℚ) / ((1 : Nat) : ℚ) := by
  rw [tenPow_eq, unitsInOne_eq, zpow_natCast]
  simp only [Nat.cast_mul, Nat.cast_pow, Nat.cast_ofNat, Nat.cast_one, div_one]

theorem units_of_neg_natCast (n k : Nat) : (n : ℚ) * 10 ^ (-(k : Int)) * 2 ^ 149 =
    ((n * unitsInOne : Nat) : ℚ) / ((tenPow k : Nat) : ℚ) := by
  rw [tenPow_eq, unitsInOne_eq, zpow_neg, zpow_natCast]
  simp only [Nat.cast_mul, Nat.cast_pow, Nat.cast_ofNat]
  field_simp

theorem decimalCode_cases (hdigits : ∀ c ∈ digits, c.isDigit = true) (exponent : Int) :
    (∀ d, Nearer (decimalUnits digits exponent) (decimalCode digits exponent) d) ∨
      (decimalCode digits exponent = infinityCode ∧
        (2 ^ 25 - 1) * 2 ^ 252 ≤ decimalUnits digits exponent) := by
  have hlt := value_lt hdigits
  simp only [decimalCode, decimalUnits]
  generalize value 10 digits = n at *
  by_cases hn : n = 0
  · left
    rw [if_pos hn, hn, Nat.cast_zero, zero_mul, zero_mul]
    exact nearer_zero le_rfl (by norm_num)
  rw [if_neg hn]
  have hn1 : (1 : ℚ) ≤ n := by exact_mod_cast Nat.one_le_iff_ne_zero.mpr hn
  -- Exponents far from zero are decided without the power of ten, the others by one division.
  by_cases hhuge : 39 ≤ exponent
  · right
    rw [if_pos hhuge]
    exact ⟨rfl, midpoint_le_of_huge hn1 hhuge⟩
  rw [if_neg hhuge]
  by_cases hwhole : 0 ≤ exponent
  · left
    rw [if_pos hwhole]
    obtain ⟨k, rfl⟩ := Int.eq_ofNat_of_zero_le hwhole
    rw [units_of_natCast]
    exact nearer_nearestCode _ Nat.one_pos
  rw [if_neg hwhole]
  by_cases htiny : exponent + digits.length ≤ -46
  · left
    rw [if_pos htiny]
    exact nearer_zero (by positivity) (lt_half_of_tiny hlt htiny)
  · left
    rw [if_neg htiny]
    obtain ⟨k, rfl⟩ : ∃ k : Nat, exponent = -k := ⟨exponent.natAbs, by omega⟩
    rw [units_of_neg_natCast, neg_neg, Int.toNat_natCast]
    exact nearer_nearestCode _ (tenPow_pos k)

/-- A decimal is refused if and only if its value reaches the midpoint between the greatest
magnitude and infinity. -/
theorem decimalCode_lt_infinityCode_iff (hdigits : ∀ c ∈ digits, c.isDigit = true)
    (exponent : Int) : decimalCode digits exponent < infinityCode ↔
      decimalUnits digits exponent < (2 ^ 25 - 1) * 2 ^ 252 := by
  obtain hnear | ⟨hcode, hle⟩ := decimalCode_cases hdigits exponent
  · exact lt_infinityCode_iff hnear
  · rw [hcode]
    exact ⟨fun h => absurd h (lt_irrefl _), fun h => absurd h (not_lt.mpr hle)⟩

theorem nearer_decimalCode (hdigits : ∀ c ∈ digits, c.isDigit = true) (exponent : Int)
    (h : decimalCode digits exponent < infinityCode) (d : Nat) :
    Nearer (decimalUnits digits exponent) (decimalCode digits exponent) d := by
  obtain hnear | ⟨hcode, -⟩ := decimalCode_cases hdigits exponent
  · exact hnear d
  · exact absurd hcode h.ne

end Single
end MaterialText
