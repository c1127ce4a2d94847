import MaterialText.Proofs.Single.LiteralGrammar
import MaterialText.Proofs.Single.Rounding
import MaterialText.Single.Fixed

namespace MaterialText

namespace Single
open Numeral FloatLiteral

variable {x y : Single} {n k : Nat}

theorem digits_places (h : n < 10 ^ k) : Digits (places k n) := by
  induction k generalizing n with
  | zero =>
    intro c hc
    cases hc
  | succ k ih =>
    intro c hc
    have hpos : 0 < 10 ^ k := Nat.pow_pos (by decide)
    rw [places, tenPow_eq] at hc
    rcases List.mem_cons.mp hc with rfl | hc
    · have hlt : n / 10 ^ k < 10 := (Nat.div_lt_iff_lt_mul hpos).mpr (by rwa [Nat.pow_succ'] at h)
      rw [Nat.isDigit_digitChar, decide_eq_true hlt]
    · split at hc
      · cases hc
      · exact ih (Nat.mod_lt n hpos) c hc

theorem value_places (h : n < 10 ^ k) :
    value 10 (places k n) * 10 ^ (k - (places k n).length) = n := by
  induction k generalizing n with
  | zero =>
    have hn : n = 0 := by omega
    rw [hn]
    rfl
  | succ k ih =>
    have hpos : 0 < 10 ^ k := Nat.pow_pos (by decide)
    have hlt : n / 10 ^ k < 10 := (Nat.div_lt_iff_lt_mul hpos).mpr (by rwa [Nat.pow_succ'] at h)
    have hdigit : value 10 [(n / 10 ^ k).digitChar] = n / 10 ^ k := by
      simp [value, digit?_digitChar hlt]
    have hsplit : n / 10 ^ k * 10 ^ k + n % 10 ^ k = n := Nat.div_add_mod' n (10 ^ k)
    rw [places, tenPow_eq]
    -- The digits end with the last one that is not zero.
    by_cases hzero : n % 10 ^ k = 0
    · rw [if_pos hzero, hdigit, List.length_singleton, Nat.add_sub_cancel]
      omega
    · have hrest := ih (Nat.mod_lt n hpos)
      have hlen := places_length_le k (n % 10 ^ k)
      rw [if_neg hzero]
      generalize places k (n % 10 ^ k) = rest at hrest hlen ⊢
      have hexp : k + 1 - (rest.length + 1) = k - rest.length := by omega
      have hpow : 10 ^ rest.length * 10 ^ (k - rest.length) = 10 ^ k := pow_mul_pow_sub 10 hlen
      rw [← List.singleton_append, value_append, hdigit, List.singleton_append, List.length_cons,
        hexp]
      calc
        (n / 10 ^ k * 10 ^ rest.length + value 10 rest) * 10 ^ (k - rest.length) =
            n / 10 ^ k * (10 ^ rest.length * 10 ^ (k - rest.length)) +
              value 10 rest * 10 ^ (k - rest.length) := by ring
        _ = n / 10 ^ k * 10 ^ k + n % 10 ^ k := by rw [hpow, hrest]
        _ = n := hsplit

theorem getLast?_places_ne (h : n < 10 ^ k) (hn : n ≠ 0) :
    (places k n).getLast? ≠ some '0' := by
  induction k generalizing n with
  | zero => omega
  | succ k ih =>
    have hpos : 0 < 10 ^ k := Nat.pow_pos (by decide)
    have hsplit : n / 10 ^ k * 10 ^ k + n % 10 ^ k = n := Nat.div_add_mod' n (10 ^ k)
    rw [places, tenPow_eq]
    by_cases hzero : n % 10 ^ k = 0
    -- The digit that is left is the last one, and nothing else of the number is.
    · have hdigit : n / 10 ^ k ≠ 0 := by
        intro hdiv
        rw [hdiv, hzero] at hsplit
        omega
      rw [if_pos hzero, List.getLast?_singleton]
      intro hlast
      exact hdigit (Nat.digitChar_eq_zero.mp (Option.some.inj hlast))
    · have hrest := ih (Nat.mod_lt n hpos) hzero
      rw [if_neg hzero]
      cases hplaces : places k (n % 10 ^ k) with
      | nil =>
        cases k with
        | zero => omega
        | succ k => exact absurd hplaces (places_ne_nil k _)
      | cons d ds =>
        rw [List.getLast?_cons_cons, ← hplaces]
        exact hrest

def fixedLiteral (negative : Bool) (n : Nat) : FloatLiteral :=
  ⟨negative, decimal (n / 10 ^ 6), places 6 (n % 10 ^ 6), 0⟩

theorem magnitude_fixedLiteral (negative : Bool) (n : Nat) :
    (fixedLiteral negative n).magnitude = n / 10 ^ 6 := by
  have hrest := value_places (Nat.mod_lt n (by decide : 0 < 10 ^ 6))
  have hlen := places_length_le 6 (n % 10 ^ 6)
  simp only [FloatLiteral.magnitude, fixedLiteral, ← value_eq_ofDigits, value_append, value_decimal]
  generalize places 6 (n % 10 ^ 6) = rest at hrest hlen ⊢
  have hpow : 10 ^ rest.length * 10 ^ (6 - rest.length) = 10 ^ 6 := pow_mul_pow_sub 10 hlen
  have hvalue : (n / 10 ^ 6 * 10 ^ rest.length + value 10 rest) * 10 ^ (6 - rest.length) = n := by
    rw [Nat.add_mul, hrest, Nat.mul_assoc, hpow]
    exact Nat.div_add_mod' n (10 ^ 6)
  generalize n / 10 ^ 6 * 10 ^ rest.length + value 10 rest = v at hvalue ⊢
  rw [zero_sub, zpow_neg, zpow_natCast, ← div_eq_mul_inv,
    div_eq_div_iff (by positivity) (by positivity)]
  have hcast : v * 10 ^ 6 = n * 10 ^ rest.length := by
    rw [← hvalue, ← hpow]
    ring
  exact_mod_cast hcast

theorem abs_sub_millionths (n : Nat) (x : Single) :
    |(n : ℚ) - x.magnitude * 10 ^ 6| = |x.magnitude - n / 10 ^ 6| * 10 ^ 6 := by
  have hscale : (n : ℚ) - x.magnitude * 10 ^ 6 = -((x.magnitude - n / 10 ^ 6) * 10 ^ 6) := by
    field_simp
    ring
  rw [hscale, abs_neg, abs_mul, abs_of_pos (by positivity : (0 : ℚ) < 10 ^ 6)]

theorem units_div_unitsInOne (x : Single) :
    ((x.units * tenPow 6 : Nat) : ℚ) / (unitsInOne : Nat) = x.magnitude * 10 ^ 6 := by
  rw [magnitude_eq_units, tenPow_eq, unitsInOne_eq]
  push_cast
  ring

/-- The millionths of a single are half a millionth away at most, and even if that much. -/
theorem millionths_spec (x : Single) : |(x.millionths : ℚ) - x.magnitude * 10 ^ 6| ≤ 1 / 2 ∧
    (|(x.millionths : ℚ) - x.magnitude * 10 ^ 6| = 1 / 2 → x.millionths % 2 = 0) := by
  have h := abs_roundDiv_sub (x.units * tenPow 6) (by decide : 0 < unitsInOne)
  rwa [units_div_unitsInOne] at h

theorem millionths_eq (h : |(n : ℚ) - x.magnitude * 10 ^ 6| ≤ 1 / 2)
    (heven : |(n : ℚ) - x.magnitude * 10 ^ 6| = 1 / 2 → n % 2 = 0) : x.millionths = n := by
  rw [← units_div_unitsInOne] at h heven
  exact roundDiv_eq (by decide) h heven

/-- The single nearest to the millionths of another has the same millionths: it is no farther from
them than the other is. -/
theorem millionths_of_isNearest (hx : x.isFinite = true)
    (hy : IsNearest (x.millionths / 10 ^ 6) y) : y.millionths = x.millionths := by
  obtain ⟨hle, heven⟩ := millionths_spec x
  have hnear := mul_le_mul_of_nonneg_right (hy.2 x hx).1 (by positivity : (0 : ℚ) ≤ 10 ^ 6)
  rw [← abs_sub_millionths, ← abs_sub_millionths] at hnear
  exact millionths_eq (hnear.trans hle) fun htie => heven (le_antisymm hle (htie ▸ hnear))

theorem magnitude_le (hx : x.isFinite = true) : x.magnitude ≤ 2 ^ 128 - 2 ^ 104 := by
  have hcode : x.code.toNat ≤ infinityCode - 1 := Nat.le_sub_one_of_lt (isFinite_iff.mp hx)
  have hunits : (x.units : ℚ) ≤ (2 ^ 25 - 2 : Nat) * 2 ^ 252 := by
    have hmono := unitsOf_strictMono.monotone hcode
    rw [unitsOf_greatest] at hmono
    exact_mod_cast hmono
  rw [magnitude_eq_units, div_le_iff₀ (by positivity)]
  refine hunits.trans ?_
  norm_num

theorem millionths_lt (hx : x.isFinite = true) :
    (x.millionths : ℚ) / 10 ^ 6 < 2 ^ 128 - 2 ^ 103 := by
  have hle := (abs_le.mp (millionths_spec x).1).2
  have hx := magnitude_le hx
  rw [div_lt_iff₀ (by positivity)]
  calc
    (x.millionths : ℚ) ≤ x.magnitude * 10 ^ 6 + 1 / 2 := by linarith
    _ ≤ (2 ^ 128 - 2 ^ 104) * 10 ^ 6 + 1 / 2 := by gcongr
    _ < (2 ^ 128 - 2 ^ 103) * 10 ^ 6 := by norm_num

theorem text_of_isFinite (h : x.isFinite = true) : x.text =
    (if x.negative = true ∧ x.millionths ≠ 0 then ['-'] else []) ++ fixedText x.millionths := by
  simp only [text, isNaN_of_isFinite h, h, Bool.false_eq_true, if_true, if_false, forall_const]
  by_cases hminus : x.negative = true ∧ x.millionths ≠ 0
  · rw [if_pos hminus, if_pos hminus, List.singleton_append]
  · rw [if_neg hminus, if_neg hminus, List.nil_append]

def textLiteral (x : Single) : FloatLiteral :=
  fixedLiteral (decide (x.negative = true ∧ x.millionths ≠ 0)) x.millionths

@[simp]
theorem magnitude_textLiteral (x : Single) :
    x.textLiteral.magnitude = x.millionths / 10 ^ 6 := magnitude_fixedLiteral _ _

theorem digits_whole (x : Single) : Digits x.textLiteral.whole := fun _ => isDigit_of_mem_decimal

theorem whole_ne_nil (x : Single) : x.textLiteral.whole ≠ [] := Nat.toDigits_ne_nil

theorem digits_fraction (x : Single) : Digits x.textLiteral.fraction :=
  digits_places (Nat.mod_lt _ (by decide))

theorem text_eq_append (h : x.isFinite = true) : x.text =
    (if x.textLiteral.negative then ['-'] else []) ++
      (x.textLiteral.whole ++ ('.' :: x.textLiteral.fraction)) := by
  simp only [text_of_isFinite h, textLiteral, fixedLiteral, decide_eq_true_eq]
  rfl

/-- The text of a finite single is a literal for a single with the same text. -/
theorem exists_hasValue_textLiteral (hx : x.isFinite = true) :
    ∃ y, HasValue x.textLiteral y ∧ y.text = x.text := by
  have hdigits : ∀ c ∈ x.textLiteral.whole ++ x.textLiteral.fraction, c.isDigit = true :=
    List.forall_mem_append.mpr ⟨x.digits_whole, x.digits_fraction⟩
  have hlimit := millionths_lt hx
  rw [← magnitude_textLiteral] at hlimit
  obtain ⟨y, hy⟩ := exists_hasValue hdigits hlimit
  refine ⟨y, hy, ?_⟩
  obtain ⟨-, hnegative, hnear⟩ := hy
  rw [magnitude_textLiteral] at hnear
  have hsame := millionths_of_isNearest hx hnear
  -- The sign is that of the text, so a minus sign goes with the zeros and stays with the rest.
  have hsign : (y.negative = true ∧ x.millionths ≠ 0) ↔
      (x.negative = true ∧ x.millionths ≠ 0) := by
    rw [hnegative]
    simp only [textLiteral, fixedLiteral, decide_eq_true_eq, and_assoc, and_self]
  rw [text_of_isFinite hnear.1, text_of_isFinite hx, hsame]
  simp only [hsign]

theorem exists_literal_text (hx : x.isFinite = true) :
    ∃ y, Literal x.text y ∧ y.isFinite = true ∧ y.text = x.text := by
  obtain ⟨y, hy, htext⟩ := exists_hasValue_textLiteral hx
  have hspells := Spells.parts (sign_ite x.textLiteral.negative) x.digits_whole
    (.present x.digits_fraction) (.inl x.whole_ne_nil) .absent
  rw [List.append_nil, ← text_eq_append hx] at hspells
  exact ⟨y, ⟨x.text, [], _, (List.append_nil _).symm, hspells, by simp [Suffix], hy⟩, hy.2.2.1, htext⟩

end Single
end MaterialText
