import MaterialText.Proofs.Numeral.IntegerLiteral
import MaterialText.Proofs.Single.FixedPoint

namespace MaterialText
open Numeral FloatLiteral

namespace Numeral

variable {negative : Bool} {n : Nat}

@[simp]
theorem natAbs_signed (negative : Bool) (n : Nat) : (signed negative n).natAbs = n := by
  rw [signed]
  split <;> omega

theorem signed_lt_zero_iff : signed negative n < 0 ↔ negative = true ∧ n ≠ 0 := by
  cases negative with
  | false => simp [signed]
  | true => simp [signed, Nat.pos_iff_ne_zero]

theorem signed_emod_two_iff : signed negative n % 2 = 0 ↔ n % 2 = 0 := by
  rw [signed]
  split <;> omega

theorem cast_signed (negative : Bool) (n : Nat) : (signed negative n : ℚ) = withSign negative n := by
  rw [signed, withSign]
  split <;> simp

end Numeral

/-- A decimal with at least one digit on both sides of its point. -/
@[ext]
structure Decimal where
  negative : Bool
  whole : Text
  places : Text
  whole_ne_nil : whole ≠ []
  places_ne_nil : places ≠ []
  digits_whole : Digits whole
  digits_places : Digits places

namespace Decimal

variable {p q : Decimal} {n m : Int}

def text (p : Decimal) : Text :=
  (if p.negative then ['-'] else []) ++ (p.whole ++ '.' :: p.places)

def value (p : Decimal) : ℚ :=
  withSign p.negative
    ((Nat.ofDigits 10 (placeValues (p.whole ++ p.places)) : Nat) / 10 ^ p.places.length)

/-- At most six places, and no zero that could be left out. -/
structure IsCanonical (p : Decimal) : Prop where
  leading : p.whole.head? = some '0' → p.whole = ['0']
  length_le : p.places.length ≤ 6
  trailing : p.places.getLast? = some '0' → p.places = ['0']

/-- The decimal of a number of millionths. Zero has no sign. -/
def ofMillionths (n : Int) : Decimal where
  negative := n < 0
  whole := decimal (n.natAbs / 10 ^ 6)
  places := Single.places 6 (n.natAbs % 10 ^ 6)
  whole_ne_nil := Nat.toDigits_ne_nil
  places_ne_nil := Single.places_ne_nil 5 _
  digits_whole := fun _ => isDigit_of_mem_decimal
  digits_places := Single.digits_places (Nat.mod_lt _ (by decide))

/-- The sign, the digits before the point and those after it can all be told from the text. -/
theorem text_inj : p.text = q.text ↔ p = q := by
  refine ⟨fun h => ?_, fun h => by rw [h]⟩
  have hsign (d : Decimal) : sign d.text = (d.negative, d.whole ++ '.' :: d.places) :=
    sign_run (sign_ite d.negative) (stops_isSign_of_digits d.whole_ne_nil d.digits_whole _)
  have hdigits (d : Decimal) := digits_run (s := '.' :: d.places) d.digits_whole (stops_cons.mpr rfl)
  have hparts := congrArg sign h
  rw [hsign, hsign] at hparts
  obtain ⟨hnegative, hrest⟩ := Prod.mk.inj hparts
  have hwhole := congrArg digits hrest
  rw [(hdigits p).1, (hdigits q).1] at hwhole
  have hplaces := congrArg afterDigits hrest
  rw [(hdigits p).2, (hdigits q).2] at hplaces
  exact Decimal.ext hnegative hwhole (List.cons.inj hplaces).2

theorem minus_mem_text_iff : '-' ∈ p.text ↔ p.negative = true := by
  have hdigits {s : Text} (hs : Digits s) : '-' ∉ s := fun hminus => by cases hs _ hminus
  simp [text, hdigits p.digits_whole, hdigits p.digits_places]

theorem value_ofMillionths (n : Int) : (ofMillionths n).value = n / 10 ^ 6 := by
  have hmagnitude := Single.magnitude_fixedLiteral (n < 0) n.natAbs
  simp only [FloatLiteral.magnitude, Single.fixedLiteral, zero_sub, zpow_neg, zpow_natCast,
    ← div_eq_mul_inv] at hmagnitude
  simp only [value, ofMillionths, hmagnitude]
  rw [withSign]
  by_cases hn : n < 0
  · have habs : (n.natAbs : ℚ) = -n := by
      rw [Nat.cast_natAbs, abs_of_neg hn, Int.cast_neg]
    rw [decide_eq_true hn, if_pos rfl, habs, neg_div, neg_neg]
  · have habs : (n.natAbs : ℚ) = n := by
      rw [Nat.cast_natAbs, abs_of_nonneg (not_lt.mp hn)]
    rw [decide_eq_false hn, if_neg Bool.false_ne_true, habs]

theorem ofMillionths_inj : ofMillionths n = ofMillionths m ↔ n = m := by
  refine ⟨fun h => ?_, fun h => by rw [h]⟩
  have hvalue := congrArg value h
  rw [value_ofMillionths, value_ofMillionths, div_left_inj' (by positivity)] at hvalue
  exact Int.cast_injective hvalue

theorem isCanonical_ofMillionths (n : Int) : (ofMillionths n).IsCanonical where
  leading := by
    have hwhole : (ofMillionths n).whole = decimal (n.natAbs / 10 ^ 6) := rfl
    rw [hwhole]
    by_cases hzero : n.natAbs / 10 ^ 6 = 0
    · rw [hzero]
      exact fun _ => rfl
    · exact fun hhead => absurd hhead (Integer.head?_decimal_ne hzero)
  length_le := Single.places_length_le 6 _
  trailing := by
    have hplaces : (ofMillionths n).places = Single.places 6 (n.natAbs % 10 ^ 6) := rfl
    rw [hplaces]
    by_cases hzero : n.natAbs % 10 ^ 6 = 0
    · rw [hzero]
      exact fun _ => rfl
    · exact fun hlast => absurd hlast (Single.getLast?_places_ne (Nat.mod_lt _ (by decide)) hzero)

end Decimal

namespace Single

variable {x y : Single}

/-- The whole number of millionths nearest to a single. -/
def signedMillionths (x : Single) : Int := signed x.negative x.millionths

theorem isRounding_signedMillionths (x : Single) :
    IsRounding (10 ^ 6 * x.signedValue) x.signedMillionths := by
  have hvalue : 10 ^ 6 * x.signedValue = withSign x.negative (x.magnitude * 10 ^ 6) := by
    rw [signedValue, withSign, withSign]
    split <;> ring
  obtain ⟨hle, heven⟩ := millionths_spec x
  apply isRounding_of_abs_sub_le
  · rwa [signedMillionths, cast_signed, hvalue, abs_withSign_sub]
  · rwa [signedMillionths, cast_signed, hvalue, abs_withSign_sub, signed_emod_two_iff]

theorem text_eq_ofMillionths (hx : x.isFinite = true) :
    x.text = (Decimal.ofMillionths x.signedMillionths).text := by
  simp only [text_eq_append hx, Decimal.text, Decimal.ofMillionths, signedMillionths, natAbs_signed,
    signed_lt_zero_iff]
  rfl

/-- The text of a finite single is that of one decimal, which is canonical. It denotes the nearest
whole number of millionths, and is negative if that is. So texts are equal if and only if these
numbers are, and a single that is not greater has a decimal that is not. -/
theorem text_canonical (hx : x.isFinite = true) (hy : y.isFinite = true) :
    ∃ n m : Int, ∃ p q : Decimal,
      (∀ k, IsRounding (10 ^ 6 * x.signedValue) k ↔ k = n) ∧
      (∀ k, IsRounding (10 ^ 6 * y.signedValue) k ↔ k = m) ∧
      (∀ p', x.text = p'.text ↔ p' = p) ∧ (∀ q', y.text = q'.text ↔ q' = q) ∧
      p.IsCanonical ∧ p.value = n / 10 ^ 6 ∧ ('-' ∈ x.text ↔ n < 0) ∧
      (n = 0 → x.text = "0.0".toList) ∧ (x.text = y.text ↔ n = m) ∧
      (x.signedValue ≤ y.signedValue → p.value ≤ q.value) := by
  have hunique {z : Single} (k : Int) :
      IsRounding (10 ^ 6 * z.signedValue) k ↔ k = z.signedMillionths := by
    refine ⟨fun h => h.unique z.isRounding_signedMillionths, ?_⟩
    rintro rfl
    exact z.isRounding_signedMillionths
  have htext {z : Single} (hz : z.isFinite = true) (p : Decimal) :
      z.text = p.text ↔ p = Decimal.ofMillionths z.signedMillionths := by
    rw [text_eq_ofMillionths hz, Decimal.text_inj, eq_comm]
  refine ⟨x.signedMillionths, y.signedMillionths, .ofMillionths x.signedMillionths,
    .ofMillionths y.signedMillionths, hunique, hunique, htext hx, htext hy,
    Decimal.isCanonical_ofMillionths _, Decimal.value_ofMillionths _, ?_, fun hzero => ?_, ?_,
    fun hle => ?_⟩
  · rw [text_eq_ofMillionths hx, Decimal.minus_mem_text_iff]
    exact decide_eq_true_iff
  · rw [text_eq_ofMillionths hx, hzero]
    rfl
  · rw [text_eq_ofMillionths hx, text_eq_ofMillionths hy, Decimal.text_inj, Decimal.ofMillionths_inj]
  · have hscaled : 10 ^ 6 * x.signedValue ≤ 10 ^ 6 * y.signedValue := by gcongr
    have hrounded := x.isRounding_signedMillionths.le y.isRounding_signedMillionths hscaled
    rw [Decimal.value_ofMillionths, Decimal.value_ofMillionths]
    gcongr

/-- Both 1/128 and 3/128 are halfway between two millionths. The one goes down and the other up. -/
theorem text_canonical_ties :
    (⟨false, 0x3c000000⟩ : Single).isFinite = true ∧
    (⟨false, 0x3cc00000⟩ : Single).isFinite = true ∧
    (⟨false, 0x3c000000⟩ : Single).text = "0.007812".toList ∧
    (⟨false, 0x3cc00000⟩ : Single).text = "0.023438".toList ∧
    ∃ p q : Decimal, p.text = "0.007812".toList ∧ q.text = "0.023438".toList ∧ p.IsCanonical ∧
      p.value = 7812 / 10 ^ 6 ∧ p.value ≤ q.value := by
  have hx : (⟨false, 0x3c000000⟩ : Single).isFinite = true := by decide
  have hy : (⟨false, 0x3cc00000⟩ : Single).isFinite = true := by decide
  have hxtext : (⟨false, 0x3c000000⟩ : Single).text = "0.007812".toList := by decide
  have hytext : (⟨false, 0x3cc00000⟩ : Single).text = "0.023438".toList := by decide
  have hxvalue : (⟨false, 0x3c000000⟩ : Single).signedValue = 1 / 128 := by
    have hunits : (⟨false, 0x3c000000⟩ : Single).units = 2 ^ 142 := by decide
    rw [signedValue, withSign, if_neg Bool.false_ne_true, magnitude_eq_units, hunits]
    norm_num
  have hyvalue : (⟨false, 0x3cc00000⟩ : Single).signedValue = 3 / 128 := by
    have hunits : (⟨false, 0x3cc00000⟩ : Single).units = 3 * 2 ^ 142 := by decide
    rw [signedValue, withSign, if_neg Bool.false_ne_true, magnitude_eq_units, hunits]
    norm_num
  obtain ⟨n, m, p, q, hn, -, hp, hq, hcanonical, hvalue, -, -, -, hle⟩ := text_canonical hx hy
  have hnearest : IsRounding (10 ^ 6 * (⟨false, 0x3c000000⟩ : Single).signedValue) 7812 := by
    rw [hxvalue]
    apply isRounding_of_abs_sub_le
    · norm_num [abs_of_neg]
    · exact fun _ => by decide
  obtain rfl := (hn 7812).mp hnearest
  have hptext := (hp p).mpr rfl
  have hqtext := (hq q).mpr rfl
  rw [hxtext] at hptext
  rw [hytext] at hqtext
  rw [hxvalue, hyvalue] at hle
  exact ⟨hx, hy, hxtext, hytext, p, q, hptext.symm, hqtext.symm, hcanonical, hvalue,
    hle (by norm_num)⟩

end Single
end MaterialText
