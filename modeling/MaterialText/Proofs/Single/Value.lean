import MaterialText.Proofs.Single.Decimal
import MaterialText.Single.Literal

namespace MaterialText

def withSign (negative : Bool) (m : ℚ) : ℚ := if negative then -m else m

@[simp]
theorem abs_withSign (negative : Bool) (m : ℚ) : |withSign negative m| = |m| := by
  rw [withSign]
  split
  · exact abs_neg m
  · rfl

@[simp]
theorem abs_withSign_sub (negative : Bool) (a b : ℚ) :
    |withSign negative a - withSign negative b| = |a - b| := by
  rw [withSign, withSign]
  split
  · rw [neg_sub_neg, abs_sub_comm]
  · rfl

@[simp]
theorem withSign_zero (negative : Bool) : withSign negative 0 = 0 := by simp [withSign]

theorem withSign_of_ne {a b : Bool} (h : a ≠ b) (m : ℚ) : withSign a m = withSign b (-m) := by
  cases a <;> cases b <;> simp_all [withSign]

theorem withSign_eq_iff {a b : Bool} {m : ℚ} : withSign a m = withSign b m ↔ a = b ∨ m = 0 := by
  cases a <;> cases b <;> simp [withSign, neg_eq_self, self_eq_neg]

namespace Single

variable {m : ℚ} {x y : Single}

/-- The exact magnitude: a fraction of twenty-three bits at the least exponent, and with a leading
one above it. -/
def magnitude (x : Single) : ℚ :=
  let exponent : Nat := x.code.toNat / 2 ^ 23
  let fraction : Nat := x.code.toNat % 2 ^ 23
  if exponent = 0 then fraction * 2 ^ (-149 : Int)
  else (2 ^ 23 + fraction) * 2 ^ (exponent - 150 : Int)

def signedValue (x : Single) : ℚ := withSign x.negative x.magnitude

/-- No finite single is nearer to a magnitude than this one, which is even if another is as near. -/
def IsNearest (m : ℚ) (x : Single) : Prop :=
  x.isFinite ∧ ∀ y : Single, y.isFinite →
    |x.magnitude - m| ≤ |y.magnitude - m| ∧
      (|x.magnitude - m| = |y.magnitude - m| → y.code = x.code ∨ x.code.toNat % 2 = 0)

/-- No finite single is nearer to a number than this one, which is even if one of another value is as
near. -/
def IsNearestTo (r : ℚ) (x : Single) : Prop :=
  x.isFinite ∧ ∀ y : Single, y.isFinite →
    |x.signedValue - r| ≤ |y.signedValue - r| ∧
      (|x.signedValue - r| = |y.signedValue - r| →
        y.signedValue = x.signedValue ∨ x.code.toNat % 2 = 0)

theorem magnitude_eq_units (x : Single) : x.magnitude = x.units / 2 ^ 149 := by
  rw [magnitude, units, unitsOf, binade_eq]
  by_cases h : x.code.toNat < 2 ^ 23
  · have hmod : x.code.toNat % 2 ^ 23 = x.code.toNat := Nat.mod_eq_of_lt h
    rw [if_pos h, if_pos (Nat.div_eq_of_lt h), hmod, zpow_neg, div_eq_mul_inv]
    rfl
  · have hpos : 1 ≤ x.code.toNat / 2 ^ 23 := by omega
    have hexp : ((x.code.toNat / 2 ^ 23 : Nat) : Int) - 150 =
        ((x.code.toNat / 2 ^ 23 - 1 : Nat) : Int) - (149 : Nat) := by omega
    rw [if_neg h, if_neg (by omega), Nat.shiftLeft_eq, hexp, zpow_sub₀ two_ne_zero, zpow_natCast,
      zpow_natCast]
    push_cast
    ring

theorem magnitude_nonneg (x : Single) : 0 ≤ x.magnitude := by
  rw [magnitude_eq_units]
  positivity

theorem abs_signedValue (x : Single) : |x.signedValue| = x.magnitude := by
  rw [signedValue, abs_withSign, abs_of_nonneg x.magnitude_nonneg]

theorem magnitude_inj : x.magnitude = y.magnitude ↔ x.code = y.code := by
  refine ⟨fun h => ?_, fun h => by rw [magnitude, magnitude, h]⟩
  rw [magnitude_eq_units, magnitude_eq_units, div_left_inj' (by positivity), Nat.cast_inj] at h
  exact BitVec.eq_of_toNat_eq (unitsOf_strictMono.injective h)

theorem magnitude_eq_zero_iff : x.magnitude = 0 ↔ x.code = 0 := by
  have hzero : (⟨false, 0⟩ : Single).magnitude = 0 := by simp [magnitude]
  rw [← hzero, magnitude_inj]

theorem isNaN_of_isFinite (h : x.isFinite = true) : x.isNaN = false := by
  rw [isFinite, decide_eq_true_eq] at h
  rw [isNaN, decide_eq_false_iff_not]
  exact Nat.lt_asymm h

theorem equal_iff_signedValue_eq (hx : x.isFinite = true) (hy : y.isFinite = true) :
    x.equal y = true ↔ x.signedValue = y.signedValue := by
  simp only [equal, isNaN_of_isFinite hx, isNaN_of_isFinite hy, Bool.not_false, Bool.true_and,
    Bool.or_eq_true, Bool.and_eq_true, beq_iff_eq]
  constructor
  · rintro (rfl | ⟨hx, hy⟩)
    · rfl
    · rw [signedValue, signedValue, magnitude_eq_zero_iff.mpr hx, magnitude_eq_zero_iff.mpr hy,
        withSign_zero, withSign_zero]
  · intro h
    have hmagnitude : x.magnitude = y.magnitude := by rw [← abs_signedValue, ← abs_signedValue, h]
    have hcode := magnitude_inj.mp hmagnitude
    rw [signedValue, signedValue, hmagnitude, withSign_eq_iff] at h
    rcases h with hsign | hzero
    · exact .inl (congrArg₂ Single.mk hsign hcode)
    · have hy := magnitude_eq_zero_iff.mp hzero
      exact .inr ⟨hcode.trans hy, hy⟩

/-- What a single stands for is nearest to nothing else. -/
theorem magnitude_eq_of_isNearest (hx : x.isFinite = true) (hy : IsNearest x.magnitude y) :
    y.magnitude = x.magnitude := by
  have hnear := (hy.2 x hx).1
  rw [sub_self, abs_zero] at hnear
  exact sub_eq_zero.mp (abs_nonpos_iff.mp hnear)

theorem magnitude_eq_zero_of_isNearest (h : IsNearest 0 x) : x.magnitude = 0 := by
  have hzero : (⟨false, 0⟩ : Single).magnitude = 0 := magnitude_eq_zero_iff.mpr rfl
  rw [← hzero] at h ⊢
  exact magnitude_eq_of_isNearest (by decide) h

/-- A single of the other sign is farther away, except that both may be zeros. -/
theorem isNearestTo_withSign_iff (hm : 0 ≤ m) :
    IsNearestTo (withSign x.negative m) x ↔ IsNearest m x := by
  have hsame (y : Single) (hy : y.negative = x.negative) :
      |y.signedValue - withSign x.negative m| = |y.magnitude - m| := by
    rw [signedValue, hy, abs_withSign_sub]
  refine and_congr_right fun hx => ⟨fun h y hy => ?_, fun h y hy => ?_⟩
  · obtain ⟨hle, htie⟩ := h ⟨x.negative, y.code⟩ hy
    rw [hsame x rfl, hsame ⟨x.negative, y.code⟩ rfl] at hle htie
    refine ⟨hle, fun he => (htie he).imp_left fun hvalue => ?_⟩
    have habs := congrArg abs hvalue
    rw [abs_signedValue, abs_signedValue] at habs
    exact magnitude_inj.mp habs
  · obtain ⟨hle, htie⟩ := h y hy
    -- The other sign can only take a single farther away.
    have hfar : |y.magnitude - m| ≤ |y.signedValue - withSign x.negative m| := by
      have habs := abs_abs_sub_abs_le y.signedValue (withSign x.negative m)
      rwa [abs_signedValue, abs_withSign, abs_of_nonneg hm] at habs
    rw [hsame x rfl]
    refine ⟨hle.trans hfar, fun he => ?_⟩
    refine (htie (le_antisymm hle (hfar.trans he.ge))).imp_left fun hcode => ?_
    have hmagnitude := magnitude_inj.mpr hcode
    by_cases hsign : y.negative = x.negative
    · rw [signedValue, signedValue, hsign, hmagnitude]
    · rw [signedValue, withSign_of_ne hsign, abs_withSign_sub, hmagnitude] at he
      have hzero : x.magnitude = 0 := by
        rcases abs_eq_abs.mp he with heq | heq
        · linarith
        · have hm : m = 0 := by linarith
          rw [hm] at h
          exact magnitude_eq_zero_of_isNearest ⟨hx, h⟩
      rw [signedValue, signedValue, hmagnitude, hzero, withSign_zero, withSign_zero]

theorem isFinite_iff : x.isFinite = true ↔ x.code.toNat < infinityCode := by
  simp only [isFinite, decide_eq_true_eq]

theorem toNat_ofNat_of_lt {c : Nat} (h : c < infinityCode) : (BitVec.ofNat 31 c).toNat = c := by
  rw [infinityCode_eq] at h
  rw [BitVec.toNat_ofNat]
  omega

theorem abs_magnitude_sub (x : Single) (m : ℚ) :
    |(unitsOf x.code.toNat : ℚ) - m * 2 ^ 149| = |x.magnitude - m| * 2 ^ 149 := by
  have hscale : (unitsOf x.code.toNat : ℚ) - m * 2 ^ 149 = (x.magnitude - m) * 2 ^ 149 := by
    rw [magnitude_eq_units, units]
    field_simp
  rw [hscale, abs_mul, abs_of_pos (by positivity : (0 : ℚ) < 2 ^ 149)]

theorem isNearest_iff : IsNearest m x ↔ x.code.toNat < infinityCode ∧
    ∀ d < infinityCode, Nearer (m * 2 ^ 149) x.code.toNat d := by
  have hscale : (0 : ℚ) < 2 ^ 149 := by positivity
  rw [IsNearest, isFinite_iff]
  refine and_congr_right fun _ => ⟨fun h d hd => ?_, fun h y hy => ?_⟩
  · have hcode := toNat_ofNat_of_lt hd
    obtain ⟨hle, htie⟩ := h ⟨false, BitVec.ofNat 31 d⟩ (isFinite_iff.mpr (by rwa [hcode]))
    have hunits := abs_magnitude_sub ⟨false, BitVec.ofNat 31 d⟩ m
    simp only [hcode] at hunits
    rw [Nearer, abs_magnitude_sub, hunits, mul_le_mul_iff_left₀ hscale, mul_left_inj' hscale.ne']
    refine ⟨hle, fun he => (htie he).imp_left fun hc => ?_⟩
    rw [← hc, hcode]
  · obtain ⟨hle, htie⟩ := h y.code.toNat (isFinite_iff.mp hy)
    rw [abs_magnitude_sub, abs_magnitude_sub] at hle htie
    rw [mul_le_mul_iff_left₀ hscale] at hle
    rw [mul_left_inj' hscale.ne'] at htie
    exact ⟨hle, fun he => (htie he).imp_left BitVec.eq_of_toNat_eq⟩

end Single

namespace FloatLiteral
open Numeral Single

variable {l : FloatLiteral} {x : Single}

/-- The exact magnitude of a literal: its digits, times ten to its exponent less the number of
digits after the point. -/
def magnitude (l : FloatLiteral) : ℚ :=
  (Nat.ofDigits 10 (placeValues (l.whole ++ l.fraction)) : Nat) *
    10 ^ (l.exponent - l.fraction.length)

/-- A single is the value of a literal that does not round to infinity. -/
def HasValue (l : FloatLiteral) (x : Single) : Prop :=
  l.magnitude < 2 ^ 128 - 2 ^ 103 ∧ x.negative = l.negative ∧ IsNearest l.magnitude x

theorem magnitude_nonneg (l : FloatLiteral) : 0 ≤ l.magnitude := by
  rw [magnitude]
  positivity

theorem decimalUnits_eq (l : FloatLiteral) :
    decimalUnits (l.whole ++ l.fraction) (l.exponent - l.fraction.length) =
      l.magnitude * 2 ^ 149 := by
  rw [decimalUnits, magnitude, value_eq_ofDigits]

theorem magnitude_lt_iff (m : ℚ) : m < 2 ^ 128 - 2 ^ 103 ↔ m * 2 ^ 149 < (2 ^ 25 - 1) * 2 ^ 252 := by
  have hlimit : ((2 : ℚ) ^ 25 - 1) * 2 ^ 252 = (2 ^ 128 - 2 ^ 103) * 2 ^ 149 := by norm_num
  rw [hlimit, mul_lt_mul_iff_left₀ (by positivity)]

theorem value?_eq_some_iff (hdigits : ∀ c ∈ l.whole ++ l.fraction, c.isDigit = true) :
    l.value? = some x ↔ HasValue l x := by
  have hfinite := decimalCode_lt_infinityCode_iff hdigits (l.exponent - l.fraction.length)
  have hnear := nearer_decimalCode hdigits (l.exponent - l.fraction.length)
  rw [decimalUnits_eq] at hfinite hnear
  rw [HasValue, magnitude_lt_iff, ← hfinite, isNearest_iff]
  unfold value?
  generalize decimalCode (l.whole ++ l.fraction) (l.exponent - l.fraction.length) = code at *
  refine ⟨fun h => ?_, fun h => ?_⟩
  · dsimp only at h
    split at h
    · rename_i hlt
      obtain rfl := Option.some.inj h
      rw [toNat_ofNat_of_lt hlt]
      exact ⟨hlt, rfl, hlt, fun d _ => hnear hlt d⟩
    · cases h
  · obtain ⟨hlt, hsign, hx, hxnear⟩ := h
    have hcode := eq_of_nearer hx hlt hxnear fun d _ => hnear hlt d
    dsimp only
    rw [if_pos hlt, ← hsign, ← hcode, BitVec.ofNat_toNat, BitVec.setWidth_eq]

theorem exists_hasValue (hdigits : ∀ c ∈ l.whole ++ l.fraction, c.isDigit = true)
    (h : l.magnitude < 2 ^ 128 - 2 ^ 103) : ∃ x, HasValue l x := by
  have hfinite := decimalCode_lt_infinityCode_iff hdigits (l.exponent - l.fraction.length)
  rw [decimalUnits_eq, ← magnitude_lt_iff] at hfinite
  exact ⟨_, (value?_eq_some_iff hdigits).mp (if_pos (hfinite.mpr h))⟩

end FloatLiteral
end MaterialText
