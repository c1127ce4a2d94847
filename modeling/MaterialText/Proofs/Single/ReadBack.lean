import MaterialText.Proofs.Single.FixedPoint

namespace MaterialText.Single
open FloatLiteral

variable {x y : Single} {rest : Text}

theorem abs_sub_eq_units (x y : Single) : |y.magnitude - x.magnitude| =
    ((|(y.units : Int) - x.units| : Int) : ℚ) / 2 ^ 149 := by
  rw [magnitude_eq_units, magnitude_eq_units, ← sub_div, abs_div,
    abs_of_pos (by positivity : (0 : ℚ) < 2 ^ 149)]
  push_cast
  rfl

theorem abs_sub_lt_iff : |y.magnitude - x.magnitude| < 1 / 10 ^ 6 ↔
    |(y.units : Int) - x.units| * 10 ^ 6 < 2 ^ 149 := by
  rw [abs_sub_eq_units, div_lt_div_iff₀ (by positivity) (by positivity), one_mul]
  exact_mod_cast Iff.rfl

/-- No two magnitudes are a millionth apart, since no power of two is a multiple of five. -/
theorem abs_sub_lt_of_le (h : |y.magnitude - x.magnitude| ≤ 1 / 10 ^ 6) :
    |y.magnitude - x.magnitude| < 1 / 10 ^ 6 := by
  rw [abs_sub_lt_iff]
  rw [abs_sub_eq_units, div_le_div_iff₀ (by positivity) (by positivity), one_mul] at h
  have hle : |(y.units : Int) - x.units| * 10 ^ 6 ≤ 2 ^ 149 := by exact_mod_cast h
  omega

/-- The single that is nearest to the millionths of another is less than a millionth away from it:
each is at most half a millionth away from the millionths. -/
theorem abs_sub_lt_of_isNearest (hx : x.isFinite = true)
    (hy : IsNearest (x.millionths / 10 ^ 6) y) : |y.magnitude - x.magnitude| < 1 / 10 ^ 6 := by
  have hmillionths := (millionths_spec x).1
  have hnear := (hy.2 x hx).1
  rw [abs_sub_millionths, ← le_div_iff₀ (by positivity)] at hmillionths
  apply abs_sub_lt_of_le
  calc
    |y.magnitude - x.magnitude| ≤
        |y.magnitude - x.millionths / 10 ^ 6| + |x.millionths / 10 ^ 6 - x.magnitude| :=
      abs_sub_le _ _ _
    _ ≤ 1 / 2 / 10 ^ 6 + 1 / 2 / 10 ^ 6 := by
      rw [abs_sub_comm _ x.magnitude]
      exact add_le_add (hnear.trans hmillionths) hmillionths
    _ = 1 / 10 ^ 6 := by norm_num

/-- Every 64th is a whole number of millionths, since a million is a multiple of 64. -/
theorem millionths_of_dvd {k : Nat} (h : 64 * x.magnitude = k) :
    (x.millionths : ℚ) / 10 ^ 6 = x.magnitude := by
  have hexact : ((15625 * k : Nat) : ℚ) - x.magnitude * 10 ^ 6 = 0 := by
    push_cast
    rw [← h]
    ring
  have hmillionths : x.millionths = 15625 * k := by
    apply millionths_eq
    · rw [hexact]
      norm_num
    · rw [hexact]
      norm_num
  rw [hmillionths, div_eq_iff (by positivity)]
  linarith

theorem sixteen_le_magnitude_iff : 16 ≤ x.magnitude ↔ 2 ^ 153 ≤ x.units := by
  rw [magnitude_eq_units, le_div_iff₀ (by positivity)]
  have hpow : (16 : ℚ) * 2 ^ 149 = (2 ^ 153 : Nat) := by norm_num
  rw [hpow, Nat.cast_le]

/-- From sixteen on magnitudes are multiples of 2^-19, which is more than a millionth. Below it they
may be closer, but sixteen itself is such a multiple. -/
theorem magnitude_eq_of_abs_sub_lt (hx : 16 < x.magnitude)
    (h : |y.magnitude - x.magnitude| < 1 / 10 ^ 6) : y.magnitude = x.magnitude := by
  have hlow := sixteen_le_magnitude_iff.mp hx.le
  have hne : x.units ≠ 2 ^ 153 := by
    intro hunits
    rw [magnitude_eq_units, hunits] at hx
    norm_num at hx
  obtain ⟨j, hj⟩ : 2 ^ 130 ∣ x.units := dvd_unitsOf hlow
  rw [abs_sub_lt_iff] at h
  have hbelow := neg_abs_le ((y.units : Int) - x.units)
  have habove := le_abs_self ((y.units : Int) - x.units)
  have hy : 2 ^ 153 ≤ y.units := by omega
  obtain ⟨k, hk⟩ : 2 ^ 130 ∣ y.units := dvd_unitsOf hy
  have hunits : y.units = x.units := by omega
  rw [magnitude_eq_units, magnitude_eq_units, hunits]

theorem magnitude_eq_of_exact (hx : x.isFinite = true) (hy : IsNearest (x.millionths / 10 ^ 6) y)
    (hexact : 16 ≤ x.magnitude ∨ ∃ k : Nat, 64 * x.magnitude = k) : y.magnitude = x.magnitude := by
  have hclose := abs_sub_lt_of_isNearest hx hy
  have hwhole {k : Nat} (hk : 64 * x.magnitude = k) : y.magnitude = x.magnitude := by
    rw [millionths_of_dvd hk] at hy
    exact magnitude_eq_of_isNearest hx hy
  rcases hexact with hlow | ⟨k, hk⟩
  · rcases hlow.eq_or_lt with hsixteen | hlt
    · exact hwhole (k := 1024) (by rw [← hsixteen]; norm_num)
    · exact magnitude_eq_of_abs_sub_lt hlt hclose
  · exact hwhole hk

theorem signedValue_of_hasValue (hy : HasValue x.textLiteral y) :
    y.signedValue = withSign x.negative y.magnitude := by
  obtain ⟨-, hnegative, hnear⟩ := hy
  rw [signedValue, withSign_eq_iff]
  by_cases hzero : x.millionths = 0
  · right
    rw [magnitude_textLiteral, hzero, Nat.cast_zero, zero_div] at hnear
    exact magnitude_eq_zero_of_isNearest hnear
  · left
    rw [hnegative]
    simp [textLiteral, fixedLiteral, hzero]

/-- A literal with a point and without an exponent is read whole where neither a digit nor a letter
of a literal follows. Another point may follow. -/
theorem read_pointed {l : FloatLiteral} (hwhole : Digits l.whole) (hne : l.whole ≠ [])
    (hfraction : Digits l.fraction) (hexponent : l.exponent = 0) (hvalue : HasValue l y)
    (hrest : ∀ c ∈ rest.head?, c.isDigit = false ∧ c ∉ ['e', 'E', 'f', 'F']) :
    read ((if l.negative then ['-'] else []) ++ (l.whole ++ ('.' :: l.fraction)) ++ rest) =
      some (y, rest) := by
  have hdigit : Stops Char.isDigit rest := fun c hc => (hrest c hc).1
  have hmark : Stops isExponentMark rest := by
    intro c hc
    refine Bool.eq_false_iff.mpr fun h => (hrest c hc).2 ?_
    rcases isExponentMark_iff.mp h with rfl | rfl <;> decide
  have hsuffix : Stops isSuffix rest := by
    intro c hc
    refine Bool.eq_false_iff.mpr fun h => (hrest c hc).2 ?_
    simp only [isSuffix, Bool.or_eq_true, beq_iff_eq] at h
    rcases h with rfl | rfl <;> decide
  obtain ⟨negative, whole, fraction, e⟩ := l
  obtain rfl : e = 0 := hexponent
  have hnone : Suffix [] := by simp [Suffix]
  have hread := read_run blanks_nil (sign_ite negative) hwhole (.present hfraction) (.inl hne)
    .absent hnone hvalue (fun _ => hdigit) (fun h => by cases h) (fun _ _ => hmark)
    (fun _ => hsuffix)
  rw [List.append_assoc, List.append_assoc]
  exact hread

/-- From the text of a finite single, with anything after it that does not go on with it, a finite
single with the same text is read that is less than a millionth away. It is equal if the first is at
least sixteen or a multiple of a 64th. -/
theorem read_text (hx : x.isFinite = true)
    (hrest : ∀ c ∈ rest.head?, c.isDigit = false ∧ c ∉ ['e', 'E', 'f', 'F']) :
    ∃ y, read (x.text ++ rest) = some (y, rest) ∧ y.isFinite = true ∧ y.text = x.text ∧
      |y.signedValue - x.signedValue| < 1 / 10 ^ 6 ∧
      (16 ≤ |x.signedValue| ∨ (∃ k : Int, 64 * x.signedValue = k) → y.equal x = true) := by
  obtain ⟨y, hy, htext⟩ := exists_hasValue_textLiteral hx
  have hvalue := signedValue_of_hasValue hy
  have hnear := hy.2.2
  rw [magnitude_textLiteral] at hnear
  have hread := read_pointed x.digits_whole x.whole_ne_nil x.digits_fraction rfl hy hrest
  rw [← text_eq_append hx] at hread
  refine ⟨y, hread, hnear.1, htext, ?_, fun hexact => ?_⟩
  · rw [hvalue, signedValue, abs_withSign_sub]
    exact abs_sub_lt_of_isNearest hx hnear
  · have hmagnitude : 16 ≤ x.magnitude ∨ ∃ k : Nat, 64 * x.magnitude = k := by
      rw [abs_signedValue] at hexact
      refine hexact.imp_right fun h => ?_
      obtain ⟨k, hk⟩ := h
      refine ⟨k.natAbs, ?_⟩
      have habs := congrArg abs hk
      rw [abs_mul, abs_signedValue, abs_of_pos (by norm_num : (0 : ℚ) < 64)] at habs
      rw [habs, Nat.cast_natAbs, Int.cast_abs]
    rw [equal_iff_signedValue_eq hnear.1 hx, hvalue, magnitude_eq_of_exact hx hnear hmagnitude,
      signedValue]

theorem read_text_before_point : (⟨true, 0x41820000⟩ : Single).isFinite = true ∧
    ∃ y, read "-16.25.5f".toList = some (y, ".5f".toList) ∧ y.text = "-16.25".toList ∧
      y.equal ⟨true, 0x41820000⟩ = true := by
  have hfinite : (⟨true, 0x41820000⟩ : Single).isFinite = true := by decide
  have htext : (⟨true, 0x41820000⟩ : Single).text = "-16.25".toList := by decide
  have hsixteen : 16 ≤ |(⟨true, 0x41820000⟩ : Single).signedValue| := by
    rw [abs_signedValue, sixteen_le_magnitude_iff]
    decide
  have hrest : ∀ c ∈ ".5f".toList.head?, c.isDigit = false ∧ c ∉ ['e', 'E', 'f', 'F'] := by
    intro c hc
    obtain rfl : '.' = c := Option.some.inj hc
    decide
  obtain ⟨y, hread, -, hsame, -, hexact⟩ := read_text hfinite hrest
  have happend : "-16.25".toList ++ ".5f".toList = "-16.25.5f".toList := by decide
  rw [htext, happend] at hread
  rw [htext] at hsame
  exact ⟨hfinite, y, hread, hsame, hexact (.inl hsixteen)⟩

end MaterialText.Single
