import MaterialText.Proofs.Single.LiteralGrammar

namespace MaterialText

namespace FloatLiteral
open Numeral Single

/-- The parts of a literal, what stands before it and what follows. -/
@[ext]
structure Layout where
  blanks : Text
  sign : Text
  whole : Text
  point : Text
  fraction : Text
  mark : Text
  powerSign : Text
  power : Text
  suffix : Text
  rest : Text

namespace Layout

variable {p q : Layout} {s t : Text} {x : Single}

def afterPower (p : Layout) : Text := p.suffix ++ p.rest

def afterPowerSign (p : Layout) : Text := p.power ++ p.afterPower

def afterMark (p : Layout) : Text := p.powerSign ++ p.afterPowerSign

def afterFraction (p : Layout) : Text := p.mark ++ p.afterMark

def afterPoint (p : Layout) : Text := p.fraction ++ p.afterFraction

def afterWhole (p : Layout) : Text := p.point ++ p.afterPoint

def afterSign (p : Layout) : Text := p.whole ++ p.afterWhole

def afterBlanks (p : Layout) : Text := p.sign ++ p.afterSign

def text (p : Layout) : Text := p.blanks ++ p.afterBlanks

/-- A kind of characters that only counts where something stands before it. -/
def ifAny (before : Text) (kind : Char → Bool) (c : Char) : Bool := before ≠ [] && kind c

/-- Every part is as long as it can be. Digits of a fraction need a point before them, and the sign
and the digits of a power need a mark. -/
structure Greedy (p : Layout) : Prop where
  blanks : Run isBlank p.blanks p.afterBlanks
  sign : Once isSign p.sign p.afterSign
  whole : Run Char.isDigit p.whole p.afterWhole
  point : Once (· == '.') p.point p.afterPoint
  fraction : Run (ifAny p.point Char.isDigit) p.fraction p.afterFraction
  mark : Once isExponentMark p.mark p.afterMark
  powerSign : Once (ifAny p.mark isSign) p.powerSign p.afterPowerSign
  power : Run (ifAny p.mark Char.isDigit) p.power p.afterPower
  suffix : Once isSuffix p.suffix p.rest

def exponent (p : Layout) : Int :=
  signed (p.powerSign = ['-']) (Nat.ofDigits 10 (placeValues p.power))

def literal (p : Layout) : FloatLiteral := ⟨p.sign = ['-'], p.whole, p.fraction, p.exponent⟩

def value (p : Layout) : ℚ := withSign p.literal.negative p.literal.magnitude

/-- There is no digit before the mark, or none after it. -/
def LacksDigits (p : Layout) : Prop :=
  (p.whole = [] ∧ p.fraction = []) ∨ (p.mark ≠ [] ∧ p.power = [])

instance (p : Layout) : Decidable p.LacksDigits := inferInstanceAs (Decidable (_ ∨ _))

theorem exists_greedy (s : Text) : ∃ p : Layout, p.text = s ∧ p.Greedy := by
  obtain ⟨blanks, s₁, rfl, hblanks⟩ := exists_run isBlank s
  obtain ⟨sign, s₂, rfl, hsign⟩ := exists_once isSign s₁
  obtain ⟨whole, s₃, rfl, hwhole⟩ := exists_run Char.isDigit s₂
  obtain ⟨point, s₄, rfl, hpoint⟩ := exists_once (· == '.') s₃
  obtain ⟨fraction, s₅, rfl, hfraction⟩ := exists_run (ifAny point Char.isDigit) s₄
  obtain ⟨mark, s₆, rfl, hmark⟩ := exists_once isExponentMark s₅
  obtain ⟨powerSign, s₇, rfl, hpowerSign⟩ := exists_once (ifAny mark isSign) s₆
  obtain ⟨power, s₈, rfl, hpower⟩ := exists_run (ifAny mark Char.isDigit) s₇
  obtain ⟨suffix, rest, rfl, hsuffix⟩ := exists_once isSuffix s₈
  exact ⟨⟨blanks, sign, whole, point, fraction, mark, powerSign, power, suffix, rest⟩, rfl,
    ⟨hblanks, hsign, hwhole, hpoint, hfraction, hmark, hpowerSign, hpower, hsuffix⟩⟩

/-- Two layouts agree part by part, from the first on. -/
theorem Greedy.unique (hp : p.Greedy) (hq : q.Greedy) (h : p.text = q.text) : p = q := by
  obtain ⟨hblanks, h⟩ := hp.blanks.unique hq.blanks h
  obtain ⟨hsign, h⟩ := hp.sign.unique hq.sign h
  obtain ⟨hwhole, h⟩ := hp.whole.unique hq.whole h
  obtain ⟨hpoint, h⟩ := hp.point.unique hq.point h
  have hpfraction := hp.fraction
  rw [hpoint] at hpfraction
  obtain ⟨hfraction, h⟩ := hpfraction.unique hq.fraction h
  obtain ⟨hmark, h⟩ := hp.mark.unique hq.mark h
  have hppowerSign := hp.powerSign
  have hppower := hp.power
  rw [hmark] at hppowerSign hppower
  obtain ⟨hpowerSign, h⟩ := hppowerSign.unique hq.powerSign h
  obtain ⟨hpower, h⟩ := hppower.unique hq.power h
  obtain ⟨hsuffix, hrest⟩ := hp.suffix.unique hq.suffix h
  exact Layout.ext hblanks hsign hwhole hpoint hfraction hmark hpowerSign hpower hsuffix hrest

theorem eq_nil_of_run {k : Char → Bool} (h : Run (ifAny [] k) s t) : s = [] :=
  List.eq_nil_iff_forall_not_mem.mpr fun c hc => by cases h.1 c hc

theorem eq_nil_of_once {k : Char → Bool} (h : Once (ifAny [] k) s t) : s = [] := by
  obtain hs | ⟨c, hc, -⟩ := h.1
  · exact hs
  · cases hc

theorem ifAny_of_ne_nil {k : Char → Bool} (h : s ≠ []) : ifAny s k = k := by
  funext c
  rw [ifAny, decide_eq_true h, Bool.true_and]

theorem sign_of_once (h : Once isSign s t) : FloatLiteral.sign (s ++ t) = (decide (s = ['-']), t) := by
  obtain ⟨rfl | ⟨c, hc, rfl⟩, hstops⟩ := h
  · exact sign_run .absent (hstops rfl)
  · simp only [isSign, Bool.or_eq_true, beq_iff_eq] at hc
    rcases hc with rfl | rfl <;> rfl

theorem Greedy.point_eq (h : p.Greedy) :
    FloatLiteral.point p.afterWhole = (p.fraction, p.afterFraction) := by
  have hfraction := h.fraction
  obtain ⟨hpoint | ⟨c, hc, hpoint⟩, hdot⟩ := h.point
  -- Without a point there is no fraction, so the digits before it stop where it would.
  · have hstops := h.whole.2
    rw [hpoint] at hfraction
    rw [afterWhole, hpoint, afterPoint, eq_nil_of_run hfraction] at hstops ⊢
    have hnone := hdot hpoint
    rw [afterPoint, eq_nil_of_run hfraction] at hnone
    exact point_run .absent hstops fun _ => hnone
  · rw [ifAny_of_ne_nil (by simp [hpoint])] at hfraction
    obtain rfl := beq_iff_eq.mp hc
    rw [afterWhole, hpoint, afterPoint]
    exact point_run (.present hfraction.1) hfraction.2 fun h => by cases h

theorem Greedy.exponentPart_eq (h : p.Greedy) : exponentPart p.afterFraction =
    if p.mark ≠ [] ∧ p.power = [] then none else some (p.exponent, p.afterPower) := by
  have hpower := h.power
  have hpowerSign := h.powerSign
  obtain ⟨hmark | ⟨c, hc, hmark⟩, hstops⟩ := h.mark
  -- Without a mark there is no power, and the exponent is zero.
  · rw [hmark] at hpower hpowerSign
    have hnone := hstops hmark
    rw [afterMark, eq_nil_of_once hpowerSign, afterPowerSign, eq_nil_of_run hpower] at hnone
    rw [if_neg fun h => h.1 hmark, afterFraction, hmark, afterMark, eq_nil_of_once hpowerSign,
      afterPowerSign, eq_nil_of_run hpower, exponent, eq_nil_of_once hpowerSign,
      eq_nil_of_run hpower]
    exact exponentPart_of_stops hnone
  · have hne : p.mark ≠ [] := by simp [hmark]
    rw [ifAny_of_ne_nil hne] at hpower hpowerSign
    have hdigits : digits p.afterPowerSign = p.power ∧ afterDigits p.afterPowerSign = p.afterPower :=
      digits_run hpower.1 hpower.2
    have hsign : FloatLiteral.sign p.afterMark = (decide (p.powerSign = ['-']), p.afterPowerSign) :=
      sign_of_once hpowerSign
    rw [afterFraction, hmark, List.singleton_append, exponentPart, if_pos hc, hsign, hdigits.1,
      hdigits.2, value_eq_ofDigits]
    simp [exponent]

theorem Greedy.scan_eq (h : p.Greedy) : scan p.afterBlanks =
    if p.LacksDigits then none else some (p.literal, p.afterPower) := by
  have hsign : FloatLiteral.sign p.afterBlanks = (decide (p.sign = ['-']), p.afterSign) :=
    sign_of_once h.sign
  have hdigits : digits p.afterSign = p.whole ∧ afterDigits p.afterSign = p.afterWhole :=
    digits_run h.whole.1 h.whole.2
  simp only [scan, hsign, hdigits.1, hdigits.2, h.point_eq, h.exponentPart_eq]
  by_cases hnone : p.whole = [] ∧ p.fraction = []
  · have hlacks : p.LacksDigits := .inl hnone
    rw [if_pos hnone, if_pos hlacks]
  · by_cases hpower : p.mark ≠ [] ∧ p.power = []
    · have hlacks : p.LacksDigits := .inr hpower
      rw [if_neg hnone, if_pos hpower, if_pos hlacks, Option.map_none]
    · have hlacks : ¬p.LacksDigits := not_or.mpr ⟨hnone, hpower⟩
      rw [if_neg hnone, if_neg hpower, if_neg hlacks, Option.map_some]
      rfl

theorem Greedy.isDigit (h : p.Greedy) :
    ∀ c ∈ p.literal.whole ++ p.literal.fraction, c.isDigit = true := by
  refine List.forall_mem_append.mpr ⟨h.whole.1, fun c hc => ?_⟩
  have hc := h.fraction.1 c hc
  exact (Bool.and_eq_true_iff.mp hc).2

theorem Greedy.read_eq (h : p.Greedy) : read p.text =
    if p.LacksDigits then none else p.literal.value?.map fun x => (x, p.rest) := by
  have hblanks : skipBlanks p.text = p.afterBlanks := skipBlanks_run h.blanks.1 h.blanks.2
  have hsuffix : Text.dropOne isSuffix p.afterPower = p.rest := dropOne_run h.suffix.1 h.suffix.2
  rw [FloatLiteral.read, hblanks, h.scan_eq]
  split
  · rfl
  · rw [Option.bind_some, hsuffix]

/-- Digits are missing, or the value rounds to infinity. -/
def Refused (p : Layout) : Prop := p.LacksDigits ∨ 2 ^ 128 - 2 ^ 103 ≤ |p.value|

theorem abs_value (p : Layout) : |p.value| = p.literal.magnitude := by
  rw [value, abs_withSign, abs_of_nonneg p.literal.magnitude_nonneg]

theorem hasValue_literal_iff : HasValue p.literal x ↔
    ¬2 ^ 128 - 2 ^ 103 ≤ |p.value| ∧ (x.negative = true ↔ p.sign = ['-']) ∧
      IsNearestTo p.value x := by
  have hsign : x.negative = p.literal.negative ↔ (x.negative = true ↔ p.sign = ['-']) := by
    rw [Bool.eq_iff_iff, literal, decide_eq_true_iff]
  rw [HasValue, abs_value, not_le, hsign]
  refine and_congr_right fun _ => and_congr_right fun hnegative => ?_
  rw [value, ← hsign.mpr hnegative, isNearestTo_withSign_iff p.literal.magnitude_nonneg]

theorem Greedy.read_eq_some_iff (h : p.Greedy) : read p.text = some (x, t) ↔
    ¬p.Refused ∧ (x.negative = true ↔ p.sign = ['-']) ∧ IsNearestTo p.value x ∧ t = p.rest := by
  rw [h.read_eq, Refused, not_or]
  by_cases hlacks : p.LacksDigits
  · simp [hlacks]
  · rw [if_neg hlacks, Option.map_eq_some_iff]
    constructor
    · rintro ⟨y, hy, hyt⟩
      obtain ⟨rfl, rfl⟩ := Prod.mk.inj hyt
      obtain ⟨hlimit, hsign, hnear⟩ := hasValue_literal_iff.mp ((value?_eq_some_iff h.isDigit).mp hy)
      exact ⟨⟨hlacks, hlimit⟩, hsign, hnear, rfl⟩
    · rintro ⟨⟨-, hlimit⟩, hsign, hnear, rfl⟩
      have hvalue := hasValue_literal_iff.mpr ⟨hlimit, hsign, hnear⟩
      exact ⟨x, (value?_eq_some_iff h.isDigit).mpr hvalue, rfl⟩

end Layout

end FloatLiteral
end MaterialText
