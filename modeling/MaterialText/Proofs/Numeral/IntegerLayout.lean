import MaterialText.Proofs.Numeral.IntegerLiteral

namespace MaterialText

namespace Integer
open Numeral

/-- The parts of a literal, what stands before it and what follows. -/
@[ext]
structure Layout where
  blanks : Text
  minus : Text
  gap : Text
  mark : Text
  radix : Radix
  digits : Text
  suffix : Text
  rest : Text

variable {s t mark digits rest : Text} {radix : Radix} {n : Nat} {i : Int64}

theorem Marks.unique {mark' : Text} {radix' : Radix} (h : Marks mark radix s)
    (h' : Marks mark' radix' t) (he : mark ++ s = mark' ++ t) :
    mark = mark' ∧ radix = radix' ∧ s = t := by
  have hmarker := h.marker_eq
  rw [he, h'.marker_eq] at hmarker
  obtain ⟨rfl, rfl⟩ := Prod.mk.inj hmarker
  exact ⟨List.append_cancel_right he, rfl, rfl⟩

namespace Layout

variable {p q : Layout}

def afterDigits (p : Layout) : Text := p.suffix ++ p.rest

def afterMark (p : Layout) : Text := p.digits ++ p.afterDigits

def unsigned (p : Layout) : Text := p.mark ++ p.afterMark

def afterMinus (p : Layout) : Text := p.gap ++ p.unsigned

def afterBlanks (p : Layout) : Text := p.minus ++ p.afterMinus

def text (p : Layout) : Text := p.blanks ++ p.afterBlanks

def isDigit : Radix → Char → Bool
  | .octal, c => '0' ≤ c && c ≤ '7'
  | .decimal, c => '0' ≤ c && c ≤ '9'
  | .hexadecimal, c => ('0' ≤ c && c ≤ '9') || ('a' ≤ c && c ≤ 'f') || ('A' ≤ c && c ≤ 'F')

def isSuffixLetter (c : Char) : Bool := c ∈ ['u', 'U', 'l', 'L']

/-- Every part is as long as it can be. Without a sign there is no gap, because the blanks before the
sign end where no blank follows. -/
structure Greedy (p : Layout) : Prop where
  blanks : Run isBlank p.blanks p.afterBlanks
  minus : Once (· == '-') p.minus p.afterMinus
  gap : Run isBlank p.gap p.unsigned
  mark : Marks p.mark p.radix p.afterMark
  digits : Run (isDigit p.radix) p.digits p.afterDigits
  suffix : Once isSuffixLetter p.suffix p.rest

/-- The number that the digits denote in their radix. -/
def magnitude (p : Layout) : Nat :=
  match p.radix with
  | .octal => Nat.ofDigits 8 (placeValues p.digits)
  | .decimal => Nat.ofDigits 10 (placeValues p.digits)
  | .hexadecimal => Nat.ofDigits 16 (placeValues p.digits)

def number (p : Layout) : Int := if p.minus = ['-'] then -p.magnitude else p.magnitude

/-- No decimal digit comes first, or a mark of hexadecimal digits without one of them. -/
def Refused (p : Layout) : Prop :=
  Stops Char.isDigit p.unsigned ∨
    ∃ x t, (x = 'x' ∨ x = 'X') ∧ p.unsigned = '0' :: x :: t ∧ Stops (isDigit .hexadecimal) t

theorem isDigit_decimal : isDigit .decimal = Char.isDigit := by
  funext c
  rw [Bool.eq_iff_iff, Numeral.isDigit_iff]
  simp [isDigit, le_iff_toNat_le]

theorem isDigit_eq (radix : Radix) : isDigit radix = isDigitOf radix.base := by
  funext c
  cases radix with
  | octal =>
    rw [Bool.eq_iff_iff, Radix.base, isDigitOf_eight_iff]
    simp [isDigit, IsOctalDigit]
  | decimal => rw [isDigit_decimal, Radix.base, isDigitOf_ten]
  | hexadecimal =>
    rw [Bool.eq_iff_iff, Radix.base, isDigitOf_sixteen_iff, IsHexDigit, ← isDigit_decimal]
    simp [isDigit, or_assoc]

theorem isSuffixLetter_eq : isSuffixLetter = isSuffix := by
  funext c
  rw [Bool.eq_iff_iff]
  simp [isSuffixLetter, isSuffix, or_assoc]

theorem magnitude_eq (p : Layout) :
    p.magnitude = Nat.ofDigits p.radix.base (placeValues p.digits) := by
  unfold magnitude
  split <;> rename_i hradix <;> rw [hradix] <;> rfl

theorem number_eq (p : Layout) :
    p.number = signed (p.minus = ['-']) (value p.radix.base p.digits) := by
  simp [number, signed, magnitude_eq, value_eq_ofDigits]

theorem exists_greedy (s : Text) : ∃ p : Layout, p.text = s ∧ p.Greedy := by
  obtain ⟨blanks, s₁, rfl, hblanks⟩ := exists_run isBlank s
  obtain ⟨minus, s₂, rfl, hminus⟩ := exists_once (· == '-') s₁
  obtain ⟨gap, s₃, rfl, hgap⟩ := exists_run isBlank s₂
  obtain ⟨mark, radix, s₄, rfl, hmark⟩ := exists_marks s₃
  obtain ⟨digits, s₅, rfl, hdigits⟩ := exists_run (isDigit radix) s₄
  obtain ⟨suffix, rest, rfl, hsuffix⟩ := exists_once isSuffixLetter s₅
  exact ⟨⟨blanks, minus, gap, mark, radix, digits, suffix, rest⟩, rfl,
    ⟨hblanks, hminus, hgap, hmark, hdigits, hsuffix⟩⟩

/-- Two layouts agree part by part, from the first on. -/
theorem Greedy.unique (hp : p.Greedy) (hq : q.Greedy) (h : p.text = q.text) : p = q := by
  obtain ⟨hblanks, h⟩ := hp.blanks.unique hq.blanks h
  obtain ⟨hminus, h⟩ := hp.minus.unique hq.minus h
  obtain ⟨hgap, h⟩ := hp.gap.unique hq.gap h
  obtain ⟨hmark, hradix, h⟩ := hp.mark.unique hq.mark h
  have hpdigits := hp.digits
  rw [hradix] at hpdigits
  obtain ⟨hdigits, h⟩ := hpdigits.unique hq.digits h
  obtain ⟨hsuffix, hrest⟩ := hp.suffix.unique hq.suffix h
  exact Layout.ext hblanks hminus hgap hmark hradix hdigits hsuffix hrest

theorem Greedy.sign_eq (h : p.Greedy) :
    sign p.afterBlanks = (decide (p.minus = ['-']), p.unsigned) := by
  obtain ⟨hminus | ⟨c, hc, hminus⟩, hstops⟩ := h.minus
  · have hblanks := h.blanks.2
    have hhead := hstops hminus
    rw [afterBlanks, hminus, List.nil_append] at hblanks ⊢
    -- The blanks before the sign are all of them, so there is no gap.
    have hskip : skipBlanks p.afterMinus = p.unsigned := skipBlanks_run h.gap.1 h.gap.2
    have hgap : p.afterMinus = p.unsigned := by rwa [skipBlanks_stops hblanks] at hskip
    have hne : p.unsigned.head? ≠ some '-' := by
      intro hdash
      rw [hgap] at hhead
      cases hhead '-' hdash
    rw [hgap, sign_of_ne hne]
    rfl
  · obtain rfl := beq_iff_eq.mp hc
    have hskip : skipBlanks p.afterMinus = p.unsigned := skipBlanks_run h.gap.1 h.gap.2
    rw [afterBlanks, hminus, List.singleton_append, sign, hskip]
    rfl

theorem Greedy.refused_iff (h : p.Greedy) : p.Refused ↔ p.digits = [] ∧ p.radix ≠ .octal := by
  obtain ⟨blanks, minus, gap, mark, radix, digits, suffix, rest⟩ := p
  have hdigits : digits = [] ↔ Stops (isDigit radix) (digits ++ (suffix ++ rest)) :=
    h.digits.eq_nil_iff
  have hmark := h.mark
  simp only [Refused, unsigned, afterMark, afterDigits] at hmark ⊢
  cases hmark with
  | @hexadecimal x hx =>
    rw [hdigits]
    refine ⟨fun h => ⟨?_, by decide⟩, fun h => .inr ⟨x, _, hx, rfl, h.1⟩⟩
    obtain hzero | ⟨y, t, -, ht, hstops⟩ := h
    · cases stops_cons.mp hzero
    · obtain ⟨-, rfl⟩ := List.cons.inj (List.cons.inj ht).2
      exact hstops
  | octal hnone =>
    refine ⟨fun h => ?_, fun h => absurd rfl h.2⟩
    obtain hzero | ⟨x, t, hx, ht, -⟩ := h
    · cases stops_cons.mp hzero
    · have hafter : digits ++ (suffix ++ rest) = x :: t := (List.cons.inj ht).2
      rw [hafter, stops_cons] at hnone
      rcases hx with rfl | rfl <;> cases hnone
  | decimal hnone =>
    rw [hdigits, isDigit_decimal]
    refine ⟨fun h => ⟨?_, by decide⟩, fun h => .inl h.1⟩
    obtain hstops | ⟨x, t, -, ht, -⟩ := h
    · exact hstops
    · rw [List.nil_append] at ht
      exact absurd (by rw [ht]; rfl) hnone

theorem Greedy.scan_eq (h : p.Greedy) : scan p.text =
    if p.digits = [] ∧ p.radix ≠ .octal then none else some (Int64.ofInt p.number, p.rest) := by
  have hblanks : skipBlanks p.text = p.afterBlanks := skipBlanks_run h.blanks.1 h.blanks.2
  have hmarker : marker p.unsigned = (p.radix, p.afterMark) := h.mark.marker_eq
  have hdigits := h.digits
  have hsuffix := h.suffix
  rw [isDigit_eq] at hdigits
  rw [isSuffixLetter_eq] at hsuffix
  have htake : p.afterMark.takeWhile (isDigitOf p.radix.base) = p.digits :=
    takeWhile_run hdigits.1 hdigits.2
  have hdrop : p.afterMark.dropWhile (isDigitOf p.radix.base) = p.afterDigits :=
    dropWhile_run hdigits.1 hdigits.2
  have hrest : Text.dropOne isSuffix p.afterDigits = p.rest := dropOne_run hsuffix.1 hsuffix.2
  simp only [scan, hblanks, h.sign_eq, hmarker, htake, hdrop, hrest, withMinus_wrapped, number_eq]

theorem Greedy.scan_eq_none_iff (h : p.Greedy) : scan p.text = none ↔ p.Refused := by
  rw [h.scan_eq, h.refused_iff]
  simp

theorem Greedy.scan_eq_some_iff (h : p.Greedy) : scan p.text = some (i, t) ↔
    ¬p.Refused ∧ i.toInt ≡ p.number [ZMOD 2 ^ 64] ∧ t = p.rest := by
  rw [h.scan_eq, h.refused_iff, ← ofInt_eq_iff]
  split
  · rename_i hrefused
    simp [hrefused]
  · rename_i hrefused
    simp only [hrefused, not_false_eq_true, true_and, Option.some.injEq, Prod.mk.injEq,
      eq_comm (a := t)]

end Layout

theorem exists_marks_decimal (n : Nat) (hdigit : Stops Char.isDigit rest)
    (hx : Stops isHexMark rest) : ∃ mark radix digits, decimal n = mark ++ digits ∧
      Marks mark radix (digits ++ rest) ∧ Run (Layout.isDigit radix) digits rest ∧
        (digits = [] → radix = .octal) ∧ value radix.base digits = n := by
  by_cases hn : n = 0
  · have hoctal : ∀ c, Layout.isDigit .octal c = true → c.isDigit = true := by
      intro c hc
      rw [← Layout.isDigit_decimal]
      simp only [Layout.isDigit, Bool.and_eq_true, decide_eq_true_eq] at hc ⊢
      exact ⟨hc.1, Char.le_trans hc.2 (by decide)⟩
    -- Zero is the mark of octal digits with none of them.
    rw [hn]
    exact ⟨['0'], .octal, [], rfl, .octal hx, ⟨List.forall_mem_nil _, hdigit.mono hoctal⟩,
      fun _ => rfl, rfl⟩
  · obtain ⟨d, t, hdt⟩ := List.exists_cons_of_ne_nil (Nat.toDigits_ne_nil (b := 10) (n := n))
    have hhead := head?_decimal_ne hn
    refine ⟨[], .decimal, decimal n, rfl, .decimal ?_, ⟨?_, ?_⟩, fun h => ?_, value_decimal n⟩
    · rw [decimal, hdt] at hhead ⊢
      exact hhead
    · rw [Layout.isDigit_decimal]
      exact fun c hc => isDigit_of_mem_decimal hc
    · rw [Layout.isDigit_decimal]
      exact hdigit
    · exact absurd h Nat.toDigits_ne_nil

theorem exists_minus (i : Int64) : ∃ minus, AtMostOne (· == '-') minus ∧
    text i = minus ++ decimal i.toInt.natAbs ∧
      signed (minus = ['-']) i.toInt.natAbs = i.toInt := by
  by_cases hneg : i.toInt < 0
  · refine ⟨['-'], .inr ⟨'-', rfl, rfl⟩, ?_, ?_⟩
    · rw [text, if_pos hneg]
      rfl
    · have hi : -(i.toInt.natAbs : Int) = i.toInt := by omega
      exact hi
  · refine ⟨[], .inl rfl, ?_, ?_⟩
    · rw [text, if_neg hneg]
      rfl
    · have hi : (i.toInt.natAbs : Int) = i.toInt := by omega
      exact hi

theorem stops_decimal_append {k : Char → Bool} (hk : ∀ c, isWordChar c = true → k c = false)
    (n : Nat) (rest : Text) : Stops k (decimal n ++ rest) := by
  have hne : decimal n ≠ [] := Nat.toDigits_ne_nil
  rw [stops_append hne]
  intro c hc
  exact hk c (isWordChar_of_isDigit (isDigit_of_mem_decimal (List.mem_of_mem_head? hc)))

/-- The layout of the text of a word, up to where no literal goes on. -/
theorem exists_layout_text (i : Int64) (hdigit : Stops Char.isDigit rest)
    (hx : Stops isHexMark rest) (hsuffix : Stops isSuffix rest) :
    ∃ p : Layout, p.text = text i ++ rest ∧ p.Greedy ∧ ¬p.Refused ∧ p.number = i.toInt ∧
      p.rest = rest := by
  obtain ⟨minus, hminus, htext, hnumber⟩ := exists_minus i
  obtain ⟨mark, radix, digits, hdecimal, hmark, hdigits, hoctal, hvalue⟩ :=
    exists_marks_decimal i.toInt.natAbs hdigit hx
  have hunsigned : decimal i.toInt.natAbs ++ rest = mark ++ (digits ++ rest) := by
    rw [hdecimal, List.append_assoc]
  have hblank : Stops isBlank (mark ++ (digits ++ rest)) := by
    rw [← hunsigned]
    exact stops_decimal_append (fun _ => not_isBlank_of_isWordChar) _ _
  have hdash : Stops (· == '-') (mark ++ (digits ++ rest)) := by
    rw [← hunsigned]
    refine stops_decimal_append (fun c hc => beq_eq_false_iff_ne.mpr ?_) _ _
    rintro rfl
    cases hc
  have hfirst : Stops isBlank (minus ++ (mark ++ (digits ++ rest))) := by
    refine stops_atMostOne_append hminus (fun c hc => ?_) fun _ => hblank
    obtain rfl := beq_iff_eq.mp hc
    decide
  let p : Layout := ⟨[], minus, [], mark, radix, digits, [], rest⟩
  have hgreedy : p.Greedy := ⟨⟨List.forall_mem_nil _, hfirst⟩, ⟨hminus, fun _ => hdash⟩,
    ⟨List.forall_mem_nil _, hblank⟩, hmark, hdigits,
    ⟨.inl rfl, fun _ => Layout.isSuffixLetter_eq ▸ hsuffix⟩⟩
  refine ⟨p, ?_, hgreedy, ?_, ?_, rfl⟩
  · rw [htext, List.append_assoc, hunsigned]
    rfl
  · rw [hgreedy.refused_iff]
    exact fun h => h.2 (hoctal h.1)
  · rw [p.number_eq, ← hnumber, ← hvalue]

/-- A text has one layout, and what is read of it follows from this layout. The text of a word is read
back where no literal goes on. -/
theorem scan_of_layout :
    (∀ s, ∃ p : Layout, (∀ q : Layout, q.text = s ∧ q.Greedy ↔ q = p) ∧
      (scan s = none ↔ p.Refused) ∧
      ∀ i rest, scan s = some (i, rest) ↔
        ¬p.Refused ∧ i.toInt ≡ p.number [ZMOD 2 ^ 64] ∧ rest = p.rest) ∧
    ∀ i rest, (∀ c ∈ rest.head?, c.isDigit = false ∧ c ∉ ['x', 'X', 'u', 'U', 'l', 'L']) →
      scan (text i ++ rest) = some (i, rest) := by
  refine ⟨fun s => ?_, fun i rest hrest => ?_⟩
  · obtain ⟨p, rfl, h⟩ := Layout.exists_greedy s
    refine ⟨p, fun q => ⟨fun hq => hq.2.unique h hq.1, ?_⟩, h.scan_eq_none_iff,
      fun i rest => h.scan_eq_some_iff⟩
    rintro rfl
    exact ⟨rfl, h⟩
  · have hdigit : Stops Char.isDigit rest := fun c hc => (hrest c hc).1
    have hx : Stops isHexMark rest := by
      intro c hc
      have hne := (hrest c hc).2
      simp only [List.mem_cons, not_or] at hne
      simp [isHexMark, hne]
    have hsuffix : Stops isSuffix rest := by
      intro c hc
      have hne := (hrest c hc).2
      simp only [List.mem_cons, not_or] at hne
      simp [isSuffix, hne]
    obtain ⟨p, htext, h, hrefused, hnumber, rfl⟩ := exists_layout_text i hdigit hx hsuffix
    rw [← htext, h.scan_eq_some_iff, hnumber]
    exact ⟨hrefused, Int.ModEq.refl _, rfl⟩

theorem scan_of_layout_least : (∀ c ∈ ".5".toList.head?,
      c.isDigit = false ∧ c ∉ ['x', 'X', 'u', 'U', 'l', 'L']) ∧
    scan "-9223372036854775808.5".toList = some (Int64.minValue, ".5".toList) := by
  have hrest : ∀ c ∈ ".5".toList.head?, c.isDigit = false ∧ c ∉ ['x', 'X', 'u', 'U', 'l', 'L'] := by
    intro c hc
    obtain rfl : '.' = c := Option.some.inj hc
    decide
  have htext : text Int64.minValue ++ ".5".toList = "-9223372036854775808.5".toList := by decide
  refine ⟨hrest, ?_⟩
  rw [← htext]
  exact scan_of_layout.2 Int64.minValue ".5".toList hrest

example : scan " - 0xFFFFFFFFFFFFFFFFFul".toList = some (1, "l".toList) := by decide

end Integer
end MaterialText
