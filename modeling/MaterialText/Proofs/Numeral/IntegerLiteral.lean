import Mathlib.Data.Int.ModEq
import MaterialText.Numeral.Integer
import MaterialText.Proofs.Numeral.Digits
import MaterialText.Proofs.Text.Runs

namespace MaterialText.Integer
open Numeral

variable {s w mark literal digits suffix rest : Text} {radix : Radix} {n : Nat} {k : Int} {i : Int64}

/-- The digits of a literal with the marker of their radix, and the number that they denote. -/
inductive Magnitude : Text → Nat → Prop
  | hexadecimal {x : Char} {digits : Text} (hx : x = 'x' ∨ x = 'X') (hne : digits ≠ [])
      (h : ∀ c ∈ digits, IsHexDigit c) :
      Magnitude ('0' :: x :: digits) (Nat.ofDigits 16 (placeValues digits))
  | octal {digits : Text} (h : ∀ c ∈ digits, IsOctalDigit c) :
      Magnitude ('0' :: digits) (Nat.ofDigits 8 (placeValues digits))
  | decimal {d : Char} {digits : Text} (hd : '1' ≤ d ∧ d ≤ '9')
      (h : ∀ c ∈ digits, c.isDigit = true) :
      Magnitude (d :: digits) (Nat.ofDigits 10 (placeValues (d :: digits)))

def Suffix (suffix : Text) : Prop := suffix ∈ [[], ['u'], ['U'], ['l'], ['L']]

/-- A literal and the signed number that it denotes. -/
inductive Denotes : Text → Int → Prop
  | plain {digits suffix : Text} {n : Nat} (h : Magnitude digits n) (hs : Suffix suffix) :
      Denotes (digits ++ suffix) n
  | minus {w digits suffix : Text} {n : Nat} (hw : Blanks w) (h : Magnitude digits n)
      (hs : Suffix suffix) : Denotes ('-' :: (w ++ (digits ++ suffix))) (-n)

def magnitude? (s : Text) : Option (Nat × Text) :=
  let marked := marker s
  let digits := marked.2.takeWhile (isDigitOf marked.1.base)
  if digits = [] ∧ marked.1 ≠ .octal then none
  else some (value marked.1.base digits,
    Text.dropOne isSuffix (marked.2.dropWhile (isDigitOf marked.1.base)))

/-- Wrapping at every step is the same as wrapping once at the end. -/
theorem wrapped_eq_ofNat (radix : Nat) (digits : Text) :
    wrapped radix digits = Int64.ofNat (value radix digits) := by
  induction digits using List.reverseRecOn with
  | nil => rfl
  | append_singleton digits c ih =>
    have hstep : wrapped radix (digits ++ [c]) =
        wrapped radix digits * Int64.ofNat radix + Int64.ofNat (digitValue c) := by
      simp [wrapped, getD_digit?]
    rw [hstep, ih, value_append_singleton, Int64.ofNat_add, Int64.ofNat_mul, Int64.mul_comm]

theorem withMinus_wrapped (negative : Bool) (radix : Nat) (digits : Text) :
    withMinus negative (wrapped radix digits) =
      Int64.ofInt (signed negative (value radix digits)) := by
  rw [wrapped_eq_ofNat, ← Int64.ofInt_eq_ofNat]
  cases negative with
  | false => rfl
  | true => exact (Int64.ofInt_neg _).symm

theorem scan_eq_magnitude? (s : Text) :
    scan s = (magnitude? (sign (skipBlanks s)).2).map fun p =>
      (Int64.ofInt (signed (sign (skipBlanks s)).1 p.1), p.2) := by
  simp only [scan, magnitude?, withMinus_wrapped]
  split <;> rfl

theorem marker_hexadecimal {x : Char} (hx : x = 'x' ∨ x = 'X') (rest : Text) :
    marker ('0' :: x :: rest) = (.hexadecimal, rest) := by
  rcases hx with rfl | rfl <;> rfl

def isHexMark (c : Char) : Bool := c == 'x' || c == 'X'

theorem marker_octal (h : Stops isHexMark rest) : marker ('0' :: rest) = (.octal, rest) := by
  cases rest with
  | nil => rfl
  | cons c rest =>
    have hc := stops_cons.mp h
    simp only [isHexMark, Bool.or_eq_false_iff, beq_eq_false_iff_ne] at hc
    unfold marker
    split <;> simp_all

theorem marker_decimal (h : s.head? ≠ some '0') : marker s = (.decimal, s) := by
  unfold marker
  split <;> simp_all

/-- The longest mark of a radix that a text begins with, and what follows it. -/
inductive Marks : Text → Radix → Text → Prop
  | hexadecimal {x : Char} (hx : x = 'x' ∨ x = 'X') (rest : Text) :
      Marks ['0', x] .hexadecimal rest
  | octal {rest : Text} (h : Stops isHexMark rest) : Marks ['0'] .octal rest
  | decimal {rest : Text} (h : rest.head? ≠ some '0') : Marks [] .decimal rest

theorem Marks.marker_eq (h : Marks mark radix rest) : marker (mark ++ rest) = (radix, rest) := by
  cases h with
  | hexadecimal hx => exact marker_hexadecimal hx rest
  | octal h => exact marker_octal h
  | decimal h => exact marker_decimal h

theorem exists_marks (s : Text) : ∃ mark radix rest, s = mark ++ rest ∧ Marks mark radix rest := by
  by_cases hzero : s.head? = some '0'
  · obtain ⟨t, rfl⟩ := List.head?_eq_some_iff.mp hzero
    obtain ⟨mark, rest, rfl, hmark | ⟨x, hx, hmark⟩, hstops⟩ := exists_once isHexMark t
    · rw [hmark]
      exact ⟨['0'], .octal, rest, rfl, .octal (hstops hmark)⟩
    · have hx' : x = 'x' ∨ x = 'X' := by simpa [isHexMark] using hx
      rw [hmark]
      exact ⟨['0', x], .hexadecimal, rest, rfl, .hexadecimal hx' rest⟩
  · exact ⟨[], .decimal, s, rfl, .decimal hzero⟩

theorem suffix_iff : Suffix suffix ↔ AtMostOne isSuffix suffix := by
  simp only [Suffix, AtMostOne, isSuffix, List.mem_cons, List.not_mem_nil, or_false,
    Bool.or_eq_true, beq_iff_eq]
  refine or_congr_right ⟨fun h => ?_, fun h => ?_⟩
  · rcases h with rfl | rfl | rfl | rfl <;> simp
  · obtain ⟨c, hc, rfl⟩ := h
    simpa [or_assoc] using hc

theorem not_isWordChar_of_stops (hs : Stops isWordChar rest) {p : Char → Bool}
    (hp : ∀ c, p c = true → c.isAlphanum = true) : Stops p rest := by
  apply hs.mono
  intro c hc
  rw [isWordChar, hp c hc, Bool.true_or]

theorem isAlphanum_of_isSuffix {c : Char} (h : isSuffix c = true) : c.isAlphanum = true := by
  simp only [isSuffix, Bool.or_eq_true, beq_iff_eq] at h
  rcases h with ((rfl | rfl) | rfl) | rfl <;> decide

theorem isAlphanum_of_isDigitOf {radix : Nat} {c : Char} (h : isDigitOf radix c = true) :
    c.isAlphanum = true := by
  obtain ⟨m, hm, -⟩ := isDigitOf_iff.mp h
  have hc := digit?_eq_some_iff.mp hm
  rw [isAlphanum_iff]
  omega

theorem not_isDigitOf_of_isSuffix (radix : Radix) {c : Char} (h : isSuffix c = true) :
    isDigitOf radix.base c = false := by
  simp only [isSuffix, Bool.or_eq_true, beq_iff_eq] at h
  rcases h with ((rfl | rfl) | rfl) | rfl <;> cases radix <;> decide

theorem stops_digits (radix : Radix) (hs : Suffix suffix) (hr : Stops isWordChar rest) :
    Stops (isDigitOf radix.base) (suffix ++ rest) :=
  stops_atMostOne_append (suffix_iff.mp hs) (fun _ => not_isDigitOf_of_isSuffix radix) fun _ =>
    not_isWordChar_of_stops hr fun _ => isAlphanum_of_isDigitOf

theorem magnitude?_of_marker {radix : Radix} (hm : marker s = (radix, digits ++ (suffix ++ rest)))
    (hd : ∀ c ∈ digits, isDigitOf radix.base c = true) (hne : digits = [] → radix = .octal)
    (hs : Suffix suffix) (hr : Stops isWordChar rest) :
    magnitude? s = some (value radix.base digits, rest) := by
  have hstop := stops_digits radix hs hr
  have hsuffix : Stops isSuffix rest := not_isWordChar_of_stops hr fun _ => isAlphanum_of_isSuffix
  simp only [magnitude?, hm, takeWhile_run hd hstop, dropWhile_run hd hstop,
    dropOne_run (suffix_iff.mp hs) fun _ => hsuffix]
  rw [if_neg]
  intro h
  exact h.2 (hne h.1)

theorem stops_isHexMark (hd : ∀ c ∈ digits, IsOctalDigit c) (hs : Suffix suffix)
    (hr : Stops isWordChar rest) : Stops isHexMark (digits ++ (suffix ++ rest)) := by
  have hmark (c : Char) (hc : isHexMark c = true) : c = 'x' ∨ c = 'X' := by
    simpa [isHexMark] using hc
  apply stops_run_append
  · intro c hc
    apply Bool.eq_false_iff.mpr
    intro hx
    have hoctal := isDigitOf_eight_iff.mpr (hd c hc)
    rcases hmark c hx with rfl | rfl <;> cases hoctal
  · apply stops_atMostOne_append (suffix_iff.mp hs)
    · intro c hc
      apply Bool.eq_false_iff.mpr
      intro hx
      rcases hmark c hx with rfl | rfl <;> cases hc
    · intro _
      apply not_isWordChar_of_stops hr
      intro c hx
      rcases hmark c hx with rfl | rfl <;> rfl

theorem magnitude?_run (h : Magnitude digits n) (hs : Suffix suffix) (hr : Stops isWordChar rest) :
    magnitude? (digits ++ (suffix ++ rest)) = some (n, rest) := by
  cases h with
  | hexadecimal hx hne h =>
    rw [← value_eq_ofDigits]
    exact magnitude?_of_marker (marker_hexadecimal hx _)
      (fun c hc => isDigitOf_sixteen_iff.mpr (h c hc)) (fun h => absurd h hne) hs hr
  | @octal digits h =>
    rw [← value_eq_ofDigits]
    exact magnitude?_of_marker (marker_octal (stops_isHexMark h hs hr))
      (fun c hc => isDigitOf_eight_iff.mpr (h c hc)) (fun _ => rfl) hs hr
  | @decimal d digits hd h =>
    rw [← value_eq_ofDigits]
    obtain ⟨hdigit, hne⟩ := nonzero_digit_iff.mp hd
    have hzero : (d :: digits ++ (suffix ++ rest)).head? ≠ some '0' := by simpa using hne
    have hdigits : ∀ c ∈ d :: digits, isDigitOf 10 c = true := by
      simp only [isDigitOf_ten]
      exact List.forall_mem_cons.mpr ⟨hdigit, h⟩
    exact magnitude?_of_marker (marker_decimal hzero) hdigits (fun h => by cases h) hs hr

theorem magnitude?_eq_some_iff {n : Nat} : magnitude? s = some (n, rest) ↔
    ((marker s).2.takeWhile (isDigitOf (marker s).1.base) = [] → (marker s).1 = .octal) ∧
      n = value (marker s).1.base ((marker s).2.takeWhile (isDigitOf (marker s).1.base)) ∧
      rest = Text.dropOne isSuffix ((marker s).2.dropWhile (isDigitOf (marker s).1.base)) := by
  simp only [magnitude?]
  split
  · rename_i h
    simp [h.1, h.2]
  · rename_i h
    simp only [Option.some.injEq, Prod.mk.injEq, eq_comm (a := n), eq_comm (a := rest)]
    exact ⟨fun hn => ⟨fun hd => not_not.mp fun ho => h ⟨hd, ho⟩, hn⟩, And.right⟩

theorem magnitude_of_digits (hne : digits ≠ []) (hall : ∀ c ∈ digits, c.isDigit = true)
    (hzero : digits.head? ≠ some '0') : Magnitude digits (value 10 digits) := by
  obtain ⟨d, t, rfl⟩ := List.exists_cons_of_ne_nil hne
  rw [List.forall_mem_cons] at hall
  rw [value_eq_ofDigits]
  have hd : d ≠ '0' := by simpa using hzero
  exact .decimal (nonzero_digit_iff.mpr ⟨hall.1, hd⟩) hall.2

theorem Marks.magnitude (h : Marks mark radix (digits ++ rest))
    (hd : ∀ c ∈ digits, isDigitOf radix.base c = true) (hne : digits = [] → radix = .octal) :
    Magnitude (mark ++ digits) (value radix.base digits) := by
  cases h with
  | hexadecimal hx =>
    rw [value_eq_ofDigits]
    exact .hexadecimal hx (fun hnil => by cases hne hnil) fun c hc =>
      isDigitOf_sixteen_iff.mp (hd c hc)
  | octal =>
    rw [value_eq_ofDigits]
    exact .octal fun c hc => isDigitOf_eight_iff.mp (hd c hc)
  | decimal hzero =>
    have hall : ∀ c ∈ digits, c.isDigit = true := fun c hc => by
      rw [← isDigitOf_ten]
      exact hd c hc
    cases digits with
    | nil => cases hne rfl
    | cons d digits => exact magnitude_of_digits (List.cons_ne_nil d digits) hall hzero

theorem exists_of_magnitude? (h : magnitude? s = some (n, rest)) :
    ∃ digits suffix, Magnitude digits n ∧ Suffix suffix ∧ s = digits ++ (suffix ++ rest) := by
  obtain ⟨hne, rfl, rfl⟩ := magnitude?_eq_some_iff.mp h
  obtain ⟨mark, radix, t, rfl, hmark⟩ := exists_marks s
  rw [hmark.marker_eq] at hne ⊢
  -- After its mark the text is the run of its digits, at most one suffix letter and the rest.
  have hrun : t.takeWhile (isDigitOf radix.base) ++ t.dropWhile (isDigitOf radix.base) = t :=
    List.takeWhile_append_dropWhile
  obtain ⟨suffix, hs, hrest⟩ := exists_append_dropOne isSuffix (t.dropWhile (isDigitOf radix.base))
  rw [← hrun] at hmark
  refine ⟨mark ++ t.takeWhile (isDigitOf radix.base), suffix,
    hmark.magnitude (fun _ => of_mem_takeWhile) hne, suffix_iff.mpr hs, ?_⟩
  rw [List.append_assoc, ← hrest, hrun]

theorem Magnitude.exists_cons (h : Magnitude digits n) :
    ∃ d t, digits = d :: t ∧ d.isDigit = true := by
  cases h with
  | hexadecimal => exact ⟨_, _, rfl, by decide⟩
  | octal => exact ⟨_, _, rfl, by decide⟩
  | decimal hd => exact ⟨_, _, rfl, (nonzero_digit_iff.mp hd).1⟩

theorem isWordChar_of_isDigit {c : Char} (h : c.isDigit = true) : isWordChar c = true := by
  simp [isWordChar, Char.isAlphanum, h]

theorem Magnitude.stops_isBlank (h : Magnitude digits n) (t : Text) :
    Stops isBlank (digits ++ t) := by
  obtain ⟨d, u, rfl, hd⟩ := h.exists_cons
  exact stops_cons.mpr (not_isBlank_of_isWordChar (isWordChar_of_isDigit hd))

theorem sign_of_ne (h : s.head? ≠ some '-') : sign s = (false, s) := by
  unfold sign
  split <;> simp_all

/-- A literal that no word goes on after is read whole. -/
theorem scan_run (hw : Blanks w) (h : Denotes literal k) (hr : Stops isWordChar rest) :
    scan (w ++ (literal ++ rest)) = some (Int64.ofInt k, rest) := by
  cases h with
  | @plain digits suffix n h hs =>
    have hminus : (digits ++ (suffix ++ rest)).head? ≠ some '-' := by
      obtain ⟨d, t, hdt, hd⟩ := h.exists_cons
      intro hhead
      have hd' : d = '-' := by simpa [hdt] using hhead
      rw [hd'] at hd
      cases hd
    rw [List.append_assoc, scan_eq_magnitude?, skipBlanks_run hw (h.stops_isBlank _),
      sign_of_ne hminus, magnitude?_run h hs hr]
    rfl
  | @minus v digits suffix n hv h hs =>
    have hminus : Stops isBlank ('-' :: (v ++ (digits ++ suffix)) ++ rest) :=
      stops_cons.mpr (by decide)
    have hsign : sign ('-' :: (v ++ (digits ++ suffix)) ++ rest) =
        (true, digits ++ (suffix ++ rest)) := by
      simp only [List.cons_append, List.append_assoc, sign,
        skipBlanks_run hv (h.stops_isBlank _)]
    rw [scan_eq_magnitude?, skipBlanks_run hw hminus, hsign, magnitude?_run h hs hr]
    rfl

theorem sign_cases (s : Text) :
    (∃ v t, Blanks v ∧ s = '-' :: (v ++ t) ∧ sign s = (true, t)) ∨ sign s = (false, s) := by
  by_cases h : s.head? = some '-'
  · cases s with
    | nil => cases h
    | cons c s =>
      obtain rfl : c = '-' := by simpa using h
      obtain ⟨v, hv, hs⟩ := exists_blanks_append_skipBlanks s
      exact .inl ⟨v, skipBlanks s, hv, congrArg ('-' :: ·) hs, rfl⟩
  · exact .inr (sign_of_ne h)

theorem exists_of_scan (h : scan s = some (i, rest)) :
    ∃ w literal k, Blanks w ∧ Denotes literal k ∧ i = Int64.ofInt k ∧
      s = w ++ (literal ++ rest) := by
  rw [scan_eq_magnitude?] at h
  obtain ⟨⟨n, t⟩, hm, hp⟩ := Option.map_eq_some_iff.mp h
  obtain ⟨hi, rfl⟩ := Prod.mk.inj hp
  rw [← hi]
  obtain ⟨digits, suffix, hd, hs, hst⟩ := exists_of_magnitude? hm
  obtain ⟨w, hw, hws⟩ := exists_blanks_append_skipBlanks s
  obtain ⟨v, u, hv, hvu, hsign⟩ | hsign := sign_cases (skipBlanks s)
  · rw [hsign] at hst ⊢
    refine ⟨w, '-' :: (v ++ (digits ++ suffix)), -n, hw, .minus hv hd hs, rfl, ?_⟩
    have hu : u = digits ++ (suffix ++ t) := hst
    rw [hws, hvu, hu]
    simp only [List.cons_append, List.append_assoc]
  · rw [hsign] at hst ⊢
    refine ⟨w, digits ++ suffix, n, hw, .plain hd hs, rfl, ?_⟩
    rw [List.append_assoc, ← hst]
    exact hws

theorem ofInt_eq_iff : Int64.ofInt k = i ↔ i.toInt ≡ k [ZMOD 2 ^ 64] := by
  rw [← Int64.toInt_inj, Int64.toInt_ofInt]
  have hsize : ((Int64.size : Nat) : Int) = 2 ^ 64 := by decide
  rw [Int.ModEq, ← hsize]
  refine ⟨fun h => ?_, fun h => ?_⟩
  · rw [← h]
    exact Int.bmod_emod
  · calc
      k.bmod Int64.size = (k % Int64.size).bmod Int64.size := (Int.emod_bmod k _).symm
      _ = (i.toInt % Int64.size).bmod Int64.size := by rw [h]
      _ = i.toInt.bmod Int64.size := Int.emod_bmod _ _
      _ = i.toInt := i.toInt_bmod

theorem head?_decimal_ne (h : n ≠ 0) : (Numeral.decimal n).head? ≠ some '0' := by
  induction n using Nat.strong_induction_on with
  | h n ih =>
    by_cases hlt : n < 10
    · have hsingle : Numeral.decimal n = [n.digitChar] := Nat.toDigits_of_lt_base hlt
      rw [hsingle, List.head?_cons]
      intro hzero
      exact h (Nat.digitChar_eq_zero.mp (Option.some.inj hzero))
    · have hstep : Numeral.decimal n = Numeral.decimal (n / 10) ++ [(n % 10).digitChar] :=
        Nat.toDigits_of_base_le (by decide) (by omega)
      obtain ⟨d, t, hdt⟩ := List.exists_cons_of_ne_nil (Nat.toDigits_ne_nil (b := 10) (n := n / 10))
      have hrest := ih (n / 10) (by omega) (by omega)
      rw [Numeral.decimal, hdt] at hrest
      rw [hstep, Numeral.decimal, hdt, List.cons_append]
      exact hrest

theorem magnitude_decimal (n : Nat) : Magnitude (Numeral.decimal n) n := by
  by_cases hn : n = 0
  · rw [hn]
    exact Magnitude.octal (List.forall_mem_nil _)
  · have hne : Numeral.decimal n ≠ [] := Nat.toDigits_ne_nil
    have h := magnitude_of_digits hne (fun _ => isDigit_of_mem_decimal) (head?_decimal_ne hn)
    rwa [value_decimal] at h

theorem denotes_text (i : Int64) : Denotes (text i) i.toInt := by
  have hsuffix : Suffix [] := by simp [Suffix]
  have hm := magnitude_decimal i.toInt.natAbs
  rw [text]
  by_cases h : i.toInt < 0
  · have hi : i.toInt = -(i.toInt.natAbs : Int) := by omega
    have hminus := Denotes.minus blanks_nil hm hsuffix
    rw [List.nil_append, List.append_nil, ← hi] at hminus
    rwa [if_pos h]
  · have hi : i.toInt = (i.toInt.natAbs : Int) := by omega
    have hplain := Denotes.plain hm hsuffix
    rw [List.append_nil, ← hi] at hplain
    rwa [if_neg h]

end MaterialText.Integer
