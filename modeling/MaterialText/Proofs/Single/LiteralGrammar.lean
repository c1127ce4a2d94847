import MaterialText.Proofs.Single.Value
import MaterialText.Proofs.Text.Runs

namespace MaterialText.FloatLiteral
open Numeral

variable {s t w sg whole pt fraction ex rest literal : Text} {negative : Bool} {e : Int}
  {l : FloatLiteral} {x : Single} {c : Char}

inductive Sign : Text → Bool → Prop
  | absent : Sign [] false
  | plus : Sign ['+'] false
  | minus : Sign ['-'] true

def Digits (s : Text) : Prop := ∀ c ∈ s, c.isDigit = true

inductive Point : Text → Text → Prop
  | absent : Point [] []
  | present {digits : Text} (h : Digits digits) : Point ('.' :: digits) digits

inductive Exponent : Text → Int → Prop
  | absent : Exponent [] 0
  | present {mark : Char} {sg digits : Text} {negative : Bool} (hmark : mark = 'e' ∨ mark = 'E')
      (hsign : Sign sg negative) (hne : digits ≠ []) (h : Digits digits) :
      Exponent (mark :: (sg ++ digits)) (signed negative (Nat.ofDigits 10 (placeValues digits)))

/-- A literal without its suffix, and its parts. -/
inductive Spells : Text → FloatLiteral → Prop
  | parts {sg whole pt fraction ex : Text} {negative : Bool} {e : Int} (hsign : Sign sg negative)
      (hwhole : Digits whole) (hpoint : Point pt fraction) (hne : whole ≠ [] ∨ fraction ≠ [])
      (hexponent : Exponent ex e) :
      Spells (sg ++ (whole ++ (pt ++ ex))) ⟨negative, whole, fraction, e⟩

def Suffix (s : Text) : Prop := s ∈ [[], ['f'], ['F']]

/-- A literal with its value. -/
def Literal (s : Text) (x : Single) : Prop :=
  ∃ spelling suffix l, s = spelling ++ suffix ∧ Spells spelling l ∧ Suffix suffix ∧ HasValue l x

def isSign (c : Char) : Bool := c == '-' || c == '+'

def starts (c : Char) : Bool := isSign c || c.isDigit || c == '.'

/-- A character that could go on with a literal. -/
def continues (c : Char) : Bool := c.isDigit || c == '.' || isExponentMark c || isSuffix c

theorem sign_ite (negative : Bool) : Sign (if negative then ['-'] else []) negative := by
  cases negative with
  | false => exact .absent
  | true => exact .minus

theorem sign_run (h : Sign sg negative) (hs : Stops isSign s) : sign (sg ++ s) = (negative, s) := by
  cases h with
  | absent =>
    cases s with
    | nil => rfl
    | cons c s =>
      have hc := stops_cons.mp hs
      simp only [isSign, Bool.or_eq_false_iff, beq_eq_false_iff_ne] at hc
      unfold sign
      split <;> simp_all
  | plus => rfl
  | minus => rfl

theorem exists_of_sign (s : Text) : ∃ sg, Sign sg (sign s).1 ∧ s = sg ++ (sign s).2 := by
  unfold sign
  split
  · exact ⟨_, .minus, rfl⟩
  · exact ⟨_, .plus, rfl⟩
  · exact ⟨_, .absent, rfl⟩

@[simp]
theorem digits_run (hd : Digits t) (hs : Stops Char.isDigit s) :
    digits (t ++ s) = t ∧ afterDigits (t ++ s) = s :=
  ⟨takeWhile_run hd hs, dropWhile_run hd hs⟩

theorem digits_spec (s : Text) : Digits (digits s) := fun _ => of_mem_takeWhile

theorem point_run (h : Point pt fraction) (hs : Stops Char.isDigit s)
    (hdot : pt = [] → Stops (· == '.') s) : point (pt ++ s) = (fraction, s) := by
  cases h with
  | absent =>
    cases s with
    | nil => rfl
    | cons c s =>
      have hc := stops_cons.mp (hdot rfl)
      unfold point
      split <;> simp_all
  | present hd =>
    obtain ⟨hdigits, hafter⟩ := digits_run hd hs
    rw [List.cons_append, point, hdigits, hafter]

theorem exists_of_point (s : Text) : ∃ pt, Point pt (point s).1 ∧ s = pt ++ (point s).2 := by
  unfold point
  split
  · rename_i rest
    exact ⟨'.' :: digits rest, .present (digits_spec rest),
      congrArg ('.' :: ·) (digits_append rest).symm⟩
  · exact ⟨[], .absent, rfl⟩

theorem isExponentMark_iff : isExponentMark c = true ↔ c = 'e' ∨ c = 'E' := by
  simp [isExponentMark]

theorem not_isSign_of_isDigit (h : c.isDigit = true) : isSign c = false := by
  apply Bool.eq_false_iff.mpr
  intro hs
  simp only [isSign, Bool.or_eq_true, beq_iff_eq] at hs
  rcases hs with rfl | rfl <;> cases h

theorem stops_isSign_of_digits (hne : t ≠ []) (hd : Digits t) (s : Text) :
    Stops isSign (t ++ s) := by
  rw [stops_append hne]
  intro c hc
  exact not_isSign_of_isDigit (hd c (List.mem_of_mem_head? hc))

@[simp]
theorem exponentPart_of_stops (hs : Stops isExponentMark s) : exponentPart s = some (0, s) := by
  cases s with
  | nil => rfl
  | cons c s =>
    have hc := stops_cons.mp hs
    simp [exponentPart, hc]

theorem exponentPart_run (h : Exponent ex e) (hs : Stops Char.isDigit s)
    (hmark : ex = [] → Stops isExponentMark s) : exponentPart (ex ++ s) = some (e, s) := by
  cases h with
  | absent => exact exponentPart_of_stops (hmark rfl)
  | @present mark sg digits negative hm hsign hne hd =>
    obtain ⟨hdigits, hafter⟩ := digits_run hd hs
    have hsigned := sign_run hsign (stops_isSign_of_digits hne hd s)
    rw [List.cons_append, List.append_assoc, exponentPart, if_pos (isExponentMark_iff.mpr hm),
      hsigned, hdigits, hafter, if_neg hne, value_eq_ofDigits]

theorem Exponent.stops_append {p : Char → Bool} (h : Exponent ex e) (hlower : p 'e' = false)
    (hupper : p 'E' = false) (hr : ex = [] → Stops p rest) : Stops p (ex ++ rest) := by
  cases h with
  | absent => exact hr rfl
  | present hm =>
    rcases hm with rfl | rfl
    · exact stops_cons.mpr hlower
    · exact stops_cons.mpr hupper

theorem exists_of_exponentPart (h : exponentPart s = some (e, rest)) :
    ∃ ex, Exponent ex e ∧ s = ex ++ rest := by
  cases s with
  | nil =>
    cases h
    exact ⟨[], .absent, rfl⟩
  | cons c s =>
    rw [exponentPart] at h
    split at h
    · rename_i hc
      split at h
      · cases h
      · rename_i hne
        obtain ⟨sg, hsign, hs⟩ := exists_of_sign s
        cases h
        refine ⟨c :: (sg ++ digits (sign s).2), ?_, ?_⟩
        · rw [value_eq_ofDigits]
          exact .present (isExponentMark_iff.mp hc) hsign hne (digits_spec _)
        · rw [List.cons_append, List.append_assoc, digits_append, ← hs]
    · cases h
      exact ⟨[], .absent, rfl⟩

theorem Spells.isDigit (h : Spells s l) : ∀ c ∈ l.whole ++ l.fraction, c.isDigit = true := by
  cases h with
  | parts hsign hwhole hpoint =>
    intro c hc
    rcases List.mem_append.mp hc with hc | hc
    · exact hwhole c hc
    · cases hpoint with
      | absent => cases hc
      | present h => exact h c hc

/-- The parts of a literal are read whole, up to where the last of them stops. -/
theorem scan_run (hsign : Sign sg negative) (hwhole : Digits whole) (hpoint : Point pt fraction)
    (hne : whole ≠ [] ∨ fraction ≠ []) (hexponent : Exponent ex e)
    (hdigit : Stops Char.isDigit rest) (hdot : pt = [] → ex = [] → Stops (· == '.') rest)
    (hmark : ex = [] → Stops isExponentMark rest) :
    scan (sg ++ (whole ++ (pt ++ (ex ++ rest)))) = some (⟨negative, whole, fraction, e⟩, rest) := by
  -- Each part ends where the next one begins, from the last back to the sign.
  have hex : Stops Char.isDigit (ex ++ rest) := hexponent.stops_append rfl rfl fun _ => hdigit
  have hexdot (hp : pt = []) : Stops (· == '.') (ex ++ rest) :=
    hexponent.stops_append rfl rfl (hdot hp)
  have hpt : Stops Char.isDigit (pt ++ (ex ++ rest)) := by
    cases hpoint with
    | absent => exact hex
    | present => exact stops_cons.mpr rfl
  have hsg : Stops isSign (whole ++ (pt ++ (ex ++ rest))) := by
    by_cases hw : whole = []
    · cases hpoint with
      | absent => exact absurd rfl (hne.resolve_left (not_not.mpr hw))
      | present =>
        rw [hw]
        exact stops_cons.mpr rfl
    · exact stops_isSign_of_digits hw hwhole _
  obtain ⟨hdigits, hafter⟩ := digits_run hwhole hpt
  simp only [scan, sign_run hsign hsg, hdigits, hafter, point_run hpoint hex hexdot,
    exponentPart_run hexponent hdigit hmark]
  rw [if_neg, Option.map_some]
  intro h
  exact hne.elim (· h.1) (· h.2)

theorem exists_of_scan (h : scan s = some (l, rest)) :
    ∃ spelling, Spells spelling l ∧ s = spelling ++ rest := by
  simp only [scan] at h
  split at h
  · cases h
  · rename_i hne
    obtain ⟨⟨e, u⟩, hexp, h⟩ := Option.map_eq_some_iff.mp h
    obtain ⟨sg, hsign, hs⟩ := exists_of_sign s
    obtain ⟨pt, hpoint, hafter⟩ := exists_of_point (afterDigits (sign s).2)
    obtain ⟨ex, hexponent, hrest⟩ := exists_of_exponentPart hexp
    cases h
    refine ⟨_, .parts hsign (digits_spec (sign s).2) hpoint ?_ hexponent, ?_⟩
    -- A literal has a digit before the point or after it.
    · by_cases hw : digits (sign s).2 = []
      · exact .inr fun hf => hne ⟨hw, hf⟩
      · exact .inl hw
    · simp only [List.append_assoc]
      rw [← hrest, ← hafter, digits_append, ← hs]

theorem suffix_iff : Suffix s ↔ AtMostOne isSuffix s := by
  simp only [Suffix, AtMostOne, isSuffix, List.mem_cons, List.not_mem_nil, or_false,
    Bool.or_eq_true, beq_iff_eq]
  refine or_congr_right ⟨fun h => ?_, fun h => ?_⟩
  · rcases h with rfl | rfl <;> simp
  · obtain ⟨c, hc, rfl⟩ := h
    simpa using hc

theorem exists_of_read (h : read s = some (x, rest)) :
    ∃ w literal, Blanks w ∧ Literal literal x ∧ s = w ++ (literal ++ rest) := by
  obtain ⟨l, t, hscan, hvalue, rfl⟩ := read_eq_some_iff.mp h
  obtain ⟨spelling, hspells, hst⟩ := exists_of_scan hscan
  obtain ⟨suffix, hsuffix, ht⟩ := exists_append_dropOne isSuffix t
  obtain ⟨w, hw, hs⟩ := exists_blanks_append_skipBlanks s
  have hval := (value?_eq_some_iff hspells.isDigit).mp hvalue
  refine ⟨w, spelling ++ suffix, hw, ⟨spelling, suffix, l, rfl, hspells, suffix_iff.mpr hsuffix, hval⟩, ?_⟩
  rw [List.append_assoc, ← ht, ← hst, ← hs]

theorem exists_cons_of_parts (hsign : Sign sg negative) (hwhole : Digits whole)
    (hpoint : Point pt fraction) (hne : whole ≠ [] ∨ fraction ≠ []) (s : Text) :
    ∃ c t, sg ++ (whole ++ (pt ++ s)) = c :: t ∧ starts c = true := by
  cases hsign with
  | absent =>
    cases whole with
    | nil =>
      cases hpoint with
      | absent => exact absurd rfl (hne.resolve_left (not_not.mpr rfl))
      | present => exact ⟨'.', _, rfl, rfl⟩
    | cons d whole =>
      have hd : d.isDigit = true := hwhole d (by simp)
      exact ⟨d, _, rfl, by simp [starts, hd]⟩
  | plus => exact ⟨'+', _, rfl, rfl⟩
  | minus => exact ⟨'-', _, rfl, rfl⟩

theorem not_isBlank_of_starts (h : starts c = true) : isBlank c = false := by
  simp only [starts, isSign, Bool.or_eq_true, beq_iff_eq] at h
  rcases h with ((rfl | rfl) | h) | rfl
  · decide
  · decide
  · exact not_isBlank_of_isWordChar (by simp [isWordChar, Char.isAlphanum, h])
  · decide

theorem Literal.exists_cons (h : Literal s x) : ∃ c t, s = c :: t ∧ starts c = true := by
  obtain ⟨_, suffix, _, rfl, hspells, -, -⟩ := h
  cases hspells with
  | parts hsign hwhole hpoint hne =>
    simp only [List.append_assoc]
    exact exists_cons_of_parts hsign hwhole hpoint hne _

theorem read_run {suffix : Text} (hw : Blanks w) (hsign : Sign sg negative) (hwhole : Digits whole)
    (hpoint : Point pt fraction) (hne : whole ≠ [] ∨ fraction ≠ []) (hexponent : Exponent ex e)
    (hsuffix : Suffix suffix) (hvalue : HasValue ⟨negative, whole, fraction, e⟩ x)
    (hdigit : suffix = [] → Stops Char.isDigit rest)
    (hdot : pt = [] → ex = [] → suffix = [] → Stops (· == '.') rest)
    (hmark : ex = [] → suffix = [] → Stops isExponentMark rest)
    (hstop : suffix = [] → Stops isSuffix rest) :
    read (w ++ (sg ++ (whole ++ (pt ++ (ex ++ (suffix ++ rest)))))) = some (x, rest) := by
  -- A suffix letter stops every part before it.
  have stop {p : Char → Bool} (hp : p 'f' = false ∧ p 'F' = false)
      (h : suffix = [] → Stops p rest) : Stops p (suffix ++ rest) := by
    apply stops_atMostOne_append (suffix_iff.mp hsuffix) _ h
    intro c hc
    simp only [isSuffix, Bool.or_eq_true, beq_iff_eq] at hc
    rcases hc with rfl | rfl
    · exact hp.1
    · exact hp.2
  have hscan := scan_run hsign hwhole hpoint hne hexponent (stop ⟨rfl, rfl⟩ hdigit)
    (fun hp he => stop ⟨rfl, rfl⟩ (hdot hp he)) (fun he => stop ⟨rfl, rfl⟩ (hmark he))
  have hspells := Spells.parts hsign hwhole hpoint hne hexponent
  have hblank : Stops isBlank (sg ++ (whole ++ (pt ++ (ex ++ (suffix ++ rest))))) := by
    obtain ⟨c, t, hct, hc⟩ := exists_cons_of_parts hsign hwhole hpoint hne (ex ++ (suffix ++ rest))
    rw [hct, stops_cons]
    exact not_isBlank_of_starts hc
  rw [read_eq_some_iff, skipBlanks_run hw hblank]
  refine ⟨_, suffix ++ rest, hscan, (value?_eq_some_iff hspells.isDigit).mpr hvalue, ?_⟩
  rw [dropOne_run (suffix_iff.mp hsuffix) hstop]

/-- A literal that nothing continues is read whole. -/
theorem read_literal (hw : Blanks w) (h : Literal literal x) (hr : Stops continues rest) :
    read (w ++ (literal ++ rest)) = some (x, rest) := by
  obtain ⟨_, suffix, _, rfl, hspells, hsuffix, hvalue⟩ := h
  cases hspells with
  | parts hsign hwhole hpoint hne hexponent =>
    simp only [List.append_assoc]
    apply read_run hw hsign hwhole hpoint hne hexponent hsuffix hvalue
    · intro _
      exact hr.mono fun c hc => by simp [continues, hc]
    · intro _ _ _
      exact hr.mono fun c hc => by simp [continues, hc]
    · intro _ _
      exact hr.mono fun c hc => by simp [continues, hc]
    · intro _
      exact hr.mono fun c hc => by simp [continues, hc]

theorem Literal.read (h : Literal s x) : FloatLiteral.read s = some (x, []) := by
  have hread := read_literal blanks_nil h stops_nil
  rwa [List.nil_append, List.append_nil] at hread

theorem Literal.unique {y : Single} (hx : Literal s x) (hy : Literal s y) : x = y := by
  have h := hx.read
  rw [hy.read] at h
  exact (Prod.mk.inj (Option.some.inj h)).1.symm

theorem Sign.visible (h : Sign sg negative) : Visible sg := by
  cases h <;> simp

theorem Exponent.visible (h : Exponent ex e) : Visible ex := by
  cases h with
  | absent => simp
  | present hmark hsign _ hdigits =>
    rcases hmark with rfl | rfl <;> simp [hsign.visible, visible_of_forall_isDigit hdigits]

theorem Suffix.visible (h : Suffix s) : Visible s := by
  simp only [Suffix, List.mem_cons, List.not_mem_nil, or_false] at h
  rcases h with rfl | rfl | rfl <;> simp

theorem Literal.visible (h : Literal s x) : Visible s := by
  obtain ⟨_, suffix, _, rfl, hspells, hsuffix, -⟩ := h
  cases hspells with
  | parts hsign hwhole hpoint _ hexponent =>
    simp only [visible_append]
    refine ⟨⟨hsign.visible, visible_of_forall_isDigit hwhole, ?_, hexponent.visible⟩, hsuffix.visible⟩
    cases hpoint with
    | absent => simp
    | present h => simp [visible_of_forall_isDigit h]

theorem Literal.isFinite (h : Literal s x) : x.isFinite = true := by
  obtain ⟨_, _, _, _, _, _, hvalue⟩ := h
  exact hvalue.2.2.1

end MaterialText.FloatLiteral
