import MaterialText.Single.Nearest
import MaterialText.Text.Blank

namespace MaterialText

structure FloatLiteral where
  negative : Bool
  whole : Text
  fraction : Text
  exponent : Int
deriving DecidableEq

namespace FloatLiteral

def digits (s : Text) : Text := s.takeWhile Char.isDigit

def afterDigits (s : Text) : Text := s.dropWhile Char.isDigit

def sign : Text → Bool × Text
  | '-' :: rest => (true, rest)
  | '+' :: rest => (false, rest)
  | s => (false, s)

def point : Text → Text × Text
  | '.' :: rest => (digits rest, afterDigits rest)
  | s => ([], s)

def isExponentMark (c : Char) : Bool := c == 'e' || c == 'E'

/-- The exponent, zero without a mark; a mark has to be followed by digits. -/
def exponentPart : Text → Option (Int × Text)
  | [] => some (0, [])
  | c :: rest =>
    if isExponentMark c then
      if digits (sign rest).2 = [] then none
      else some (Numeral.signed (sign rest).1 (Numeral.value 10 (digits (sign rest).2)),
        afterDigits (sign rest).2)
    else some (0, c :: rest)

def scan (s : Text) : Option (FloatLiteral × Text) :=
  let signed := sign s
  let fraction := point (afterDigits signed.2)
  if digits signed.2 = [] ∧ fraction.1 = [] then none
  else (exponentPart fraction.2).map fun p =>
    (⟨signed.1, digits signed.2, fraction.1, p.1⟩, p.2)

/-- The nearest single, unless that is infinity. A zero keeps its sign. -/
def value? (l : FloatLiteral) : Option Single :=
  let code := Single.decimalCode (l.whole ++ l.fraction) (l.exponent - l.fraction.length)
  if code < Single.infinityCode then some ⟨l.negative, BitVec.ofNat 31 code⟩ else none

def isSuffix (c : Char) : Bool := c == 'f' || c == 'F'

/-- The value of a literal after leading blanks, and what follows it and at most one suffix
letter. -/
def read (s : Text) : Option (Single × Text) :=
  (scan (skipBlanks s)).bind fun p => p.1.value?.map fun x => (x, Text.dropOne isSuffix p.2)

@[simp]
theorem digits_append (s : Text) : digits s ++ afterDigits s = s := List.takeWhile_append_dropWhile

theorem afterDigits_suffix (s : Text) : afterDigits s <:+ s := List.dropWhile_suffix _

theorem sign_suffix (s : Text) : (sign s).2 <:+ s := by
  unfold sign
  split <;> simp

theorem point_suffix (s : Text) : (point s).2 <:+ s := by
  unfold point
  split
  · exact (afterDigits_suffix _).trans (List.suffix_cons _ _)
  · exact List.suffix_refl _

theorem exponentPart_suffix {s rest : Text} {e : Int} (h : exponentPart s = some (e, rest)) :
    rest <:+ s := by
  cases s with
  | nil => cases h; exact List.suffix_refl _
  | cons c s =>
    rw [exponentPart] at h
    split at h
    · split at h
      · cases h
      · cases h
        exact ((afterDigits_suffix _).trans (sign_suffix _)).trans (List.suffix_cons _ _)
    · cases h; exact List.suffix_refl _

theorem point_length_le (s : Text) : (point s).1.length + (point s).2.length ≤ s.length := by
  unfold point
  split
  · rename_i rest
    have h := congrArg List.length (digits_append rest)
    simp only [List.length_append, List.length_cons] at h ⊢
    omega
  · simp

theorem scan_suffix {s rest : Text} {l : FloatLiteral} (h : scan s = some (l, rest)) :
    rest <:+ s := by
  unfold scan at h
  simp only at h
  split at h
  · cases h
  · obtain ⟨p, hp, h⟩ := Option.map_eq_some_iff.mp h
    cases h
    exact (exponentPart_suffix hp).trans
      ((point_suffix _).trans ((afterDigits_suffix _).trans (sign_suffix _)))

theorem scan_length_lt {s rest : Text} {l : FloatLiteral} (h : scan s = some (l, rest)) :
    rest.length < s.length := by
  unfold scan at h
  simp only at h
  split at h
  · cases h
  · rename_i hne
    obtain ⟨p, hp, h⟩ := Option.map_eq_some_iff.mp h
    cases h
    have hexp := (exponentPart_suffix hp).length_le
    have hpoint := point_length_le (afterDigits (sign s).2)
    have hsign := (sign_suffix s).length_le
    have hdigits := congrArg List.length (digits_append (sign s).2)
    rw [List.length_append] at hdigits
    have hpos : 0 < (digits (sign s).2).length + (point (afterDigits (sign s).2)).1.length := by
      by_cases hw : digits (sign s).2 = []
      · have hf : (point (afterDigits (sign s).2)).1 ≠ [] := fun hf => hne ⟨hw, hf⟩
        have := List.length_pos_iff.mpr hf
        omega
      · have := List.length_pos_iff.mpr hw
        omega
    omega

theorem read_eq_some_iff {s rest : Text} {x : Single} : read s = some (x, rest) ↔
    ∃ l t, scan (skipBlanks s) = some (l, t) ∧ l.value? = some x ∧
      rest = Text.dropOne isSuffix t := by
  simp only [read, Option.bind_eq_some_iff, Option.map_eq_some_iff, Prod.mk.injEq, Prod.exists]
  constructor
  · rintro ⟨l, t, hs, y, hv, rfl, rfl⟩
    exact ⟨l, t, hs, hv, rfl⟩
  · rintro ⟨l, t, hs, hv, rfl⟩
    exact ⟨l, t, hs, x, hv, rfl, rfl⟩

theorem read_suffix {s rest : Text} {x : Single} (h : read s = some (x, rest)) : rest <:+ s := by
  obtain ⟨l, t, hs, -, rfl⟩ := read_eq_some_iff.mp h
  exact (Text.dropOne_suffix _ t).trans ((scan_suffix hs).trans (skipBlanks_suffix s))

theorem read_length_lt {s rest : Text} {x : Single} (h : read s = some (x, rest)) :
    rest.length < s.length := by
  obtain ⟨l, t, hs, -, rfl⟩ := read_eq_some_iff.mp h
  have := (Text.dropOne_suffix isSuffix t).length_le
  have := scan_length_lt hs
  have := skipBlanks_length_le s
  omega

end FloatLiteral
end MaterialText
