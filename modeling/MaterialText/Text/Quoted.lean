import MaterialText.Text.Blank

namespace MaterialText.Quoted

def escapeLetter : Char → Option Char
  | '\x07' => some 'a'
  | '\x08' => some 'b'
  | '\x0c' => some 'f'
  | '\n' => some 'n'
  | '\r' => some 'r'
  | '\t' => some 't'
  | '\x0b' => some 'v'
  | '"' => some '"'
  | '\\' => some '\\'
  | _ => none

def escapeChar (c : Char) : Text :=
  match escapeLetter c with
  | some letter => ['\\', letter]
  | none => [c]

def escape (s : Text) : Text := s.flatMap escapeChar

/-- What a character after a backslash stands for: itself unless it is one of seven letters. -/
def denoted : Char → Char
  | 'a' => '\x07'
  | 'b' => '\x08'
  | 'f' => '\x0c'
  | 'n' => '\n'
  | 'r' => '\r'
  | 't' => '\t'
  | 'v' => '\x0b'
  | c => c

/-- The text up to the first quote that no backslash takes, decoded, and what follows that quote. -/
def body : Text → Option (Text × Text)
  | [] => none
  | '"' :: rest => some ([], rest)
  | '\\' :: c :: rest => (body rest).map fun p => (denoted c :: p.1, p.2)
  | c :: rest => if c = '\\' then none else (body rest).map fun p => (c :: p.1, p.2)

def scan (s : Text) : Option (Text × Text) := (Text.eat '"' (skipBlanks s)).bind body

theorem body_suffix {s value rest : Text} (h : body s = some (value, rest)) : rest <:+ s := by
  fun_induction body s generalizing value with
  | case1 => cases h
  | case2 after =>
    cases h
    exact List.suffix_cons _ _
  | case3 c after ih =>
    obtain ⟨p, hp, h⟩ := Option.map_eq_some_iff.mp h
    cases h
    exact ((ih hp).trans (List.suffix_cons _ _)).trans (List.suffix_cons _ _)
  | case4 => cases h
  | case5 c after _ _ _ ih =>
    obtain ⟨p, hp, h⟩ := Option.map_eq_some_iff.mp h
    cases h
    exact (ih hp).trans (List.suffix_cons _ _)

theorem scan_suffix {s value rest : Text} (h : scan s = some (value, rest)) : rest <:+ s := by
  obtain ⟨t, ht, hb⟩ := Option.bind_eq_some_iff.mp h
  have hs := skipBlanks_suffix s
  rw [Text.eat_eq_some_iff.mp ht] at hs
  exact ((body_suffix hb).trans (List.suffix_cons _ _)).trans hs

theorem denoted_of_escapeLetter {c letter : Char} (h : escapeLetter c = some letter) :
    denoted letter = c := by
  unfold escapeLetter at h
  split at h <;> cases h <;> rfl

theorem ne_of_escapeLetter_eq_none {c : Char} (h : escapeLetter c = none) :
    c ≠ '"' ∧ c ≠ '\\' := by
  constructor <;> rintro rfl <;> cases h

@[simp]
theorem body_escape (s rest : Text) : body (escape s ++ '"' :: rest) = some (s, rest) := by
  induction s with
  | nil => simp [escape, body]
  | cons c s ih =>
    have hs : escape (c :: s) ++ '"' :: rest = escapeChar c ++ (escape s ++ '"' :: rest) := by
      simp [escape]
    rw [hs, escapeChar]
    cases h : escapeLetter c with
    | some letter => simp [body, ih, denoted_of_escapeLetter h]
    | none =>
      obtain ⟨hq, hb⟩ := ne_of_escapeLetter_eq_none h
      have hc : body (c :: (escape s ++ '"' :: rest)) =
          (body (escape s ++ '"' :: rest)).map fun p => (c :: p.1, p.2) := by
        rw [body] <;> simp_all
      simp [hc, ih]

@[simp]
theorem scan_escape (s rest : Text) : scan ('"' :: (escape s ++ '"' :: rest)) = some (s, rest) := by
  have hq : isBlank '"' = false := by decide
  simp [scan, skipBlanks_of_not_isBlank _ hq, Text.eat]

end MaterialText.Quoted
