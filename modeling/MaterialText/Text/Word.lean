import MaterialText.Text.Blank

namespace MaterialText

def isWordChar (c : Char) : Bool := c.isAlphanum || c == '_'

/-- A name that a declaration can give. -/
def IsWord (s : Text) : Prop := s ≠ [] ∧ ∀ c ∈ s, isWordChar c = true

instance (s : Text) : Decidable (IsWord s) :=
  decidable_of_iff (s.isEmpty = false ∧ s.all isWordChar = true) (by simp [IsWord])

namespace Word

/-- The longest word after leading blanks, empty if there is none, and what follows it. -/
def scan (s : Text) : Text × Text :=
  let t := skipBlanks s
  (t.takeWhile isWordChar, t.dropWhile isWordChar)

@[simp]
theorem scan_append (s : Text) : (scan s).1 ++ (scan s).2 = skipBlanks s :=
  List.takeWhile_append_dropWhile

theorem isWordChar_of_mem_scan {s : Text} {c : Char} (h : c ∈ (scan s).1) :
    isWordChar c = true :=
  List.all_eq_true.mp List.all_takeWhile c h

theorem isWord_scan {s : Text} (h : (scan s).1 ≠ []) : IsWord (scan s).1 :=
  ⟨h, fun _ hc => isWordChar_of_mem_scan hc⟩

theorem scan_suffix (s : Text) : (scan s).2 <:+ s :=
  (List.dropWhile_suffix _).trans (skipBlanks_suffix s)

end Word
end MaterialText
