namespace MaterialText

/-- Text is a list of code points, so that every reader and writer recurses on the data. -/
abbrev Text := List Char

namespace Text

def byteLength (s : Text) : Nat := s.foldr (fun c n => c.utf8Size + n) 0

@[simp]
theorem byteLength_append (s t : Text) : byteLength (s ++ t) = byteLength s + byteLength t := by
  induction s with
  | nil => simp [byteLength]
  | cons c s ih =>
    unfold byteLength at ih ⊢
    rw [List.cons_append, List.foldr_cons, List.foldr_cons, ih, Nat.add_assoc]

def eat (c : Char) : Text → Option Text
  | [] => none
  | d :: rest => if d = c then some rest else none

theorem eat_eq_some_iff {c : Char} {s rest : Text} : eat c s = some rest ↔ s = c :: rest := by
  cases s with
  | nil => simp [eat]
  | cons d r => by_cases h : d = c <;> simp [eat, h]

@[simp]
theorem eat_cons_self (c : Char) (s : Text) : eat c (c :: s) = some s := if_pos rfl

def dropOne (p : Char → Bool) : Text → Text
  | [] => []
  | c :: rest => if p c then rest else c :: rest

theorem dropOne_suffix (p : Char → Bool) (s : Text) : dropOne p s <:+ s := by
  cases s with
  | nil => exact List.suffix_refl _
  | cons c rest =>
    rw [dropOne]
    split
    · exact List.suffix_cons _ _
    · exact List.suffix_refl _

end Text
end MaterialText
