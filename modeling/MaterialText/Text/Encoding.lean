import MaterialText.Text.Basic

namespace MaterialText.Text

/-- The text that the bytes encode, if they are well-formed UTF-8. -/
def decode? (bytes : ByteArray) : Option Text := (String.fromUTF8? bytes).map String.toList

def encode (s : Text) : ByteArray := (String.ofList s).toUTF8

theorem fromUTF8?_toUTF8 (s : String) : String.fromUTF8? s.toUTF8 = some s := by
  have h : s.toUTF8.IsValidUTF8 := s.isValidUTF8
  rw [String.fromUTF8?, dif_pos h]
  rfl

@[simp]
theorem decode?_encode (s : Text) : decode? (encode s) = some s := by
  rw [decode?, encode, fromUTF8?_toUTF8, Option.map_some, String.toList_ofList]

theorem decode?_eq_none_iff {bytes : ByteArray} : decode? bytes = none ↔ ¬bytes.IsValidUTF8 := by
  simp [decode?, String.fromUTF8?]

def byteOrderMark : Char := '\uFEFF'

/-- The text after at most one byte-order mark. -/
def dropMark : Text → Text := dropOne (· == byteOrderMark)

/-- What stands before the first null character. -/
def terminated (s : Text) : Text := s.takeWhile (· != '\x00')

theorem terminated_eq_self_iff {s : Text} : terminated s = s ↔ '\x00' ∉ s := by
  induction s with
  | nil => simp [terminated]
  | cons c s ih =>
    by_cases h : c = '\x00'
    · simp [terminated, h]
    · simp only [terminated, List.mem_cons] at ih ⊢
      simp [h, ih, Ne.symm h]

end MaterialText.Text
