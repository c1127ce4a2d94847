import MaterialText.Text.Basic

namespace MaterialText

/-- The twenty-five characters with the White_Space property. -/
def isBlank (c : Char) : Bool :=
  let n := c.toNat
  (0x09 ≤ n && n ≤ 0x0d) || n == 0x20 || n == 0x85 || n == 0xa0 || n == 0x1680 ||
    (0x2000 ≤ n && n ≤ 0x200a) || n == 0x2028 || n == 0x2029 || n == 0x202f || n == 0x205f ||
    n == 0x3000

def skipBlanks (s : Text) : Text := s.dropWhile isBlank

theorem skipBlanks_suffix (s : Text) : skipBlanks s <:+ s := List.dropWhile_suffix _

theorem skipBlanks_length_le (s : Text) : (skipBlanks s).length ≤ s.length :=
  (skipBlanks_suffix s).length_le

theorem not_isBlank_of_skipBlanks {s rest : Text} {c : Char} (h : skipBlanks s = c :: rest) :
    isBlank c = false := by
  have hd := List.head?_dropWhile_not isBlank s
  unfold skipBlanks at h
  rw [h] at hd
  simpa using hd

theorem skipBlanks_of_not_isBlank {c : Char} (rest : Text) (h : isBlank c = false) :
    skipBlanks (c :: rest) = c :: rest := by
  simp [skipBlanks, h]

@[simp]
theorem skipBlanks_skipBlanks (s : Text) : skipBlanks (skipBlanks s) = skipBlanks s := by
  cases h : skipBlanks s with
  | nil => rfl
  | cons c rest => exact skipBlanks_of_not_isBlank rest (not_isBlank_of_skipBlanks h)

theorem skipBlanks_append (w s : Text) (h : ∀ c ∈ w, isBlank c = true) :
    skipBlanks (w ++ s) = skipBlanks s := by
  induction w with
  | nil => rfl
  | cons c w ih =>
    have hc : isBlank c = true := h c (by simp)
    have hw : ∀ d ∈ w, isBlank d = true := fun d hd => h d (by simp [hd])
    simpa [skipBlanks, hc] using ih hw

end MaterialText
