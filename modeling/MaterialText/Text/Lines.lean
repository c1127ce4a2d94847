import MaterialText.Text.Basic

namespace MaterialText

def isLineBreak (c : Char) : Bool := c == '\r' || c == '\n'

def firstLine (s : Text) : Text := s.takeWhile (!isLineBreak ·)

def afterFirstLine (s : Text) : Text := s.dropWhile (!isLineBreak ·)

/-- The text after the line terminator that it starts with. -/
def dropTerminator : Text → Text
  | [] => []
  | '\r' :: '\n' :: rest => rest
  | _ :: rest => rest

theorem dropTerminator_length_lt {s : Text} (h : s ≠ []) :
    (dropTerminator s).length < s.length := by
  unfold dropTerminator
  split
  · exact absurd rfl h
  · simp only [List.length_cons]; omega
  · simp

@[simp]
theorem firstLine_append (s : Text) : firstLine s ++ afterFirstLine s = s :=
  List.takeWhile_append_dropWhile

theorem remaining_lines_length_lt {s : Text} (h : s ≠ []) :
    (dropTerminator (afterFirstLine s)).length < s.length := by
  have hle : (afterFirstLine s).length ≤ s.length := (List.dropWhile_suffix _).length_le
  by_cases hr : afterFirstLine s = []
  · rw [hr]; exact List.length_pos_iff.mpr h
  · exact Nat.lt_of_lt_of_le (dropTerminator_length_lt hr) hle

/-- The lines without their terminators; no line begins after a final terminator. -/
def lines (s : Text) : List Text :=
  if s = [] then [] else firstLine s :: lines (dropTerminator (afterFirstLine s))
termination_by s.length
decreasing_by exact remaining_lines_length_lt ‹_›

@[simp]
theorem lines_nil : lines [] = [] := by simp [lines]

theorem not_isLineBreak_of_mem_lines {s line : Text} (h : line ∈ lines s) :
    ∀ c ∈ line, isLineBreak c = false := by
  fun_induction lines s with
  | case1 => simp at h
  | case2 s hs ih =>
    rcases List.mem_cons.mp h with rfl | h
    · intro c hc
      simpa using List.all_eq_true.mp List.all_takeWhile c hc
    · exact ih h

end MaterialText
