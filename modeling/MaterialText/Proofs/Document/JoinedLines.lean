import MaterialText.Document.Basic
import MaterialText.Proofs.Text.LineBreaks

namespace MaterialText

variable {ls : List Text} {l : Text}

theorem LineEnding.isTerminator (e : LineEnding) : IsTerminator e.text := by
  cases e <;> simp [LineEnding.text, IsTerminator]

theorem LineEnding.text_ne (e : LineEnding) : e.text ≠ ['\r'] := by
  cases e <;> simp [LineEnding.text]

theorem lines_append_ending (hl : NoBreaks l) (e : LineEnding) (rest : Text) :
    lines (l ++ (e.text ++ rest)) = l :: lines rest :=
  lines_append hl e.isTerminator fun h => absurd h e.text_ne

/-- Joining without a final ending loses the last line if it is empty. -/
theorem lines_intercalate (hls : ∀ l ∈ ls, NoBreaks l) (hl : NoBreaks l) (e : LineEnding) :
    lines (List.intercalate e.text (ls ++ [l])) = ls ++ if l = [] then [] else [l] := by
  induction ls with
  | nil =>
    rw [List.nil_append, List.intercalate_singleton, List.nil_append]
    by_cases h : l = []
    · rw [if_pos h, h, lines_nil]
    · rw [if_neg h, lines_of_noBreaks hl h]
  | cons a ls ih =>
    have ha : NoBreaks a := hls a (by simp)
    have hrest : ∀ l ∈ ls, NoBreaks l := fun l hl => hls l (by simp [hl])
    rw [List.cons_append, List.intercalate_cons_of_ne_nil (by simp), List.append_assoc,
      lines_append_ending ha, ih hrest, List.cons_append]

theorem lines_joined (hls : ∀ l ∈ ls, NoBreaks l) (e : LineEnding) :
    lines (List.intercalate e.text ls) = if ls.getLast? = some [] then ls.dropLast else ls := by
  obtain rfl | ⟨init, last, rfl⟩ := ls.eq_nil_or_concat
  · rw [List.intercalate_nil, lines_nil]
    rfl
  · rw [List.concat_eq_append] at hls ⊢
    rw [List.forall_mem_append, List.forall_mem_singleton] at hls
    rw [lines_intercalate hls.1 hls.2, List.getLast?_concat, List.dropLast_concat]
    by_cases hlast : last = []
    · rw [if_pos hlast, if_pos (congrArg some hlast), List.append_nil]
    · rw [if_neg hlast, if_neg fun h => hlast (Option.some.inj h)]

theorem intercalate_cons_head (separator : Text) (c : Char) (l : Text) (ls : List Text) :
    List.intercalate separator ((c :: l) :: ls) = c :: List.intercalate separator (l :: ls) := by
  cases ls <;> rfl

/-- Joining with a final ending is joining with an empty line after the last. -/
theorem intercalate_append_ending (hne : ls ≠ []) (e : LineEnding) :
    List.intercalate e.text ls ++ e.text = List.intercalate e.text (ls ++ [[]]) := by
  induction ls with
  | nil => exact absurd rfl hne
  | cons a ls ih =>
    by_cases h : ls = []
    · rw [h, List.intercalate_singleton, List.cons_append, List.nil_append,
        List.intercalate_cons_cons, List.intercalate_singleton, List.append_nil]
    · rw [List.cons_append, List.intercalate_cons_of_ne_nil h,
        List.intercalate_cons_of_ne_nil (by simp), List.append_assoc, ih h]

theorem lines_intercalate_append_ending (hls : ∀ l ∈ ls, NoBreaks l) (hne : ls ≠ [])
    (e : LineEnding) : lines (List.intercalate e.text ls ++ e.text) = ls := by
  rw [intercalate_append_ending hne, lines_intercalate hls noBreaks_nil, if_pos rfl,
    List.append_nil]

end MaterialText
