import MaterialText.Proofs.Cursor.Motions

namespace MaterialText.Cursor

variable {line s : Text}

/-- What one step keeps on a line, from the cursor before it to the cursor after it. -/
structure Keeps (line : Text) (step : Step) (c : Cursor) (finding : Finding) (c' : Cursor) :
    Prop where
  onLine : c'.line = line
  /-- The cursor stands between two parts of the line. -/
  splits : ∃ p s, line = p ++ s ∧ c'.remaining? = some s ∧ c'.position = Text.byteLength p ∧
    c'.column = p.length
  inLine : c'.position ≤ Text.byteLength line
  forward : c.position ≤ c'.position
  /-- A word ends what was passed, and only blanks come before it. -/
  word : step = .word → ∃ w run, Blanks w ∧ finding = .text run ∧
    Text.slice? c.position c'.position line = some (w ++ run)
  /-- A literal that is not found leaves the cursor where it was. -/
  restored : step = .quoted ∨ step = .integer ∨ step = .float → finding = .nothing → c' = c

/-- The steps of a run are all answered, and each in accordance with a law of one step. -/
inductive Runs (law : Step → Cursor → Finding → Cursor → Prop) :
    Cursor → List Step → List (Finding × Cursor) → Prop
  | nil (c : Cursor) : Runs law c [] []
  | cons {c c' : Cursor} {step : Step} {steps : List Step} {finding : Finding}
      {found : List (Finding × Cursor)} (h : law step c finding c') (hs : Runs law c' steps found) :
      Runs law c (step :: steps) ((finding, c') :: found)

theorem reading_nothing {α : Type} (report : α → Finding) {found : Option (α × Text)}
    (hreport : ∀ a, report a ≠ .nothing) (h : (reading report s found).1 = .nothing) :
    (reading report s found).2 = s := by
  cases found with
  | none => rfl
  | some p => exact (hreport p.1 h).elim

theorem splits_before (h : s <:+ line) : ∃ p s', line = p ++ s' ∧
    (before line s).remaining? = some s' ∧ (before line s).position = Text.byteLength p ∧
      (before line s).column = p.length := by
  have hrest := remaining?_before h
  obtain ⟨p, rfl⟩ := h
  refine ⟨p, s, rfl, hrest, ?_, ?_⟩
  · rw [before_append]
  · rw [column, split?_before]
    rfl

theorem keeps_perform (h : s <:+ line) (step : Step) :
    Keeps line step (before line s) (step.read s).1 (before line (step.read s).2) where
  onLine := rfl
  splits := splits_before ((step.read_suffix s).trans h)
  inLine := Nat.sub_le _ _
  forward := position_before_le (step.read_suffix s)
  word := by
    rintro rfl
    obtain ⟨w, hw, hs⟩ := Word.exists_blanks_append_scan s
    refine ⟨w, (Word.scan s).1, hw, rfl, ?_⟩
    rw [← List.append_assoc] at hs
    have hslice := slice?_before (hs ▸ h)
    rwa [← hs] at hslice
  restored := by
    rintro (rfl | rfl | rfl) hnothing
    · exact congrArg (before line) (reading_nothing .text (by simp) hnothing)
    · exact congrArg (before line) (reading_nothing .integer (by simp) hnothing)
    · exact congrArg (before line) (reading_nothing .float (by simp) hnothing)

theorem runs_before (h : s <:+ line) (steps : List Step) :
    Runs (Keeps line) (before line s) steps ((before line s).run steps) := by
  induction steps generalizing s with
  | nil => exact .nil _
  | cons step steps ih =>
    rw [run, perform_before h]
    exact .cons (keeps_perform h step) (ih ((step.read_suffix s).trans h))

/-- No step of a run from the start of a line breaks down, and each keeps what a step keeps. -/
theorem run_keeps (line : Text) (steps : List Step) :
    Runs (Keeps line) (start line) steps ((start line).run steps) := by
  have hruns := runs_before (List.suffix_refl line) steps
  rwa [before_line] at hruns

end MaterialText.Cursor
