import MaterialText.Proofs.Document.RoundTrip

namespace MaterialText

variable {s t w body value rhs line name argument : Text} {c : Char} {values : List Single}

theorem Visible.null_not_mem (h : Visible s) : '\x00' ∉ s := fun hnull => by
  cases h _ hnull

theorem Blanks.null_not_mem (h : Blanks w) : '\x00' ∉ w := fun hnull => by
  cases h _ hnull

theorem Integer.Magnitude.isWord {digits : Text} {n : Nat} (h : Magnitude digits n) :
    IsWord digits := by
  have hword {radix : Nat} {c : Char} (hc : Numeral.isDigitOf radix c = true) :
      isWordChar c = true := by
    rw [isWordChar, isAlphanum_of_isDigitOf hc, Bool.true_or]
  cases h with
  | hexadecimal hx _ h =>
    refine ⟨List.cons_ne_nil _ _, List.forall_mem_cons.mpr ⟨by decide, List.forall_mem_cons.mpr
      ⟨?_, fun c hc => hword (Numeral.isDigitOf_sixteen_iff.mpr (h c hc))⟩⟩⟩
    rcases hx with rfl | rfl <;> decide
  | octal h =>
    exact ⟨List.cons_ne_nil _ _, List.forall_mem_cons.mpr
      ⟨by decide, fun c hc => hword (Numeral.isDigitOf_eight_iff.mpr (h c hc))⟩⟩
  | decimal hd h =>
    exact ⟨List.cons_ne_nil _ _, List.forall_mem_cons.mpr
      ⟨isWordChar_of_isDigit (Numeral.nonzero_digit_iff.mp hd).1,
        fun c hc => isWordChar_of_isDigit (h c hc)⟩⟩

theorem Integer.Denotes.null_not_mem {literal : Text} {k : Int} (h : Denotes literal k) :
    '\x00' ∉ literal := by
  have hsuffix {suffix : Text} (hs : Suffix suffix) : '\x00' ∉ suffix := by
    simp only [Suffix, List.mem_cons, List.not_mem_nil, or_false] at hs
    rcases hs with rfl | rfl | rfl | rfl | rfl <;> decide
  cases h with
  | plain h hs => simp [h.isWord.visible.null_not_mem, hsuffix hs]
  | minus hw h hs => simp [hw.null_not_mem, h.isWord.visible.null_not_mem, hsuffix hs]

namespace Statement
open FloatLiteral

theorem Components.null_not_mem (h : Components t values) : '\x00' ∉ t := by
  induction h with
  | one h₀ h h₁ => simp [h₀.null_not_mem, h.visible.null_not_mem, h₁.null_not_mem]
  | more h₀ h h₁ _ ih => simp [h₀.null_not_mem, h.visible.null_not_mem, h₁.null_not_mem, ih]

theorem RightSide.null_not_mem {type : Text} {dimension : Nat} (htype : IsWord type)
    (h : RightSide type dimension rhs values) : '\x00' ∉ rhs := by
  cases h with
  | scalar h => exact h.visible.null_not_mem
  | vector hw h => simp [htype.visible.null_not_mem, hw.null_not_mem, h.null_not_mem]

theorem DefinesInteger.null_not_mem {i : Int64} (h : DefinesInteger line name i) :
    '\x00' ∉ line := by
  obtain ⟨w₀, w₁, w₂, w₃, w₄, literal, k, hw, rfl, -, hname, -, hliteral, -⟩ := h
  simp only [List.forall_mem_cons] at hw
  obtain ⟨hw₀, hw₁, hw₂, hw₃, hw₄, -⟩ := hw
  simp [hw₀.null_not_mem, hw₁.null_not_mem, hw₂.null_not_mem, hw₃.null_not_mem, hw₄.null_not_mem,
    hname.visible.null_not_mem, hliteral.null_not_mem]

theorem Declares.null_not_mem {c : Constant} (h : Declares line c) : '\x00' ∉ line := by
  obtain ⟨w₀, w₁, w₂, w₃, w₄, w₅, w₆, type, rhs, hw, rfl, -, -, htype, hname, hrhs⟩ := h
  simp only [List.forall_mem_cons] at hw
  obtain ⟨hw₀, hw₁, hw₂, hw₃, hw₄, hw₅, hw₆, -⟩ := hw
  have hisWord : IsWord type := by
    rw [c.length_values] at htype
    rw [mem_typeNames_iff.mp htype]
    exact isWord_typeName c.type
  simp [hw₀.null_not_mem, hw₁.null_not_mem, hw₂.null_not_mem, hw₃.null_not_mem, hw₄.null_not_mem,
    hw₅.null_not_mem, hw₆.null_not_mem, hisWord.visible.null_not_mem, hname.visible.null_not_mem,
    hrhs.null_not_mem hisWord]

/-- A null character stands for itself between quotes, after a backslash too. -/
theorem null_mem_body_iff (h : Quoted.Body body value) : '\x00' ∈ body ↔ '\x00' ∈ value := by
  have hescape {letter c : Char} (hc : Quoted.Escape letter c) : '\x00' = letter ↔ '\x00' = c := by
    cases hc with
    | control h =>
      have hnone : ∀ p ∈ Quoted.controlLetters, '\x00' ≠ p.1 ∧ '\x00' ≠ p.2 := by decide
      obtain ⟨hletter, hc⟩ := hnone _ h
      exact iff_of_false hletter hc
    | itself => rfl
  induction h with
  | nil => rfl
  | plain _ _ _ ih => simp [ih]
  | escaped hc _ ih => simp [ih, hescape hc]

theorem DefinesText.null_mem_iff (h : DefinesText line name value) :
    '\x00' ∈ line ↔ '\x00' ∈ value := by
  obtain ⟨w₀, w₁, w₂, w₃, w₄, body, hw, rfl, -, hname, hbody⟩ := h
  simp only [List.forall_mem_cons] at hw
  obtain ⟨hw₀, hw₁, hw₂, hw₃, hw₄, -⟩ := hw
  simp [hw₀.null_not_mem, hw₁.null_not_mem, hw₂.null_not_mem, hw₃.null_not_mem, hw₄.null_not_mem,
    hname.visible.null_not_mem, null_mem_body_iff hbody]

theorem Includes.null_mem_iff (h : Includes line argument) :
    '\x00' ∈ line ↔ '\x00' ∈ argument := by
  obtain ⟨w₀, w₁, w₂, hw, rfl, -, -⟩ := h
  simp only [List.forall_mem_cons] at hw
  obtain ⟨hw₀, hw₁, hw₂, -⟩ := hw
  simp [hw₀.null_not_mem, hw₁.null_not_mem, hw₂.null_not_mem]

end Statement

/-- A line and its canonical line have the same shape, so they both have a null character or none. -/
theorem null_mem_canonical_iff (line : Text) : '\x00' ∈ canonical line ↔ '\x00' ∈ line := by
  cases h : Statement.parse line with
  | error e => rw [canonical_of_error h]
  | ok st =>
    rw [canonical, Statement.ofLine_of_ok h]
    cases st with
    | verbatim => exact absurd h Statement.parse_ne_verbatim
    | defineText name value =>
      have hline := Statement.parse_defineText_iff.mp h
      rw [hline.null_mem_iff, (Statement.definesText_render hline.isWord value).null_mem_iff]
    | defineInteger name i =>
      have hline := Statement.parse_defineInteger_iff.mp h
      exact iff_of_false (Statement.definesInteger_render hline.isWord i).null_not_mem
        hline.null_not_mem
    | constant c =>
      -- Names and numerals have visible characters only.
      have hline := Statement.parse_constant_iff_declares.mp h
      obtain ⟨hname, hfinite⟩ := hline.spec
      obtain ⟨_, hrender, -⟩ := Statement.exists_declares_render hname hfinite
      exact iff_of_false hrender.null_not_mem hline.null_not_mem
    | inclusion argument =>
      have hline := Statement.parse_inclusion_iff.mp h
      rw [hline.null_mem_iff, (Statement.includes_render hline.spec.1).null_mem_iff]

namespace Document

theorem null_mem_render_iff (s : Text) (joining : Joining) :
    '\x00' ∈ (parse s).render joining ↔ '\x00' ∈ s := by
  have hnull : isLineBreak '\x00' = false := rfl
  rw [← mem_lines_iff hnull, ← mem_lines_iff (s := s) hnull]
  obtain ⟨e, final⟩ := joining
  have hcanonical : (∃ line ∈ (lines s).map canonical, '\x00' ∈ line) ↔
      ∃ line ∈ lines s, '\x00' ∈ line := by
    simp only [List.mem_map, exists_exists_and_eq_and, null_mem_canonical_iff]
  rw [← hcanonical]
  cases final with
  | true => rw [lines_render_final]
  | false =>
    obtain h | h := lines_render_plain s e
    · rw [h]
    · rw [h]
      simp

end Document
end MaterialText
