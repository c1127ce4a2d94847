import MaterialText.Document.Notes
import MaterialText.Json.View
import MaterialText.Proofs.Statement.CanonicalLine

namespace MaterialText.Statement
open FloatLiteral

variable {line : Text} {st st' : Statement} {c c' : Constant}

/-- A statement and one that says the same, where the values of a constant are those that the texts
of the other's values are read as. -/
inductive Agrees : Statement → Statement → Prop
  | same {st : Statement} (h : ∀ c, st ≠ .constant c) : Agrees st st
  | constant {c c' : Constant} (hname : c'.name = c.name) (htype : c'.type = c.type)
      (hvalues : List.Forall₂ (fun v v' => FloatLiteral.read v.text = some (v', []))
        c.values c'.values) :
      Agrees (.constant c) (.constant c')

theorem views_eq (hname : c'.name = c.name) (htype : c'.type = c.type)
    (htexts : c'.values.map Single.text = c.values.map Single.text) :
    render (.constant c') = render (.constant c) ∧ fields (.constant c') = fields (.constant c) := by
  have hvalue : c'.renderValue = c.renderValue := by
    rw [Constant.renderValue, Constant.renderValue, htexts, htype]
  refine ⟨?_, ?_⟩
  · rw [render_constant, render_constant, hname, htype, hvalue]
  · simp only [fields, hname, htype, htexts]

/-- What a line says is read back from its canonical line. -/
theorem parse_render (h : parse line = .ok st) : ∃ st', parse st.render = .ok st' ∧
    Agrees st st' ∧ st'.render = st.render ∧ st'.fields = st.fields := by
  cases st with
  | verbatim => exact absurd h parse_ne_verbatim
  | defineText name value =>
    have hname := (parse_defineText_iff.mp h).isWord
    exact ⟨_, parse_defineText_iff.mpr (definesText_render hname value), .same (by simp), rfl, rfl⟩
  | defineInteger name value =>
    have hname := (parse_defineInteger_iff.mp h).isWord
    exact ⟨_, parse_defineInteger_iff.mpr (definesInteger_render hname value), .same (by simp), rfl,
      rfl⟩
  | constant c =>
    obtain ⟨hname, hfinite⟩ := (parse_constant_iff_declares.mp h).spec
    obtain ⟨c', hline, hname, htype, hvalues, htexts⟩ := exists_declares_render hname hfinite
    rw [List.forall₂_map_left_iff] at hvalues
    obtain ⟨hrender, hfields⟩ := views_eq hname htype htexts
    exact ⟨.constant c', parse_constant_iff_declares.mpr hline,
      .constant hname htype (hvalues.imp fun _ _ => Literal.read), hrender, hfields⟩
  | inclusion argument =>
    obtain ⟨hargument, -⟩ := (parse_inclusion_iff.mp h).spec
    exact ⟨_, parse_inclusion_iff.mpr (includes_render hargument), .same (by simp), rfl, rfl⟩

theorem noBreaks_render (h : parse line = .ok st) (hline : NoBreaks line) : NoBreaks st.render := by
  cases st with
  | verbatim => exact absurd h parse_ne_verbatim
  | defineText name value =>
    have hname := (parse_defineText_iff.mp h).isWord
    -- A break in the value is written as an escape.
    rw [render_defineText]
    simp [isLineBreak, hname.noBreaks, noBreaks_escape value]
  | defineInteger name value =>
    have hname := (parse_defineInteger_iff.mp h).isWord
    rw [render_defineInteger]
    simp [isLineBreak, hname.noBreaks, (visible_integerText value).noBreaks]
  | constant c =>
    obtain ⟨hname, hfinite⟩ := (parse_constant_iff_declares.mp h).spec
    rw [render_constant]
    simp [isLineBreak, (isWord_typeName c.type).noBreaks, hname.noBreaks,
      noBreaks_renderValue hfinite]
  | inclusion argument =>
    -- The argument is taken from the line as it stands.
    obtain ⟨-, hpart⟩ := (parse_inclusion_iff.mp h).spec
    rw [render_inclusion]
    simp [isLineBreak, hline.suffix hpart]

theorem ofLine_of_ok (h : parse line = .ok st) : ofLine line = st := by
  rw [ofLine, h]

theorem ofLine_of_error {e : Diagnostic} (h : parse line = .error e) :
    ofLine line = .verbatim line := by
  rw [ofLine, h]

theorem ofLine_render (line : Text) : Agrees (ofLine line) (ofLine (ofLine line).render) ∧
    (ofLine (ofLine line).render).render = (ofLine line).render ∧
      (ofLine (ofLine line).render).fields = (ofLine line).fields := by
  cases h : parse line with
  | ok st =>
    obtain ⟨st', hst', hagrees, hrender, hfields⟩ := parse_render h
    rw [ofLine_of_ok h, ofLine_of_ok hst']
    exact ⟨hagrees, hrender, hfields⟩
  | error e =>
    have hline : (verbatim line).render = line := rfl
    rw [ofLine_of_error h, hline, ofLine_of_error h]
    exact ⟨.same (by simp), rfl, rfl⟩

theorem noBreaks_render_ofLine (hline : NoBreaks line) : NoBreaks (ofLine line).render := by
  cases h : parse line with
  | ok st =>
    rw [ofLine_of_ok h]
    exact noBreaks_render h hline
  | error e =>
    rw [ofLine_of_error h]
    exact hline

theorem diagnostic?_of_ok (h : parse line = .ok st) : diagnostic? line = none := by
  rw [diagnostic?, h]

theorem exists_error_of_diagnostic? {e : Diagnostic} (h : diagnostic? line = some e) :
    ∃ error, parse line = .error error := by
  cases hparse : parse line with
  | ok st =>
    rw [diagnostic?_of_ok hparse] at h
    cases h
  | error error => exact ⟨error, rfl⟩

theorem diagnostic?_nil : diagnostic? [] = none := by decide

theorem diagnostic?_render (line : Text) : diagnostic? (ofLine line).render = diagnostic? line := by
  cases h : parse line with
  | ok st =>
    obtain ⟨_, hst', -⟩ := parse_render h
    rw [ofLine_of_ok h, diagnostic?_of_ok h, diagnostic?_of_ok hst']
  | error e =>
    rw [ofLine_of_error h]
    rfl

end MaterialText.Statement
