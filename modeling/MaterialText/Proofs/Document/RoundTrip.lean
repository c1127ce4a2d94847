import MaterialText.Proofs.Document.JoinedLines
import MaterialText.Proofs.Statement.RoundTrip

namespace MaterialText

variable {ls : List Text} {d d' : Document}

/-- The canonical line of what a line says. -/
def canonical (line : Text) : Text := (Statement.ofLine line).render

/-- The document read from the lines of a document, each with an ending. -/
def Document.reread (d : Document) (e : LineEnding) : Document := Document.parse (d.render ⟨e, true⟩)

theorem canonical_of_error {line : Text} {error : Diagnostic}
    (h : Statement.parse line = .error error) : canonical line = line := by
  rw [canonical, Statement.ofLine_of_error h]
  rfl

theorem noBreaks_of_mem_lines {s line : Text} (h : line ∈ lines s) : NoBreaks line :=
  not_isLineBreak_of_mem_lines h

theorem noBreaks_of_mem_map_canonical (s : Text) : ∀ l ∈ (lines s).map canonical, NoBreaks l := by
  intro l hl
  obtain ⟨line, hline, rfl⟩ := List.mem_map.mp hl
  exact Statement.noBreaks_render_ofLine (noBreaks_of_mem_lines hline)

namespace Document

@[simp]
theorem parse_nil : parse [] = {} := by
  rw [parse, lines_nil]
  rfl

theorem map_render_parse (s : Text) :
    (parse s).statements.map Statement.render = (lines s).map canonical :=
  List.map_map

theorem render_parse (s : Text) (joining : Joining) : (parse s).render joining =
    List.intercalate joining.ending.text ((lines s).map canonical) ++
      if joining.final ∧ lines s ≠ [] then joining.ending.text else [] := by
  have hne : (parse s).statements ≠ [] ↔ lines s ≠ [] := by simp [parse]
  rw [render, map_render_parse]
  simp only [hne]

theorem lines_render_of_noBreaks (h : ∀ st ∈ d.statements, NoBreaks st.render) (e : LineEnding) :
    lines (d.render ⟨e, true⟩) = d.statements.map Statement.render := by
  rw [render]
  by_cases hd : d.statements = []
  · rw [if_neg (by simp [hd]), hd, List.map_nil, List.intercalate_nil, List.append_nil, lines_nil]
  · rw [if_pos ⟨rfl, hd⟩]
    exact lines_intercalate_append_ending (List.forall_mem_map.mpr h) (by simpa using hd) e

theorem lines_render_final (s : Text) (e : LineEnding) :
    lines ((parse s).render ⟨e, true⟩) = (lines s).map canonical := by
  have h := noBreaks_of_mem_map_canonical s
  rw [← map_render_parse, List.forall_mem_map] at h
  rw [lines_render_of_noBreaks h, map_render_parse]

theorem lines_render_plain (s : Text) (e : LineEnding) :
    (lines s).map canonical = lines ((parse s).render ⟨e, false⟩) ∨
      (lines s).map canonical = lines ((parse s).render ⟨e, false⟩) ++ [[]] := by
  rw [render_parse, if_neg (by simp), List.append_nil, lines_joined (noBreaks_of_mem_map_canonical s)]
  split
  · rename_i hlast
    right
    exact (List.dropLast_append_getLast? _ hlast).symm
  · left
    rfl

theorem isPrefix_lines_render (s : Text) (joining : Joining) :
    lines ((parse s).render joining) <+: (lines s).map canonical := by
  obtain ⟨e, final⟩ := joining
  cases final with
  | true => rw [lines_render_final]
  | false =>
    obtain h | h := lines_render_plain s e
    · rw [h]
    · rw [h]
      exact List.prefix_append _ _

theorem statements_reread (s : Text) (e : LineEnding) :
    ((parse s).reread e).statements = (lines s).map fun line => Statement.ofLine (canonical line) := by
  rw [reread, parse, lines_render_final, List.map_map]
  rfl

theorem render_congr (h : d'.statements.map Statement.render = d.statements.map Statement.render)
    (joining : Joining) : d'.render joining = d.render joining := by
  have hnil : d'.statements = [] ↔ d.statements = [] := by
    rw [← List.map_eq_nil_iff (f := Statement.render), h, List.map_eq_nil_iff]
  rw [render, render, h]
  simp only [ne_eq, hnil]

theorem json_congr (h : d'.statements.map Statement.fields = d.statements.map Statement.fields)
    (style : Json.Style) : d'.json style = d.json style := by
  have hrecords (d : Document) : (d.statements.zipIdx.map fun p => p.1.record p.2) =
      (d.statements.map Statement.fields).zipIdx.map
        fun p => ("line".toList, .number (Numeral.decimal p.2)) :: p.1 := by
    rw [List.zipIdx_map, List.map_map]
    rfl
  rw [json, json, hrecords, hrecords, h]

theorem map_reread_eq {α : Type} {f : Statement → α} (s : Text) (e : LineEnding)
    (h : ∀ line, f (Statement.ofLine (canonical line)) = f (Statement.ofLine line)) :
    ((parse s).reread e).statements.map f = (parse s).statements.map f := by
  rw [statements_reread, parse, List.map_map, List.map_map]
  apply List.map_congr_left
  intro line _
  exact h line

theorem render_reread (s : Text) (e : LineEnding) (joining : Joining) :
    ((parse s).reread e).render joining = (parse s).render joining := by
  apply render_congr
  apply map_reread_eq
  intro line
  exact (Statement.ofLine_render line).2.1

/-- A document and the one read from its rendering with a final ending have the same number of
statements, agree in each, keep what is verbatim as the same line, and look the same in every
view. -/
theorem reread_views (s : Text) (e : LineEnding) :
    ((parse s).reread e).length = (parse s).length ∧
    List.Forall₂ Statement.Agrees (parse s).statements ((parse s).reread e).statements ∧
    (∀ (i : Nat) (line : Text), (lines s)[i]? = some line → (∃ error, Statement.parse line = .error error) →
      (lines ((parse s).render ⟨e, true⟩))[i]? = some line) ∧
    (∀ joining, ((parse s).reread e).render joining = (parse s).render joining) ∧
    ∀ style, ((parse s).reread e).json style = (parse s).json style := by
  refine ⟨?_, ?_, ?_, ?_, ?_⟩
  · rw [length, length, statements_reread, parse, List.length_map, List.length_map]
  · rw [statements_reread, parse, List.forall₂_map_left_iff, List.forall₂_map_right_iff,
      List.forall₂_same]
    intro line _
    exact (Statement.ofLine_render line).1
  · intro i line hline herror
    obtain ⟨error, herror⟩ := herror
    have hcanonical : canonical line = line := by
      rw [canonical, Statement.ofLine_of_error herror]
      rfl
    rw [lines_render_final, List.getElem?_map, hline, Option.map_some, hcanonical]
  · intro joining
    apply render_congr
    apply map_reread_eq
    intro line
    exact (Statement.ofLine_render line).2.1
  · intro style
    apply json_congr
    apply map_reread_eq
    intro line
    exact (Statement.ofLine_render line).2.2

end Document

def notesOnLines (ls : List Text) : List Note :=
  ls.zipIdx.filterMap fun p => (Statement.diagnostic? p.1).map (⟨p.2, ·⟩)

theorem notesOnLines_map_canonical (ls : List Text) :
    notesOnLines (ls.map canonical) = notesOnLines ls := by
  rw [notesOnLines, notesOnLines, List.zipIdx_map, List.filterMap_map]
  congr 1
  funext p
  simp only [Function.comp_apply, Prod.map_fst, Prod.map_snd, id, canonical,
    Statement.diagnostic?_render]

theorem notesOnLines_append_nil (ls : List Text) : notesOnLines (ls ++ [[]]) = notesOnLines ls := by
  rw [notesOnLines, notesOnLines, List.zipIdx_append, List.filterMap_append]
  simp [Statement.diagnostic?_nil]

theorem notesOn_rendered (s : Text) (joining : Joining) :
    notesOn ((Document.parse s).render joining) = notesOn s := by
  change notesOnLines (lines _) = notesOnLines (lines s)
  rw [← notesOnLines_map_canonical (lines s)]
  obtain ⟨e, final⟩ := joining
  cases final with
  | true => rw [Document.lines_render_final]
  | false =>
    obtain h | h := Document.lines_render_plain s e
    · rw [h]
    · rw [h, notesOnLines_append_nil]

/-- A line with a note stands in the rendering as it does in the text. -/
theorem getElem?_lines_of_mem_notesOn {s : Text} {n : Note} (h : n ∈ notesOn s) (joining : Joining) :
    ∃ line, (lines s)[n.line]? = some line ∧
      (lines ((Document.parse s).render joining))[n.line]? = some line := by
  rw [← notesOn_rendered s joining, mem_notesOn_iff] at h
  obtain ⟨line, hline, hdiagnostic⟩ := h
  obtain ⟨hlt, hget⟩ := List.getElem?_eq_some_iff.mp hline
  have hcanonical := List.prefix_iff_getElem?.mp (Document.isPrefix_lines_render s joining) n.line hlt
  rw [List.getElem?_map, Option.map_eq_some_iff, hget] at hcanonical
  obtain ⟨line', hline', rfl⟩ := hcanonical
  rw [canonical, Statement.diagnostic?_render] at hdiagnostic
  obtain ⟨error, herror⟩ := Statement.exists_error_of_diagnostic? hdiagnostic
  rw [canonical_of_error herror] at hline
  exact ⟨line', hline', hline⟩

/-- The notes on a text are those on its rendering, however its lines are joined, and a canonical
line is recognized like the line that it is of. -/
theorem notesOn_render (s : Text) (joining : Joining) :
    notesOn ((Document.parse s).render joining) = notesOn s ∧
    ∀ line st, Statement.parse line = .ok st → ∃ st', Statement.parse st.render = .ok st' := by
  refine ⟨notesOn_rendered s joining, fun line st h => ?_⟩
  obtain ⟨st', hst', -⟩ := Statement.parse_render h
  exact ⟨st', hst'⟩

end MaterialText
