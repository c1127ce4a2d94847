import MaterialText.Document.Basic

namespace MaterialText

/-- A diagnostic with the number of its line, counted from zero. -/
structure Note where
  line : Nat
  diagnostic : Diagnostic
deriving DecidableEq

/-- The diagnostic of a line that was an attempt at a statement. -/
def Statement.diagnostic? (line : Text) : Option Diagnostic :=
  match Statement.parse line with
  | .ok _ => none
  | .error e => if e.isUnrecognized then none else some e

def notesOn (s : Text) : List Note :=
  (lines s).zipIdx.filterMap fun p => (Statement.diagnostic? p.1).map (⟨p.2, ·⟩)

theorem mem_notesOn_iff {s : Text} {n : Note} : n ∈ notesOn s ↔
    ∃ line, (lines s)[n.line]? = some line ∧ Statement.diagnostic? line = some n.diagnostic := by
  simp only [notesOn, List.mem_filterMap, List.mem_zipIdx_iff_getElem?, Option.map_eq_some_iff]
  constructor
  · rintro ⟨⟨line, i⟩, hline, d, hd, rfl⟩
    exact ⟨line, hline, hd⟩
  · rintro ⟨line, hline, hd⟩
    exact ⟨(line, n.line), hline, n.diagnostic, hd, rfl⟩

end MaterialText
