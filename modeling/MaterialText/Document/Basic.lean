import MaterialText.Statement.Render
import MaterialText.Statement.Parse
import MaterialText.Text.Lines

namespace MaterialText

structure Document where
  statements : List Statement := []
deriving DecidableEq

inductive LineEnding
  | lf | crlf
deriving DecidableEq

def LineEnding.text : LineEnding → Text
  | .lf => ['\n']
  | .crlf => ['\r', '\n']

/-- How lines are joined: the ending between them, and whether the last line has one too. -/
structure Joining where
  ending : LineEnding := .lf
  final : Bool := false
deriving DecidableEq

namespace Document

def length (d : Document) : Nat := d.statements.length

def recognized (d : Document) : Nat := (d.statements.filter (!·.isVerbatim)).length

/-- The statement of a line, counted from zero. -/
def line (d : Document) (index : Nat) : Except Refusal Statement :=
  match d.statements[index]? with
  | some s => .ok s
  | none => .error (.line d.length index)

/-- Equality of documents with values compared as numbers. -/
def equal (a b : Document) : Bool :=
  a.length == b.length && (a.statements.zip b.statements).all fun p => p.1.equal p.2

def parse (s : Text) : Document := ⟨(lines s).map Statement.ofLine⟩

/-- The canonical lines, joined. An empty document has no final line to end. -/
def render (d : Document) (joining : Joining := {}) : Text :=
  List.intercalate joining.ending.text (d.statements.map Statement.render) ++
    if joining.final ∧ d.statements ≠ [] then joining.ending.text else []

@[simp]
theorem length_parse (s : Text) : (parse s).length = (lines s).length := by
  simp [parse, length]

end Document
end MaterialText
