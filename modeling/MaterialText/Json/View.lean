import MaterialText.Json.Writer
import MaterialText.Document.Notes

namespace MaterialText
open Json Numeral

namespace Statement

def fields : Statement → Json.Record
  | .verbatim line => [("kind".toList, .string "opaque".toList), ("text".toList, .string line)]
  | .defineText name value =>
    [("kind".toList, .string "stringDefine".toList), ("name".toList, .string name),
      ("value".toList, .string value)]
  | .defineInteger name value =>
    [("kind".toList, .string "integerDefine".toList), ("name".toList, .string name),
      ("value".toList, .number (Integer.text value))]
  | .constant c =>
    [("kind".toList, .string "float".toList), ("name".toList, .string c.name),
      ("type".toList, .string c.type.name), ("values".toList, .numbers (c.values.map Single.text))]
  | .inclusion argument =>
    [("kind".toList, .string "include".toList), ("argument".toList, .string argument)]

def record (s : Statement) (index : Nat) : Json.Record :=
  ("line".toList, .number (decimal index)) :: s.fields

end Statement

def Document.json (d : Document) (style : Style) : Text :=
  write style (d.statements.zipIdx.map fun p => p.1.record p.2)

namespace Note

def record (n : Note) : Json.Record :=
  [("line".toList, .number (decimal n.line)),
    ("column".toList, .number (decimal n.diagnostic.column)),
    ("message".toList, .string n.diagnostic.cause.message)]

/-- Notes are always written in the compact style. -/
def json (notes : List Note) : Text := write .compact (notes.map record)

end Note
end MaterialText
