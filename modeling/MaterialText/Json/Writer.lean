import MaterialText.Text.Basic

namespace MaterialText.Json

/-- The value of a member. Numbers are given by their numerals. -/
inductive Field
  | number (numeral : Text)
  | string (s : Text)
  | numbers (numerals : List Text)
deriving DecidableEq

/-- The members of an object, in order. -/
abbrev Record := List (Text × Field)

inductive Style
  | compact | pretty
deriving DecidableEq

namespace Style

def gap : Style → Text
  | .compact => []
  | .pretty => [' ']

/-- A new line, two spaces deep for each open bracket. -/
def newline (style : Style) (depth : Nat) : Text :=
  match style with
  | .compact => []
  | .pretty => '\n' :: List.replicate (2 * depth) ' '

end Style

def escapeLetter : Char → Option Char
  | '"' => some '"'
  | '\\' => some '\\'
  | '\n' => some 'n'
  | '\r' => some 'r'
  | '\t' => some 't'
  | '\x08' => some 'b'
  | '\x0c' => some 'f'
  | _ => none

/-- Other control characters are written by their code in four hexadecimal digits. -/
def escapeChar (c : Char) : Text :=
  match escapeLetter c with
  | some letter => ['\\', letter]
  | none =>
    if c.toNat < 0x20 then
      ['\\', 'u', '0', '0', (c.toNat / 16).digitChar, (c.toNat % 16).digitChar]
    else [c]

def writeString (s : Text) : Text := '"' :: s.flatMap escapeChar ++ ['"']

def writeField (style : Style) : Field → Text
  | .number numeral => numeral
  | .string s => writeString s
  | .numbers numerals => '[' :: List.intercalate (',' :: style.gap) numerals ++ [']']

def writeMember (style : Style) (member : Text × Field) : Text :=
  writeString member.1 ++ ':' :: style.gap ++ writeField style member.2

/-- The members of a record, each on its line two brackets deep. -/
def writeRecord (style : Style) (r : Record) : Text :=
  let members := r.map fun member => style.newline 2 ++ writeMember style member
  '\x7b' :: List.intercalate [','] members ++ style.newline 1 ++ ['\x7d']

/-- The records of an array, each on its line one bracket deep. An empty array has no line. -/
def write (style : Style) (records : List Record) : Text :=
  let entries := records.map fun r => style.newline 1 ++ writeRecord style r
  '[' :: List.intercalate [','] entries ++
    (if records = [] then [] else style.newline 0) ++ [']']

end MaterialText.Json
