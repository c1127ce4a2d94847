import MaterialText.Statement.Basic
import MaterialText.Diagnostic
import MaterialText.Text.Word
import MaterialText.Text.Quoted
import MaterialText.Numeral.Integer
import MaterialText.Single.Literal

namespace MaterialText

/-- A cause, and the part of the line from the place that it is about. -/
structure Failure where
  cause : Cause
  rest : Text
deriving DecidableEq

/-- The place of a failure as a column of the line that was read. -/
def Failure.inLine (f : Failure) (line : Text) : Diagnostic :=
  ⟨f.cause, line.length - f.rest.length⟩

namespace Statement

def readName (s : Text) : Except Failure (Text × Text) :=
  let word := Word.scan s
  if word.1 = [] then .error ⟨.expectedName, word.2⟩ else .ok word

def readChar (c : Char) (s : Text) : Except Failure Text :=
  match Text.eat c (skipBlanks s) with
  | some rest => .ok rest
  | none => .error ⟨.expectedChar c, skipBlanks s⟩

def readFloat (s : Text) : Except Failure (Single × Text) :=
  match FloatLiteral.read s with
  | some p => .ok p
  | none => .error ⟨.expectedFloat, skipBlanks s⟩

def readInteger (s : Text) : Except Failure (Int64 × Text) :=
  match Integer.scan s with
  | some p => .ok p
  | none => .error ⟨.expectedInteger, s⟩

def readQuoted (s : Text) : Except Failure (Text × Text) :=
  match Quoted.scan s with
  | some p => .ok p
  | none => .error ⟨.unterminatedString, s⟩

/-- The value of a definition: quoted if a quote comes first, else an integer. -/
def readDefined (name s : Text) : Except Failure (Statement × Text) :=
  if s.head? = some '"' then (readQuoted s).map fun p => (.defineText name p.1, p.2)
  else (readInteger s).map fun p => (.defineInteger name p.1, p.2)

/-- What follows the number sign. An inclusion takes the whole rest of the line. -/
def readDirective (s : Text) : Except Failure (Statement × Text) :=
  let word := Word.scan s
  if word.1 = "define".toList then do
    let name ← readName word.2
    readDefined name.1 (skipBlanks name.2)
  else if word.1 = "include".toList then .ok (.inclusion (skipBlanks word.2), [])
  else .error ⟨.unknownDirective word.1, s⟩

def readComponents (s : Text) : Except Failure (List Single × Text) :=
  match _h : FloatLiteral.read s with
  | none => .error ⟨.expectedFloat, skipBlanks s⟩
  | some (x, rest) =>
    match _hc : skipBlanks rest with
    | ')' :: after => .ok ([x], after)
    | ',' :: after => (readComponents after).map fun p => (x :: p.1, p.2)
    | after => .error ⟨.expectedChar ',', after⟩
termination_by s.length
decreasing_by
  have hread := FloatLiteral.read_length_lt _h
  have hskip := skipBlanks_length_le rest
  simp only [_hc, List.length_cons] at hskip
  omega

/-- A constructor of the declared type with as many values as the type has components. -/
def readVector (name : Text) (type : FloatType) (s : Text) :
    Except Failure (Constant × Text) :=
  let word := Word.scan s
  if word.1 = type.name then do
    let afterParen ← readChar '(' word.2
    let components ← readComponents afterParen
    if h : components.1.length = type.dimension then
      .ok (⟨name, type, components.1, h⟩, components.2)
    else .error ⟨.componentCount type.name type.dimension components.1.length, s⟩
  else .error ⟨.constructorMismatch type.name word.1, s⟩

/-- The right side of a declaration: a constructor if the text starts as a type name does, else one
value. -/
def readValue (name : Text) (type : FloatType) (s : Text) : Except Failure (Constant × Text) :=
  if "float".toList.isPrefixOf s then readVector name type s
  else (readFloat s).map fun p => (.replicate name type p.1, p.2)

def readConstant (s : Text) : Except Failure (Statement × Text) :=
  let word := Word.scan s
  match FloatType.ofName? word.1 with
  | none => .error ⟨.unknownType word.1, skipBlanks s⟩
  | some type => do
    let name ← readName word.2
    let afterEquals ← readChar '=' name.2
    let value ← readValue name.1 type (skipBlanks afterEquals)
    let rest ← readChar ';' value.2
    .ok (.constant value.1, rest)

def readStart (line : Text) : Except Failure (Statement × Text) :=
  match Text.eat '#' (skipBlanks line) with
  | some rest => readDirective (skipBlanks rest)
  | none =>
    let word := Word.scan line
    if word.1 = "const".toList then readConstant word.2 else .error ⟨.unrecognized, line⟩

/-- Nothing but blanks may follow a statement. -/
def readWhole (line : Text) : Except Failure Statement := do
  let p ← readStart line
  if skipBlanks p.2 = [] then .ok p.1 else .error ⟨.trailingText, skipBlanks p.2⟩

def parse (line : Text) : Except Diagnostic Statement := (readWhole line).mapError (·.inLine line)

/-- The statement of any line: one that cannot be read is kept verbatim. -/
def ofLine (line : Text) : Statement :=
  match parse line with
  | .ok s => s
  | .error _ => .verbatim line

end Statement
end MaterialText
