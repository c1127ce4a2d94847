import MaterialText.Material
import MaterialText.Document.Notes
import MaterialText.Single.Shortest
import MaterialText.Text.Printable

namespace MaterialText.Log

inductive Level
  | info | debug | trace
deriving DecidableEq

namespace Level

def rank : Level → Nat
  | .info => 0
  | .debug => 1
  | .trace => 2

def name : Level → Text
  | .info => "INFO".toList
  | .debug => "DEBUG".toList
  | .trace => "TRACE".toList

end Level

structure Entry where
  level : Level
  message : Text
deriving DecidableEq

def upTo (level : Level) (entries : List Entry) : List Entry :=
  entries.filter fun entry => entry.level.rank ≤ level.rank

def shownLetter : Char → Option Char
  | '"' => some '"'
  | '\\' => some '\\'
  | '\t' => some 't'
  | '\n' => some 'n'
  | '\r' => some 'r'
  | '\x00' => some '0'
  | _ => none

def showChar (c : Char) : Text :=
  match shownLetter c with
  | some letter => ['\\', letter]
  | none =>
    if Text.isCoded c then "\\u\x7b".toList ++ Nat.toDigits 16 c.toNat ++ ['\x7d'] else [c]

def showText (s : Text) : Text := '"' :: s.flatMap showChar ++ ['"']

/-- A statement by its kind and fields, with each value in its shortest text. -/
def showStatement : Statement → Text
  | .verbatim line => "Opaque(".toList ++ showText line ++ [')']
  | .defineText name value =>
    "StringDefine \x7b name: ".toList ++ showText name ++ ", value: ".toList ++ showText value ++
      " \x7d".toList
  | .defineInteger name value =>
    "IntegerDefine \x7b name: ".toList ++ showText name ++ ", value: ".toList ++
      Integer.text value ++ " \x7d".toList
  | .constant c =>
    "Float(FloatConst \x7b name: ".toList ++ showText c.name ++ ", values: [".toList ++
      List.intercalate ", ".toList (c.values.map Single.shortestText) ++ "] \x7d)".toList
  | .inclusion argument => "Include(".toList ++ showText argument ++ [')']

/-- What there is to report of a line: the statement that it was recognised as, or why it is kept
verbatim. -/
inductive Report
  | recognized (s : Statement)
  | kept (e : Diagnostic) (line : Text)
deriving DecidableEq

def Report.entry : Report → Entry
  | .recognized s => ⟨.trace, showStatement s⟩
  | .kept e line =>
    ⟨.debug, "kept verbatim (".toList ++ e.text ++ "): ".toList ++ showText line⟩

/-- The report on a line, if there is one: a line that was no attempt at a statement has none. -/
def report? (line : Text) : Option Report :=
  match Statement.parse line with
  | .ok s => some (.recognized s)
  | .error e => if e.isUnrecognized then none else some (.kept e line)

def ofText (s : Text) : List Entry := ((lines s).filterMap report?).map Report.entry

def loaded (file : Material) : Entry :=
  ⟨.info, "loaded ".toList ++ file.name ++ ": ".toList ++ Numeral.decimal file.document.length ++
    " lines, ".toList ++ Numeral.decimal file.document.recognized ++ " recognized".toList⟩

/-- The entries of loading a file; a failure to load leaves none. -/
def ofLoad (read : Reader) (name : Text) : List Entry :=
  match Material.readText read name with
  | .ok s => ofText s ++ [loaded (Material.ofText name s)]
  | .error _ => []

end MaterialText.Log
