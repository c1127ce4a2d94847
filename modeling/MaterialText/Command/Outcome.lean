import MaterialText.Command.Arguments
import MaterialText.Material
import MaterialText.Json.View

namespace MaterialText.Command

structure Outcome where
  code : UInt32
  output : Text
  errors : Text
deriving DecidableEq

inductive SourceError
  | file (e : LoadFailure)
  | inputNotUTF8
deriving DecidableEq

def SourceError.message : SourceError → Text
  | .file e => e.message
  | .inputNotUTF8 => "cannot read stdin: stream did not contain valid UTF-8".toList

/-- The file at the path, or what the input holds if there is no path. A byte-order mark in the
input stays. -/
def source (read : Reader) (input : ByteArray) : Option Text → Except SourceError Material
  | some path => (Material.load read path).mapError .file
  | none =>
    match Text.decode? input with
    | some s => .ok (Material.ofText "<stdin>".toList s)
    | none => .error .inputNotUTF8

/-- A document in a format. The JSON formats end their last line. -/
def written (d : Document) (s : Settings) : Text :=
  match s.format with
  | .text => d.render s.joining
  | .json => d.json .compact ++ ['\n']
  | .jsonPretty => d.json .pretty ++ ['\n']

/-- A note with its line, and a caret under the column. -/
def reportNote (source : List Text) (n : Note) : Text :=
  "NOTE AT LINE ".toList ++ Numeral.decimal (n.line + 1) ++ ":\n".toList ++
    source[n.line]?.getD [] ++ '\n' :: List.replicate n.diagnostic.column ' ' ++ "^\n".toList ++
    "kept verbatim: ".toList ++ n.diagnostic.cause.message ++ "\n\n".toList

def report (s : Text) : Text := (notesOn s).flatMap (reportNote (lines s))

/-- The report is made on the document as it is rendered without options. -/
def perform (read : Reader) (input : ByteArray) (s : Settings) : Outcome :=
  match source read input s.path? with
  | .error e => ⟨1, [], "error: ".toList ++ e.message ++ ['\n']⟩
  | .ok file =>
    ⟨0, written file.document s, if s.has .explain then report file.document.render else []⟩

/-- What reads the arguments: the settings of a run, or how it ends before it has started. -/
abbrev ArgumentReader := List Text → Except Outcome Settings

def runWith (reader : ArgumentReader) (read : Reader) (input : ByteArray) (arguments : List Text) :
    Outcome :=
  match reader arguments with
  | .ok s => perform read input s
  | .error outcome => outcome

-- What a reader of arguments says of a fault, and its help, are texts of its own and left out.
def Halt.outcome : Halt → Outcome
  | .fault => ⟨2, [], []⟩
  | .version => ⟨0, "fxmat 0.1.0\n".toList, []⟩
  | .help => ⟨0, [], []⟩

def settingsOf : ArgumentReader := fun arguments =>
  (Settings.addArguments {} arguments).mapError Halt.outcome

def run : Reader → ByteArray → List Text → Outcome := runWith settingsOf

end MaterialText.Command
