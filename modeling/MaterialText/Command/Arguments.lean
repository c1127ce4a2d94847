import MaterialText.Document.Basic

namespace MaterialText.Command

inductive Format
  | text | json | jsonPretty
deriving DecidableEq

namespace Format

def name : Format → Text
  | .text => "text".toList
  | .json => "json".toList
  | .jsonPretty => "json-pretty".toList

def all : List Format := [.text, .json, .jsonPretty]

def ofName? (s : Text) : Option Format := all.find? (·.name == s)

end Format

inductive Switch
  | explain | crlf | trailingNewline
deriving DecidableEq

namespace Switch

def name : Switch → Text
  | .explain => "explain".toList
  | .crlf => "crlf".toList
  | .trailingNewline => "trailing-newline".toList

def all : List Switch := [.explain, .crlf, .trailingNewline]

def ofName? (s : Text) : Option Switch := all.find? (·.name == s)

end Switch

/-- What has been chosen so far; nothing can be chosen twice. -/
structure Settings where
  path? : Option Text := none
  format? : Option Format := none
  switches : List Switch := []
deriving DecidableEq

namespace Settings

def format (s : Settings) : Format := s.format?.getD .text

def has (s : Settings) (switch : Switch) : Bool := s.switches.contains switch

def joining (s : Settings) : Joining :=
  ⟨if s.has .crlf then .crlf else .lf, s.has .trailingNewline⟩

end Settings

/-- Why no run starts: the arguments make no sense, or they ask for the version or for help. -/
inductive Halt
  | fault | version | help
deriving DecidableEq

/-- What one argument is. A format that comes without its value has it in the next argument. -/
inductive Argument
  | path
  | endOfOptions
  | switch (s : Switch)
  | format (value? : Option Text)
  | halt (reason : Halt)
deriving DecidableEq

def Argument.ofLong (name : Text) (value? : Option Text) : Argument :=
  if name = "format".toList then .format value?
  else if value?.isSome then .halt .fault
  else if name = "version".toList then .halt .version
  else if name = "help".toList then .halt .help
  else ((Switch.ofName? name).map .switch).getD (.halt .fault)

/-- An option by its letter; what follows the letter of the format is its value. -/
def Argument.ofLetter (letter : Char) (rest : Text) : Argument :=
  if letter = 'V' then .halt .version
  else if letter = 'h' then .halt .help
  else if letter = 'f' then
    .format (if rest = [] then none else some ((Text.eat '=' rest).getD rest))
  else .halt .fault

/-- A dash alone is a path. -/
def Argument.of : Text → Argument
  | ['-', '-'] => .endOfOptions
  | '-' :: '-' :: body =>
    .ofLong (body.takeWhile (· != '=')) (Text.eat '=' (body.dropWhile (· != '=')))
  | '-' :: letter :: rest => .ofLetter letter rest
  | _ => .path

namespace Settings

def addSwitch (s : Settings) (switch : Switch) : Except Halt Settings :=
  if s.has switch then .error .fault else .ok { s with switches := switch :: s.switches }

def addFormat (s : Settings) (value : Text) : Except Halt Settings :=
  match Format.ofName? value with
  | none => .error .fault
  | some f => if s.format?.isSome then .error .fault else .ok { s with format? := some f }

def addPath (s : Settings) (path : Text) : Except Halt Settings :=
  if s.path?.isSome then .error .fault else .ok { s with path? := some path }

def addPaths (s : Settings) : List Text → Except Halt Settings
  | [] => .ok s
  | path :: rest => do (← s.addPath path).addPaths rest

/-- The arguments that are left, with what was chosen before them. The first that is a fault, or
that asks for something else than a run, decides. -/
def addArguments (s : Settings) : List Text → Except Halt Settings
  | [] => .ok s
  | argument :: rest =>
    match Argument.of argument with
    | .path => do addArguments (← s.addPath argument) rest
    | .endOfOptions => s.addPaths rest
    | .switch switch => do addArguments (← s.addSwitch switch) rest
    | .format (some value) => do addArguments (← s.addFormat value) rest
    | .format none =>
      match rest with
      | [] => .error .fault
      | value :: rest =>
        if Argument.of value = .path then do addArguments (← s.addFormat value) rest
        else .error .fault
    | .halt reason => .error reason

end Settings
end MaterialText.Command
