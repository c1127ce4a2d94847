import MaterialText.Command.Outcome

namespace MaterialText.Command

/-- The reason that the system gives for a file that cannot be read. Its numbers come with either
sign. -/
def readErrorOf : IO.Error → ReadError
  | .noFileOrDirectory .. => .notFound
  | .permissionDenied .. => .denied
  | .inappropriateType _ number _ =>
    if number.toInt32.toInt.natAbs = 20 then .notDirectory else .isDirectory
  | e@(.invalidArgument _ number _) =>
    if number.toInt32.toInt.natAbs = 36 then .nameTooLong else .other (toString e).toList
  | e => .other (toString e).toList

def readFile (path : Text) : IO (Except ReadError ByteArray) := do
  if '\x00' ∈ path then return .error .nullInName
  try return .ok (← IO.FS.readBinFile (String.ofList path))
  catch e => return .error (readErrorOf e)

def runOnSystem (arguments : List Text) : IO Outcome := do
  match settingsOf arguments with
  | .ok s =>
    match s.path? with
    | some path =>
      let found ← readFile path
      return perform (fun _ => found) .empty s
    | none =>
      let input ← (← IO.getStdin).readBinToEnd
      return perform (fun _ => .error .notFound) input s
  | .error outcome => return outcome

end MaterialText.Command

def main (arguments : List String) : IO UInt32 := do
  let outcome ← MaterialText.Command.runOnSystem (arguments.map String.toList)
  IO.print (String.ofList outcome.output)
  IO.eprint (String.ofList outcome.errors)
  return outcome.code
