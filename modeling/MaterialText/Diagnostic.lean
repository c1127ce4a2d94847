import MaterialText.Numeral.Basic

namespace MaterialText

/-- What a line lacks to be a statement. -/
inductive Cause
  | unrecognized
  | unknownDirective (found : Text)
  | expectedName
  | unterminatedString
  | expectedInteger
  | expectedFloat
  | unknownType (found : Text)
  | constructorMismatch (declared found : Text)
  | componentCount (declared : Text) (needed found : Nat)
  | expectedChar (c : Char)
  | trailingText
deriving DecidableEq

def Cause.message : Cause → Text
  | .unrecognized => "not a directive or constant declaration".toList
  | .unknownDirective found => "unknown directive #".toList ++ found
  | .expectedName => "expected a name".toList
  | .unterminatedString => "unterminated string literal".toList
  | .expectedInteger => "expected an integer literal".toList
  | .expectedFloat => "expected a float literal".toList
  | .unknownType found => "unknown constant type ".toList ++ found
  | .constructorMismatch declared found =>
    "constructor ".toList ++ found ++ " does not match declared type ".toList ++ declared
  | .componentCount declared needed found =>
    declared ++ " needs ".toList ++ Numeral.decimal needed ++ " components, found ".toList ++
      Numeral.decimal found
  | .expectedChar c => "expected '".toList ++ [c, '\'']
  | .trailingText => "unexpected text after statement".toList

structure Diagnostic where
  cause : Cause
  column : Nat
deriving DecidableEq

namespace Diagnostic

/-- The line was no attempt at any statement. -/
def isUnrecognized (e : Diagnostic) : Bool := e.cause == .unrecognized

def text (e : Diagnostic) : Text := Numeral.decimal e.column ++ ": ".toList ++ e.cause.message

end Diagnostic
end MaterialText
