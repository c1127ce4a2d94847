import MaterialText.Statement.Basic
import MaterialText.Text.Quoted
import MaterialText.Numeral.Integer
import MaterialText.Single.Fixed

namespace MaterialText

namespace Constant

/-- The value of a constant: once if all components have the same text, else every component in
turn. -/
def renderValue (c : Constant) : Text :=
  match c.values.map Single.text with
  | [] => []
  | t :: ts =>
    if ts.all (· == t) then t
    else c.type.name ++ '(' :: List.intercalate ", ".toList (t :: ts) ++ [')']

def render (c : Constant) : Text :=
  "const ".toList ++ c.type.name ++ ' ' :: c.name ++ " = ".toList ++ c.renderValue ++ [';']

end Constant

def Statement.render : Statement → Text
  | .verbatim line => line
  | .defineText name value =>
    "#define ".toList ++ name ++ " \"".toList ++ Quoted.escape value ++ ['"']
  | .defineInteger name value => "#define ".toList ++ name ++ ' ' :: Integer.text value
  | .constant c => c.render
  | .inclusion argument => "#include ".toList ++ argument

end MaterialText
