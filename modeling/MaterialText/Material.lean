import MaterialText.Document.Basic
import MaterialText.Text.Encoding

namespace MaterialText

inductive ReadError
  | notFound
  | isDirectory
  | notDirectory
  | denied
  | nameTooLong
  | nullInName
  | other (reason : Text)
deriving DecidableEq

def ReadError.message : ReadError → Text
  | .notFound => "No such file or directory (os error 2)".toList
  | .isDirectory => "Is a directory (os error 21)".toList
  | .notDirectory => "Not a directory (os error 20)".toList
  | .denied => "Permission denied (os error 13)".toList
  | .nameTooLong => "File name too long (os error 36)".toList
  | .nullInName => "file name contained an unexpected NUL byte".toList
  | .other reason => reason

inductive LoadFailure
  | unreadable (name : Text) (reason : ReadError)
  | notUTF8 (name : Text)
deriving DecidableEq

def LoadFailure.message : LoadFailure → Text
  | .unreadable name reason => "cannot read ".toList ++ name ++ ": ".toList ++ reason.message
  | .notUTF8 name => name ++ " is not valid UTF-8".toList

/-- The bytes that a name stands for. -/
abbrev Reader := Text → Except ReadError ByteArray

structure Material where
  name : Text
  document : Document
deriving DecidableEq

namespace Material

/-- A text already in memory; the name is only recorded. -/
def ofText (name s : Text) : Material := ⟨name, Document.parse s⟩

/-- The text of a file without its byte-order mark. -/
def readText (read : Reader) (name : Text) : Except LoadFailure Text :=
  match read name with
  | .error reason => .error (.unreadable name reason)
  | .ok bytes =>
    match Text.decode? bytes with
    | none => .error (.notUTF8 name)
    | some s => .ok (Text.dropMark s)

def load (read : Reader) (name : Text) : Except LoadFailure Material :=
  (readText read name).map (ofText name)

variable {read : Reader} {name : Text} {bytes : ByteArray}

theorem load_of_encode {s : Text} (h : read name = .ok (Text.encode s)) :
    load read name = .ok (ofText name (Text.dropMark s)) := by
  rw [load, readText, h]
  dsimp only
  rw [Text.decode?_encode]
  rfl

theorem load_eq_notUTF8_iff (h : read name = .ok bytes) :
    load read name = .error (.notUTF8 name) ↔ ¬bytes.IsValidUTF8 := by
  rw [load, readText, h, ← Text.decode?_eq_none_iff]
  dsimp only
  cases Text.decode? bytes with
  | none => exact iff_of_true rfl rfl
  | some s => exact iff_of_false nofun nofun

end Material
end MaterialText
