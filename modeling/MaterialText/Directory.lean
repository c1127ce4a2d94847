import MaterialText.Material

namespace MaterialText

/-- The files by the names on the way to them, the last name being the file's own. A directory is
there for what lies in it, and a folder also without. A link leads to a directory elsewhere. -/
structure Directory where
  files : List (List Text × ByteArray)
  folders : List (List Text) := []
  links : List (List Text × List Text) := []

namespace Directory

def segments : Text → List Text
  | [] => [[]]
  | c :: rest =>
    if c = '/' then [] :: segments rest
    else
      match segments rest with
      | [] => [[c]]
      | first :: others => (c :: first) :: others

def ofFiles (files : List (Text × ByteArray)) : Directory where
  files := files.map fun file => (segments file.1, file.2)

/-- The ways from the root to folders that every system has. -/
def usualFolders : List (List Text) :=
  ["bin", "boot", "dev", "etc", "home", "lib", "lib64", "media", "mnt", "opt", "proc", "proc/1",
    "root", "run", "sbin", "srv", "sys", "tmp", "usr", "usr/bin", "usr/include", "usr/lib",
    "usr/local", "usr/sbin", "usr/share", "usr/src", "var", "var/cache", "var/lib", "var/log",
    "var/tmp"].map fun way => segments way.toList

/-- The way from the root to the directory that a program works in. It lies among the temporary
files, under an empty name for one that is not known: no path spells it. -/
def workingWay : List Text := ["tmp".toList, []]

/-- The root of the system in which a program works in a directory with an input. -/
def root (d : Directory) (input : ByteArray) : Directory where
  files :=
    (segments "dev/null".toList, .empty) :: (segments "dev/stdin".toList, input) ::
      (segments "proc/self/fd/0".toList, input) ::
      d.files.map fun file => (workingWay ++ file.1, file.2)
  folders := usualFolders
  links :=
    [(segments "dev/fd".toList, segments "proc/self/fd".toList),
      (segments "proc/self/cwd".toList, workingWay)]

/-- What a way leads to. A directory is given by its own way, without links. -/
inductive Entry
  | directory (way : List Text)
  | file (bytes : ByteArray)

def lookup? (d : Directory) (way : List Text) : Option Entry :=
  match d.files.find? fun file => file.1 == way with
  | some file => some (.file file.2)
  | none =>
    match d.links.find? fun link => link.1 == way with
    | some link => some (.directory link.2)
    | none =>
      if (d.files.map Prod.fst ++ d.folders).any way.isPrefixOf then some (.directory way)
      else none

def stays (part : Text) : Bool := part.isEmpty || part == ['.']

def climbs (part : Text) : Bool := part == ['.', '.']

def maxPart : Nat := 255

/-- Whether a part is too long for the directory at a way. Among the processes none is. -/
def tooLong (way : List Text) (part : Text) : Bool :=
  maxPart < Text.byteLength part && way.head? != some "proc".toList

def maxPath : Nat := 4095

/-- Follows the parts of a path from the directory at a way. Nothing climbs out of the root. -/
def follow (d : Directory) (way : List Text) : List Text → Except ReadError Entry
  | [] => .ok (.directory way)
  | part :: rest =>
    if stays part then d.follow way rest
    else if climbs part then d.follow way.dropLast rest
    else if tooLong way part then .error .nameTooLong
    else
      match d.lookup? (way ++ [part]) with
      | none => .error .notFound
      | some (.directory next) => d.follow next rest
      | some (.file bytes) => if rest = [] then .ok (.file bytes) else .error .notDirectory

def find (d : Directory) (input : ByteArray) (path : Text) : Except ReadError Entry :=
  if path = [] then .error .notFound
  else if maxPath < Text.byteLength path then .error .nameTooLong
  else
    (d.root input).follow (if path.head? = some '/' then [] else workingWay) (segments path)

def read (d : Directory) (input : ByteArray) : Reader := fun path =>
  if '\x00' ∈ path then .error .nullInName
  else
    match d.find input path with
    | .ok (.file bytes) => .ok bytes
    | .ok (.directory _) => .error .isDirectory
    | .error e => .error e

end Directory
end MaterialText
