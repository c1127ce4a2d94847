import MaterialText.Text.Word
import MaterialText.Text.Quoted
import MaterialText.Numeral.Integer
import MaterialText.Single.Literal

namespace MaterialText

namespace Text

/-- The parts of a text before and after an offset in bytes. There are none within a character or
beyond the end. -/
def splitBytes? : Nat → Text → Option (Text × Text)
  | 0, s => some ([], s)
  | _ + 1, [] => none
  | n + 1, c :: s =>
    if c.utf8Size ≤ n + 1 then
      (splitBytes? (n + 1 - c.utf8Size) s).map fun p => (c :: p.1, p.2)
    else none

@[simp]
theorem byteLength_cons (c : Char) (s : Text) : byteLength (c :: s) = c.utf8Size + byteLength s :=
  rfl

@[simp]
theorem splitBytes?_append (s t : Text) : splitBytes? (byteLength s) (s ++ t) = some (s, t) := by
  induction s with
  | nil => cases t <;> rfl
  | cons c s ih =>
    have hpos := c.utf8Size_pos
    obtain ⟨n, hn⟩ : ∃ n, byteLength (c :: s) = n + 1 :=
      ⟨byteLength (c :: s) - 1, by rw [byteLength_cons]; omega⟩
    have hle : c.utf8Size ≤ n + 1 := by rw [← hn, byteLength_cons]; omega
    have hrest : n + 1 - c.utf8Size = byteLength s := by rw [← hn, byteLength_cons]; omega
    rw [hn, List.cons_append, splitBytes?, if_pos hle, hrest, ih]
    rfl

theorem splitBytes?_eq_some_iff {n : Nat} {s t u : Text} :
    splitBytes? n s = some (t, u) ↔ s = t ++ u ∧ n = byteLength t := by
  refine ⟨fun h => ?_, fun h => ?_⟩
  · fun_induction splitBytes? n s generalizing t with
    | case1 s =>
      cases h
      exact ⟨rfl, rfl⟩
    | case2 => cases h
    | case3 n c s hle ih =>
      obtain ⟨p, hp, h⟩ := Option.map_eq_some_iff.mp h
      cases h
      obtain ⟨hs, hn⟩ := ih hp
      refine ⟨by rw [hs, List.cons_append], ?_⟩
      rw [byteLength_cons, ← hn]
      omega
    | case4 => cases h
  · obtain ⟨rfl, rfl⟩ := h
    exact splitBytes?_append t u

def slice? (first last : Nat) (s : Text) : Option Text :=
  (splitBytes? last s).bind fun p => (splitBytes? first p.1).map Prod.snd

end Text

namespace FloatLiteral

def ofText? (s : Text) : Option Single :=
  (scan s).bind fun p => if p.2 = [] then p.1.value? else none

end FloatLiteral

structure Cursor where
  line : Text
  /-- The offset in bytes of the UTF-8 encoding. -/
  position : Nat
deriving DecidableEq

namespace Cursor

def start (line : Text) : Cursor := ⟨line, 0⟩

def split? (c : Cursor) : Option (Text × Text) := Text.splitBytes? c.position c.line

def remaining? (c : Cursor) : Option Text := c.split?.map Prod.snd

/-- The offset in characters. -/
def column (c : Cursor) : Nat := (c.split?.map fun p => p.1.length).getD 0

def peek? (c : Cursor) : Option Char := c.remaining?.bind List.head?

def atEnd (c : Cursor) : Bool := Text.byteLength c.line ≤ c.position

def moveTo (c : Cursor) (position : Nat) : Cursor := { c with position }

def advance (c : Cursor) (count : Nat) : Cursor := c.moveTo (c.position + count)

def bytesLeft (c : Cursor) : Nat := Text.byteLength c.line - c.position

theorem bytesLeft_advance_lt {c : Cursor} {d : Char} {s : Text} {count : Nat}
    (h : c.remaining? = some (d :: s)) (hcount : 0 < count) :
    (c.advance count).bytesLeft < c.bytesLeft := by
  obtain ⟨p, hp, hs⟩ := Option.map_eq_some_iff.mp h
  obtain ⟨hline, hposition⟩ := Text.splitBytes?_eq_some_iff.mp hp
  have hpos := d.utf8Size_pos
  simp only [bytesLeft, advance, moveTo, hline, hs, hposition, Text.byteLength_append,
    Text.byteLength_cons]
  omega

end Cursor

/-- A motion of a cursor, with what it finds. It breaks down where no text can be asked for. -/
abbrev Motion (α : Type) := StateT Cursor Option α

namespace Motion
open Cursor

def position : Motion Nat := fun c => some (c.position, c)

def moveTo (n : Nat) : Motion Unit := fun c => some ((), c.moveTo n)

def advance (count : Nat) : Motion Unit := fun c => some ((), c.advance count)

def remaining : Motion Text := fun c => c.remaining?.map fun s => (s, c)

def slice (first last : Nat) : Motion Text := fun c => (Text.slice? first last c.line).map (·, c)

def peek : Motion (Option Char) := do return (← remaining).head?

def startsWith (s : Text) : Motion Bool := do return s.isPrefixOf (← remaining)

def eat (d : Char) : Motion Bool := do
  if (← peek) = some d then
    advance d.utf8Size
    return true
  else return false

/-- Passes at most one character of a kind, as one byte. -/
def skipOne (p : Char → Bool) : Motion Unit := do
  if (← peek).any p then advance 1 else return ()

/-- Passes characters as long as they can be taken up, each as so many bytes. -/
def foldWhile {α : Type} (step : α → Char → Option α) (size : Char → Nat)
    (hsize : ∀ d, 0 < size d) (a : α) (c : Cursor) : Option (α × Cursor) :=
  match _h : c.remaining? with
  | none => none
  | some [] => some (a, c)
  | some (d :: _) =>
    match step a d with
    | some b => foldWhile step size hsize b (c.advance (size d))
    | none => some (a, c)
termination_by c.bytesLeft
decreasing_by exact bytesLeft_advance_lt _h (hsize d)

def skipBlanks : Motion Unit :=
  foldWhile (fun _ d => if isBlank d then some () else none) Char.utf8Size Char.utf8Size_pos ()

/-- Passes characters of a kind, each as one byte. -/
def skipRun (p : Char → Bool) : Motion Unit :=
  foldWhile (fun _ d => if p d then some () else none) (fun _ => 1) (fun _ => Nat.one_pos) ()

def takeRest : Motion Text := do
  let rest ← remaining
  modify fun c => c.moveTo (Text.byteLength c.line)
  return rest

def word : Motion Text := do
  skipBlanks
  let first ← position
  skipRun isWordChar
  slice first (← position)

/-- What stands up to the closing quote, decoded; without one the cursor is set back. -/
def quotedBody (first : Nat) (value : Text) (c : Cursor) : Option (Option Text × Cursor) :=
  match _h : c.remaining? with
  | none => none
  | some [] => some (none, c.moveTo first)
  | some (d :: _) =>
    if d = '"' then some (some value, c.advance 1)
    else if d = '\\' then
      match _h' : (c.advance 1).remaining? with
      | none => none
      | some [] => some (none, c.moveTo first)
      | some (e :: _) =>
        quotedBody first (value ++ [Quoted.denoted e]) ((c.advance 1).advance e.utf8Size)
    else quotedBody first (value ++ [d]) (c.advance d.utf8Size)
termination_by c.bytesLeft
decreasing_by
  · exact Nat.lt_trans (bytesLeft_advance_lt _h' e.utf8Size_pos)
      (bytesLeft_advance_lt _h Nat.one_pos)
  · exact bytesLeft_advance_lt _h d.utf8Size_pos

def quoted : Motion (Option Text) := do
  let first ← position
  skipBlanks
  if ← eat '"' then quotedBody first []
  else
    moveTo first
    return none

def minus : Motion Bool := do
  if ← eat '-' then
    skipBlanks
    return true
  else return false

/-- Passes what fixes the radix. -/
def marker : Motion Integer.Radix := do
  if (← startsWith ['0', 'x']) || (← startsWith ['0', 'X']) then
    advance 2
    return .hexadecimal
  else if ← startsWith ['0'] then
    advance 1
    return .octal
  else return .decimal

/-- A word that digits build up, and the number of digits, after one more digit. -/
def addDigit (radix : Nat) (p : Int64 × Nat) (d : Char) : Option (Int64 × Nat) :=
  if Numeral.isDigitOf radix d then
    some (p.1 * Int64.ofNat radix + Int64.ofNat ((Numeral.digit? d).getD 0), p.2 + 1)
  else none

def magnitude (radix : Nat) : Motion (Int64 × Nat) :=
  foldWhile (addDigit radix) (fun _ => 1) (fun _ => Nat.one_pos) (0, 0)

def integer : Motion (Option Int64) := do
  let first ← position
  skipBlanks
  let negative ← minus
  let radix ← marker
  let (value, count) ← magnitude radix.base
  if count = 0 ∧ radix ≠ .octal then
    moveTo first
    return none
  else
    skipOne Integer.isSuffix
    return some (Integer.withMinus negative value)

def digits : Motion Nat := do
  let first ← position
  skipRun Char.isDigit
  return (← position) - first

def point : Motion Nat := do
  if ← eat '.' then digits else return 0

def isSign (c : Char) : Bool := c == '+' || c == '-'

/-- Passes an exponent if a mark comes next. A mark without digits is refused. -/
def exponent : Motion Bool := do
  if (← peek).any FloatLiteral.isExponentMark then
    advance 1
    skipOne isSign
    return (← digits) != 0
  else return true

/-- Passes a sign, digits and a point among them, and counts the digits. -/
def mantissa : Motion Nat := do
  skipOne isSign
  let whole ← digits
  return whole + (← point)

/-- Passes a literal up to its suffix, if it has all its parts. -/
def literal : Motion Bool := do
  if (← mantissa) = 0 then return false else exponent

def float : Motion (Option Single) := do
  let first ← position
  skipBlanks
  let start ← position
  if ← literal then
    match FloatLiteral.ofText? (← slice start (← position)) with
    | some x =>
      skipOne FloatLiteral.isSuffix
      return some x
    | none =>
      moveTo first
      return none
  else
    moveTo first
    return none

end Motion

namespace Cursor

inductive Step
  | skipBlanks
  | word
  | quoted
  | integer
  | float
  | eat (c : Char)
  | startsWith (s : Text)
  | remaining
  | takeRest
deriving DecidableEq

inductive Finding
  | nothing
  | text (s : Text)
  | integer (i : Int64)
  | float (x : Single)
  | truth (b : Bool)
deriving DecidableEq

def Finding.ofOption {α : Type} (report : α → Finding) : Option α → Finding
  | some a => report a
  | none => .nothing

def perform : Step → Motion Finding
  | .skipBlanks => do
    Motion.skipBlanks
    return .nothing
  | .word => do return .text (← Motion.word)
  | .quoted => do return .ofOption .text (← Motion.quoted)
  | .integer => do return .ofOption .integer (← Motion.integer)
  | .float => do return .ofOption .float (← Motion.float)
  | .eat d => do return .truth (← Motion.eat d)
  | .startsWith s => do return .truth (← Motion.startsWith s)
  | .remaining => do return .text (← Motion.remaining)
  | .takeRest => do return .text (← Motion.takeRest)

/-- The findings of a sequence of steps, each with the cursor after it, up to a step that breaks
down. -/
def run (c : Cursor) : List Step → List (Finding × Cursor)
  | [] => []
  | step :: steps =>
    match perform step c with
    | some found => found :: run found.2 steps
    | none => []

end Cursor
end MaterialText
