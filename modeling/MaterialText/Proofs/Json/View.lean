import MaterialText.Json.View
import MaterialText.Proofs.Document.WellFormed
import MaterialText.Proofs.Json.Decoder
import MaterialText.Proofs.Json.Writer
import MaterialText.Proofs.Single.CanonicalText
import MaterialText.Text.Encoding

namespace MaterialText

namespace Json
open FloatLiteral Numeral

variable {sg : Text} {negative : Bool}

theorem terminated_of_denotes {t : Text} {v : Value} (h : Denotes t v) : Text.terminated t = t := by
  apply Text.terminated_eq_self_iff.mpr
  intro hnull
  have hprintable := h.printable _ hnull
  cases hprintable

theorem whole_decimal (n : Nat) : Whole (decimal n) := by
  by_cases hn : n = 0
  · rw [hn]
    exact .zero
  · have hdigits : Digits (decimal n) := fun _ => isDigit_of_mem_decimal
    have hhead := Integer.head?_decimal_ne hn
    obtain ⟨d, ds, hcons⟩ := List.exists_cons_of_ne_nil (Nat.toDigits_ne_nil (b := 10) (n := n))
    rw [decimal, hcons] at hdigits hhead ⊢
    obtain ⟨hd, hds⟩ := List.forall_mem_cons.mp hdigits
    exact .digits (nonzero_digit_iff.mpr ⟨hd, fun hzero => hhead (congrArg some hzero)⟩) hds

theorem minus_ite (negative : Bool) : Minus (if negative then ['-'] else []) negative := by
  cases negative with
  | false => exact .absent
  | true => exact .present

theorem number_signed (h : Minus sg negative) (n : Nat) :
    Number (sg ++ decimal n) (signed negative n : Int) := by
  have hnumber := Number.parts h (whole_decimal n) .absent .absent
  have hvalue : withSign negative (magnitude ⟨negative, decimal n, [], 0⟩) =
      (signed negative n : Int) := by
    rw [cast_signed]
    simp [magnitude, ← value_eq_ofDigits]
  rwa [List.append_nil, List.append_nil, hvalue] at hnumber

theorem number_decimal (n : Nat) : Number (decimal n) n := number_signed .absent n

theorem number_integer (i : Int64) : Number (Integer.text i) i.toInt := by
  rw [Integer.text]
  by_cases h : i.toInt < 0
  · have hi : signed true i.toInt.natAbs = i.toInt := by
      simp only [signed, if_true]
      omega
    have hnumber := number_signed .present i.toInt.natAbs
    rw [hi] at hnumber
    rwa [if_pos h]
  · have hi : signed false i.toInt.natAbs = i.toInt := by
      simp only [signed, Bool.false_eq_true, if_false]
      omega
    have hnumber := number_signed .absent i.toInt.natAbs
    rw [hi] at hnumber
    rwa [if_neg h]

end Json

namespace Single
open FloatLiteral Json Numeral

variable {x : Single}

theorem value_textLiteral (x : Single) :
    withSign x.textLiteral.negative x.textLiteral.magnitude = x.signedMillionths / 10 ^ 6 := by
  rw [magnitude_textLiteral, signedMillionths, cast_signed]
  by_cases hzero : x.millionths = 0
  · simp [hzero]
  · have hnegative : x.textLiteral.negative = x.negative := by
      simp [hzero, textLiteral, fixedLiteral]
    rw [hnegative, withSign, withSign]
    split <;> ring

theorem number_text (h : x.isFinite = true) : Number x.text (x.signedMillionths / 10 ^ 6) := by
  have hnumber := Number.parts (minus_ite x.textLiteral.negative)
    (whole_decimal (x.millionths / 10 ^ 6)) (.present (places_ne_nil 5 _) x.digits_fraction) .absent
  rw [List.append_nil] at hnumber
  rw [text_eq_append h, ← value_textLiteral]
  exact hnumber

end Single

namespace Constant
open Json

def items (c : Constant) : List Value :=
  c.values.map fun v => .number v.text (v.signedMillionths / 10 ^ 6)

end Constant

namespace Statement
open Json Numeral

variable {st : Statement}

/-- The members of the object of a statement after its line. -/
def members : Statement → List (Text × Value)
  | .verbatim line => [("kind".toList, .string "opaque".toList), ("text".toList, .string line)]
  | .defineText name text =>
    [("kind".toList, .string "stringDefine".toList), ("name".toList, .string name),
      ("value".toList, .string text)]
  | .defineInteger name i =>
    [("kind".toList, .string "integerDefine".toList), ("name".toList, .string name),
      ("value".toList, .number (Integer.text i) i.toInt)]
  | .constant c =>
    [("kind".toList, .string "float".toList), ("name".toList, .string c.name),
      ("type".toList, .string c.type.name), ("values".toList, .array c.items)]
  | .inclusion argument =>
    [("kind".toList, .string "include".toList), ("argument".toList, .string argument)]

def object (st : Statement) (index : Nat) : List (Text × Value) :=
  ("line".toList, .number (decimal index) index) :: st.members

def HasFiniteValues : Statement → Prop
  | .constant c => ∀ v ∈ c.values, v.isFinite = true
  | _ => True

theorem means_record (h : st.HasFiniteValues) (index : Nat) :
    (st.record index).Means (st.object index) := by
  refine .cons (.number (number_decimal index)) ?_
  cases st with
  | verbatim line => exact .cons (.string _) (.cons (.string _) .nil)
  | defineText name text => exact .cons (.string _) (.cons (.string _) (.cons (.string _) .nil))
  | defineInteger name i =>
    exact .cons (.string _) (.cons (.string _) (.cons (.number (number_integer i)) .nil))
  | constant c =>
    have hvalues : Field.Means (.numbers (c.values.map Single.text)) (.array c.items) := by
      refine .numbers ?_
      rw [Constant.items, List.forall₂_map_left_iff, List.forall₂_map_right_iff, List.forall₂_same]
      exact fun v hv => ⟨_, Single.number_text (h v hv), rfl⟩
    exact .cons (.string _) (.cons (.string _) (.cons (.string _) (.cons hvalues .nil)))
  | inclusion argument => exact .cons (.string _) (.cons (.string _) .nil)

end Statement

namespace Document
open Json

variable {d : Document}

/-- One object for each statement, with the number of its line. -/
def content (d : Document) : Value :=
  .array (d.statements.zipIdx.map fun p => .object (p.1.object p.2))

theorem means_records (h : ∀ st ∈ d.statements, st.HasFiniteValues) :
    List.Forall₂ Record.Means (d.statements.zipIdx.map fun p => p.1.record p.2)
      (d.statements.zipIdx.map fun p => p.1.object p.2) := by
  rw [List.forall₂_map_left_iff, List.forall₂_map_right_iff, List.forall₂_same]
  intro p hp
  exact Statement.means_record (h p.1 (List.fst_mem_of_mem_zipIdx hp)) p.2

theorem denotes_json (h : ∀ st ∈ d.statements, st.HasFiniteValues) (style : Style) :
    Denotes (d.json style) d.content := by
  have hdenotes := denotes_write style (means_records h)
  rw [List.map_map] at hdenotes
  exact hdenotes

theorem hasFiniteValues_of_mem_parse {s : Text} :
    ∀ st ∈ (parse s).statements, st.HasFiniteValues := by
  intro st hst
  obtain ⟨line, hline, rfl⟩ := List.mem_map.mp hst
  have hwell := Statement.wellFormed_ofLine (not_isLineBreak_of_mem_lines hline)
  cases hof : Statement.ofLine line with
  | constant c =>
    rw [hof] at hwell
    exact hwell.2.2.2.2
  | _ => trivial

@[simp]
theorem terminated_json (s : Text) :
    Text.terminated ((parse s).json .compact) = (parse s).json .compact :=
  terminated_of_denotes (denotes_json hasFiniteValues_of_mem_parse .compact)

end Document

namespace Note
open Json Numeral

def object (n : Note) : List (Text × Value) :=
  [("line".toList, .number (decimal n.line) n.line),
    ("column".toList, .number (decimal n.diagnostic.column) n.diagnostic.column),
    ("message".toList, .string n.diagnostic.cause.message)]

def content (notes : List Note) : Value := .array (notes.map fun n => .object n.object)

theorem means_record (n : Note) : n.record.Means n.object :=
  .cons (.number (number_decimal _)) (.cons (.number (number_decimal _)) (.cons (.string _) .nil))

theorem denotes_json (notes : List Note) : Denotes (json notes) (content notes) := by
  have hrecords : List.Forall₂ Record.Means (notes.map record) (notes.map object) := by
    rw [List.forall₂_map_left_iff, List.forall₂_map_right_iff, List.forall₂_same]
    exact fun n _ => means_record n
  have hdenotes := denotes_write .compact hrecords
  rw [List.map_map] at hdenotes
  exact hdenotes

@[simp]
theorem terminated_json (notes : List Note) : Text.terminated (json notes) = json notes :=
  terminated_of_denotes (denotes_json notes)

end Note

open Json

/-- A document of finite values, as every document is that was read, is written in both styles as a
JSON text that decodes to its content. The notes on a text are written as such a text too. -/
theorem decode_json :
    (∀ (d : Document) (style : Style), (∀ st ∈ d.statements, st.HasFiniteValues) →
      Denotes (d.json style) d.content ∧ decode? (d.json style) = some d.content) ∧
    (∀ s, ∀ st ∈ (Document.parse s).statements, st.HasFiniteValues) ∧
    (∀ c : Constant, c.items.length = c.type.dimension) ∧
    ∀ notes, Denotes (Note.json notes) (Note.content notes) ∧
      decode? (Note.json notes) = some (Note.content notes) := by
  refine ⟨fun d style h => ?_, fun _ => Document.hasFiniteValues_of_mem_parse, fun c => ?_,
    fun notes => ?_⟩
  · have hdenotes := Document.denotes_json h style
    exact ⟨hdenotes, decode?_of_denotes hdenotes⟩
  · rw [Constant.items, List.length_map, c.length_values]
  · have hdenotes := Note.denotes_json notes
    exact ⟨hdenotes, decode?_of_denotes hdenotes⟩

theorem decode_json_escapes :
    decode? (Document.json ⟨[.verbatim ['"', '\\', '\x01', '😀'],
      .constant ⟨"a".toList, .float, [⟨true, 0x3f000000⟩], rfl⟩]⟩ .pretty) =
    some (.array [
      .object [("line".toList, .number ['0'] 0), ("kind".toList, .string "opaque".toList),
        ("text".toList, .string ['"', '\\', '\x01', '😀'])],
      .object [("line".toList, .number ['1'] 1), ("kind".toList, .string "float".toList),
        ("name".toList, .string "a".toList), ("type".toList, .string "float".toList),
        ("values".toList, .array [.number "-0.5".toList (-1 / 2)])]]) := by
  have hfinite : Single.isFinite ⟨true, 0x3f000000⟩ = true := by decide
  have htext : Single.text ⟨true, 0x3f000000⟩ = "-0.5".toList := by decide
  have hvalue : (Single.signedMillionths ⟨true, 0x3f000000⟩ / 10 ^ 6 : ℚ) = -1 / 2 := by
    have hmillionths : Single.signedMillionths ⟨true, 0x3f000000⟩ = -500000 := by decide
    rw [hmillionths]
    norm_num
  have hvalues : ∀ st ∈ [Statement.verbatim ['"', '\\', '\x01', '😀'],
      .constant ⟨"a".toList, .float, [⟨true, 0x3f000000⟩], rfl⟩], st.HasFiniteValues := by
    refine List.forall_mem_cons.mpr ⟨trivial, List.forall_mem_singleton.mpr ?_⟩
    exact List.forall_mem_singleton.mpr hfinite
  rw [(decode_json.1 _ .pretty hvalues).2]
  simp only [Document.content, List.zipIdx_cons, List.zipIdx_nil, List.map_cons, List.map_nil,
    Statement.object, Statement.members, Constant.items, htext, hvalue, Nat.cast_zero, zero_add,
    Nat.cast_one]
  rfl

end MaterialText
