import MaterialText.Single.Basic
import MaterialText.Numeral.Basic

namespace MaterialText

inductive FloatType
  | float | float2 | float3 | float4
deriving DecidableEq

namespace FloatType

def dimension : FloatType → Nat
  | .float => 1
  | .float2 => 2
  | .float3 => 3
  | .float4 => 4

def name : FloatType → Text
  | .float => "float".toList
  | .float2 => "float2".toList
  | .float3 => "float3".toList
  | .float4 => "float4".toList

def all : List FloatType := [.float, .float2, .float3, .float4]

def ofName? (s : Text) : Option FloatType := all.find? (·.name == s)

def ofDimension? (n : Nat) : Option FloatType := all.find? (·.dimension == n)

@[simp]
theorem mem_all (t : FloatType) : t ∈ all := by cases t <;> decide

theorem ofName?_eq_some_iff {s : Text} {t : FloatType} : ofName? s = some t ↔ s = t.name := by
  constructor
  · intro h
    unfold ofName? at h
    have hn := List.find?_some h
    exact (beq_iff_eq.mp hn).symm
  · rintro rfl
    cases t <;> decide

theorem dimension_of_ofDimension? {n : Nat} {t : FloatType} (h : ofDimension? n = some t) :
    n = t.dimension := by
  unfold ofDimension? at h
  have hn := List.find?_some h
  exact (beq_iff_eq.mp hn).symm

@[simp]
theorem ofDimension?_dimension (t : FloatType) : ofDimension? t.dimension = some t := by
  cases t <;> decide

end FloatType

/-- A request that no document can meet. -/
inductive Refusal
  | dimension (found : Nat)
  | line (count index : Nat)
deriving DecidableEq

def Refusal.message : Refusal → Text
  | .dimension found =>
    "float constant needs 1 to 4 components, got ".toList ++ Numeral.decimal found
  | .line count index =>
    "index out of bounds: the len is ".toList ++ Numeral.decimal count ++
      " but the index is ".toList ++ Numeral.decimal index

/-- A named constant with as many values as its type has components. -/
structure Constant where
  name : Text
  type : FloatType
  values : List Single
  length_values : values.length = type.dimension
deriving DecidableEq

namespace Constant

/-- The constant of given values; their number fixes the type. -/
def ofValues (name : Text) (values : List Single) : Except Refusal Constant :=
  match h : FloatType.ofDimension? values.length with
  | some type => .ok ⟨name, type, values, FloatType.dimension_of_ofDimension? h⟩
  | none => .error (.dimension values.length)

def replicate (name : Text) (type : FloatType) (x : Single) : Constant :=
  ⟨name, type, List.replicate type.dimension x, List.length_replicate⟩

/-- The constant of one value repeated; the number of repetitions fixes the type. -/
def ofValue (name : Text) (x : Single) (dimension : Nat) : Except Refusal Constant :=
  match FloatType.ofDimension? dimension with
  | some type => .ok (replicate name type x)
  | none => .error (.dimension dimension)

/-- Every value equals the first as a number. -/
def isUniform (c : Constant) : Bool :=
  c.values.all fun x => c.values.head?.any x.equal

/-- Equal names, and values that are equal as numbers. -/
def equal (a b : Constant) : Bool :=
  a.name == b.name && a.type == b.type &&
    (a.values.zip b.values).all fun p => p.1.equal p.2

theorem ofValues_eq_ok {name : Text} {values : List Single} {type : FloatType}
    (h : values.length = type.dimension) :
    ofValues name values = .ok ⟨name, type, values, h⟩ := by
  unfold ofValues
  split
  · rename_i found hf
    rw [h, FloatType.ofDimension?_dimension] at hf
    cases hf
    rfl
  · rename_i hf
    rw [h, FloatType.ofDimension?_dimension] at hf
    cases hf

end Constant

inductive Statement
  /-- A line that is not fully recognised, as it stands. -/
  | verbatim (line : Text)
  /-- A name for a text, held decoded. -/
  | defineText (name value : Text)
  /-- A name for an integer, whatever its spelling. -/
  | defineInteger (name : Text) (value : Int64)
  | constant (c : Constant)
  /-- The inclusion of another file, its argument untouched. -/
  | inclusion (argument : Text)
deriving DecidableEq

namespace Statement

def isVerbatim : Statement → Bool
  | .verbatim _ => true
  | _ => false

def name? : Statement → Option Text
  | .defineText name _ => some name
  | .defineInteger name _ => some name
  | .constant c => some c.name
  | .verbatim _ | .inclusion _ => none

/-- Equality of statements with values compared as numbers. -/
def equal : Statement → Statement → Bool
  | .constant a, .constant b => a.equal b
  | a, b => a == b

end Statement
end MaterialText
