import MaterialText.Text.Basic

namespace MaterialText

/-- A sign and the code of a magnitude: eight bits of exponent before twenty-three of fraction. -/
structure Single where
  negative : Bool
  code : BitVec 31
deriving DecidableEq

namespace Single

/-- The number of codes that share an exponent. -/
def binade : Nat := 1 <<< 23

/-- The code of infinity. Smaller codes are finite and greater ones are no number. -/
def infinityCode : Nat := 255 * binade

def ofBits (bits : UInt32) : Single := ⟨bits.toBitVec.msb, bits.toBitVec.setWidth 31⟩

def toBits (x : Single) : UInt32 := ⟨BitVec.cons x.negative x.code⟩

def isFinite (x : Single) : Bool := x.code.toNat < infinityCode

def isNaN (x : Single) : Bool := infinityCode < x.code.toNat

/-- Equality of numbers: the two zeros are equal, and what is no number equals nothing. -/
def equal (x y : Single) : Bool :=
  !x.isNaN && !y.isNaN && (x == y || (x.code == 0 && y.code == 0))

theorem equal_comm (x y : Single) : x.equal y = y.equal x := by
  simp only [equal, Bool.and_comm, BEq.comm]

/-- The finite magnitude of a code in units of 2^-149. -/
def unitsOf (code : Nat) : Nat :=
  if code < binade then code
  else (binade + code % binade) <<< (code / binade - 1)

def units (x : Single) : Nat := unitsOf x.code.toNat

def unitsInOne : Nat := 1 <<< 149

end Single
end MaterialText
