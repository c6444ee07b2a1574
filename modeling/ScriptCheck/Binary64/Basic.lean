namespace ScriptCheck

-- The magnitude `mant * 2 ^ exp` in units of `2 ^ (-1074)`. A value has one such form: the mantissa has all
-- 53 bits unless the exponent is the least one.
@[ext]
structure Magnitude where
  mant : Nat
  exp : Nat
  mant_lt : mant < 0x20000000000000
  exp_le : exp ≤ 2045
  normal : exp = 0 ∨ 0x10000000000000 ≤ mant
  deriving DecidableEq

inductive Binary64 where
  | finite (negative : Bool) (magnitude : Magnitude)
  | infinite (negative : Bool)
  | nan
  deriving DecidableEq

namespace Magnitude

def units (m : Magnitude) : Nat :=
  m.mant <<< m.exp

def zero : Magnitude where
  mant := 0
  exp := 0
  mant_lt := by decide
  exp_le := by decide
  normal := .inl rfl

instance : Inhabited Magnitude := ⟨zero⟩

-- The exponent and mantissa fields of the interchange format, as one number. The leading bit of a normal
-- mantissa carries into the exponent field, which is how that field comes to be one more than `exp`.
def field (m : Magnitude) : Nat :=
  m.exp <<< 52 + m.mant

end Magnitude

namespace Binary64

instance : Inhabited Binary64 := ⟨.nan⟩

def isFinite : Binary64 → Bool
  | finite .. => true
  | _         => false

def signedUnits (negative : Bool) (m : Magnitude) : Int :=
  if negative then -m.units else m.units

-- Equality of numbers: the two zeros are the same number and `nan` is none.
def same : Binary64 → Binary64 → Bool
  | finite b₁ m₁, finite b₂ m₂ => signedUnits b₁ m₁ == signedUnits b₂ m₂
  | infinite b₁,  infinite b₂  => b₁ == b₂
  | _,            _            => false

-- The order of numbers, in which `nan` has no place.
def le : Binary64 → Binary64 → Bool
  | nan,            _              => false
  | _,              nan            => false
  | infinite true,  _              => true
  | _,              infinite false => true
  | finite b₁ m₁,   finite b₂ m₂   => signedUnits b₁ m₁ ≤ signedUnits b₂ m₂
  | _,              _              => false

def signBit (negative : Bool) : Nat :=
  if negative then 0x8000000000000000 else 0

-- The bits of the interchange format.
def toBits : Binary64 → UInt64
  | finite b m => UInt64.ofNat (signBit b + m.field)
  | infinite b => UInt64.ofNat (signBit b + 0x7ff0000000000000)
  | nan        => 0x7ff8000000000000

end Binary64
end ScriptCheck
