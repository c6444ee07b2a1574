import ScriptCheck.Binary64.Rounding

namespace ScriptCheck

inductive ScalarType where
  | integer
  | float
  | string
  | boolean
  deriving DecidableEq

inductive Scalar where
  | integer (i : Int64)
  | float (x : Binary64)
  | string (s : String)
  | boolean (b : Bool)
  deriving DecidableEq

-- Why a number cannot be held by a leaf.
inductive ScalarError where
  | outOfRange (n : UInt64)
  | notFinite (x : Binary64)
  deriving DecidableEq

def ScalarType.numeric : List ScalarType :=
  [integer, float]

namespace Scalar

def type : Scalar → ScalarType
  | integer _ => .integer
  | float _   => .float
  | string _  => .string
  | boolean _ => .boolean

def isFinite : Scalar → Bool
  | float x => x.isFinite
  | _       => true

-- The number that a numeric scalar stands for. An integer is rounded to the nearest representable value.
def number? : Scalar → Option Binary64
  | integer i => some (.ofInt i.toInt)
  | float x   => some x
  | _         => none

def integer? : Scalar → Option Int64
  | integer i => some i
  | _         => none

def string? : Scalar → Option String
  | string s => some s
  | _        => none

def boolean? : Scalar → Option Bool
  | boolean b => some b
  | _         => none

-- Equality as the scalars' own types have it: floats are compared as numbers, and scalars of different types
-- are never the same.
def same : Scalar → Scalar → Bool
  | integer i, integer j => i == j
  | float x,   float y   => x.same y
  | string s,  string t  => s == t
  | boolean b, boolean c => b == c
  | _,         _         => false

-- An unsigned number is held as an integer if it fits.
def ofUnsigned (n : UInt64) : Except ScalarError Scalar :=
  if n.toNat < 0x8000000000000000 then .ok (integer (.ofNat n.toNat)) else .error (.outOfRange n)

def ofFloat (x : Binary64) : Except ScalarError Scalar :=
  if x.isFinite then .ok (float x) else .error (.notFinite x)

end Scalar
end ScriptCheck
