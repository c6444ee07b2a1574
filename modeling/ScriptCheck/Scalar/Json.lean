import ScriptCheck.Binary64.Reading
import ScriptCheck.Json.Printer
import ScriptCheck.Reader
import ScriptCheck.Scalar.Text

namespace ScriptCheck

-- Written numbers use exponents from `10 ^ 16` on and below `10 ^ (-5)`, and are never mistaken for integers.
def FloatStyle.written : FloatStyle where
  positional e := -5 ≤ e && e < 16
  point := true
  plus := true
  tie := .even

-- Only the first 768 digits of a numeral are looked at, not counting zeros at the end of its fraction. If there are
-- more, the number is taken to exceed them: a tie then goes up, even if all digits that follow are zeros.
def Numeral.tie (n : Numeral) : Tie :=
  if n.trimmed.coefficient < pow10 768 then .even else .up

namespace ScalarType

def ofName? : String → Option ScalarType
  | "integer" => some integer
  | "float"   => some float
  | "string"  => some string
  | "boolean" => some boolean
  | _         => none

def toJson (t : ScalarType) : Json :=
  .text t.name

-- A type is given by its name, or by an object with its name as the only member and nothing for a value.
def read : Reader ScalarType
  | .string (some s)                  => (ofName? s).elim Reader.refuse .ok
  | .object [(some s, .null)] true => (ofName? s).elim Reader.refuse .ok
  | _                                 => Reader.refuse

end ScalarType

namespace Scalar

-- There is no numeral for a float that is not finite.
def toJson : Scalar → Json
  | integer i            => .int i.toInt
  | float (.finite b m)  => .number (FloatStyle.written.numeral b m)
  | float _              => .null
  | string s             => .text s
  | boolean b            => .bool b

-- A numeral that is out of range is refused before there is a float to be held.
def readFloat (n : Numeral) : Except ReadError Scalar :=
  let x := n.toBinary64 n.tie
  if x.isFinite then (ofFloat x).mapError .scalar else Reader.refuse

-- A numeral without fraction and exponent is an integer as far as 64 bits hold it, signed for a negative number
-- and unsigned for any other. All other numerals are floats, minus zero among them.
def ofNumeral (n : Numeral) : Except ReadError Scalar :=
  if n.isPlain then
    if n.negative then
      if 0 < n.whole ∧ n.whole ≤ 0x8000000000000000 then .ok (integer (.ofInt (-n.whole))) else readFloat n
    else
      if n.whole < 0x10000000000000000 then (ofUnsigned (.ofNat n.whole)).mapError .scalar else readFloat n
  else
    readFloat n

def read : Reader Scalar
  | .number n        => ofNumeral n
  | .string (some s) => .ok (string s)
  | .bool b          => .ok (boolean b)
  | _                => Reader.refuse

end Scalar
end ScriptCheck
