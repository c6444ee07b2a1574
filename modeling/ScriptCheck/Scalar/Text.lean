import ScriptCheck.Binary64.Style
import ScriptCheck.Scalar.Basic
import ScriptCheck.Text.Quoted

namespace ScriptCheck

namespace ScalarType

def name : ScalarType → String
  | integer => "integer"
  | float   => "float"
  | string  => "string"
  | boolean => "boolean"

def describe : ScalarType → String
  | integer => "Integer"
  | float   => "Float"
  | string  => "String"
  | boolean => "Boolean"

end ScalarType

namespace FloatStyle

-- Messages write numbers in full.
def display : FloatStyle where
  positional _ := true
  point := false
  plus := false
  tie := .up

-- Descriptions show that a number is a float, and use exponents from `10 ^ 16` on and below `10 ^ (-4)`.
def description : FloatStyle where
  positional e := -4 ≤ e && e < 16
  point := true
  plus := false
  tie := .up

end FloatStyle

namespace Scalar

def display : Scalar → String
  | integer i => i.toInt.repr
  | float x   => FloatStyle.display.text x
  | string s  => Text.quoted s
  | boolean b => if b then "true" else "false"

def describe : Scalar → String
  | integer i => "Integer(" ++ i.toInt.repr ++ ")"
  | float x   => "Float(" ++ FloatStyle.description.text x ++ ")"
  | string s  => "String(" ++ Text.quoted s ++ ")"
  | boolean b => if b then "Boolean(true)" else "Boolean(false)"

end Scalar

def ScalarError.message : ScalarError → String
  | outOfRange n => "integer " ++ n.toNat.repr ++ " is out of range for a leaf value"
  | notFinite x  => "float " ++ FloatStyle.display.text x ++ " is not finite"

end ScriptCheck
