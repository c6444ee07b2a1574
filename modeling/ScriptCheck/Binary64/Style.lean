import ScriptCheck.Decimal.Numeral
import ScriptCheck.Binary64.Shortest

namespace ScriptCheck

structure FloatStyle where
  -- Whether a number whose leading digit counts `10 ^ e` is written without exponent.
  positional : Int → Bool
  -- Whether a whole number written without exponent gets the fraction `.0`.
  point : Bool
  -- Whether a positive exponent gets a sign.
  plus : Bool
  tie : Tie

namespace FloatStyle

variable (s : FloatStyle)

-- The digits of `coeff` with a point before the last `places` of them.
def split (negative : Bool) (coeff places : Nat) (exponent : Option Exponent) : Numeral where
  negative := negative
  whole := coeff / pow10 places
  fraction := Digit.fixed places coeff
  exponent := exponent

def layout (negative : Bool) (d : Decimal) : Numeral :=
  let last := (Digit.ofNat d.coeff).length - 1
  let lead := d.scale + last
  if s.positional lead then
    if 0 ≤ d.scale then ⟨negative, d.coeff * pow10 d.scale.toNat, if s.point then Digit.fixed 1 0 else [], none⟩
    else split negative d.coeff d.scale.natAbs none
  else
    split negative d.coeff last (some (Exponent.ofInt s.plus lead))

def numeral (negative : Bool) (m : Magnitude) : Numeral :=
  s.layout negative (m.shortest s.tie)

def text : Binary64 → String
  | .finite negative m => (s.numeral negative m).text
  | .infinite false    => "inf"
  | .infinite true     => "-inf"
  | .nan               => "NaN"

end FloatStyle
end ScriptCheck
