import ScriptCheck.Decimal.Numeral
import ScriptCheck.Binary64.Rounding

namespace ScriptCheck

def Numeral.toBinary64 (tie : Tie) (n : Numeral) : Binary64 :=
  .ofDecimal tie n.negative n.coefficient n.scale

-- The exponent of a decimal text is read up to the digit that takes it to 65536 or more. It is far out of range then,
-- unless the text has about as many digits.
def Exponent.bounded (e : Exponent) : Int :=
  let n : Nat := (e.lead :: e.rest).foldl (fun n d => if n < 0x10000 then 10 * n + d.val else n) 0
  match e.sign with
  | .minus => -n
  | _      => n

namespace Binary64

-- The value nearest to a number given by its digits.
def ofDigits (negative : Bool) (whole fraction : List Digit) (exponent : Option Exponent) : Binary64 :=
  .ofDecimal .even negative (Digit.toNat (whole ++ fraction))
    ((exponent.map Exponent.bounded).getD 0 - fraction.length)

-- Decimal texts are more liberal than numerals: leading zeros are allowed, and the whole part or the fraction
-- may be missing, though not both.
def ofUnsignedText? (negative : Bool) (s : List Char) : Option Binary64 :=
  let (whole, s) := Numeral.spanDigits s
  let (fraction, s) := match s with
    | '.' :: s => Numeral.spanDigits s
    | s        => ([], s)
  if whole.isEmpty && fraction.isEmpty then none
  else match Numeral.scanExponent? s with
    | some (exponent, []) => some (ofDigits negative whole fraction exponent)
    | _                   => none

def ofUnsigned? (negative : Bool) (s : List Char) : Option Binary64 :=
  match String.ofList (s.map Char.toLower) with
  | "nan"      => some .nan
  | "inf"      => some (.infinite negative)
  | "infinity" => some (.infinite negative)
  | _          => ofUnsignedText? negative s

-- The value nearest to a decimal text, or the special value that it names.
def ofText? (s : String) : Option Binary64 :=
  match s.toList with
  | '-' :: s => ofUnsigned? true s
  | '+' :: s => ofUnsigned? false s
  | s        => ofUnsigned? false s

end Binary64
end ScriptCheck
