import ScriptCheck.Binary64.Rounding

namespace ScriptCheck

-- The decimal number `coeff * 10 ^ scale`.
structure Decimal where
  coeff : Nat
  scale : Int
  deriving DecidableEq

namespace Decimal

-- Removes trailing zeros from the coefficient.
def trim (coeff : Nat) (scale : Int) : Decimal :=
  if h : 0 < coeff ∧ coeff % 10 = 0 then trim (coeff / 10) (scale + 1) else ⟨coeff, scale⟩
termination_by coeff
decreasing_by omega

end Decimal

namespace Magnitude

-- The magnitude in units of `10 ^ (-1074)`. It is a whole number of them, so decimals are compared with it exactly.
def fine (m : Magnitude) : Nat :=
  m.units * Nat.pow 5 1074

-- The distance to the next larger magnitude in units of `10 ^ (-1074)`.
def gap (m : Magnitude) : Nat :=
  Nat.pow 5 1074 <<< m.exp

-- A quarter unit is `10 ^ (-1074) / 4`. In quarter units, the middle between `m` and the next larger magnitude.
def upperMiddle (m : Magnitude) : Nat :=
  4 * m.fine + 2 * m.gap

-- In quarter units, the middle between `m` and the next smaller magnitude. Below a power of two magnitudes
-- lie twice as close.
def lowerMiddle (m : Magnitude) : Nat :=
  if m.mant = 0x10000000000000 ∧ 0 < m.exp then 4 * m.fine - m.gap else 4 * m.fine - 2 * m.gap

-- Whether the decimal `d` units of `10 ^ (-1074)` rounds to `m`: a middle rounds to the even mantissa.
def Covers (m : Magnitude) (d : Nat) : Prop :=
  if m.mant % 2 = 0 then
    m.lowerMiddle ≤ 4 * d ∧ 4 * d ≤ m.upperMiddle
  else
    m.lowerMiddle < 4 * d ∧ 4 * d < m.upperMiddle

instance (m : Magnitude) (d : Nat) : Decidable (m.Covers d) := by
  unfold Covers
  infer_instance

-- The number of decimal digits of a positive `n` of at most 100000 bits. The factor is just below the decimal
-- logarithm of 2, so the binary length leaves two candidates.
def digitCount (n : Nat) : Nat :=
  let k := n.log2 * 1233 / 4096
  if n < pow10 (k + 1) then k + 1 else k + 2

-- Of the neighbours `d * g` and `(d + 1) * g` of `x`, the nearer one.
def nearer (tie : Tie) (x g d : Nat) : Nat :=
  let below := x - d * g
  let above := (d + 1) * g - x
  if below < above then d
  else if above < below then d + 1
  else tie.choose d

-- The multiple of `g` that rounds to `m` and is nearest to it, as a factor of `g`.
def onGrid? (tie : Tie) (m : Magnitude) (g : Nat) : Option Nat :=
  let d := m.fine / g
  if m.Covers (d * g) then
    if m.Covers ((d + 1) * g) then some (nearer tie m.fine g d) else some d
  else
    if m.Covers ((d + 1) * g) then some (d + 1) else none

-- Tries grids with steps `10 ^ k`, `10 ^ (k - 1)` and so on. All digits are taken if no grid fits.
def search (tie : Tie) (m : Magnitude) (k : Nat) : Nat → Decimal
  | 0         => .trim m.fine (-1074)
  | steps + 1 =>
    match m.onGrid? tie (pow10 k) with
    | some d => .trim d (k - 1074)
    | none   => search tie m (k - 1) steps

-- The decimal with the fewest digits that rounds to `m`, and of those the nearest. Seventeen digits always do.
def shortest (tie : Tie) (m : Magnitude) : Decimal :=
  if m.mant = 0 then ⟨0, 0⟩ else m.search tie (digitCount m.fine - 1) 17

end Magnitude
end ScriptCheck
