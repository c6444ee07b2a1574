import ScriptCheck.Binary64.Basic
import ScriptCheck.Decimal.Digit

namespace ScriptCheck

-- Which of two equally near candidates is taken: the larger one or the even one.
inductive Tie where
  | up
  | even
  deriving DecidableEq

namespace Tie

-- The candidate that is taken in the middle between `q` and `q + 1`.
def choose (tie : Tie) (q : Nat) : Nat :=
  match tie with
  | up   => q + 1
  | even => q + q % 2

theorem le_choose (tie : Tie) (q : Nat) : q ≤ tie.choose q := by
  cases tie <;> simp [choose]

theorem choose_le (tie : Tie) (q : Nat) : tie.choose q ≤ q + 1 := by
  cases tie <;> simp only [choose] <;> omega

end Tie

-- The natural number nearest to `num / den`.
def roundDiv (tie : Tie) (num den : Nat) : Nat :=
  let q := num / den
  let r := num % den
  if 2 * r < den then q
  else if den < 2 * r then q + 1
  else tie.choose q

theorem le_roundDiv (tie : Tie) (num den : Nat) : num / den ≤ roundDiv tie num den := by
  have := tie.le_choose (num / den)
  simp only [roundDiv]
  split <;> try split
  all_goals omega

theorem roundDiv_le (tie : Tie) (num den : Nat) : roundDiv tie num den ≤ num / den + 1 := by
  have := tie.choose_le (num / den)
  simp only [roundDiv]
  split <;> try split
  all_goals omega

namespace Magnitude

-- The exponent at which a value of `num / den` units has a mantissa of 53 bits, or the least exponent.
def exponentOf (num den : Nat) : Nat :=
  (num / den).log2 - 52

theorem exponentOf_normal (tie : Tie) (num den : Nat) :
    exponentOf num den = 0 ∨ 0x10000000000000 ≤ roundDiv tie num (den <<< exponentOf num den) := by
  by_cases h : exponentOf num den = 0
  case pos => exact .inl h
  case neg =>
    refine .inr (Nat.le_trans ?_ (le_roundDiv _ _ _))
    have hl : (num / den).log2 = 52 + exponentOf num den := by
      unfold exponentOf at h ⊢
      omega
    have hn : num / den ≠ 0 := by
      intro hz
      simp [exponentOf, hz] at h
    rw [Nat.shiftLeft_eq, ← Nat.div_div_eq_div_mul, Nat.le_div_iff_mul_le (Nat.two_pow_pos _)]
    have := Nat.log2_self_le hn
    rw [hl, Nat.pow_add] at this
    exact this

-- The magnitude nearest to `num / den` units. There is none for a value that rounds to `2 ^ 1024` or more.
def nearest? (tie : Tie) (num den : Nat) : Option Magnitude :=
  let exp := exponentOf num den
  let mant := roundDiv tie num (den <<< exp)
  if hm : mant < 0x20000000000000 then
    if he : exp ≤ 2045 then some ⟨mant, exp, hm, he, exponentOf_normal tie num den⟩ else none
  else
    if he : exp < 2045 then some ⟨0x10000000000000, exp + 1, by decide, he, .inr (Nat.le_refl _)⟩ else none

end Magnitude

namespace Binary64

def ofUnits (tie : Tie) (negative : Bool) (num den : Nat) : Binary64 :=
  match Magnitude.nearest? tie num den with
  | some m => finite negative m
  | none   => infinite negative

def ofInt (i : Int) : Binary64 :=
  ofUnits .even (i < 0) (i.natAbs <<< 1074) 1

-- The value nearest to `coeff * 10 ^ scale`. A scale that is far out of range is decided by the sizes alone:
-- `10 ^ 401` is too large already, and a coefficient below `2 ^ k` with `k + 1100 ≤ 3 * e` is less than
-- `2 ^ (-1100)` after division by `10 ^ e`.
def ofDecimal (tie : Tie) (negative : Bool) (coeff : Nat) : Int → Binary64
  | .ofNat e =>
    if coeff = 0 then finite negative .zero
    else if 400 < e then infinite negative
    else ofUnits tie negative ((coeff * pow10 e) <<< 1074) 1
  | .negSucc e =>
    if coeff.log2 + 1101 ≤ 3 * (e + 1) then finite negative .zero
    else ofUnits tie negative (coeff <<< 1074) (pow10 (e + 1))

end Binary64
end ScriptCheck
