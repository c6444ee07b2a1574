import ScriptCheck.Decimal.Digit

namespace ScriptCheck

inductive Exponent.Sign where
  | none
  | plus
  | minus
  deriving DecidableEq

-- An exponent has at least one digit.
structure Exponent where
  sign : Exponent.Sign
  lead : Digit
  rest : List Digit
  deriving DecidableEq

-- The whole part is a number since it is spelled without leading zeros. An empty fraction is not spelled.
structure Numeral where
  negative : Bool
  whole : Nat
  fraction : List Digit := []
  exponent : Option Exponent := none
  deriving DecidableEq

namespace Exponent

def Sign.chars : Sign → List Char
  | none  => []
  | plus  => ['+']
  | minus => ['-']

def chars (e : Exponent) : List Char :=
  'e' :: e.sign.chars ++ (e.lead :: e.rest).map Digit.toChar

def magnitude (e : Exponent) : Nat :=
  Digit.toNat (e.lead :: e.rest)

def toInt (e : Exponent) : Int :=
  match e.sign with
  | .minus => -e.magnitude
  | _      => e.magnitude

-- The exponent `n` in as few digits as possible. A positive one gets a sign if `plus` is set.
def ofInt (plus : Bool) (n : Int) : Exponent :=
  let sign := if n < 0 then .minus else if plus then .plus else .none
  match Digit.ofNat n.natAbs with
  | []      => ⟨sign, 0, []⟩
  | d :: ds => ⟨sign, d, ds⟩

end Exponent

namespace Numeral

def fractionChars : List Digit → List Char
  | [] => []
  | ds => '.' :: ds.map Digit.toChar

def chars (n : Numeral) : List Char :=
  (if n.negative then ['-'] else []) ++ (Digit.ofNat n.whole).map Digit.toChar ++
    fractionChars n.fraction ++ (n.exponent.map Exponent.chars).getD []

def text (n : Numeral) : String :=
  String.ofList n.chars

def ofInt (i : Int) : Numeral where
  negative := i < 0
  whole := i.natAbs

def ofNat (n : Nat) : Numeral where
  negative := false
  whole := n

-- A numeral without fraction and exponent.
def isPlain (n : Numeral) : Bool :=
  n.fraction.isEmpty && n.exponent.isNone

def coefficient (n : Numeral) : Nat :=
  n.whole * pow10 n.fraction.length + Digit.toNat n.fraction

def scale (n : Numeral) : Int :=
  (n.exponent.map Exponent.toInt).getD 0 - n.fraction.length

-- The same number without the zeros at the end of the fraction.
def trimmed (n : Numeral) : Numeral :=
  { n with fraction := (n.fraction.reverse.dropWhile fun d => d.val == 0).reverse }

-- The digits that a text starts with, and what follows them.
def spanDigits : List Char → List Digit × List Char
  | []      => ([], [])
  | c :: cs =>
    match Digit.ofChar? c with
    | none   => ([], c :: cs)
    | some d => (d :: (spanDigits cs).1, (spanDigits cs).2)

def scanWhole? (s : List Char) : Option (Nat × List Char) :=
  match spanDigits s with
  | ([], _)          => none
  | (0 :: _ :: _, _) => none
  | (ds, rest)       => some (Digit.toNat ds, rest)

def scanFraction? : List Char → Option (List Digit × List Char)
  | '.' :: s =>
    match spanDigits s with
    | ([], _)    => none
    | (ds, rest) => some (ds, rest)
  | s => some ([], s)

def scanSign : List Char → Exponent.Sign × List Char
  | '+' :: s => (.plus, s)
  | '-' :: s => (.minus, s)
  | s        => (.none, s)

def scanExponentDigits? (s : List Char) : Option (Option Exponent × List Char) :=
  match spanDigits (scanSign s).2 with
  | ([], _)         => none
  | (d :: ds, rest) => some (some ⟨(scanSign s).1, d, ds⟩, rest)

def scanExponent? : List Char → Option (Option Exponent × List Char)
  | 'e' :: s => scanExponentDigits? s
  | 'E' :: s => scanExponentDigits? s
  | s        => some (none, s)

def scanUnsigned? (negative : Bool) (s : List Char) : Option (Numeral × List Char) := do
  let (whole, s) ← scanWhole? s
  let (fraction, s) ← scanFraction? s
  let (exponent, s) ← scanExponent? s
  return (⟨negative, whole, fraction, exponent⟩, s)

-- The longest numeral at the front of a text, and what follows it. A leading zero, or a point or exponent
-- mark without digits after it, is refused.
def scan? : List Char → Option (Numeral × List Char)
  | '-' :: s => scanUnsigned? true s
  | s        => scanUnsigned? false s

theorem spanDigits_length (s : List Char) : (spanDigits s).1.length + (spanDigits s).2.length = s.length := by
  induction s with
  | nil => rfl
  | cons c cs ih =>
    rw [spanDigits]
    split <;> simp
    omega

theorem scanWhole?_shorter {s rest : List Char} {n} (h : scanWhole? s = some (n, rest)) :
    rest.length < s.length := by
  have hl := spanDigits_length s
  simp only [scanWhole?] at h
  split at h <;> simp_all
  have := List.length_pos_iff.mpr ‹_ → False›
  omega

theorem scanFraction?_shorter {s rest : List Char} {ds} (h : scanFraction? s = some (ds, rest)) :
    rest.length ≤ s.length := by
  unfold scanFraction? at h
  split at h
  case h_1 s =>
    have hl := spanDigits_length s
    split at h <;> simp_all
    omega
  case h_2 => simp_all

theorem scanSign_shorter (s : List Char) : (scanSign s).2.length ≤ s.length := by
  unfold scanSign
  split <;> simp

theorem scanExponentDigits?_shorter {s rest : List Char} {e} (h : scanExponentDigits? s = some (e, rest)) :
    rest.length ≤ s.length := by
  have hl := spanDigits_length (scanSign s).2
  have hs := scanSign_shorter s
  unfold scanExponentDigits? at h
  split at h <;> simp_all
  omega

theorem scanExponent?_shorter {s rest : List Char} {e} (h : scanExponent? s = some (e, rest)) :
    rest.length ≤ s.length := by
  unfold scanExponent? at h
  split at h
  case h_1 => exact Nat.le_succ_of_le (scanExponentDigits?_shorter h)
  case h_2 => exact Nat.le_succ_of_le (scanExponentDigits?_shorter h)
  case h_3 => simp_all

theorem scanUnsigned?_shorter {b} {s rest : List Char} {n} (h : scanUnsigned? b s = some (n, rest)) :
    rest.length < s.length := by
  simp only [scanUnsigned?, Option.bind_eq_bind, Option.bind_eq_some_iff] at h
  obtain ⟨⟨_, s₁⟩, h₁, ⟨_, s₂⟩, h₂, ⟨_, s₃⟩, h₃, h⟩ := h
  have : s₁.length < s.length := scanWhole?_shorter h₁
  have : s₂.length ≤ s₁.length := scanFraction?_shorter h₂
  have : s₃.length ≤ s₂.length := scanExponent?_shorter h₃
  simp at h
  obtain ⟨-, rfl⟩ := h
  omega

theorem scan?_shorter {s rest : List Char} {n} (h : scan? s = some (n, rest)) : rest.length < s.length := by
  unfold scan? at h
  split at h
  case h_1 => exact Nat.lt_succ_of_lt (scanUnsigned?_shorter h)
  case h_2 => exact scanUnsigned?_shorter h

end Numeral
end ScriptCheck
