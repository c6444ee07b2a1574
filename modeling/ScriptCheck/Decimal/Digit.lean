namespace ScriptCheck

def pow10 (k : Nat) : Nat :=
  Nat.pow 10 k

@[simp]
theorem pow10_zero : pow10 0 = 1 :=
  rfl

theorem pow10_succ (k : Nat) : pow10 (k + 1) = 10 * pow10 k :=
  Nat.mul_comm _ _

theorem pow10_add (j k : Nat) : pow10 (j + k) = pow10 j * pow10 k :=
  Nat.pow_add 10 j k

theorem pow10_pos (k : Nat) : 0 < pow10 k :=
  Nat.pow_pos (by decide)

abbrev Digit := Fin 10

namespace Digit

def toChar (d : Digit) : Char :=
  Char.ofNat ('0'.toNat + d.val)

def ofChar? (c : Char) : Option Digit :=
  if h : '0'.toNat ≤ c.toNat ∧ c.toNat - '0'.toNat < 10 then
    some ⟨c.toNat - '0'.toNat, h.right⟩
  else
    none

@[simp]
theorem ofChar?_toChar (d : Digit) : ofChar? d.toChar = some d := by
  revert d
  decide

-- The last decimal digit of `n`.
def last (n : Nat) : Digit :=
  ⟨n % 10, Nat.mod_lt _ (by decide)⟩

-- The digits of `n` without leading zeros; zero has the single digit 0.
def ofNat (n : Nat) : List Digit :=
  if n < 10 then [last n] else ofNat (n / 10) ++ [last n]
termination_by n
decreasing_by omega

-- The last `k` digits of `n`, with leading zeros.
def fixed : Nat → Nat → List Digit
  | 0,     _ => []
  | k + 1, n => fixed k (n / 10) ++ [last n]

def toNat (ds : List Digit) : Nat :=
  ds.foldl (fun n d => 10 * n + d.val) 0

@[simp]
theorem toNat_nil : toNat [] = 0 :=
  rfl

@[simp]
theorem toNat_concat (ds : List Digit) (d : Digit) : toNat (ds ++ [d]) = 10 * toNat ds + d.val := by
  simp [toNat, List.foldl_append]

@[simp]
theorem toNat_ofNat (n : Nat) : toNat (ofNat n) = n := by
  induction n using Nat.strongRecOn with
  | _ n ih =>
    rw [ofNat]
    split
    case isTrue h => simp [toNat, last, Nat.mod_eq_of_lt h]
    case isFalse h =>
      rw [toNat_concat, ih (n / 10) (by omega)]
      simp [last]
      omega

theorem ofNat_ne_nil (n : Nat) : ofNat n ≠ [] := by
  rw [ofNat]
  split <;> simp

@[simp]
theorem length_fixed (k n : Nat) : (fixed k n).length = k := by
  induction k generalizing n with
  | zero => rfl
  | succ k ih => simp [fixed, ih]

@[simp]
theorem toNat_fixed (k n : Nat) : toNat (fixed k n) = n % pow10 k := by
  induction k generalizing n with
  | zero => simp [fixed, Nat.mod_one]
  | succ k ih =>
    rw [fixed, toNat_concat, ih, pow10_succ, Nat.mod_mul]
    simp [last]
    omega

end Digit
end ScriptCheck
