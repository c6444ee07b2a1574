import ScriptCheck.Proofs.Binary64.Rounding

namespace ScriptCheck

variable {tie : Tie} {num den n : Nat}

-- The quotient is rounded to one of its two neighbours, to the upper one only from the middle on.
theorem roundDiv_cases (tie : Tie) (num den : Nat) :
    roundDiv tie num den = num / den ∧ 2 * (num % den) ≤ den ∨
      roundDiv tie num den = num / den + 1 ∧ den ≤ 2 * (num % den) := by
  have hl := tie.le_choose (num / den)
  have hu := tie.choose_le (num / den)
  simp only [roundDiv]
  split_ifs <;> omega

-- No multiple of `den` is nearer to `num`.
theorem roundDiv_nearest (tie : Tie) (num : Nat) (hd : 0 < den) (k : Nat) :
    ((num : Int) - den * roundDiv tie num den).natAbs ≤ ((num : Int) - den * k).natAbs := by
  have hx := Nat.div_add_mod num den
  have hr := Nat.mod_lt num hd
  have hk : den * k ≤ den * (num / den) ∨ den * (num / den) + den ≤ den * k := by
    obtain h | h : k ≤ num / den ∨ num / den + 1 ≤ k := by omega
    case inl => exact .inl (Nat.mul_le_mul_left den h)
    case inr => exact .inr (Nat.mul_succ den _ ▸ Nat.mul_le_mul_left den h)
  rw [←Int.natCast_mul, ←Int.natCast_mul]
  obtain ⟨hm, h⟩ | ⟨hm, h⟩ := roundDiv_cases tie num den
  case inl =>
    rw [hm]
    omega
  case inr =>
    rw [hm, Nat.mul_succ]
    omega

-- An even number is reached from half a unit below it on. There a tie goes up, since the number before is odd.
theorem le_roundDiv_iff (hd : 0 < den) (he : n % 2 = 0) :
    n ≤ roundDiv tie num den ↔ 2 * (den * n) ≤ 2 * num + den := by
  have hx := Nat.div_add_mod num den
  have hr := Nat.mod_lt num hd
  obtain h | h | h : n ≤ num / den ∨ n = num / den + 1 ∨ num / den + 2 ≤ n := by omega
  case inl =>
    have hm := Nat.mul_le_mul_left den h
    have hl := le_roundDiv tie num den
    omega
  case inr.inl =>
    have hc : tie.choose (num / den) = num / den + 1 := by
      cases tie <;> simp only [Tie.choose]
      omega
    rw [h, Nat.mul_succ]
    simp only [roundDiv]
    split_ifs <;> omega
  case inr.inr =>
    have hm := Nat.mul_le_mul_left den h
    have hu := roundDiv_le tie num den
    rw [Nat.mul_add] at hm
    omega

theorem two_pow_sub_two_pow (k : Nat) : 2 ^ (54 + k) - 2 ^ k = 0x3fffffffffffff * 2 ^ k := by
  rw [Nat.pow_add, ←Nat.sub_one_mul]

theorem two_pow_add_succ (j k : Nat) : 1 <<< (j + k + 1) = 2 * (2 ^ j * 2 ^ k) := by
  rw [Nat.one_shiftLeft, Nat.pow_succ, Nat.pow_add, Nat.mul_comm]

theorem intCast_shiftLeft (n k : Nat) : ((n <<< k : Nat) : Int) = n * 2 ^ k := by
  rw [Nat.shiftLeft_eq]
  push_cast
  rfl

namespace Magnitude

variable {m : Magnitude}

theorem roundDiv_le_of_exponentOf (tie : Tie) (num den : Nat) :
    roundDiv tie num (den <<< exponentOf num den) ≤ 0x20000000000000 := by
  refine Nat.le_trans (roundDiv_le ..) <| Nat.succ_le_of_lt ?_
  rw [Nat.shiftLeft_eq, ←Nat.div_div_eq_div_mul, Nat.div_lt_iff_lt_mul (Nat.two_pow_pos _)]
  exact Nat.pow_add 2 53 _ ▸ div_lt_of_exponentOf num den

-- A mantissa that is rounded up to 54 bits stands for the same number of units as the one that is taken instead.
theorem units_of_nearest? (h : nearest? tie num den = some m) :
    m.units = roundDiv tie num (den <<< exponentOf num den) <<< exponentOf num den := by
  have hm := roundDiv_le_of_exponentOf tie num den
  simp only [nearest?] at h
  split_ifs at h with hl
  case pos =>
    cases h
    rfl
  case pos =>
    cases h
    have he : roundDiv tie num (den <<< exponentOf num den) = 0x20000000000000 := by omega
    rw [he, units]
    change 0x10000000000000 <<< (exponentOf num den + 1) = _
    rw [Nat.shiftLeft_eq, Nat.shiftLeft_eq, Nat.pow_succ]
    omega

-- Magnitudes of a smaller exponent lie below the power of two at which the exponent `e` begins.
theorem units_lt {e : Nat} (h : m.exp < e) : m.units < 2 ^ (52 + e) := by
  calc m.units
    _ = m.mant * 2 ^ m.exp  := Nat.shiftLeft_eq ..
    _ < 2 ^ 53 * 2 ^ m.exp  := Nat.mul_lt_mul_of_pos_right m.mant_lt (Nat.two_pow_pos _)
    _ = 2 ^ (53 + m.exp)    := (Nat.pow_add ..).symm
    _ ≤ 2 ^ (52 + e)        := Nat.pow_le_pow_right two_pos (by omega)

-- Magnitudes of the exponent `e` or a larger one are multiples of `2 ^ e`.
theorem units_eq {e : Nat} (h : e ≤ m.exp) : ∃ k, m.units = k <<< e := by
  refine ⟨m.mant <<< (m.exp - e), ?_⟩
  rw [units, ←Nat.shiftLeft_add, Nat.sub_add_cancel h]

-- No magnitude is nearer to the number than the one it is rounded to.
theorem nearest_of_nearest? (hd : 0 < den) (h : nearest? tie num den = some m) (m' : Magnitude) :
    ((num : Int) - den * m.units).natAbs ≤ ((num : Int) - den * m'.units).natAbs := by
  have hs (k : Nat) : (den : Int) * (k <<< exponentOf num den : Nat) = (den <<< exponentOf num den : Nat) * k := by
    rw [Nat.shiftLeft_eq, Nat.shiftLeft_eq]
    push_cast
    ring
  have hr := roundDiv_nearest tie num (shiftLeft_pos (k := exponentOf num den) hd)
  rw [units_of_nearest? h, hs]
  by_cases he : exponentOf num den ≤ m'.exp
  case pos =>
    obtain ⟨k, hk⟩ := units_eq he
    rw [hk, hs]
    exact hr k
  case neg =>
    -- The power of two lies between the two numbers, and it is a multiple too.
    have hp : (2 ^ 52) <<< exponentOf num den = 2 ^ (52 + exponentOf num den) := by rw [Nat.shiftLeft_eq, Nat.pow_add]
    have hz : exponentOf num den ≠ 0 := by omega
    have hl := Nat.mul_le_of_le_div _ _ _ <| le_div_of_exponentOf hz
    rw [Nat.mul_comm] at hl
    have hu := Nat.mul_le_mul_left den (units_lt (Nat.lt_of_not_le he)).le
    refine (hr (2 ^ 52)).trans ?_
    rw [←hs, hp, ←Int.natCast_mul, ←Int.natCast_mul]
    omega

theorem lt_shiftLeft_of_exponentOf {e : Nat} (hd : 0 < den) (h : exponentOf num den < e) :
    num < 0x10000000000000 * (den <<< e) := by
  have hn := (Nat.div_lt_iff_lt_mul hd).mp <| div_lt_of_exponentOf num den
  calc num
    _ < 2 ^ (53 + exponentOf num den) * den := hn
    _ ≤ 2 ^ (52 + e) * den                  := Nat.mul_le_mul_right _ <| Nat.pow_le_pow_right two_pos (by omega)
    _ = 0x10000000000000 * (den <<< e)      := by rw [Nat.shiftLeft_eq, Nat.pow_add, Nat.mul_assoc, Nat.mul_comm den]

theorem shiftLeft_le_of_exponentOf {e : Nat} (h : e < exponentOf num den) :
    0x20000000000000 * (den <<< e) ≤ num := by
  have hz : exponentOf num den ≠ 0 := by omega
  have hn := Nat.mul_le_of_le_div _ _ _ <| le_div_of_exponentOf hz
  calc 0x20000000000000 * (den <<< e)
    _ = 2 ^ (53 + e) * den                  := by rw [Nat.shiftLeft_eq, Nat.pow_add, Nat.mul_assoc, Nat.mul_comm den]
    _ ≤ 2 ^ (52 + exponentOf num den) * den := Nat.mul_le_mul_right _ <| Nat.pow_le_pow_right two_pos (by omega)
    _ ≤ num                                 := hn

theorem nearest?_eq_none_iff_exponentOf :
    nearest? tie num den = none ↔ 2045 < exponentOf num den ∨
      exponentOf num den = 2045 ∧ 0x20000000000000 ≤ roundDiv tie num (den <<< exponentOf num den) := by
  simp only [nearest?]
  split_ifs <;> simp <;> omega

-- Too large are the numbers from the middle between the largest magnitude and the next power of two on.
theorem nearest?_eq_none_iff (hd : 0 < den) :
    nearest? tie num den = none ↔ 0x3fffffffffffff * (den <<< 2045) ≤ 2 * num := by
  rw [nearest?_eq_none_iff_exponentOf]
  obtain he | he | he : exponentOf num den < 2045 ∨ exponentOf num den = 2045 ∨ 2045 < exponentOf num den := by omega
  case inl =>
    have hn := lt_shiftLeft_of_exponentOf hd he
    generalize den <<< 2045 = d at hn
    omega
  case inr.inl =>
    rw [he, le_roundDiv_iff (shiftLeft_pos hd) rfl]
    generalize den <<< 2045 = d
    omega
  case inr.inr =>
    have hn := shiftLeft_le_of_exponentOf he
    generalize den <<< 2045 = d at hn
    omega

-- In terms of the numbers that are counted in units, the middle is `2 ^ 1024 - 2 ^ 970`.
theorem nearest?_shiftLeft_eq_none_iff {tie : Tie} {n : Nat} :
    nearest? tie (n <<< 1074) 1 = none ↔ 2 ^ 1024 - 2 ^ 970 ≤ n := by
  rw [nearest?_eq_none_iff one_pos, two_pow_add_succ 970 1074, two_pow_sub_two_pow 970, Nat.shiftLeft_eq,
    Nat.mul_left_comm, Nat.mul_le_mul_left_iff two_pos, ←Nat.mul_assoc, Nat.mul_le_mul_right_iff (Nat.two_pow_pos _)]

end Magnitude

namespace Binary64

-- No finite value is nearer to the integer `i`.
def Nearest (i : Int) (negative : Bool) (m : Magnitude) : Prop :=
  ∀ negative' m', (i * 2 ^ 1074 - signedUnits negative m).natAbs ≤ (i * 2 ^ 1074 - signedUnits negative' m').natAbs

-- The sign of an integer is that of the values nearest to it.
theorem nearest_of_nearest? {tie : Tie} {n : Nat} {m : Magnitude}
    (h : Magnitude.nearest? tie (n <<< 1074) 1 = some m) (negative : Bool) :
    Nearest (if negative then -n else n) negative m := by
  intro negative' m'
  have hm := Magnitude.nearest_of_nearest? one_pos h m'
  have hn := Int.natCast_nonneg (n <<< 1074)
  rw [Nat.cast_one, one_mul, one_mul] at hm
  rw [intCast_shiftLeft] at hm hn
  unfold signedUnits
  generalize (2 : Int) ^ 1074 = units at *
  cases negative <;> cases negative' <;> simp only [if_true, if_false, Bool.false_eq_true, Int.neg_mul] <;> omega

end Binary64
end ScriptCheck
