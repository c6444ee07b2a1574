import Mathlib.Data.Rat.Cast.Order
import Mathlib.Tactic.FieldSimp
import Mathlib.Tactic.Linarith
import Mathlib.Tactic.NormNum
import Mathlib.Tactic.Positivity
import Mathlib.Tactic.Ring
import ScriptCheck.Binary64.Rounding

namespace ScriptCheck

-- The interval from `lo` to `hi`, with its ends if `ends` holds.
def Within (ends : Prop) (lo hi x : ℚ) : Prop :=
  lo < x ∧ x < hi ∨ ends ∧ lo ≤ x ∧ x ≤ hi

namespace Within

variable {p p' : Prop} {lo hi lo' hi' x c : ℚ}

theorem le (h : Within p lo hi x) : lo ≤ x ∧ x ≤ hi :=
  h.elim (fun h => ⟨h.left.le, h.right.le⟩) (·.right)

theorem mono (h : Within p lo hi x) (hp : p → p') (hl : lo' ≤ lo) (hu : hi ≤ hi') : Within p' lo' hi' x := by
  cases h
  case inl h => exact .inl ⟨hl.trans_lt h.left, h.right.trans_le hu⟩
  case inr h => exact .inr ⟨hp h.left, hl.trans h.right.left, h.right.right.trans hu⟩

theorem of_lt (h : Within p lo hi x) (hx : x < hi') : Within p lo hi' x :=
  h.imp (fun h => ⟨h.left, hx⟩) (fun h => ⟨h.left, h.right.left, hx.le⟩)

theorem div (h : Within p lo hi x) (hc : 0 < c) : Within p (lo / c) (hi / c) (x / c) := by
  simpa only [Within, div_lt_div_iff_of_pos_right hc, div_le_div_iff_of_pos_right hc] using h

end Within

variable {tie : Tie} {num den n : Nat}

theorem choose_of_even {q : Nat} (h : tie = .even ∧ n % 2 = 0) (hq : n = q ∨ n = q + 1) : tie.choose q = n := by
  rw [h.left, Tie.choose]
  omega

-- The quotient and the remainder leave two candidates for `n`, and for each of them the comparisons are linear.
theorem roundDiv_eq_of_nat (hd : 0 < den)
    (h : 2 * (den * n) < 2 * num + den ∧ 2 * num < 2 * (den * n) + den ∨
      (tie = .even ∧ n % 2 = 0) ∧ 2 * (den * n) ≤ 2 * num + den ∧ 2 * num ≤ 2 * (den * n) + den) :
    roundDiv tie num den = n := by
  have hx := Nat.div_add_mod num den
  have hr := Nat.mod_lt num hd
  have hq : num / den < n + 1 := by
    refine Nat.lt_of_mul_lt_mul_left (a := den) ?_
    rw [Nat.mul_succ]
    omega
  have hn : n < num / den + 2 := by
    refine Nat.lt_of_mul_lt_mul_left (a := den) ?_
    rw [Nat.mul_add]
    omega
  have hp : n = num / den ∧ den * n = den * (num / den) ∨ n = num / den + 1 ∧ den * n = den * (num / den) + den := by
    obtain h | h : n = num / den ∨ n = num / den + 1 := by omega
    case inl => exact .inl ⟨h, by rw [h]⟩
    case inr => exact .inr ⟨h, by rw [h, Nat.mul_succ]⟩
  simp only [roundDiv]
  cases h
  case inl => split_ifs <;> omega
  case inr h =>
    have hc := choose_of_even h.left <| hp.imp And.left And.left
    split_ifs <;> omega

theorem roundDiv_eq (hd : 0 < den)
    (h : Within (tie = .even ∧ n % 2 = 0) (n - 1 / 2) (n + 1 / 2) ((num : ℚ) / den)) :
    roundDiv tie num den = n := by
  have hd' : (den : ℚ) ≠ 0 := by exact_mod_cast hd.ne'
  have hc : (0 : ℚ) < 1 / (2 * den) := by positivity
  have h := h.div hc
  have hl : ((n : ℚ) - 1 / 2) / (1 / (2 * den)) = 2 * (den * n) - den := by field_simp
  have hu : ((n : ℚ) + 1 / 2) / (1 / (2 * den)) = 2 * (den * n) + den := by field_simp
  have hx : (num : ℚ) / den / (1 / (2 * den)) = 2 * num := by field_simp
  rw [hl, hu, hx, Within, sub_lt_iff_lt_add, sub_le_iff_le_add] at h
  exact roundDiv_eq_of_nat hd <| by exact_mod_cast h

theorem shiftLeft_pos {k : Nat} (h : 0 < den) : 0 < den <<< k := by
  rw [Nat.shiftLeft_eq]
  positivity

theorem cast_shiftLeft {k : Nat} : ((n <<< k : Nat) : ℚ) = n * 2 ^ k := by
  rw [Nat.shiftLeft_eq]
  norm_cast

namespace Magnitude

theorem div_lt_of_exponentOf (num den : Nat) : num / den < 2 ^ (53 + exponentOf num den) := by
  refine Nat.lt_of_lt_of_le Nat.lt_log2_self <| Nat.pow_le_pow_right two_pos ?_
  unfold exponentOf
  omega

theorem le_div_of_exponentOf (h : exponentOf num den ≠ 0) : 2 ^ (52 + exponentOf num den) ≤ num / den := by
  have hl : (num / den).log2 = 52 + exponentOf num den := by
    unfold exponentOf at h ⊢
    omega
  have hn : num / den ≠ 0 := by
    intro hz
    simp [exponentOf, hz] at h
  exact hl ▸ Nat.log2_self_le hn

theorem lt_of_exponentOf (num : Nat) (hd : 0 < den) : (num : ℚ) / den < 2 ^ (53 + exponentOf num den) := by
  rw [div_lt_iff₀ (by exact_mod_cast hd)]
  exact_mod_cast (Nat.div_lt_iff_lt_mul hd).mp <| div_lt_of_exponentOf num den

theorem le_of_exponentOf (hd : 0 < den) (h : exponentOf num den ≠ 0) :
    2 ^ (52 + exponentOf num den) ≤ (num : ℚ) / den := by
  rw [le_div_iff₀ (by exact_mod_cast hd)]
  exact_mod_cast (Nat.le_div_iff_mul_le hd).mp <| le_div_of_exponentOf h

-- The middle between `m` and the next larger magnitude, in units.
def upper (m : Magnitude) : ℚ :=
  (m.mant + 1 / 2) * 2 ^ m.exp

-- The middle between `m` and the next smaller magnitude. Below a power of two magnitudes lie twice as close.
def lower (m : Magnitude) : ℚ :=
  (m.mant - if m.mant = 0x10000000000000 ∧ 0 < m.exp then 1 / 4 else 1 / 2) * 2 ^ m.exp

-- The number of `x` units rounds to `m`.
def Rounds (tie : Tie) (m : Magnitude) (x : ℚ) : Prop :=
  Within (tie = .even ∧ m.mant % 2 = 0) m.lower m.upper x

variable {m : Magnitude}

theorem le_lower : (m.mant - 1 / 2) * 2 ^ m.exp ≤ m.lower := by
  unfold lower
  gcongr
  split <;> norm_num

theorem upper_lt : m.upper < 2 ^ (53 + m.exp) := by
  have hm : (m.mant : ℚ) + 1 ≤ 2 ^ 53 := by exact_mod_cast m.mant_lt
  rw [upper, pow_add]
  gcongr
  linarith

-- Only powers of two have numbers of a smaller exponent around them.
theorem mant_eq_of_lower_lt (he : 0 < m.exp) (h : m.lower < 2 ^ 52 * 2 ^ m.exp) : m.mant = 0x10000000000000 := by
  have hn : 0x10000000000000 ≤ m.mant := m.normal.resolve_left he.ne'
  by_contra hc
  have hm : (2 : ℚ) ^ 52 + 1 ≤ m.mant := by exact_mod_cast Nat.lt_of_le_of_ne hn (Ne.symm hc)
  have hl : ((2 : ℚ) ^ 52 + 1 / 2) * 2 ^ m.exp ≤ (m.mant - 1 / 2) * 2 ^ m.exp := by
    gcongr
    linarith
  have hp : (0 : ℚ) < 2 ^ m.exp := by positivity
  linarith [m.le_lower]

theorem lower_eq (hm : m.mant = 0x10000000000000) (he : 0 < m.exp) :
    m.lower = (2 ^ 53 - 1 / 2) * 2 ^ (m.exp - 1) := by
  rw [lower, if_pos ⟨hm, he⟩, hm, ← pow_sub_one_mul he.ne']
  norm_num
  ring

theorem nearest?_of_exponent (he : exponentOf num den = m.exp) (hr : roundDiv tie num (den <<< m.exp) = m.mant) :
    nearest? tie num den = some m := by
  rw [← he] at hr
  unfold nearest?
  rw [dif_pos (hr ▸ m.mant_lt), dif_pos (he ▸ m.exp_le)]
  exact congrArg some <| Magnitude.ext hr he

-- A mantissa that is rounded up to 54 bits gives the power of two.
theorem nearest?_of_carry (he : exponentOf num den + 1 = m.exp) (hm : m.mant = 0x10000000000000)
    (hr : roundDiv tie num (den <<< exponentOf num den) = 0x20000000000000) : nearest? tie num den = some m := by
  have hl := m.exp_le
  unfold nearest?
  rw [dif_neg (by omega), dif_pos (by omega)]
  exact congrArg some <| Magnitude.ext hm.symm he

section

variable (hd : 0 < den) (h : m.Rounds tie ((num : ℚ) / den))
include hd h

theorem exponentOf_le : exponentOf num den ≤ m.exp := by
  by_contra hc
  have hl := le_of_exponentOf hd (by omega : exponentOf num den ≠ 0)
  have hp : (2 : ℚ) ^ (53 + m.exp) ≤ 2 ^ (52 + exponentOf num den) := pow_le_pow_right₀ one_le_two (by omega)
  linarith [h.le.right, m.upper_lt]

theorem roundDiv_of_rounds : roundDiv tie num (den <<< m.exp) = m.mant := by
  have hp : (0 : ℚ) < 2 ^ m.exp := by positivity
  refine roundDiv_eq (shiftLeft_pos hd) ?_
  rw [cast_shiftLeft, ← div_div]
  refine (h.div hp).mono id ?_ ?_
  case refine_1 =>
    rw [le_div_iff₀ hp]
    exact le_lower
  case refine_2 => rw [upper, mul_div_cancel_right₀ _ hp.ne']

theorem carry_of_rounds (he : exponentOf num den < m.exp) :
    m.mant = 0x10000000000000 ∧ exponentOf num den + 1 = m.exp ∧
      roundDiv tie num (den <<< exponentOf num den) = 0x20000000000000 := by
  have hx := lt_of_exponentOf num hd
  have hl := h.le.left
  have hm : m.mant = 0x10000000000000 := by
    refine mant_eq_of_lower_lt (by omega) <| hl.trans_lt <| hx.trans_le ?_
    rw [← pow_add]
    exact pow_le_pow_right₀ one_le_two (by omega)
  rw [lower_eq hm (by omega)] at hl
  have he : exponentOf num den + 1 = m.exp := by
    by_contra hc
    have hp : (2 : ℚ) ^ (53 + exponentOf num den) ≤ 2 ^ 52 * 2 ^ (m.exp - 1) := by
      rw [← pow_add]
      exact pow_le_pow_right₀ one_le_two (by omega)
    have : (0 : ℚ) < 2 ^ (m.exp - 1) := by positivity
    linarith
  refine ⟨hm, he, roundDiv_eq (shiftLeft_pos hd) ?_⟩
  have hp : (0 : ℚ) < 2 ^ exponentOf num den := by positivity
  rw [cast_shiftLeft, ← div_div]
  refine ((h.of_lt hx).div hp).mono (fun h => ⟨h.left, rfl⟩) ?_ ?_
  case refine_1 =>
    rw [le_div_iff₀ hp, lower_eq hm (by omega), ← he]
    norm_num
  case refine_2 =>
    rw [pow_add, mul_div_cancel_right₀ _ hp.ne']
    norm_num

theorem nearest?_eq : nearest? tie num den = some m := by
  cases (exponentOf_le hd h).lt_or_eq
  case inr he => exact nearest?_of_exponent he <| roundDiv_of_rounds hd h
  case inl he =>
    have ⟨hm, he, hr⟩ := carry_of_rounds hd h he
    exact nearest?_of_carry he hm hr

end

theorem half_le_lower (hm : 0 < m.mant) : 1 / 2 ≤ m.lower := by
  have hm : (1 : ℚ) ≤ m.mant := by exact_mod_cast hm
  have hp : (1 : ℚ) ≤ 2 ^ m.exp := one_le_pow₀ one_le_two
  calc (1 : ℚ) / 2
    _ ≤ (m.mant - 1 / 2) * 1         := by linarith
    _ ≤ (m.mant - 1 / 2) * 2 ^ m.exp := by gcongr; linarith
    _ ≤ m.lower                      := le_lower

end Magnitude

theorem cast_pow10 (k : Nat) : (pow10 k : ℚ) = 10 ^ k :=
  Nat.cast_pow 10 k

theorem two_pow_le_pow10 {j k : Nat} (h : j ≤ 3 * k) : 2 ^ j ≤ pow10 k := by
  calc 2 ^ j
    _ ≤ 2 ^ (3 * k) := Nat.pow_le_pow_right two_pos h
    _ = 8 ^ k       := Nat.pow_mul 2 3 k
    _ ≤ pow10 k     := Nat.pow_le_pow_left (by decide) k

theorem two_pow_le_ten_pow {j k : Nat} (h : j ≤ 3 * k) : (2 : ℚ) ^ j ≤ 10 ^ k := by
  rw [← cast_pow10]
  exact_mod_cast two_pow_le_pow10 h

-- The decimal `coeff * 10 ^ scale` in units of `2 ^ (-1074)`.
def decimalUnits (coeff : Nat) (scale : Int) : ℚ :=
  coeff * 10 ^ scale * 2 ^ 1074

section

variable {coeff e : Nat}

theorem decimalUnits_mul_ten {scale : Int} : decimalUnits (coeff * 10) scale = decimalUnits coeff (scale + 1) := by
  rw [decimalUnits, decimalUnits, zpow_add_one₀ (by norm_num), Nat.cast_mul, Nat.cast_ofNat, mul_assoc (coeff : ℚ),
    mul_comm 10]

theorem decimalUnits_mul_pow10 {k : Nat} {scale : Int} :
    decimalUnits (coeff * pow10 k) scale = decimalUnits coeff (scale + k) := by
  induction k generalizing scale
  case zero => simp
  case succ k hi =>
    rw [pow10_succ, Nat.mul_left_comm, Nat.mul_comm, decimalUnits_mul_ten, hi]
    congr 1
    omega

theorem decimalUnits_zero {scale : Int} : decimalUnits 0 scale = 0 := by
  rw [decimalUnits, Nat.cast_zero, zero_mul, zero_mul]

theorem decimalUnits_eq_zero {scale : Int} (h : decimalUnits coeff scale = 0) : coeff = 0 := by
  have h₁₀ : (10 : ℚ) ^ scale ≠ 0 := zpow_ne_zero _ (by norm_num)
  have h₂ (k : Nat) : (2 : ℚ) ^ k ≠ 0 := pow_ne_zero _ two_ne_zero
  exact_mod_cast (mul_eq_zero_iff_right h₁₀).mp <| (mul_eq_zero_iff_right <| h₂ 1074).mp h

theorem decimalUnits_ofNat : decimalUnits coeff e = ((coeff * pow10 e) <<< 1074 : Nat) / (1 : Nat) := by
  rw [decimalUnits, cast_shiftLeft, zpow_natCast, Nat.cast_one, div_one, Nat.cast_mul, cast_pow10]

theorem decimalUnits_negSucc : decimalUnits coeff (.negSucc e) = (coeff <<< 1074 : Nat) / (pow10 (e + 1) : Nat) := by
  rw [decimalUnits, cast_shiftLeft, zpow_negSucc, cast_pow10, mul_right_comm, div_eq_mul_inv]

-- A large scale makes any decimal exceed all magnitudes.
theorem le_decimalUnits (hc : 0 < coeff) (he : 400 < e) : 2 ^ 2098 ≤ decimalUnits coeff e := by
  have hc : (1 : ℚ) ≤ coeff := by exact_mod_cast hc
  have he : (2 : ℚ) ^ 1024 ≤ 10 ^ e := two_pow_le_ten_pow (by omega)
  have hm : 1 * (2 : ℚ) ^ 1024 ≤ coeff * 10 ^ e := mul_le_mul hc he (by positivity) (by positivity)
  calc (2 : ℚ) ^ 2098
    _ = 1 * 2 ^ 1024 * 2 ^ 1074   := by rw [one_mul, ← pow_add]
    _ ≤ coeff * 10 ^ e * 2 ^ 1074 := mul_le_mul_of_nonneg_right hm (by positivity)
    _ = decimalUnits coeff e      := by rw [decimalUnits, zpow_natCast]

-- A small scale takes any decimal below half a unit.
theorem decimalUnits_lt_half (h : coeff.log2 + 1101 ≤ 3 * (e + 1)) : decimalUnits coeff (.negSucc e) < 1 / 2 := by
  have hc : (coeff : ℚ) < 2 ^ (coeff.log2 + 1) := by exact_mod_cast Nat.lt_log2_self
  have hp : (0 : ℚ) < 10 ^ (e + 1) := by positivity
  rw [decimalUnits, zpow_negSucc, mul_right_comm, ← div_eq_mul_inv, div_lt_div_iff₀ hp two_pos, one_mul]
  calc (coeff : ℚ) * 2 ^ 1074 * 2
    _ = coeff * 2 ^ 1075                := by rw [mul_assoc, ← pow_succ]
    _ < 2 ^ (coeff.log2 + 1) * 2 ^ 1075 := mul_lt_mul_of_pos_right hc (by positivity)
    _ = 2 ^ (coeff.log2 + 1 + 1075)     := by rw [← pow_add]
    _ ≤ 10 ^ (e + 1)                    := two_pow_le_ten_pow (by omega)

end

namespace Binary64

variable {coeff : Nat} {scale : Int} {m : Magnitude} {negative : Bool}

theorem ofUnits_eq (hd : 0 < den) (h : m.Rounds tie ((num : ℚ) / den)) :
    ofUnits tie negative num den = finite negative m := by
  have hn := Magnitude.nearest?_eq hd h
  unfold ofUnits
  rw [hn]

theorem ofDecimal_eq (hm : 0 < m.mant) (h : m.Rounds tie (decimalUnits coeff scale)) :
    ofDecimal tie negative coeff scale = finite negative m := by
  have hl := (Magnitude.half_le_lower hm).trans h.le.left
  have hu := h.le.right.trans_lt m.upper_lt
  cases scale
  case ofNat e =>
    rw [Int.ofNat_eq_natCast] at hl hu h
    have hc : coeff ≠ 0 := by
      rintro rfl
      rw [decimalUnits_zero] at hl
      linarith
    have he : ¬400 < e := by
      intro he
      have hm := m.exp_le
      have hp : (2 : ℚ) ^ (53 + m.exp) ≤ 2 ^ 2098 := pow_le_pow_right₀ one_le_two (by omega)
      exact absurd hu <| not_lt_of_ge <| hp.trans <| le_decimalUnits (Nat.pos_of_ne_zero hc) he
    rw [decimalUnits_ofNat] at h
    rw [ofDecimal, if_neg hc, if_neg he, ofUnits_eq one_pos h]
  case negSucc e =>
    have hc : ¬coeff.log2 + 1101 ≤ 3 * (e + 1) := by
      intro hc
      linarith [decimalUnits_lt_half hc]
    rw [decimalUnits_negSucc] at h
    rw [ofDecimal, if_neg hc, ofUnits_eq (pow10_pos _) h]

theorem ofDecimal_zero : ofDecimal tie negative 0 scale = finite negative .zero := by
  cases scale
  case ofNat => rw [ofDecimal, if_pos rfl]
  case negSucc e =>
    have h : Magnitude.zero.Rounds tie ((0 <<< 1074 : Nat) / (pow10 (e + 1) : Nat)) := by
      rw [cast_shiftLeft, Nat.cast_zero, zero_mul, zero_div]
      refine .inl ⟨?_, ?_⟩ <;> norm_num [Magnitude.lower, Magnitude.upper, Magnitude.zero]
    rw [ofDecimal, ofUnits_eq (pow10_pos _) h, ite_self]

end Binary64
end ScriptCheck
