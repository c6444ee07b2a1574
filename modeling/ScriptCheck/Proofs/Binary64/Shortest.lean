import ScriptCheck.Binary64.Shortest
import ScriptCheck.Proofs.Binary64.Rounding

namespace ScriptCheck

-- Powers of five are not to be evaluated: a unit of `2 ^ (-1074)` has `5 ^ 1074` units of `10 ^ (-1074)`.
@[irreducible]
def pow5 (k : Nat) : Nat :=
  Nat.pow 5 k

theorem pow5_pos (k : Nat) : 0 < pow5 k := by
  rw [pow5]
  exact Nat.pow_pos (by decide)

theorem pow10_eq (k : Nat) : pow10 k = 2 ^ k * pow5 k := by
  rw [pow5]
  exact Nat.mul_pow 2 5 k

theorem pow5_add (j k : Nat) : pow5 (j + k) = pow5 j * pow5 k := by
  simp only [pow5]
  exact Nat.pow_add 5 j k

theorem pow5_mono {j k : Nat} (h : j ≤ k) : pow5 j ≤ pow5 k := by
  simp only [pow5]
  exact Nat.pow_le_pow_right (by decide) h

theorem mul_two_pow_lt {a e j k : Nat} (ha : a < 2 ^ j) (he : e ≤ k) : a * 2 ^ e < 2 ^ (j + k) := by
  rw [Nat.pow_add]
  exact Nat.mul_lt_mul_of_lt_of_le ha (Nat.pow_le_pow_right two_pos he) (Nat.two_pow_pos k)

theorem mul_two_pow_mul_lt {a b e j k l : Nat} (ha : a < 2 ^ j) (he : e ≤ k) (hb : b ≤ 2 ^ l) :
    a * 2 ^ e * b < 2 ^ (j + k + l) := by
  rw [Nat.pow_add]
  exact Nat.mul_lt_mul_of_lt_of_le (mul_two_pow_lt ha he) hb (Nat.two_pow_pos l)

theorem log2_lt_of_lt {n j k : Nat} (h : n < 2 ^ (j + k)) (hj : 0 < j) : n.log2 < j + k := by
  by_cases hn : n = 0
  case neg => exact (Nat.log2_lt hn).mpr h
  case pos =>
    rw [hn, Nat.log2_zero]
    omega

theorem ten_zpow_sub (k j : Nat) : (10 : ℚ) ^ (k - j : Int) * 2 ^ j = pow10 k / pow5 j := by
  have hj : (10 : ℚ) ^ j = 2 ^ j * pow5 j := by
    rw [← cast_pow10, pow10_eq]
    norm_cast
  have hp : (0 : ℚ) < pow5 j := by exact_mod_cast pow5_pos j
  rw [zpow_sub₀ (by norm_num), zpow_natCast, zpow_natCast, cast_pow10, hj]
  field_simp

namespace Decimal

variable {c : Nat} {scale : Int}

theorem trim_units (c : Nat) (scale : Int) :
    decimalUnits (trim c scale).coeff (trim c scale).scale = decimalUnits c scale := by
  fun_induction trim c scale
  case case2 => rfl
  case case1 c scale h hi =>
    rw [hi, ← decimalUnits_mul_ten, Nat.div_mul_cancel <| Nat.dvd_of_mod_eq_zero h.right]

theorem trim_coeff_le_self (c : Nat) (scale : Int) : (trim c scale).coeff ≤ c := by
  fun_induction trim c scale
  case case1 hi => omega
  case case2    => exact Nat.le_refl _

theorem trim_coeff_le {k : Nat} (hc : 0 < c) : (trim (c * pow10 k) scale).coeff ≤ c := by
  induction k generalizing scale
  case zero => exact (Nat.mul_one c).symm ▸ trim_coeff_le_self c scale
  case succ k hi =>
    have hm : c * pow10 (k + 1) = 10 * (c * pow10 k) := by rw [pow10_succ, Nat.mul_left_comm]
    have hp : 0 < c * pow10 k := Nat.mul_pos hc <| pow10_pos k
    rw [trim, dif_pos (by omega), hm, Nat.mul_div_cancel_left _ (by decide)]
    exact hi

end Decimal

namespace Magnitude

variable {m : Magnitude} {tie : Tie} {d g k n : Nat} {scale : Int}

theorem fine_eq : m.fine = m.mant <<< m.exp * pow5 1074 := by
  unfold fine units pow5
  generalize 1074 = k
  rfl

theorem gap_eq : m.gap = pow5 1074 <<< m.exp := by
  unfold gap pow5
  generalize 1074 = k
  rfl

theorem cast_fine : (m.fine : ℚ) = m.mant * 2 ^ m.exp * pow5 1074 := by
  rw [fine_eq, Nat.cast_mul, cast_shiftLeft]

theorem cast_gap : (m.gap : ℚ) = pow5 1074 * 2 ^ m.exp := by
  rw [gap_eq, cast_shiftLeft]

theorem cast_upperMiddle : (m.upperMiddle : ℚ) = m.upper * (4 * pow5 1074) := by
  rw [upperMiddle, upper]
  push_cast [cast_fine, cast_gap]
  ring

theorem gap_le_fine (hm : 0 < m.mant) : m.gap ≤ m.fine := by
  rw [gap_eq, fine_eq, Nat.shiftLeft_eq, Nat.shiftLeft_eq, Nat.mul_comm]
  exact Nat.mul_le_mul_right _ <| Nat.le_mul_of_pos_left _ hm

theorem cast_lowerMiddle (hm : 0 < m.mant) : (m.lowerMiddle : ℚ) = m.lower * (4 * pow5 1074) := by
  have hg := gap_le_fine hm
  rw [lowerMiddle, lower]
  split
  all_goals
    rw [Nat.cast_sub (by omega)]
    push_cast [cast_fine, cast_gap]
    ring

-- The test on the grid is right about which decimals round to `m`.
theorem Covers.rounds (hm : 0 < m.mant) (h : m.Covers d) : m.Rounds .even ((d : ℚ) / pow5 1074) := by
  have hf : (0 : ℚ) < pow5 1074 := by exact_mod_cast pow5_pos _
  have hf : (0 : ℚ) < 4 * pow5 1074 := by positivity
  have hw : Within (Tie.even = .even ∧ m.mant % 2 = 0) m.lowerMiddle m.upperMiddle (4 * d) := by
    unfold Covers at h
    split at h
    case isTrue he => exact .inr ⟨⟨rfl, he⟩, by exact_mod_cast h⟩
    case isFalse   => exact .inl <| by exact_mod_cast h
  have hw := hw.div hf
  rwa [cast_lowerMiddle hm, cast_upperMiddle, mul_div_cancel_right₀ _ hf.ne', mul_div_cancel_right₀ _ hf.ne',
    mul_div_mul_left _ _ four_ne_zero] at hw

-- A magnitude rounds to itself.
theorem rounds_fine : m.Rounds tie ((m.fine : ℚ) / pow5 1074) := by
  have hf : (0 : ℚ) < pow5 1074 := by exact_mod_cast pow5_pos _
  have hp : (0 : ℚ) < 2 ^ m.exp := by positivity
  rw [cast_fine, mul_div_cancel_right₀ _ hf.ne']
  refine .inl ⟨?_, ?_⟩
  case refine_1 =>
    rw [lower]
    gcongr
    split <;> linarith
  case refine_2 =>
    rw [upper]
    gcongr
    linarith

-- The point `n` of the grid with steps `10 ^ k`.
theorem decimalUnits_grid : decimalUnits n (k - 1074) = (n * pow10 k : Nat) / pow5 1074 := by
  rw [decimalUnits, mul_assoc, Nat.cast_mul, mul_div_assoc]
  exact congrArg _ <| ten_zpow_sub k 1074

theorem nearer_eq (tie : Tie) (x g d : Nat) : nearer tie x g d = d ∨ nearer tie x g d = d + 1 := by
  have := tie.le_choose d
  have := tie.choose_le d
  simp only [nearer]
  split_ifs <;> omega

theorem onGrid?_cases (h : m.onGrid? tie g = some n) : m.Covers (n * g) ∧ n ≤ m.fine / g + 1 := by
  unfold onGrid? at h
  generalize m.fine / g = d at h ⊢
  dsimp only at h
  split_ifs at h with hl hu hu
  all_goals rw [← Option.some.inj h]
  case pos =>
    obtain he | he := nearer_eq tie m.fine g d <;> rw [he]
    case inl => exact ⟨hl, Nat.le_succ d⟩
    case inr => exact ⟨hu, Nat.le_refl _⟩
  case neg => exact ⟨hl, Nat.le_succ d⟩
  case pos => exact ⟨hu, Nat.le_refl _⟩

-- What the search ends with. At most the first 17 digits of the magnitude lie on a grid that is tried.
theorem search_cases {steps : Nat} (h : digitCount m.fine + steps ≤ k + 18) :
    search tie m k steps = .trim m.fine (-1074) ∨
    ∃ j n, digitCount m.fine ≤ j + 17 ∧ m.onGrid? tie (pow10 j) = some n ∧
      search tie m k steps = .trim n (j - 1074) := by
  induction steps generalizing k
  case zero => exact .inl rfl
  case succ steps hi =>
    rw [search]
    split
    case h_1 n hn => exact .inr ⟨k, n, by omega, hn, rfl⟩
    case h_2      => exact hi (by omega)

theorem shortest_cases (tie : Tie) (hm : 0 < m.mant) :
    m.shortest tie = .trim m.fine (-1074) ∨
    ∃ j n, digitCount m.fine ≤ j + 17 ∧ m.onGrid? tie (pow10 j) = some n ∧ m.shortest tie = .trim n (j - 1074) := by
  rw [shortest, if_neg hm.ne']
  exact search_cases (by omega)

theorem shortest_rounds (hm : 0 < m.mant) :
    m.Rounds .even (decimalUnits (m.shortest tie).coeff (m.shortest tie).scale) := by
  obtain h | ⟨j, n, -, hn, h⟩ := shortest_cases tie hm <;> rw [h, Decimal.trim_units]
  case inl =>
    have hu := decimalUnits_grid (n := m.fine) (k := 0)
    rw [pow10_zero, Nat.mul_one, Nat.cast_zero, zero_sub] at hu
    rw [hu]
    exact rounds_fine
  case inr =>
    rw [decimalUnits_grid]
    exact (onGrid?_cases hn).left.rounds hm

-- Zeros at the end do not count. There are as many as the factors 2 and 5 allow for.
theorem trim_mul_lt {a b i j : Nat} (ha : 0 < a) (h₂ : a * 2 ^ (i - j) < b) (h₅ : a * pow5 (j - i) < b) :
    (Decimal.trim (a * 2 ^ i * pow5 j) scale).coeff < b := by
  cases le_total i j
  case inl h =>
    obtain ⟨l, rfl⟩ := Nat.exists_eq_add_of_le h
    rw [Nat.add_sub_cancel_left] at h₅
    have hm : a * 2 ^ i * pow5 (i + l) = a * pow5 l * pow10 i := by
      rw [pow5_add, pow10_eq]
      ring
    exact hm ▸ (Decimal.trim_coeff_le <| Nat.mul_pos ha <| pow5_pos l).trans_lt h₅
  case inr h =>
    obtain ⟨l, rfl⟩ := Nat.exists_eq_add_of_le h
    rw [Nat.add_sub_cancel_left] at h₂
    have hm : a * 2 ^ (j + l) * pow5 j = a * 2 ^ l * pow10 j := by
      rw [pow_add, pow10_eq]
      ring
    exact hm ▸ (Decimal.trim_coeff_le <| Nat.mul_pos ha <| Nat.two_pow_pos l).trans_lt h₂

theorem trim_fine_lt (hm : 0 < m.mant) : (Decimal.trim m.fine (-1074)).coeff < pow10 768 := by
  have hl := m.mant_lt
  have he := m.exp_le
  have hb : 0x20000000000000 * pow5 1074 < pow10 768 := by decide +kernel
  rw [fine_eq, Nat.shiftLeft_eq]
  refine trim_mul_lt hm ?_ ?_
  case refine_1 =>
    have he : m.exp - 1074 ≤ 971 := by omega
    exact (mul_two_pow_lt (j := 53) hl he).trans_le <| two_pow_le_pow10 (by decide)
  case refine_2 => exact (Nat.mul_le_mul hl.le <| pow5_mono <| Nat.sub_le _ _).trans_lt hb

theorem fine_lt : m.fine < 2 ^ (53 + 2045 + 2506) := by
  rw [fine_eq, Nat.shiftLeft_eq]
  exact mul_two_pow_mul_lt m.mant_lt m.exp_le (by decide +kernel)

theorem le_digitCount (n : Nat) : n.log2 * 1233 / 4096 + 1 ≤ digitCount n := by
  unfold digitCount
  dsimp only
  split <;> omega

theorem lt_of_onGrid? (hd : digitCount m.fine ≤ k + 17) (hn : m.onGrid? tie (pow10 k) = some n) : n < pow10 768 := by
  have hl := log2_lt_of_lt m.fine_lt (by decide)
  have hc := le_digitCount m.fine
  have hf : m.fine < pow10 k * pow10 767 := by
    calc m.fine
      _ < 2 ^ (m.fine.log2 + 1) := Nat.lt_log2_self
      _ ≤ pow10 (k + 767)       := two_pow_le_pow10 (by omega)
      _ = pow10 k * pow10 767   := pow10_add k 767
  have hq := Nat.div_lt_of_lt_mul hf
  have hp : pow10 768 = 10 * pow10 767 := pow10_succ 767
  have hz := pow10_pos 767
  have hn := (onGrid?_cases hn).right
  omega

theorem shortest_coeff_lt (hm : 0 < m.mant) : (m.shortest tie).coeff < pow10 768 := by
  obtain h | ⟨j, n, hd, hn, h⟩ := shortest_cases tie hm <;> rw [h]
  case inl => exact trim_fine_lt hm
  case inr => exact (Decimal.trim_coeff_le_self _ _).trans_lt <| lt_of_onGrid? hd hn

end Magnitude
end ScriptCheck
