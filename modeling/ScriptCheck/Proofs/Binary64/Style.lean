import ScriptCheck.Binary64.Reading
import ScriptCheck.Binary64.Style
import ScriptCheck.Proofs.Binary64.Shortest
import ScriptCheck.Proofs.Decimal.Numeral

namespace ScriptCheck

namespace FloatStyle

variable {s : FloatStyle} {d : Decimal} {negative : Bool}

theorem split_coefficient {c places : Nat} {e : Option Exponent} :
    (split negative c places e).coefficient = c := by
  simp only [Numeral.coefficient, split, Digit.length_fixed, Digit.toNat_fixed]
  exact Nat.div_add_mod' c (pow10 places)

theorem split_scale {c places : Nat} {e : Option Exponent} :
    (split negative c places e).scale = (e.map Exponent.toInt).getD 0 - places := by
  simp only [Numeral.scale, split, Digit.length_fixed]

-- A whole number with a zero after the point.
theorem split_zero {c k : Nat} :
    split negative (c * pow10 (k + 1)) 1 none = ⟨negative, c * pow10 k, Digit.fixed 1 0, none⟩ := by
  have hc : c * pow10 (k + 1) = 10 * (c * pow10 k) := by rw [pow10_succ, Nat.mul_left_comm]
  have hl : Digit.last (10 * (c * pow10 k)) = 0 := Fin.ext <| Nat.mul_mod_right 10 _
  have hd : 10 * (c * pow10 k) / pow10 1 = c * pow10 k := Nat.mul_div_cancel_left _ (by decide)
  rw [hc, split, hd]
  simp only [Digit.fixed, hl]
  rfl

variable (s d negative) in
-- A style that writes a point splits a coefficient with the value of the decimal. It is the decimal's own coefficient
-- unless zeros are filled in up to the point.
theorem layout_eq_split (hp : s.point) :
    ∃ c places e, s.layout negative d = split negative c places e ∧ (0 < places ∨ e.isSome) ∧
      decimalUnits c ((e.map Exponent.toInt).getD 0 - places) = decimalUnits d.coeff d.scale ∧
      (c = d.coeff ∨ s.positional (d.scale + ((Digit.ofNat d.coeff).length - 1 : Nat)) ∧
        0 ≤ d.scale ∧ c = d.coeff * pow10 (d.scale.toNat + 1)) := by
  unfold layout
  dsimp only
  split_ifs with hl hz
  case pos =>
    refine ⟨_, 1, none, ?_, .inl one_pos, ?_, .inr ⟨hl, hz, rfl⟩⟩
    case refine_1 => exact split_zero.symm
    case refine_2 =>
      rw [decimalUnits_mul_pow10]
      congr 1
      simp
      omega
  case neg =>
    refine ⟨_, _, _, rfl, .inl (by omega), ?_, .inl rfl⟩
    rw [Option.map_none, Option.getD_none]
    congr 1
    omega
  case neg =>
    refine ⟨_, _, _, rfl, .inr rfl, ?_, .inl rfl⟩
    congr 1
    simp [Exponent.toInt_ofInt]

variable {m : Magnitude}

section

variable (hp : s.point)
include hp

theorem layout_negative : (s.layout negative d).negative = negative := by
  obtain ⟨c, places, e, h, -⟩ := s.layout_eq_split d negative hp
  rw [h, split]

theorem layout_isPlain : (s.layout negative d).isPlain = false := by
  obtain ⟨c, places, e, h, hn, -⟩ := s.layout_eq_split d negative hp
  have hf := Digit.length_fixed places c
  rw [h, Numeral.isPlain, split]
  cases hn
  case inl hz =>
    have : (Digit.fixed places c).isEmpty = false := List.isEmpty_eq_false_iff.mpr <| by
      rintro he
      rw [he] at hf
      exact absurd hf hz.ne
    rw [this, Bool.false_and]
  case inr he => rw [Option.isNone_eq_false_iff.mpr he, Bool.and_false]

theorem layout_units :
    decimalUnits (s.layout negative d).coefficient (s.layout negative d).scale = decimalUnits d.coeff d.scale := by
  obtain ⟨c, places, e, h, -, hu, -⟩ := s.layout_eq_split d negative hp
  rw [h, split_coefficient, split_scale, hu]

theorem toBinary64_numeral : (s.numeral negative m).toBinary64 .even = .finite negative m := by
  have hu : decimalUnits (s.layout negative (m.shortest s.tie)).coefficient _ = _ := layout_units hp
  rw [Numeral.toBinary64, numeral, layout_negative hp]
  by_cases hm : m.mant = 0
  case neg => exact Binary64.ofDecimal_eq (Nat.pos_of_ne_zero hm) <| hu ▸ m.shortest_rounds (Nat.pos_of_ne_zero hm)
  case pos =>
    have hz : m = .zero := Magnitude.ext hm (m.normal.resolve_right (by omega))
    have hs : m.shortest s.tie = ⟨0, 0⟩ := by rw [Magnitude.shortest, if_pos hm]
    rw [hs, decimalUnits_zero] at hu
    rw [hs, decimalUnits_eq_zero hu, hz, Binary64.ofDecimal_zero]

end

end FloatStyle
end ScriptCheck
