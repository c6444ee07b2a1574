import ScriptCheck.Proofs.Binary64.Style
import ScriptCheck.Proofs.Verdict
import ScriptCheck.Scalar.Json

namespace ScriptCheck

theorem pow10_mono {j k : Nat} (h : j ≤ k) : pow10 j ≤ pow10 k :=
  Nat.pow_le_pow_right (by decide) h

theorem ScalarType.toJson_injective : Function.Injective toJson := by
  have hn (t : ScalarType) : ofName? t.name = some t := by cases t <;> rfl
  intro t t' h
  injection h with h
  have h := congrArg ofName? (Option.some.inj h)
  rwa [hn, hn, Option.some.injEq] at h

namespace FloatStyle

variable {negative : Bool} {d : Decimal} {m : Magnitude}

theorem written_coefficient_lt (hd : d.coeff < pow10 768) : (written.layout negative d).coefficient < pow10 768 := by
  obtain ⟨c, places, e, h, -, -, hc⟩ := written.layout_eq_split d negative rfl
  rw [h, split_coefficient]
  obtain rfl | ⟨hp, hs, rfl⟩ := hc
  case inl => exact hd
  case inr =>
    -- No zeros are filled in beyond the 16 digits that numbers without exponent have before the point.
    have hl := Digit.lt_of_ofNat d.coeff
    have he : d.scale + ((Digit.ofNat d.coeff).length - 1 : Nat) < 16 := by
      rw [written, Bool.and_eq_true] at hp
      exact of_decide_eq_true hp.right
    calc d.coeff * pow10 (d.scale.toNat + 1)
      _ < pow10 (Digit.ofNat d.coeff).length * pow10 (d.scale.toNat + 1) := Nat.mul_lt_mul_of_pos_right hl (pow10_pos _)
      _ = pow10 ((Digit.ofNat d.coeff).length + (d.scale.toNat + 1))     := (pow10_add _ _).symm
      _ ≤ pow10 768                                                      := pow10_mono (by omega)

theorem tie_written : (written.numeral negative m).tie = .even := by
  have hc : (m.shortest written.tie).coeff < pow10 768 := by
    by_cases hm : m.mant = 0
    case pos =>
      rw [Magnitude.shortest, if_pos hm]
      exact pow10_pos 768
    case neg => exact m.shortest_coeff_lt (Nat.pos_of_ne_zero hm)
  exact if_pos <| (Numeral.trimmed_coefficient_le _).trans_lt <| written_coefficient_lt hc

end FloatStyle

namespace Scalar

theorem ofNumeral_written {negative : Bool} {m : Magnitude} :
    ofNumeral (FloatStyle.written.numeral negative m) = .ok (float (.finite negative m)) := by
  have hp : (FloatStyle.written.numeral negative m).isPlain = false := FloatStyle.layout_isPlain rfl
  rw [ofNumeral, hp, if_neg Bool.false_ne_true, readFloat, FloatStyle.tie_written, FloatStyle.toBinary64_numeral rfl]
  rfl

variable {n : Numeral}

theorem ofNumeral_of_negative (hp : n.isPlain) (hn : n.negative = true)
    (h : 0 < n.whole ∧ n.whole ≤ 0x8000000000000000) : ofNumeral n = .ok (integer (.ofInt (-n.whole))) := by
  rw [ofNumeral, if_pos hp, if_pos hn, if_pos h]

theorem ofNumeral_of_nonnegative (hp : n.isPlain) (hn : n.negative = false) (h : n.whole < 0x8000000000000000) :
    ofNumeral n = .ok (integer (.ofNat n.whole)) := by
  have ht : (UInt64.ofNat n.whole).toNat = n.whole := UInt64.toNat_ofNat_of_lt (Nat.lt_trans h (by decide))
  rw [ofNumeral, if_pos hp, hn, if_neg Bool.false_ne_true, if_pos (by omega), ofUnsigned, ht, if_pos h]
  rfl

theorem ofNumeral_ofInt (i : Int64) : ofNumeral (.ofInt i.toInt) = .ok (integer i) := by
  have hl := i.le_toInt
  have hu := i.toInt_lt
  have hw : (Numeral.ofInt i.toInt).whole = i.toInt.natAbs := rfl
  by_cases hn : i.toInt < 0
  case pos =>
    have hi : -(i.toInt.natAbs : Int) = i.toInt := by omega
    rw [ofNumeral_of_negative rfl (decide_eq_true hn) (by omega), hw, hi, Int64.ofInt_toInt]
  case neg =>
    have hi : (i.toInt.natAbs : Int) = i.toInt := by omega
    rw [ofNumeral_of_nonnegative rfl (decide_eq_false hn) (by omega), hw, ← Int64.ofInt_eq_ofNat, hi, Int64.ofInt_toInt]

theorem read_toJson {s : Scalar} (h : s.isFinite) : read s.toJson = .ok s := by
  cases s
  case integer i => exact ofNumeral_ofInt i
  case string    => rfl
  case boolean   => rfl
  case float x =>
    cases x
    case finite   => exact ofNumeral_written
    case infinite => contradiction
    case nan      => contradiction

end Scalar
end ScriptCheck
