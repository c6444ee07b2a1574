import Mathlib.Data.List.Induction
import ScriptCheck.Proofs.Binary64.Nearest
import ScriptCheck.Proofs.Reader
import ScriptCheck.Proofs.Scalar.Json

namespace ScriptCheck

namespace Digit

theorem toNat_pos {d : Digit} {ds : List Digit} (h : d ≠ 0) : 0 < toNat (d :: ds) := by
  have hd : 0 < d.val := Fin.pos_iff_ne_zero.mpr h
  have hm := Nat.mul_pos hd (pow10_pos ds.length)
  rw [toNat, List.foldl_cons, foldl_eq, Nat.mul_zero, Nat.zero_add]
  exact Nat.add_pos_left hm _

-- Digits without a leading zero are those of the number that they stand for.
theorem ofNat_toNat {d : Digit} {ds : List Digit} (h : d = 0 → ds = []) : ofNat (toNat (d :: ds)) = d :: ds := by
  induction ds using List.reverseRecOn
  case nil =>
    have hd := d.isLt
    rw [ofNat]
    simp [toNat, last, Nat.mod_eq_of_lt hd]
  case append_singleton ds e ih =>
    have hd : d ≠ 0 := fun hd => by simpa using h hd
    have hn : 0 < toNat (d :: ds) := toNat_pos hd
    have he := e.isLt
    have hl : last (10 * toNat (d :: ds) + e.val) = e := Fin.ext (by simp only [last]; omega)
    have hq : (10 * toNat (d :: ds) + e.val) / 10 = toNat (d :: ds) := by omega
    rw [←List.cons_append, toNat_concat, ofNat, if_neg (by omega), hl, hq, ih (absurd · hd)]

end Digit

-- The spelling of an integer: digits, of which the first is a zero only if there are no others, after a minus sign or
-- without one.
structure IntegerLiteral where
  negative : Bool
  lead : Digit
  rest : List Digit
  lead_zero : lead = 0 → rest = []

namespace IntegerLiteral

variable (l : IntegerLiteral)

def digits : List Digit :=
  l.lead :: l.rest

def chars : List Char :=
  (if l.negative then ['-'] else []) ++ l.digits.map Digit.toChar

def text : String :=
  String.ofList l.chars

def toInt : Int :=
  if l.negative then -Digit.toNat l.digits else Digit.toNat l.digits

def numeral : Numeral where
  negative := l.negative
  whole := Digit.toNat l.digits

theorem chars_numeral : l.numeral.chars = l.chars := by
  have hd : Digit.ofNat l.numeral.whole = l.digits := Digit.ofNat_toNat l.lead_zero
  rw [Numeral.chars, hd]
  change l.chars ++ [] ++ [] = l.chars
  rw [List.append_nil, List.append_nil]

end IntegerLiteral

theorem IntegerLiteral.run_read (l : IntegerLiteral) : Reader.run Scalar.read l.text = Scalar.ofNumeral l.numeral := by
  have hw : (Json.number l.numeral).write = l.text := congrArg String.ofList l.chars_numeral
  rw [←hw, Reader.run_write _ .number]
  rfl

theorem Numeral.toBinary64_of_isPlain {n : Numeral} (tie : Tie) (hp : n.isPlain) (hw : 0 < n.whole) :
    n.toBinary64 tie = .ofUnits tie n.negative (n.whole <<< 1074) 1 := by
  have ⟨hf, he⟩ : n.fraction = [] ∧ n.exponent = none := by simpa [isPlain] using hp
  have hc : n.coefficient = n.whole := by simp [coefficient, hf]
  have hs : n.scale = .ofNat 0 := by simp [scale, hf, he]
  rw [toBinary64, hc, hs, Binary64.ofDecimal, if_neg (by omega), if_neg (by decide), pow10_zero, Nat.mul_one]

namespace Scalar

variable {n : Numeral}

theorem readFloat_of_isPlain (hp : n.isPlain) (hw : 0 < n.whole) :
    readFloat n = (Magnitude.nearest? n.tie (n.whole <<< 1074) 1).elim Reader.refuse
      fun m => .ok (float (.finite n.negative m)) := by
  rw [readFloat, n.toBinary64_of_isPlain _ hp hw]
  generalize n.whole <<< 1074 = units
  unfold Binary64.ofUnits
  cases Magnitude.nearest? n.tie units 1 <;> rfl

theorem readFloat_eq_refuse (hp : n.isPlain) (hw : 0 < n.whole) (h : 2 ^ 1024 - 2 ^ 970 ≤ n.whole) :
    readFloat n = Reader.refuse := by
  rw [readFloat_of_isPlain hp hw, Magnitude.nearest?_shiftLeft_eq_none_iff.mpr h]
  rfl

theorem readFloat_eq_float (hp : n.isPlain) (hw : 0 < n.whole) (h : n.whole < 2 ^ 1024 - 2 ^ 970) :
    ∃ m, readFloat n = .ok (float (.finite n.negative m)) ∧
      Binary64.Nearest (if n.negative then -n.whole else n.whole) n.negative m := by
  have hs : Magnitude.nearest? n.tie (n.whole <<< 1074) 1 ≠ none :=
    mt Magnitude.nearest?_shiftLeft_eq_none_iff.mp (Nat.not_le.mpr h)
  obtain ⟨m, hm⟩ := Option.ne_none_iff_exists'.mp hs
  refine ⟨m, ?_, Binary64.nearest_of_nearest? hm n.negative⟩
  rw [readFloat_of_isPlain hp hw, hm]
  rfl

theorem ofNumeral_of_unsigned (hp : n.isPlain) (hn : n.negative = false) (hl : 0x8000000000000000 ≤ n.whole)
    (hu : n.whole < 0x10000000000000000) : ofNumeral n = .error (.scalar (.outOfRange (.ofNat n.whole))) := by
  have ht : (UInt64.ofNat n.whole).toNat = n.whole := UInt64.toNat_ofNat_of_lt hu
  rw [ofNumeral, if_pos hp, hn, if_neg Bool.false_ne_true, if_pos hu, ofUnsigned, ht, if_neg (by omega)]
  rfl

-- What fits into 64 bits neither with a sign nor without one is read as a float.
theorem ofNumeral_of_large (hp : n.isPlain) (hn : n.negative = true → 0x8000000000000000 < n.whole)
    (hu : n.negative = false → 0x10000000000000000 ≤ n.whole) : ofNumeral n = readFloat n := by
  rw [ofNumeral, if_pos hp]
  cases h : n.negative
  case true  => rw [if_pos rfl, if_neg (by have := hn h; omega)]
  case false => rw [if_neg Bool.false_ne_true, if_neg (by have := hu h; omega)]

-- The three ways in which an integer that does not fit is read.
inductive Misfit (l : IntegerLiteral) : Except ReadError Scalar → Prop
  | unsigned : 0 ≤ l.toInt → l.toInt < 0x10000000000000000 →
    Misfit l (.error (.scalar (.outOfRange (.ofNat l.toInt.toNat))))
  | float {m : Magnitude} : ¬(0 ≤ l.toInt ∧ l.toInt < 0x10000000000000000) → l.toInt.natAbs < 2 ^ 1024 - 2 ^ 970 →
    Binary64.Nearest l.toInt l.negative m → Misfit l (.ok (.float (.finite l.negative m)))
  | large : 2 ^ 1024 - 2 ^ 970 ≤ l.toInt.natAbs → Misfit l (.error .malformed)

theorem misfit_run (l : IntegerLiteral) (h : l.toInt < -0x8000000000000000 ∨ 0x7fffffffffffffff < l.toInt) :
    Misfit l (Reader.run read l.text) := by
  have hp : l.numeral.isPlain := rfl
  have hi : l.toInt = if l.numeral.negative then -(l.numeral.whole : Int) else l.numeral.whole := rfl
  have hw : l.toInt.natAbs = l.numeral.whole := by
    rw [hi]
    split <;> omega
  rw [l.run_read]
  by_cases hu : 0 ≤ l.toInt ∧ l.toInt < 0x10000000000000000
  case pos =>
    have hn : l.numeral.negative = false := by
      by_contra hn
      rw [hi, if_pos (by simpa using hn)] at h hu
      omega
    have ht : l.numeral.whole = l.toInt.toNat := by omega
    rw [ofNumeral_of_unsigned hp hn (by omega) (by omega), ht]
    exact .unsigned hu.left hu.right
  case neg =>
    have hn (hn : l.numeral.negative = true) : 0x8000000000000000 < l.numeral.whole := by
      rw [if_pos hn] at hi
      omega
    have hu' (hn : l.numeral.negative = false) : 0x10000000000000000 ≤ l.numeral.whole := by
      rw [hn, if_neg Bool.false_ne_true] at hi
      omega
    rw [ofNumeral_of_large hp hn hu']
    cases Nat.lt_or_ge l.toInt.natAbs (2 ^ 1024 - 2 ^ 970)
    case inl hb =>
      have ⟨m, hm, hx⟩ := readFloat_eq_float hp (by omega) (hw ▸ hb)
      rw [hm]
      exact .float hu hb hx
    case inr hb =>
      rw [readFloat_eq_refuse hp (by omega) (hw ▸ hb)]
      exact .large hb

theorem integer_beyond_range_refused_iff (l : IntegerLiteral)
    (h : l.toInt < -0x8000000000000000 ∨ 0x7fffffffffffffff < l.toInt) :
    ((∃ e, Reader.run read l.text = .error e) ↔
      0 ≤ l.toInt ∧ l.toInt < 0x10000000000000000 ∨ 2 ^ 1024 - 2 ^ 970 ≤ l.toInt.natAbs) ∧
    ∀ s, Reader.run read l.text = .ok s → ∃ m, s = .float (.finite l.negative m) ∧
      Binary64.Nearest l.toInt l.negative m := by
  have hm := misfit_run l h
  generalize Reader.run read l.text = outcome at hm
  cases hm
  case unsigned hl hu => exact ⟨⟨fun _ => .inl ⟨hl, hu⟩, fun _ => ⟨_, rfl⟩⟩, nofun⟩
  case large hb       => exact ⟨⟨fun _ => .inr hb, fun _ => ⟨_, rfl⟩⟩, nofun⟩
  case float m hu hb hx =>
    refine ⟨⟨nofun, fun h => absurd h ?_⟩, ?_⟩
    · exact not_or.mpr ⟨hu, Nat.not_le.mpr hb⟩
    · rintro _ ⟨⟩
      exact ⟨m, rfl, hx⟩

-- One below the range becomes a float. The largest number of 64 bits without a sign is refused.
theorem integer_beyond_range_refused_iff_of_neighbours :
    let below : IntegerLiteral := ⟨true, 9, [2, 2, 3, 3, 7, 2, 0, 3, 6, 8, 5, 4, 7, 7, 5, 8, 0, 9], nofun⟩
    let above : IntegerLiteral := ⟨false, 1, [8, 4, 4, 6, 7, 4, 4, 0, 7, 3, 7, 0, 9, 5, 5, 1, 6, 1, 5], nofun⟩
    below.text = "-9223372036854775809" ∧ below.toInt < -0x8000000000000000 ∧
    above.text = "18446744073709551615" ∧ 0x7fffffffffffffff < above.toInt ∧
    (¬∃ e, Reader.run read below.text = .error e) ∧ ∃ e, Reader.run read above.text = .error e := by
  intro below above
  have hb : below.toInt < -0x8000000000000000 := by decide
  have ha : 0x7fffffffffffffff < above.toInt := by decide
  have ⟨hr, _⟩ := integer_beyond_range_refused_iff below (.inl hb)
  have ⟨hr', _⟩ := integer_beyond_range_refused_iff above (.inr ha)
  exact ⟨rfl, hb, rfl, ha, mt hr.mp (by decide +kernel), hr'.mpr (.inl (by decide))⟩

-- The least number beyond 64 bits is read as the float `2 ^ 64`.
theorem integer_beyond_range_accepted :
    ∃ l : IntegerLiteral, l.text = "18446744073709551616" ∧ 0x7fffffffffffffff < l.toInt ∧
      Reader.run read l.text =
        .ok (.float (.finite false ⟨0x10000000000000, 1086, by decide, by decide, by decide⟩)) := by
  let l : IntegerLiteral := ⟨false, 1, [8, 4, 4, 6, 7, 4, 4, 0, 7, 3, 7, 0, 9, 5, 5, 1, 6, 1, 6], nofun⟩
  refine ⟨l, rfl, by decide, ?_⟩
  rw [l.run_read]
  decide +kernel

end Scalar
end ScriptCheck
