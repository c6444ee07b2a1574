import ScriptCheck.Json.Grammar

namespace ScriptCheck

namespace Digit

variable {d : Digit}

theorem toChar_ne {c : Char} (h : ofChar? c = none) : d.toChar ≠ c := by
  rintro rfl
  simp at h

-- Only zero itself starts with the digit 0.
theorem eq_nil_of_ofNat {n : Nat} {ds : List Digit} (h : ofNat n = 0 :: ds) : ds = [] := by
  induction n using Nat.strongRecOn generalizing ds
  case ind n hi =>
    have hn := toNat_ofNat (n / 10)
    rw [ofNat] at h
    split at h
    case isTrue => exact (List.cons.inj h).right.symm
    case isFalse hl =>
      cases he : ofNat (n / 10) <;> rw [he] at h hn
      case nil => exact absurd he <| ofNat_ne_nil _
      case cons d es =>
        cases (List.cons.inj h).left
        cases hi (n / 10) (by omega) he
        exact absurd hn (by simp [toNat]; omega)

theorem foldl_eq (n : Nat) (ds : List Digit) :
    ds.foldl (fun n d => 10 * n + d.val) n = n * pow10 ds.length + toNat ds := by
  induction ds generalizing n
  case nil => simp
  case cons d ds hi =>
    have hd : toNat (d :: ds) = (10 * 0 + d.val) * pow10 ds.length + toNat ds := hi _
    rw [List.foldl_cons, hi, hd, List.length_cons, pow10_succ]
    grind

theorem toNat_append (ds es : List Digit) : toNat (ds ++ es) = toNat ds * pow10 es.length + toNat es := by
  rw [toNat, List.foldl_append, foldl_eq]
  rfl

theorem toNat_lt (ds : List Digit) : toNat ds < pow10 ds.length := by
  induction ds
  case nil => decide
  case cons d ds hi =>
    have hd : toNat (d :: ds) = d.val * pow10 ds.length + toNat ds := by
      rw [toNat, List.foldl_cons, foldl_eq, Nat.mul_zero, Nat.zero_add]
    have hm : (d.val + 1) * pow10 ds.length ≤ 10 * pow10 ds.length := Nat.mul_le_mul_right _ d.isLt
    rw [Nat.succ_mul] at hm
    rw [hd, List.length_cons, pow10_succ]
    omega

theorem lt_of_ofNat (n : Nat) : n < pow10 (ofNat n).length := by
  have := toNat_lt (ofNat n)
  rwa [toNat_ofNat] at this

end Digit

namespace Numeral

-- A text that does not go on with digits.
def NoDigit (s : List Char) : Prop :=
  ∀ c ∈ s.head?, Digit.ofChar? c = none

-- A text that does not go on as a numeral does.
structure Ends (s : List Char) : Prop where
  digit : NoDigit s
  point : s.head? ≠ some '.'
  lower : s.head? ≠ some 'e'
  upper : s.head? ≠ some 'E'

variable {s : List Char}

theorem ends_nil : Ends [] where
  digit := nofun
  point := nofun
  lower := nofun
  upper := nofun

theorem ends_cons {c : Char} (hd : Digit.ofChar? c = none) (hc : c ∉ ['.', 'e', 'E']) : Ends (c :: s) where
  digit := by
    rintro _ ⟨⟩
    exact hd
  point := by simp_all
  lower := by simp_all
  upper := by simp_all

theorem spanDigits_append (ds : List Digit) (h : NoDigit s) : spanDigits (ds.map Digit.toChar ++ s) = (ds, s) := by
  induction ds
  case cons hi => simp [spanDigits, hi]
  case nil =>
    cases s
    case nil  => rfl
    case cons => simp [spanDigits, h _ rfl]

theorem scanWhole?_append (n : Nat) (h : NoDigit s) :
    scanWhole? ((Digit.ofNat n).map Digit.toChar ++ s) = some (n, s) := by
  rw [scanWhole?, spanDigits_append _ h]
  split
  case h_1 he => exact absurd (Prod.mk.inj he).left <| Digit.ofNat_ne_nil n
  case h_2 he => cases Digit.eq_nil_of_ofNat (Prod.mk.inj he).left
  case h_3 he =>
    cases he
    rw [Digit.toNat_ofNat]

theorem scanFraction?_append (ds : List Digit) (h : NoDigit s) (hp : s.head? ≠ some '.') :
    scanFraction? (fractionChars ds ++ s) = some (ds, s) := by
  cases ds
  case nil =>
    cases s
    case nil  => rfl
    case cons => simp_all [fractionChars, scanFraction?]
  case cons d ds =>
    have := spanDigits_append (d :: ds) h
    simp_all [fractionChars, scanFraction?]

theorem scanSign_append (sign : Exponent.Sign) (d : Digit) :
    scanSign (sign.chars ++ d.toChar :: s) = (sign, d.toChar :: s) := by
  cases sign
  case plus  => rfl
  case minus => rfl
  case none =>
    have hp : d.toChar ≠ '+' := Digit.toChar_ne rfl
    have hm : d.toChar ≠ '-' := Digit.toChar_ne rfl
    simp_all [Exponent.Sign.chars, scanSign]

theorem scanExponentDigits?_append (e : Exponent) (h : NoDigit s) :
    scanExponentDigits? (e.chars.tail ++ s) = some (some e, s) := by
  have hs := scanSign_append (s := e.rest.map Digit.toChar ++ s) e.sign e.lead
  have hd := spanDigits_append (e.lead :: e.rest) h
  simp_all [scanExponentDigits?, Exponent.chars]

theorem scanExponent?_eq_none (h : Ends s) : scanExponent? s = some (none, s) := by
  have hl := h.lower
  have hu := h.upper
  cases s
  case nil  => rfl
  case cons => simp_all [scanExponent?]

theorem noDigit_fraction (ds : List Digit) (h : NoDigit s) : NoDigit (fractionChars ds ++ s) := by
  cases ds
  case nil => exact h
  case cons =>
    intro _ hc
    cases hc
    rfl

-- The whole part and the fraction are scanned in front of any text that goes on with neither.
theorem scan?_stem {n : Numeral} {e : Option Exponent} {rest : List Char} (hn : n.exponent = none)
    (he : scanExponent? s = some (e, rest)) (hd : NoDigit s) (hp : s.head? ≠ some '.') :
    scan? (n.chars ++ s) = some ({ n with exponent := e }, rest) := by
  have hs : scanUnsigned? n.negative ((Digit.ofNat n.whole).map Digit.toChar ++ (fractionChars n.fraction ++ s)) =
      some ({ n with exponent := e }, rest) := by
    simp [scanUnsigned?, scanWhole?_append _ <| noDigit_fraction _ hd, scanFraction?_append _ hd hp, he]
  cases hb : n.negative <;> rw [hb] at hs
  case true => simpa [chars, hb, hn, scan?] using hs
  case false =>
    cases hw : Digit.ofNat n.whole <;> rw [hw] at hs
    case nil => exact absurd hw <| Digit.ofNat_ne_nil _
    case cons d ds =>
      have hm : d.toChar ≠ '-' := Digit.toChar_ne rfl
      simp_all [chars, scan?]

theorem scan?_marked {n : Numeral} {e : Exponent} {mark : Char} (hm : mark = 'e' ∨ mark = 'E')
    (he : n.exponent = some e) (h : Ends s) :
    scan? ({ n with exponent := none }.chars ++ mark :: (e.chars.tail ++ s)) = some (n, s) := by
  have hs : scanExponent? (mark :: (e.chars.tail ++ s)) = some (some e, s) := by
    rcases hm with rfl | rfl <;> exact scanExponentDigits?_append e h.digit
  have hd : NoDigit (mark :: (e.chars.tail ++ s)) := by
    rintro _ ⟨⟩
    rcases hm with rfl | rfl <;> rfl
  rw [scan?_stem rfl hs hd (by rcases hm with rfl | rfl <;> exact nofun), ←he]

theorem scan?_of_spelled {n : Numeral} {t : List Char} (ht : n.Spelled t) (h : Ends s) :
    scan? (t ++ s) = some (n, s) := by
  cases ht
  case upper e he => simpa using scan?_marked (.inr rfl) he h
  case lower =>
    cases he : n.exponent
    case none => rw [scan?_stem he (scanExponent?_eq_none h) h.digit h.point, ←he]
    case some e =>
      have hc : n.chars = { n with exponent := none }.chars ++ 'e' :: e.chars.tail := by
        simp [chars, he, Exponent.chars]
      simpa [hc] using scan?_marked (.inl rfl) he h

theorem trimmed_coefficient_le (n : Numeral) : n.trimmed.coefficient ≤ n.coefficient := by
  have hp : n.trimmed.fraction <+: n.fraction := by
    have := List.reverse_prefix.mpr <| List.dropWhile_suffix (l := n.fraction.reverse) fun d => d.val == 0
    rwa [List.reverse_reverse] at this
  obtain ⟨t, ht⟩ := hp
  have hw : n.trimmed.whole = n.whole := rfl
  have hz := pow10_pos t.length
  have hl := Nat.le_mul_of_pos_right (n.whole * pow10 n.trimmed.fraction.length) hz
  have hr := Nat.le_mul_of_pos_right (Digit.toNat n.trimmed.fraction) hz
  rw [coefficient, coefficient, ← ht, Digit.toNat_append, List.length_append, pow10_add, hw, ← Nat.mul_assoc]
  omega

end Numeral

-- An exponent is written as the number that it stands for.
theorem Exponent.toInt_ofInt (plus : Bool) (n : Int) : (ofInt plus n).toInt = n := by
  have hd := Digit.toNat_ofNat n.natAbs
  unfold ofInt
  dsimp only
  split
  case h_1 he => exact absurd he <| Digit.ofNat_ne_nil _
  case h_2 d ds he =>
    rw [he] at hd
    unfold toInt magnitude
    by_cases hn : n < 0
    case pos =>
      simp only [if_pos hn, hd]
      omega
    case neg =>
      cases plus <;> simp only [if_neg hn, Bool.false_eq_true, if_true, if_false, hd] <;> omega

end ScriptCheck
