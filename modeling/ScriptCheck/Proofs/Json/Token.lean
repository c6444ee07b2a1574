import ScriptCheck.Json.Printer
import ScriptCheck.Proofs.Decimal.Numeral

namespace ScriptCheck
namespace Token

variable {s rest : List Char} {t : Token}

theorem scanPieces?_of_spelled {p : Piece} (pieces : List Piece) (h : p.Spelled s) :
    scanPieces? pieces (s ++ rest) = scanPieces? (p :: pieces) rest := by
  cases h
  case unit h => simp [scanPieces?, h]
  case short e c h =>
    have hu : e ≠ 'u' := by
      rintro rfl
      exact nomatch h
    simp [scanPieces?, hu, h]
  case plain c hc hq hb =>
    rw [List.singleton_append, scanPieces?.eq_def]
    split
    case h_5 he =>
      cases he
      exact if_neg hc
    all_goals simp_all

theorem scanPieces?_append {pieces : List (Piece × List Char)} (before : List Piece)
    (h : ∀ p ∈ pieces, p.1.Spelled p.2) :
    scanPieces? before (pieces.flatMap Prod.snd ++ '"' :: rest) =
      some (before.reverse ++ pieces.map Prod.fst, rest) := by
  induction pieces generalizing before
  case nil => simp [scanPieces?]
  case cons p pieces ih =>
    have ⟨hp, h⟩ := List.forall_mem_cons.mp h
    rw [List.flatMap_cons, List.append_assoc, scanPieces?_of_spelled before hp, ih _ h]
    simp

theorem Delimited.ends (h : Delimited s) : Numeral.Ends s := by
  cases s
  case nil => exact Numeral.ends_nil
  case cons c s =>
    have hc := h c rfl
    simp only [isBlank, Bool.or_eq_true, decide_eq_true_eq] at hc
    rcases hc with (((rfl | rfl) | rfl) | rfl) | rfl | rfl | rfl <;> exact Numeral.ends_cons rfl (by decide)

theorem first?_of_scan? {n : Numeral} (h : Numeral.scan? s = some (n, rest)) :
    first? s = some (number n, rest) := by
  unfold first?
  split
  case h_11 => rw [h]; rfl
  all_goals exact nomatch h

theorem first?_of_spelled (h : t.Spelled s) (hr : ∀ n, t = number n → Delimited rest) :
    first? (s ++ rest) = some (t, rest) := by
  cases h
  case number n h => exact first?_of_scan? <| Numeral.scan?_of_spelled h (hr n rfl).ends
  case string h   => simp [first?, scanPieces?_append [] h]
  all_goals rfl

theorem first?_blank {c : Char} (h : isBlank c) : first? (c :: s) = none := by
  simp only [isBlank, Bool.or_eq_true, decide_eq_true_eq] at h
  rcases h with ((rfl | rfl) | rfl) | rfl <;> rfl

theorem scanOnto_of_nil {tokens : List Token} (h : s.dropWhile isBlank = []) : scanOnto tokens s = tokens.reverse := by
  rw [scanOnto]
  split <;> simp_all

theorem scanOnto_of_cons {tokens : List Token} {c : Char} {cs : List Char} (h : s.dropWhile isBlank = c :: cs) :
    scanOnto tokens s = (first? (c :: cs)).elim (fault :: tokens).reverse fun p => scanOnto (p.1 :: tokens) p.2 := by
  rw [scanOnto]
  split
  case h_1 he => cases h.symm.trans he
  case h_2 he =>
    cases h.symm.trans he
    split <;> simp [*]

-- Tokens that were found before stay in front.
theorem scanOnto_append (tokens before : List Token) (s : List Char) :
    scanOnto (tokens ++ before) s = before.reverse ++ scanOnto tokens s := by
  fun_induction scanOnto tokens s
  case case1 hs          => simp [scanOnto_of_nil hs]
  case case2 hs ht       => simp [scanOnto_of_cons hs, ht]
  case case3 hs _ _ ht _ hi => simp [← hi, scanOnto_of_cons hs, ht]

theorem scanOnto_eq_cons (h : first? s = some (t, rest)) : scanOnto [] s = t :: scanOnto [] rest := by
  cases s
  case nil => exact nomatch h
  case cons c cs =>
    cases hb : isBlank c
    case true => exact nomatch (first?_blank hb).symm.trans h
    case false =>
      have hs : (c :: cs).dropWhile isBlank = c :: cs := List.dropWhile_cons_of_neg (by simp [hb])
      rw [scanOnto_of_cons hs, h]
      exact scanOnto_append [] [t] rest

theorem scanOnto_blanks {tokens : List Token} {blanks : List Char} (h : blanks.all isBlank) :
    scanOnto tokens (blanks ++ s) = scanOnto tokens s := by
  have hd : (blanks ++ s).dropWhile isBlank = s.dropWhile isBlank :=
    List.dropWhile_append_of_pos <| List.all_eq_true.mp h
  cases hs : s.dropWhile isBlank <;> rw [hs] at hd
  case nil  => rw [scanOnto_of_nil hd, scanOnto_of_nil hs]
  case cons => rw [scanOnto_of_cons hd, scanOnto_of_cons hs]

theorem Lexed.scanOnto_eq {tokens : List Token} (h : Lexed tokens s) : scanOnto [] s = tokens := by
  induction h
  case nil blanks hb      => rw [←blanks.append_nil, scanOnto_blanks hb, scanOnto_of_nil rfl, List.reverse_nil]
  case cons hb hs hr _ ih => rw [scanOnto_blanks hb, scanOnto_eq_cons <| first?_of_spelled hs hr, ih]

theorem hexUnit?_hexChars {n : Nat} (h : n < 32) :
    hexUnit? '0' '0' (Nat.digitChar (n / 16)) (Nat.digitChar (n % 16)) = some n := by
  revert n
  decide

theorem spelled_escapedChar (c : Char) : Piece.Spelled (.char c) (Json.escapedChar c) := by
  unfold Json.escapedChar
  split
  case h_8 hq hb _ _ _ _ _ =>
    split
    case isFalse h => exact .plain h hq hb
    case isTrue h =>
      have hn : c.toNat < 32 := h
      have hu : Piece.ofUnit c.toNat = .char c := by
        unfold Piece.ofUnit
        rw [if_neg (by omega), if_neg (by omega), Char.ofNat_toNat]
      exact hu ▸ .unit (hexUnit?_hexChars hn)
  all_goals exact .short rfl

theorem joinPieces_chars (chars cs : List Char) :
    joinPieces chars (cs.map .char) = some (String.ofList (chars.reverse ++ cs)) := by
  induction cs generalizing chars
  case nil => simp [joinPieces]
  case cons hi => rw [List.map_cons, joinPieces, hi, List.reverse_cons, List.append_assoc, List.singleton_append]

theorem spelled_stringChars (content : Option String) : Spelled (string content) (Json.stringChars content) := by
  cases content
  case none =>
    have hu : hexUnit? 'd' '8' '0' '0' = some 0xd800 := rfl
    exact .string [(.ofUnit 0xd800, _)] <| List.forall_mem_singleton.mpr <| .unit hu
  case some text =>
    have h := Spelled.string (text.toList.map fun c => (.char c, Json.escapedChar c)) <| by
      simpa using fun c _ => spelled_escapedChar c
    have hj := joinPieces_chars [] text.toList
    simp_all [Json.stringChars, List.flatMap_map, Function.comp_def]

end Token
end ScriptCheck
