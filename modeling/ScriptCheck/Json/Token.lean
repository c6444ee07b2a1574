import ScriptCheck.Json.Basic

namespace ScriptCheck

inductive Token where
  | openBracket
  | closeBracket
  | openBrace
  | closeBrace
  | colon
  | comma
  | null
  | bool (b : Bool)
  | number (n : Numeral)
  | string (content : Option String)
  | fault

namespace Token

-- A unit of string content: a character, or half of a surrogate pair.
inductive Piece where
  | char (c : Char)
  | high (unit : Nat)
  | low (unit : Nat)

def hexDigit? (c : Char) : Option Nat :=
  if '0' ≤ c ∧ c ≤ '9' then some (c.toNat - '0'.toNat)
  else if 'a' ≤ c ∧ c ≤ 'f' then some (c.toNat - 'a'.toNat + 10)
  else if 'A' ≤ c ∧ c ≤ 'F' then some (c.toNat - 'A'.toNat + 10)
  else none

def hexUnit? (a b c d : Char) : Option Nat := do
  return (((← hexDigit? a) * 16 + (← hexDigit? b)) * 16 + (← hexDigit? c)) * 16 + (← hexDigit? d)

def Piece.ofUnit (u : Nat) : Piece :=
  if 0xd800 ≤ u ∧ u < 0xdc00 then high u
  else if 0xdc00 ≤ u ∧ u < 0xe000 then low u
  else char (.ofNat u)

def pairedChar (hi lo : Nat) : Char :=
  .ofNat (0x10000 + (hi - 0xd800) * 0x400 + (lo - 0xdc00))

def escaped? : Char → Option Char
  | '"'  => some '"'
  | '\\' => some '\\'
  | '/'  => some '/'
  | 'b'  => some '\x08'
  | 'f'  => some '\x0c'
  | 'n'  => some '\n'
  | 'r'  => some '\r'
  | 't'  => some '\t'
  | _    => none

-- The pieces of a string up to its closing quote, added to those before, and what follows the quote.
def scanPieces? (pieces : List Piece) : List Char → Option (List Piece × List Char)
  | []          => none
  | '"' :: rest => some (pieces.reverse, rest)
  | '\\' :: 'u' :: a :: b :: c :: d :: rest =>
    match hexUnit? a b c d with
    | some u => scanPieces? (.ofUnit u :: pieces) rest
    | none   => none
  | '\\' :: e :: rest =>
    match escaped? e with
    | some c => scanPieces? (.char c :: pieces) rest
    | none   => none
  | c :: rest => if c < ' ' then none else scanPieces? (.char c :: pieces) rest

-- Joins surrogate pairs. There is no text if one half stands alone.
def joinPieces (chars : List Char) : List Piece → Option String
  | []                      => some (String.ofList chars.reverse)
  | .char c :: rest         => joinPieces (c :: chars) rest
  | .high u :: .low v :: rest => joinPieces (pairedChar u v :: chars) rest
  | _                       => none

-- The token at the front of a text that does not start with a blank, and what follows it.
def first? : List Char → Option (Token × List Char)
  | '[' :: rest                         => some (openBracket, rest)
  | ']' :: rest                         => some (closeBracket, rest)
  | '{' :: rest                         => some (openBrace, rest)
  | '}' :: rest                         => some (closeBrace, rest)
  | ':' :: rest                         => some (colon, rest)
  | ',' :: rest                         => some (comma, rest)
  | 'n' :: 'u' :: 'l' :: 'l' :: rest        => some (null, rest)
  | 't' :: 'r' :: 'u' :: 'e' :: rest        => some (bool true, rest)
  | 'f' :: 'a' :: 'l' :: 's' :: 'e' :: rest => some (bool false, rest)
  | '"' :: rest => (scanPieces? [] rest).map fun (pieces, rest) => (string (joinPieces [] pieces), rest)
  | s           => (Numeral.scan? s).map fun (n, rest) => (number n, rest)

theorem scanPieces?_shorter {pieces pieces'} {s rest : List Char}
    (h : scanPieces? pieces s = some (pieces', rest)) : rest.length < s.length := by
  fun_induction scanPieces? pieces s <;> simp_all
  all_goals omega

theorem first?_shorter {s rest : List Char} {t} (h : first? s = some (t, rest)) : rest.length < s.length := by
  unfold first? at h
  split at h
  case h_10 s =>
    obtain ⟨⟨_, _⟩, hs, h⟩ := Option.map_eq_some_iff.mp h
    obtain ⟨-, rfl⟩ := Prod.mk.inj h
    exact Nat.lt_succ_of_lt (scanPieces?_shorter hs)
  case h_11 =>
    obtain ⟨⟨_, _⟩, hs, h⟩ := Option.map_eq_some_iff.mp h
    obtain ⟨-, rfl⟩ := Prod.mk.inj h
    exact Numeral.scan?_shorter hs
  all_goals
    simp at h
    simp [← h.right]
    try omega

def isBlank (c : Char) : Bool :=
  c = ' ' || c = '\t' || c = '\n' || c = '\r'

theorem dropBlanks_length (s : List Char) : (s.dropWhile isBlank).length ≤ s.length :=
  (List.dropWhile_sublist _).length_le

-- Adds the tokens of a text to those before, which are in reverse order.
def scanOnto (tokens : List Token) (s : List Char) : List Token :=
  match hs : s.dropWhile isBlank with
  | []      => tokens.reverse
  | c :: cs =>
    match ht : first? (c :: cs) with
    | none           => (fault :: tokens).reverse
    | some (t, rest) =>
      have : rest.length < s.length :=
        Nat.lt_of_lt_of_le (hs ▸ first?_shorter ht) (dropBlanks_length s)
      scanOnto (t :: tokens) rest
termination_by s.length

def scan (s : String) : List Token :=
  scanOnto [] s.toList

end Token
end ScriptCheck
