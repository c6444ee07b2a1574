import ScriptCheck.Json.Token

namespace ScriptCheck

inductive Numeral.Spelled : Numeral → List Char → Prop
  | lower {n : Numeral} : Spelled n n.chars
  | upper {n : Numeral} {e : Exponent} :
    n.exponent = some e → Spelled n ({ n with exponent := none }.chars ++ 'E' :: e.chars.tail)

namespace Token

inductive Piece.Spelled : Piece → List Char → Prop
  | plain {c : Char} : ¬c < ' ' → c ≠ '"' → c ≠ '\\' → Spelled (.char c) [c]
  | short {e c : Char} : escaped? e = some c → Spelled (.char c) ['\\', e]
  | unit {a b c d : Char} {u : Nat} : hexUnit? a b c d = some u → Spelled (.ofUnit u) ['\\', 'u', a, b, c, d]

inductive Spelled : Token → List Char → Prop
  | openBracket  : Spelled openBracket ['[']
  | closeBracket : Spelled closeBracket [']']
  | openBrace    : Spelled openBrace ['{']
  | closeBrace   : Spelled closeBrace ['}']
  | colon        : Spelled colon [':']
  | comma        : Spelled comma [',']
  | null         : Spelled null ['n', 'u', 'l', 'l']
  | true         : Spelled (bool true) ['t', 'r', 'u', 'e']
  | false        : Spelled (bool false) ['f', 'a', 'l', 's', 'e']
  | number {n : Numeral} {s : List Char} : n.Spelled s → Spelled (number n) s
  | string (pieces : List (Piece × List Char)) :
    (∀ p ∈ pieces, p.1.Spelled p.2) →
      Spelled (string (joinPieces [] (pieces.map Prod.fst))) ('"' :: pieces.flatMap Prod.snd ++ ['"'])

-- What may stand right after a numeral.
def Delimited (s : List Char) : Prop :=
  ∀ c ∈ s.head?, isBlank c ∨ c = ',' ∨ c = ']' ∨ c = '}'

inductive Lexed : List Token → List Char → Prop
  | nil (blanks : List Char) : blanks.all isBlank → Lexed [] blanks
  | cons (blanks : List Char) {t : Token} {tokens : List Token} {s rest : List Char} :
    blanks.all isBlank → t.Spelled s → (∀ n, t = number n → Delimited rest) → Lexed tokens rest →
      Lexed (t :: tokens) (blanks ++ (s ++ rest))

end Token

namespace Json

-- All brackets of the value are closed.
inductive Whole : Json → Prop
  | null : Whole null
  | bool {b : Bool} : Whole (bool b)
  | number {n : Numeral} : Whole (number n)
  | string {s : Option String} : Whole (string s)
  | array {items : List Json} : (∀ v ∈ items, Whole v) → Whole (array items true)
  | object {members : List (Option String × Json)} : (∀ m ∈ members, Whole m.2) → Whole (object members true)

-- Items with commas between them.
def commas : List (List Token) → List Token
  | []            => []
  | item :: items => item ++ items.flatMap (.comma :: ·)

mutual

-- The tokens of a value, with all brackets closed.
def tokens : Json → List Token
  | null             => [.null]
  | bool b           => [.bool b]
  | number n         => [.number n]
  | string s         => [.string s]
  | array items _    => .openBracket :: commas (itemTokens items) ++ [.closeBracket]
  | object members _ => .openBrace :: commas (memberTokens members) ++ [.closeBrace]

def itemTokens : List Json → List (List Token)
  | []          => []
  | v :: values => v.tokens :: itemTokens values

def memberTokens : List (Option String × Json) → List (List Token)
  | []                => []
  | (name, v) :: rest => (.string name :: .colon :: v.tokens) :: memberTokens rest

end

structure IsText (v : Json) (s : String) : Prop where
  whole : v.Whole
  lexed : Token.Lexed v.tokens s.toList

end Json
end ScriptCheck
