import ScriptCheck.Json.Basic

namespace ScriptCheck.Json

def hexChars (n : Nat) : List Char :=
  [Nat.digitChar (n / 16), Nat.digitChar (n % 16)]

def escapedChar (c : Char) : List Char :=
  match c with
  | '"'    => ['\\', '"']
  | '\\'   => ['\\', '\\']
  | '\x08' => ['\\', 'b']
  | '\x0c' => ['\\', 'f']
  | '\n'   => ['\\', 'n']
  | '\r'   => ['\\', 'r']
  | '\t'   => ['\\', 't']
  | c      => if c < ' ' then ['\\', 'u', '0', '0'] ++ hexChars c.toNat else [c]

-- A string without content is written as half of a surrogate pair.
def stringChars : Option String → List Char
  | some s => '"' :: s.toList.flatMap escapedChar ++ ['"']
  | none   => ['"', '\\', 'u', 'd', '8', '0', '0', '"']

-- Items with commas between them.
def separated : List (List Char) → List Char
  | []          => []
  | item :: items => item ++ items.flatMap (',' :: ·)

mutual

def chars : Json → List Char
  | null                  => ['n', 'u', 'l', 'l']
  | bool true             => ['t', 'r', 'u', 'e']
  | bool false            => ['f', 'a', 'l', 's', 'e']
  | number n              => n.chars
  | string s              => stringChars s
  | array items closed    => '[' :: separated (itemChars items) ++ if closed then [']'] else []
  | object members closed => '{' :: separated (memberChars members) ++ if closed then ['}'] else []

def itemChars : List Json → List (List Char)
  | []          => []
  | v :: values => v.chars :: itemChars values

def memberChars : List (Option String × Json) → List (List Char)
  | []                => []
  | (name, v) :: rest => (stringChars name ++ ':' :: v.chars) :: memberChars rest

end

def write (v : Json) : String :=
  String.ofList v.chars

end ScriptCheck.Json
