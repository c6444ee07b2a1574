import ScriptCheck.Text.Unprintable

namespace ScriptCheck.Text

def quotedChar (c : Char) : List Char :=
  match c with
  | '\x00' => ['\\', '0']
  | '\t'   => ['\\', 't']
  | '\r'   => ['\\', 'r']
  | '\n'   => ['\\', 'n']
  | '"'    => ['\\', '"']
  | '\\'   => ['\\', '\\']
  | c      =>
    if isUnprintable c then ['\\', 'u', '\x7b'] ++ Nat.toDigits 16 c.toNat ++ ['\x7d'] else [c]

-- Escapes quotes and backslashes, and names unprintable characters by their code points.
def quoted (s : String) : String :=
  String.ofList ('"' :: s.toList.flatMap quotedChar ++ ['"'])

-- A bracketed list of descriptions.
def bracketed (items : List String) : String :=
  "[" ++ String.intercalate ", " items ++ "]"

-- Small letters, with an underscore where a word after the first one begins.
def snakeCase (s : String) : String :=
  String.ofList <| match s.toList with
    | []      => []
    | c :: cs => c.toLower :: cs.flatMap fun c => if c.isUpper then ['_', c.toLower] else [c]

-- A list of names within a message.
def listed : List String → String
  | []    => "nothing"
  | items => String.intercalate ", " items

end ScriptCheck.Text
