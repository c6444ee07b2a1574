import ScriptCheck.Decimal.Numeral

namespace ScriptCheck

-- A value stands for a text as far as the text is well formed: if an array or object is not closed then there is a
-- fault after the last of its items or members. A string has no content if its escapes name half of a surrogate pair.
-- It is well formed but stands for no text, and the same holds for a member's name.
inductive Json where
  | null
  | bool (b : Bool)
  | number (n : Numeral)
  | string (content : Option String)
  | array (items : List Json) (closed : Bool)
  | object (members : List (Option String × Json)) (closed : Bool)

namespace Json

instance : Inhabited Json := ⟨null⟩

-- Whether the text of the value has no fault. Inside a closed bracket there is none either.
def isClosed : Json → Bool
  | array _ closed  => closed
  | object _ closed => closed
  | _               => true

def text (s : String) : Json :=
  string (some s)

def int (i : Int) : Json :=
  number (.ofInt i)

def nat (n : Nat) : Json :=
  number (.ofNat n)

def list (items : List Json) : Json :=
  array items true

def record (fields : List (String × Json)) : Json :=
  object (fields.map fun (name, value) => (some name, value)) true

def texts (items : List String) : Json :=
  list (items.map text)

end Json
end ScriptCheck
