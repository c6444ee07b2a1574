import ScriptCheck.Json.Parser
import ScriptCheck.Scalar.Basic

namespace ScriptCheck

inductive ReadError where
  | malformed
  | scalar (e : ScalarError)
  deriving DecidableEq

-- A reader looks at a value in the order of its text and stops at the first problem, be it a fault of the text or a
-- value of the wrong kind.
abbrev Reader (α : Type) := Json → Except ReadError α

namespace Reader

variable {α β : Type}

def refuse : Except ReadError α :=
  .error .malformed

def text : Reader String
  | .string (some s) => .ok s
  | _                => refuse

-- A list of items that `item` reads.
def list (item : Reader α) : Reader (List α)
  | .array items closed => do
    let values ← items.mapM item
    if closed then return values else refuse
  | _ => refuse

-- A list of exactly two items.
def pair (first : Reader α) (second : Reader β) : Reader (α × β)
  | .array items closed =>
    match items with
    | a :: rest => do
      let a ← first a
      match rest with
      | b :: rest => do
        let b ← second b
        if closed && rest.isEmpty then return (a, b) else refuse
      | [] => refuse
    | [] => refuse
  | _ => refuse

-- An absent or null value is `none`.
def optional (value : Reader α) : Reader (Option α)
  | .null => .ok none
  | j     => some <$> value j

-- A field of a record: the place that its value is kept in while a record of type `σ` is filled, and how a
-- value is put there.
structure Field (σ : Type) where
  name : String
  isSet : σ → Bool
  set : σ → Json → Except ReadError σ

-- Reads one member of an object. A known field may be given only once; the value of an unknown one only has to
-- be well formed.
def member {σ : Type} (fields : List (Field σ)) (s : σ) : Option String × Json → Except ReadError σ
  | (none, _)      => refuse
  | (some name, v) =>
    match fields.find? (·.name == name) with
    | some field => if field.isSet s then refuse else field.set s v
    | none       => if v.isClosed then .ok s else refuse

-- Reads values for the fields in their order. The last fields may be left out.
def items {σ : Type} : List (Field σ) → σ → List Json → Except ReadError σ
  | _,               s, []      => .ok s
  | [],              _, _ :: _  => refuse
  | field :: fields, s, v :: vs => do items fields (← field.set s v) vs

-- A record is an object with the fields as members in any order, or an array with their values in order.
def record {σ : Type} (fields : List (Field σ)) (empty : σ) (finish : σ → Option α) : Reader α
  | .object members closed => do
    let s ← members.foldlM (member fields) empty
    if closed then (finish s).elim refuse .ok else refuse
  | .array values closed => do
    let s ← items fields empty values
    if closed then (finish s).elim refuse .ok else refuse
  | _ => refuse

-- Reads a whole text.
def run (value : Reader α) (s : String) : Except ReadError α :=
  let document := Json.parse s
  match document.value with
  | none   => refuse
  | some j => do
    let a ← value j
    if document.complete then return a else refuse

end Reader
end ScriptCheck
