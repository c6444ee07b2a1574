import ScriptCheck.Corpus.Basic
import ScriptCheck.Tree.Lookup
import ScriptCheck.Tree.Text

namespace ScriptCheck

-- How rules of type `ρ` are applied: to a value within its tree, with the corpus at hand. A value is accepted or
-- refused with a message.
abbrev Judge (ρ : Type) := ρ → Corpus ρ → Tree → Value → Except String Unit

-- The stock rules.
inductive Rule.Test where
  | pass
  | fail (message : String)
  | range (min max : Int)
  | oneOf (values : List String)
  | nodeKind (kinds : List String)
  | namesNode
  | namesArg
  | isTrue
  | even
  | show
  deriving DecidableEq

-- A test together with the argument that its messages speak of.
structure Rule where
  arg : String
  test : Rule.Test
  deriving DecidableEq

namespace Rule

def scalar? (v : Value) : Option Scalar :=
  v.leaf?.map Leaf.value

def string? (v : Value) : Option String :=
  (scalar? v).bind Scalar.string?

def inRange (min max : Int) (v : Value) : Bool :=
  match (scalar? v).bind Scalar.number? with
  | some x => (Binary64.ofInt min).le x && x.le (Binary64.ofInt max)
  | none   => false

-- Describes a value: a leaf with what it holds, a node with the node above it.
def sketch (t : Tree) : Value → String
  | .leaf l => l.kind ++ "=" ++ l.value.display
  | .node n =>
    let parent := match t.parent? n with
      | some p => "Some(" ++ p.describe ++ ")"
      | none   => "None"
    n.kind ++ "@" ++ n.id.display ++ " under " ++ parent

def require (condition : Bool) (message : String) : Except String Unit :=
  if condition then .ok () else .error message

def judge : Judge Rule := fun r c t v =>
  match r.test with
  | .pass          => .ok ()
  | .fail message  => .error message
  | .range min max =>
    require (inRange min max v) (r.arg ++ " must be between " ++ min.repr ++ " and " ++ max.repr)
  | .oneOf values =>
    match string? v with
    | some s =>
      require (values.contains s)
        ("'" ++ s ++ "' is not a valid " ++ r.arg ++ ". Allowed values: " ++ String.intercalate ", " values)
    | none => .error (r.arg ++ " must be a string")
  | .nodeKind kinds =>
    match v with
    | .leaf _ => .error (r.arg ++ " must be a node, got a leaf")
    | .node n =>
      require (kinds.contains n.kind && (c.node n.kind).isOk)
        (r.arg ++ " must be one of: " ++ String.intercalate ", " kinds ++ ", got '" ++ n.kind ++ "'")
  | .namesNode =>
    match c.node ((string? v).getD "") with
    | .ok _    => .ok ()
    | .error e => .error ("cannot execute: " ++ e.message)
  | .namesArg =>
    match c.arg ((string? v).getD "") with
    | .ok _    => .ok ()
    | .error e => .error ("cannot use: " ++ e.message)
  | .isTrue =>
    match (scalar? v).bind Scalar.boolean? with
    | some true  => .ok ()
    | some false => .error (r.arg ++ " must be true, got Some(false)")
    | none       => .error (r.arg ++ " must be true, got None")
  | .even =>
    match (scalar? v).bind Scalar.integer? with
    | some i => require (i.toInt % 2 == 0) (r.arg ++ " must be even, got " ++ i.toInt.repr)
    | none   => .error (r.arg ++ " must be even, got kind " ++ v.kind)
  | .show => .error (sketch t v)

end Rule
end ScriptCheck
