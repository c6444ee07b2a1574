import Std.Data.TreeMap
import ScriptCheck.Check.Violation

namespace ScriptCheck

structure NodeSpec where
  args : List String
  body : List String
  deriving DecidableEq

-- What rules there are is left open. Only whether there is one matters here.
structure ArgSpec (ρ : Type) where
  types : List ScalarType
  rule : Option ρ
  deriving DecidableEq

structure Corpus (ρ : Type) where
  nodes : Std.TreeMap String NodeSpec
  args : Std.TreeMap String (ArgSpec ρ)

namespace NodeSpec

def allowsArg (s : NodeSpec) (name : String) : Bool :=
  s.args.contains name

def allowsBody (s : NodeSpec) (kind : String) : Bool :=
  s.body.contains kind

def toJson (s : NodeSpec) (name : String) : Json :=
  .record [("name", .text name), ("allowed_args", .texts s.args), ("allowed_body_types", .texts s.body)]

def describe (s : NodeSpec) (name : String) : String :=
  "NodeSpec \x7b name: " ++ Text.quoted name ++ ", allowed_args: " ++ Text.bracketed (s.args.map Text.quoted) ++
    ", allowed_body_types: " ++ Text.bracketed (s.body.map Text.quoted) ++ " \x7d"

end NodeSpec

namespace ArgSpec

variable {ρ : Type}

def toJson (s : ArgSpec ρ) (name : String) : Json :=
  .record [
    ("name", .text name),
    ("allowed_values", .list (s.types.map ScalarType.toJson)),
    ("has_additional_validation", .bool s.rule.isSome)]

def describe (s : ArgSpec ρ) (name : String) : String :=
  "ArgSpec \x7b name: " ++ Text.quoted name ++ ", allowed_values: " ++
    Text.bracketed (s.types.map ScalarType.describe) ++ ", additional_validation: " ++
    (if s.rule.isSome then "true" else "false") ++ " \x7d"

end ArgSpec

namespace Corpus

variable {ρ : Type} (c : Corpus ρ)

def node (kind : String) : Except Violation NodeSpec :=
  (c.nodes[kind]?).elim (.error (.unknownKind .node kind)) .ok

def arg (kind : String) : Except Violation (ArgSpec ρ) :=
  (c.args[kind]?).elim (.error (.unknownKind .arg kind)) .ok

theorem node_eq_ok_iff {kind : String} {spec : NodeSpec} : c.node kind = .ok spec ↔ c.nodes[kind]? = some spec := by
  unfold node
  cases c.nodes[kind]? <;> simp

theorem arg_eq_ok_iff {kind : String} {spec : ArgSpec ρ} : c.arg kind = .ok spec ↔ c.args[kind]? = some spec := by
  unfold arg
  cases c.args[kind]? <;> simp

def nodeKinds : List String :=
  c.nodes.keys

def argKinds : List String :=
  c.args.keys

-- Both lists are sorted by name.
def toJson : Json :=
  .record [
    ("nodes", .list (c.nodes.toList.map fun (name, s) => s.toJson name)),
    ("args", .list (c.args.toList.map fun (name, s) => s.toJson name))]

def write : String :=
  c.toJson.write

end Corpus
end ScriptCheck
