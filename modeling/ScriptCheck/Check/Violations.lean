import ScriptCheck.Corpus.Rule

namespace ScriptCheck
namespace Check

variable {ρ : Type} (judge : Judge ρ) (c : Corpus ρ) (t : Tree)

def kindViolations (spec? : Option NodeSpec) (n : Node) : List Violation :=
  match spec? with
  | none   => [.unknownKind .node n.kind]
  | some _ => []

-- Which kinds the body may contain is only known if the kind of the node is.
def entryViolations (spec? : Option NodeSpec) (n : Node) (id : NodeId) (index : Nat) : List Violation :=
  match t.node? id, spec? with
  | none,       _         => [.malformedBody n.kind index]
  | some _,     none      => []
  | some child, some spec =>
    if child.kind ∈ spec.body then [] else [.invalidBodyChild n.kind child.kind index spec.body]

def bodyViolations (spec? : Option NodeSpec) (n : Node) : List Violation :=
  n.bodyIds.zipIdx.flatMap fun (id, index) => entryViolations t spec? n id index

def missingViolations (spec : NodeSpec) (n : Node) : List Violation :=
  (spec.args.filter (· ∉ n.argNames)).map fun name => .missingArgument n.kind name n.argNames

-- All names that should not be there are reported together.
def unexpectedViolations (spec : NodeSpec) (n : Node) : List Violation :=
  match n.argNames.filter (· ∉ spec.args) with
  | []    => []
  | extra => [.unexpectedArguments n.kind extra spec.args]

def arityViolations (spec : NodeSpec) (n : Node) : List Violation :=
  missingViolations spec n ++ unexpectedViolations spec n

def typeViolations (n : Node) : Value → List Violation
  | .node _ => []
  | .leaf l =>
    match c.args[l.kind]? with
    | none      => [.unknownKind .arg l.kind]
    | some spec =>
      if l.value.type ∈ spec.types then [] else [.invalidLeafType l.kind n.kind spec.types l.value.type]

-- Violations of the rule for an argument. A value that is not there cannot be refused.
def ruleViolations (name : String) (v? : Option Value) : List Violation :=
  match c.args[name]? with
  | none      => [.unknownKind .arg name]
  | some spec =>
    match spec.rule, v? with
    | some r, some v =>
      match judge r c t v with
      | .ok _          => []
      | .error message => [.refused name message]
    | _, _ => []

def argViolations (n : Node) (arg : String × Arg) : List Violation :=
  match t.resolve? arg.2 with
  | none   => .malformedArgument arg.1 :: ruleViolations judge c t arg.1 none
  | some v => typeViolations c n v ++ ruleViolations judge c t arg.1 (some v)

-- Nothing is passed over because of what comes before it: a node of an unknown kind still has its malformed entries.
def nodeViolations (n : Node) : List Violation :=
  let spec? := c.nodes[n.kind]?
  kindViolations spec? n ++ bodyViolations t spec? n ++ spec?.toList.flatMap (arityViolations · n) ++
    n.args.flatMap (argViolations judge c t n)

end Check
end ScriptCheck
