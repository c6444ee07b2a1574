import ScriptCheck.Corpus.Rule
import ScriptCheck.Tree.Walk

namespace ScriptCheck
namespace Check

variable {ρ : Type} (judge : Judge ρ) (c : Corpus ρ) (t : Tree)

def checkBody (spec : NodeSpec) (n : Node) : Except Violation Unit :=
  n.bodyIds.zipIdx.forM fun (id, index) =>
    match t.node? id with
    | none       => .error (.malformedBody n.kind index)
    | some child =>
      if spec.allowsBody child.kind then .ok ()
      else .error (.invalidBodyChild n.kind child.kind index spec.body)

-- A node must have all arguments of its kind and no others.
def checkArity (spec : NodeSpec) (n : Node) : Except Violation Unit :=
  match spec.args.find? (! n.hasArg ·) with
  | some name => .error (.missingArgument n.kind name n.argNames)
  | none      =>
    if n.args.length = spec.args.length then .ok ()
    else .error (.unexpectedArguments n.kind (n.argNames.filter (! spec.allowsArg ·)) spec.args)

-- Checks all about a node except what its arguments hold.
def checkOutline (n : Node) : Except Violation Unit := do
  let spec ← c.node n.kind
  checkBody t spec n
  checkArity spec n

-- A leaf must have one of the types that its kind allows.
def checkType (n : Node) : Value → Except Violation Unit
  | .node _ => .ok ()
  | .leaf l => do
    let spec ← c.arg l.kind
    if l.value.type ∈ spec.types then .ok ()
    else
      let parentKind := ((t.node? l.parent).map Node.kind).getD n.kind
      .error (.invalidLeafType l.kind parentKind spec.types l.value.type)

-- Looks up what an argument holds and the rule for it. A rule is only ever applied to a value that has been
-- vetted.
def vet (n : Node) (name : String) (a : Arg) : Except Violation (Value × Option ρ) :=
  match t.resolve? a with
  | none   => .error (.malformedArgument name)
  | some v => do
    checkType c t n v
    let spec ← c.arg name
    return (v, spec.rule)

def checkArg (n : Node) (arg : String × Arg) : Except Violation Unit := do
  match ← vet c t n arg.1 arg.2 with
  | (_, none)   => .ok ()
  | (v, some r) => (judge r c t v).mapError (.refused arg.1)

def checkNode (n : Node) : Except Violation Unit := do
  checkOutline c t n
  n.args.forM (checkArg judge c t n)

end Check

-- Checks all nodes of a script and gives its root, or the first violation.
def Tree.check {ρ : Type} (judge : Judge ρ) (c : Corpus ρ) (t : Tree) : Except Violation Node := do
  t.travel (Check.checkNode judge c t) t.rootNode
  return t.rootNode

end ScriptCheck
