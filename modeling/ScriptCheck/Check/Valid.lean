import ScriptCheck.Corpus.Rule

namespace ScriptCheck
namespace Check

variable {ρ : Type} (judge : Judge ρ) (c : Corpus ρ) (t : Tree)

-- What an argument holds, under its name, is there, has an allowed type and is accepted by the rule.
structure ArgValid (name : String) (a : Arg) (v : Value) : Prop where
  resolves : t.resolve? a = some v
  typed    : ∀ l, v = .leaf l → ∃ spec, c.args[l.kind]? = some spec ∧ l.value.type ∈ spec.types
  accepted : ∃ spec, c.args[name]? = some spec ∧ ∀ r, spec.rule = some r → judge r c t v = .ok ()

-- A node that fits the outline of its kind: its body and the names of its arguments.
structure OutlineValid (n : Node) (spec : NodeSpec) : Prop where
  known : c.nodes[n.kind]? = some spec
  body  : ∀ id ∈ n.bodyIds, ∃ child, t.node? id = some child ∧ child.kind ∈ spec.body
  names : ∀ name, name ∈ n.argNames ↔ name ∈ spec.args

structure NodeValid (n : Node) : Prop where
  outline : ∃ spec, OutlineValid c t n spec
  args    : ∀ name a, (name, a) ∈ n.args → ∃ v, ArgValid judge c t name a v

end Check

-- A script is valid if all its nodes are, wherever they are in the tree.
def Tree.Valid {ρ : Type} (judge : Judge ρ) (c : Corpus ρ) (t : Tree) : Prop :=
  ∀ id n, t.node? id = some n → Check.NodeValid judge c t n

end ScriptCheck
