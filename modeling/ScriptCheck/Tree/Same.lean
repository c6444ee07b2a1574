import ScriptCheck.Tree.Basic

namespace ScriptCheck

-- Unlike equality this compares floats as numbers.
def Leaf.same (l₁ l₂ : Leaf) : Bool :=
  l₁.kind == l₂.kind && l₁.value.same l₂.value && l₁.parent == l₂.parent

def Arg.same : Arg → Arg → Bool
  | node i,  node j  => i == j
  | leaf l₁, leaf l₂ => l₁.same l₂
  | _,       _       => false

def Record.same (r₁ r₂ : Record) : Bool :=
  r₁.kind == r₂.kind && r₁.args.isEqv r₂.args (fun a b => a.1 == b.1 && a.2.same b.2) &&
    r₁.body == r₂.body && r₁.parent == r₂.parent

def Tree.same (t₁ t₂ : Tree) : Bool :=
  t₁.root == t₂.root && t₁.records.isEqv t₂.records Record.same

end ScriptCheck
