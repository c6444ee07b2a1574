import ScriptCheck.Tree.Basic

namespace ScriptCheck
namespace Tree

variable (t : Tree)

def size : Nat :=
  t.records.size

def rootNode : Node :=
  have := t.root_lt
  ⟨t.root, t.records[t.root.index]⟩

def node? (id : NodeId) : Option Node :=
  t.records[id.index]?.map (⟨id, ·⟩)

theorem node?_root : t.node? t.root = some t.rootNode := by
  simp [node?, rootNode, t.root_lt]

theorem node?_id {id : NodeId} {n : Node} (h : t.node? id = some n) : n.id = id := by
  have ⟨_, _, hn⟩ := Option.map_eq_some_iff.mp h
  exact hn ▸ rfl

theorem node?_isSome_iff {id : NodeId} : (t.node? id).isSome ↔ id.index < t.size := by
  simp [node?, size]

def resolve? : Arg → Option Value
  | .node id => (t.node? id).map .node
  | .leaf l  => some (.leaf l)

theorem resolve?_eq_leaf_iff {a : Arg} {l : Leaf} : t.resolve? a = some (.leaf l) ↔ a = .leaf l := by
  cases a <;> simp [resolve?]

def parent? (n : Node) : Option Node :=
  n.record.parent.bind t.node?

def arg? (n : Node) (name : String) : Option Value :=
  (n.record.args.find? (·.1 == name)).bind fun (_, a) => t.resolve? a

def argNodes (n : Node) : List Node :=
  n.args.filterMap fun (_, a) => a.node?.bind t.node?

def body (n : Node) : List Node :=
  n.bodyIds.filterMap t.node?

def children (n : Node) : List Node :=
  t.argNodes n ++ t.body n

-- The nodes on the way from `n` up to the root, `n` first. There are at most as many as the tree has nodes.
def ancestors (n : Node) : List Node :=
  go t.size n
where
  go : Nat → Node → List Node
    | 0,     _ => []
    | k + 1, n => n :: ((t.parent? n).map (go k)).getD []

end Tree
end ScriptCheck
