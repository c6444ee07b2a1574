import ScriptCheck.Scalar.Text
import ScriptCheck.Tree.Basic

namespace ScriptCheck

namespace NodeId

def display (id : NodeId) : String :=
  "#" ++ id.index.repr

def describe (id : NodeId) : String :=
  "NodeId(" ++ id.index.repr ++ ")"

end NodeId

def Node.describe (n : Node) : String :=
  "Node \x7b id: " ++ n.id.describe ++ ", kind: " ++ Text.quoted n.kind ++ ", .. \x7d"

def Leaf.describe (l : Leaf) : String :=
  "AstLeaf \x7b kind: " ++ Text.quoted l.kind ++ ", value: " ++ l.value.describe ++ ", parent: " ++
    l.parent.describe ++ " \x7d"

def Value.describe : Value → String
  | node n => "Node(" ++ n.describe ++ ")"
  | leaf l => "Leaf(" ++ l.describe ++ ")"

end ScriptCheck
