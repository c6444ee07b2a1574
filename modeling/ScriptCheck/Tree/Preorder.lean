import ScriptCheck.Tree.Lookup

namespace ScriptCheck
namespace Tree

variable (t : Tree)

-- `Preorder t roots nodes` says that `nodes` lists what lies below `roots`: for each of the roots the root itself,
-- then recursively what lies below its children.
inductive Preorder : List Node → List Node → Prop
  | nil : Preorder [] []
  | cons {n : Node} {roots below rest : List Node} :
    Preorder (t.children n) below → Preorder roots rest → Preorder (n :: roots) (n :: below ++ rest)

end Tree
end ScriptCheck
