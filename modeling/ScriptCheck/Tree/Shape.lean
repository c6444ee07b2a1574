import ScriptCheck.Tree.Walk

namespace ScriptCheck

inductive ShapeError where
  | rootMissing (root : NodeId)
  | rootHasParent (root : NodeId)
  | sharedNode (id : NodeId)
  | parentMismatch (id expected : NodeId) (found : Option NodeId)
  | leafParentMismatch (node : NodeId) (name : String) (found : NodeId)
  | duplicateArgument (node : NodeId) (name : String)
  | nonFiniteLeaf (node : NodeId) (name : String)
  | unreachable (id : NodeId)
  | tooManyNodes
  deriving DecidableEq

namespace ShapeError

def message : ShapeError → String
  | rootMissing root => "root node " ++ root.display ++ " is not part of the tree"
  | rootHasParent root => "root node " ++ root.display ++ " must not have a parent"
  | sharedNode id => "node " ++ id.display ++ " is referenced more than once"
  | parentMismatch id expected found =>
    "node " ++ id.display ++ " is held by " ++ expected.display ++ " but its parent link is " ++
      (found.map NodeId.display).getD "empty"
  | leafParentMismatch node name found =>
    "leaf `" ++ name ++ "` of node " ++ node.display ++ " has parent link " ++ found.display
  | duplicateArgument node name =>
    "node " ++ node.display ++ " has argument `" ++ name ++ "` more than once"
  | nonFiniteLeaf node name =>
    "leaf `" ++ name ++ "` of node " ++ node.display ++ " holds a non-finite float"
  | unreachable id => "node " ++ id.display ++ " is not reachable from the root"
  | tooManyNodes => "tree holds more nodes than can be addressed"

end ShapeError

namespace Record

-- A leaf must name the node that holds it as its parent, and hold no infinite float.
def checkArg (id : NodeId) (name : String) : Arg → Except ShapeError Unit
  | .node _ => .ok ()
  | .leaf l =>
    if l.parent ≠ id then .error (.leafParentMismatch id name l.parent)
    else if !l.value.isFinite then .error (.nonFiniteLeaf id name)
    else .ok ()

-- Checks arguments in order. The names of those before are `seen`.
def checkArgs (id : NodeId) (seen : List String) : List (String × Arg) → Except ShapeError Unit
  | []                => .ok ()
  | (name, a) :: rest =>
    if name ∈ seen then .error (.duplicateArgument id name)
    else do
      checkArg id name a
      checkArgs id (name :: seen) rest

end Record

namespace Tree

-- Marks a child of `id` as held. A node may be held only once, and by its parent. A child without a record is
-- passed over.
def hold (records : Array Record) (id : NodeId) (held : Array Bool) (child : NodeId) :
    Except ShapeError (Array Bool) :=
  match records[child.index]? with
  | none   => .ok held
  | some r =>
    if held[child.index]? = some true then .error (.sharedNode child)
    else if r.parent ≠ some id then .error (.parentMismatch child id r.parent)
    else .ok (held.setIfInBounds child.index true)

def checkRecord (records : Array Record) (held : Array Bool) (r : Record × Nat) :
    Except ShapeError (Array Bool) :=
  match NodeId.ofIndex? r.2 with
  | none    => .error .tooManyNodes
  | some id => do
    Record.checkArgs id [] r.1.args.toList
    r.1.childIds.foldlM (hold records id) held

def checkRecords (records : Array Record) : Except ShapeError (Array Bool) :=
  records.toList.zipIdx.foldlM (checkRecord records) (.replicate records.size false)

-- Marks the nodes that the walk from the root visits.
def reached (t : Tree) : Array Bool :=
  (t.preorder t.rootNode).foldl (fun seen n => seen.setIfInBounds n.id.index true) (.replicate t.size false)

-- The first node that the walk from the root does not visit.
def firstUnreached? (t : Tree) : Option Nat :=
  t.reached.findIdx? (! ·)

-- The tree with the given records. The first problem is reported: with the root, with the records in their
-- order, with nodes that the root does not lead to.
def ofRecords (root : NodeId) (records : Array Record) : Except ShapeError Tree :=
  if h : root.index < records.size then do
    let t : Tree := ⟨root, records, h⟩
    if !t.rootNode.isRoot then .error (.rootHasParent root)
    else do
      let _ ← checkRecords records
      match t.firstUnreached? with
      | none   => .ok t
      | some i => .error (.unreachable ⟨.ofNat i⟩)
  else
    .error (.rootMissing root)

end Tree
end ScriptCheck
