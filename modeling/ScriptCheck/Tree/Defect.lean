import ScriptCheck.Tree.Shape
import ScriptCheck.Tree.WellFormed

namespace ScriptCheck
namespace Tree

variable (root : NodeId) (records : Array Record)

inductive Defect : ShapeError → Prop
  | rootMissing :
    records.size ≤ root.index → Defect (.rootMissing root)
  | rootHasParent {r : Record} :
    records[root.index]? = some r → r.parent ≠ none → Defect (.rootHasParent root)
  | sharedNode {id : NodeId} :
    id.index < records.size → 2 ≤ (slots records).count id → Defect (.sharedNode id)
  | parentMismatch {id p : NodeId} {r s : Record} :
    records[p.index]? = some r → id ∈ r.childIds → records[id.index]? = some s → s.parent ≠ some p →
      Defect (.parentMismatch id p s.parent)
  | leafParentMismatch {id : NodeId} {r : Record} {name : String} {l : Leaf} :
    records[id.index]? = some r → (name, .leaf l) ∈ r.args → l.parent ≠ id →
      Defect (.leafParentMismatch id name l.parent)
  | duplicateArgument {id : NodeId} {r : Record} {name : String} :
    records[id.index]? = some r → 2 ≤ r.argNames.count name → Defect (.duplicateArgument id name)
  | nonFiniteLeaf {id : NodeId} {r : Record} {name : String} {l : Leaf} :
    records[id.index]? = some r → (name, .leaf l) ∈ r.args → ¬l.value.isFinite → Defect (.nonFiniteLeaf id name)
  | tooManyNodes :
    0x100000000 < records.size → Defect .tooManyNodes

-- What the error says is so.
inductive Accurate : ShapeError → Prop
  | defect {e : ShapeError} : Defect root records e → Accurate e
  | unreachable {id : NodeId} :
    id.index < records.size → ¬Reachable root records id →
      (∀ id' : NodeId, id'.index < id.index → Reachable root records id') → (∀ e, ¬Defect root records e) →
      Accurate (.unreachable id)

end Tree
end ScriptCheck
