import ScriptCheck.Scalar.Json
import ScriptCheck.Tree.Shape

namespace ScriptCheck

-- Why a text is no tree. The shape of a tree is looked at when its whole text has been read.
inductive LoadError where
  | read (e : ReadError)
  | shape (e : ShapeError)
  deriving DecidableEq

namespace NodeId

def toJson (id : NodeId) : Json :=
  .nat id.index

def read : Reader NodeId
  | .number n => if n.isPlain && !n.negative then (ofIndex? n.whole).elim Reader.refuse .ok else Reader.refuse
  | _         => Reader.refuse

end NodeId

namespace Leaf

def toJson (l : Leaf) : Json :=
  .record [("kind", .text l.kind), ("value", l.value.toJson), ("parent", l.parent.toJson)]

structure Fields where
  kind : Option String := none
  value : Option Scalar := none
  parent : Option NodeId := none

def fields : List (Reader.Field Fields) := [
  ⟨"kind",   (·.kind.isSome),   fun s j => return { s with kind := ← Reader.text j }⟩,
  ⟨"value",  (·.value.isSome),  fun s j => return { s with value := ← Scalar.read j }⟩,
  ⟨"parent", (·.parent.isSome), fun s j => return { s with parent := ← NodeId.read j }⟩]

def Fields.finish (s : Fields) : Option Leaf := do
  return ⟨← s.kind, ← s.value, ← s.parent⟩

def read : Reader Leaf :=
  Reader.record fields {} Fields.finish

end Leaf

namespace Arg

def toJson : Arg → Json
  | node id => .record [("node", id.toJson)]
  | leaf l  => .record [("leaf", l.toJson)]

-- An object with one member, whose name tells what its value is.
def read : Reader Arg
  | .object ((some name, v) :: rest) closed => do
    let a ← match name with
      | "node" => node <$> NodeId.read v
      | "leaf" => leaf <$> Leaf.read v
      | _      => Reader.refuse
    if closed && rest.isEmpty then return a else Reader.refuse
  | _ => Reader.refuse

end Arg

namespace Record

def toJson (r : Record) : Json :=
  .record [
    ("kind", .text r.kind),
    ("args", .list (r.args.toList.map fun (name, a) => .list [.text name, a.toJson])),
    ("body", .list (r.body.toList.map NodeId.toJson)),
    ("parent", (r.parent.map NodeId.toJson).getD .null)]

structure Fields where
  kind : Option String := none
  args : Option (List (String × Arg)) := none
  body : Option (List NodeId) := none
  parent : Option (Option NodeId) := none

def readArgs : Reader (List (String × Arg)) :=
  Reader.list (Reader.pair Reader.text Arg.read)

def fields : List (Reader.Field Fields) := [
  ⟨"kind",   (·.kind.isSome),   fun s j => return { s with kind := ← Reader.text j }⟩,
  ⟨"args",   (·.args.isSome),   fun s j => return { s with args := ← readArgs j }⟩,
  ⟨"body",   (·.body.isSome),   fun s j => return { s with body := ← Reader.list NodeId.read j }⟩,
  ⟨"parent", (·.parent.isSome), fun s j => return { s with parent := some (← Reader.optional NodeId.read j) }⟩]

-- Only the kind has to be given.
def Fields.finish (s : Fields) : Option Record := do
  return ⟨← s.kind, (s.args.getD []).toArray, (s.body.getD []).toArray, s.parent.getD none⟩

def read : Reader Record :=
  Reader.record fields {} Fields.finish

end Record

namespace Tree

def toJson (t : Tree) : Json :=
  .record [("root", t.root.toJson), ("nodes", .list (t.records.toList.map Record.toJson))]

def write (t : Tree) : String :=
  t.toJson.write

structure Fields where
  root : Option NodeId := none
  records : Option (List Record) := none

def fields : List (Reader.Field Fields) := [
  ⟨"root",  (·.root.isSome),    fun s j => return { s with root := ← NodeId.read j }⟩,
  ⟨"nodes", (·.records.isSome), fun s j => return { s with records := ← Reader.list Record.read j }⟩]

def Fields.finish (s : Fields) : Option (NodeId × Array Record) := do
  return (← s.root, (← s.records).toArray)

-- Reads the root and the records of a tree, whatever its shape.
def readParts : Reader (NodeId × Array Record) :=
  Reader.record fields {} Fields.finish

def load (s : String) : Except LoadError Tree := do
  let (root, records) ← (readParts.run s).mapError .read
  (ofRecords root records).mapError .shape

end Tree
end ScriptCheck
