import ScriptCheck.Json.Grammar
import ScriptCheck.Tree.Json

namespace ScriptCheck
namespace Spelling

-- A field with the ways to spell its value, and whether it may be left out.
structure Field where
  name : String
  value : Json → Prop
  optional : Prop := False

-- The members for fields, in their order.
inductive Given : List Field → List (String × Json) → Prop
  | nil : Given [] []
  | keep {f : Field} {fields : List Field} {v : Json} {members : List (String × Json)} :
    f.value v → Given fields members → Given (f :: fields) ((f.name, v) :: members)
  | leave {f : Field} {fields : List Field} {members : List (String × Json)} :
    f.optional → Given fields members → Given (f :: fields) members

-- The values of the first of some fields.
inductive Listed : List Field → List Json → Prop
  | leave {fields : List Field} : (∀ f ∈ fields, f.optional) → Listed fields []
  | keep {f : Field} {fields : List Field} {v : Json} {values : List Json} :
    f.value v → Listed fields values → Listed (f :: fields) (v :: values)

-- An object has the fields in any order and may have other members. An array has their values, without the last ones
-- if these may be left out.
inductive Spelled (fields : List Field) : Json → Prop
  | object {members given others : List (String × Json)} :
    members.Perm (given ++ others) → Given fields given →
      (∀ m ∈ others, m.1 ∉ fields.map Field.name ∧ m.2.Whole) → Spelled fields (.record members)
  | array {values : List Json} : Listed fields values → Spelled fields (.list values)

-- A list of values that are spelled one by one.
def Each {α : Type} (spelled : α → Json → Prop) (as : List α) (j : Json) : Prop :=
  ∃ items : List (α × Json),
    items.map Prod.fst = as ∧ j = .list (items.map Prod.snd) ∧ ∀ item ∈ items, spelled item.1 item.2

end Spelling

open Spelling

def Leaf.spelling (l : Leaf) : List Field := [
  { name := "kind",   value := (· = .text l.kind) },
  { name := "value",  value := (· = l.value.toJson) },
  { name := "parent", value := (· = l.parent.toJson) }]

inductive Arg.Spelled : Arg → Json → Prop
  | node (id : NodeId) : Spelled (.node id) (.record [("node", id.toJson)])
  | leaf {l : Leaf} {j : Json} : Spelling.Spelled l.spelling j → Spelled (.leaf l) (.record [("leaf", j)])

namespace Record

def SpelledArg (arg : String × Arg) (j : Json) : Prop :=
  ∃ a, arg.2.Spelled a ∧ j = .list [.text arg.1, a]

def spelling (r : Record) : List Field := [
  { name := "kind",   value := (· = .text r.kind) },
  { name := "args",   value := Each SpelledArg r.args.toList,                   optional := r.args = #[] },
  { name := "body",   value := (· = .list (r.body.toList.map NodeId.toJson)),   optional := r.body = #[] },
  { name := "parent", value := (· = (r.parent.map NodeId.toJson).getD .null),   optional := r.parent = none }]

end Record

namespace Tree

def spelling (root : NodeId) (records : Array Record) : List Field := [
  { name := "root",  value := (· = root.toJson) },
  { name := "nodes", value := Each (fun r => Spelled r.spelling) records.toList }]

-- The root and the records as they are written, whether or not they are a tree.
def partsJson (root : NodeId) (records : Array Record) : Json :=
  .record [("root", root.toJson), ("nodes", .list (records.toList.map Record.toJson))]

end Tree
end ScriptCheck
