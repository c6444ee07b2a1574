import ScriptCheck.Scalar.Basic

namespace ScriptCheck

structure NodeId where
  val : UInt32
  deriving DecidableEq

namespace NodeId

instance : Inhabited NodeId := ⟨⟨0⟩⟩

def index (id : NodeId) : Nat :=
  id.val.toNat

def ofIndex? (n : Nat) : Option NodeId :=
  if n < 0x100000000 then some ⟨.ofNat n⟩ else none

theorem index_lt (id : NodeId) : id.index < 0x100000000 :=
  id.val.toNat_lt

theorem index_inj {i j : NodeId} (h : i.index = j.index) : i = j := by
  cases i
  cases j
  exact congrArg mk (UInt32.toNat_inj.mp h)

theorem index_of_ofIndex? {n : Nat} {id : NodeId} (h : ofIndex? n = some id) : id.index = n := by
  unfold ofIndex? at h
  split at h
  case isTrue hn =>
    cases h
    exact UInt32.toNat_ofNat_of_lt hn
  case isFalse => contradiction

end NodeId

-- A leaf knows the node whose argument it is.
structure Leaf where
  kind : String
  value : Scalar
  parent : NodeId
  deriving DecidableEq

-- What an argument holds: a nested node or a leaf.
inductive Arg where
  | node (id : NodeId)
  | leaf (leaf : Leaf)
  deriving DecidableEq

structure Record where
  kind : String
  args : Array (String × Arg) := #[]
  body : Array NodeId := #[]
  parent : Option NodeId := none
  deriving DecidableEq

-- A node's number is the place of its record. A record may name numbers that have no record.
structure Tree where
  root : NodeId
  records : Array Record
  root_lt : root.index < records.size
  deriving DecidableEq

-- A record together with its number.
structure Node where
  id : NodeId
  record : Record
  deriving DecidableEq

-- What an argument holds, looked up in its tree.
inductive Value where
  | node (n : Node)
  | leaf (l : Leaf)
  deriving DecidableEq

namespace Arg

def node? : Arg → Option NodeId
  | node id => some id
  | leaf _  => none

def leaf? : Arg → Option Leaf
  | node _ => none
  | leaf l => some l

end Arg

namespace Record

def argNames (r : Record) : List String :=
  r.args.toList.map Prod.fst

theorem mem_argNames_iff {r : Record} {name : String} : name ∈ r.argNames ↔ r.args.any (·.1 == name) := by
  simp only [argNames, ←Array.any_toList, List.any_eq_true, beq_iff_eq, List.mem_map]

-- The numbers of the children: nested arguments first, then the body.
def childIds (r : Record) : List NodeId :=
  r.args.toList.filterMap (·.2.node?) ++ r.body.toList

end Record

namespace Node

def kind (n : Node) : String :=
  n.record.kind

def args (n : Node) : List (String × Arg) :=
  n.record.args.toList

def argNames (n : Node) : List String :=
  n.record.argNames

def hasArg (n : Node) (name : String) : Bool :=
  n.record.args.any (·.1 == name)

theorem hasArg_eq_decide (n : Node) (name : String) : n.hasArg name = decide (name ∈ n.argNames) :=
  Bool.eq_iff_iff.mpr <| Record.mem_argNames_iff.symm.trans decide_eq_true_iff.symm

def bodyIds (n : Node) : List NodeId :=
  n.record.body.toList

def isRoot (n : Node) : Bool :=
  n.record.parent.isNone

end Node

namespace Value

def kind : Value → String
  | node n => n.kind
  | leaf l => l.kind

def node? : Value → Option Node
  | node n => some n
  | leaf _ => none

def leaf? : Value → Option Leaf
  | node _ => none
  | leaf l => some l

end Value

end ScriptCheck
