import ScriptCheck.Tree.Basic

namespace ScriptCheck

-- An argument is not a leaf with a float that is infinite or no number.
def Arg.Finite (a : Arg) : Prop :=
  ∀ l, a = .leaf l → l.value.isFinite

def Record.Finite (r : Record) : Prop :=
  ∀ arg ∈ r.args, arg.2.Finite

namespace Tree

variable (root : NodeId) (records : Array Record)

-- The numbers in all slots of all records. A slot is a nested argument or an entry of a body, and may name a node that
-- has no record.
def slots : List NodeId :=
  records.toList.flatMap Record.childIds

theorem mem_slots {records : Array Record} {c : NodeId} :
    c ∈ slots records ↔ ∃ (i : Nat) (r : Record), records[i]? = some r ∧ c ∈ r.childIds := by
  simp only [slots, List.mem_flatMap, Array.mem_toList_iff, Array.mem_iff_getElem?]
  constructor
  case mp =>
    rintro ⟨r, ⟨i, hi⟩, hc⟩
    exact ⟨i, r, hi, hc⟩
  case mpr =>
    rintro ⟨i, r, hi, hc⟩
    exact ⟨r, ⟨i, hi⟩, hc⟩

-- The slots lead from the root to the node.
inductive Reachable : NodeId → Prop
  | root : Reachable root
  | child {p c : NodeId} {r : Record} :
    Reachable p → records[p.index]? = some r → c ∈ r.childIds → c.index < records.size → Reachable c

structure WellFormed : Prop where
  root_lt        : root.index < records.size
  root_parent    : ∀ r, records[root.index]? = some r → r.parent = none
  names_nodup    : ∀ r ∈ records, r.argNames.Nodup
  leaf_parent    : ∀ {id : NodeId} {r name l}, records[id.index]? = some r → (name, .leaf l) ∈ r.args →
                   l.parent = id
  leaf_finite    : ∀ r ∈ records, ∀ {name l}, (name, .leaf l) ∈ r.args → l.value.isFinite
  held_once      : ∀ id : NodeId, id.index < records.size → (slots records).count id ≤ 1
  held_by_parent : ∀ {p c : NodeId} {r s}, records[p.index]? = some r → c ∈ r.childIds →
                   records[c.index]? = some s → s.parent = some p
  reachable      : ∀ id : NodeId, id.index < records.size → Reachable root records id

def FiniteLeaves : Prop :=
  ∀ r ∈ records, r.Finite

end Tree
end ScriptCheck
