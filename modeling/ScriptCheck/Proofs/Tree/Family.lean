import Mathlib.Data.List.Nodup
import Mathlib.Data.List.Perm.Subperm
import ScriptCheck.Tree.Lookup
import ScriptCheck.Tree.WellFormed

namespace ScriptCheck

theorem NodeId.exists_ofIndex? {i : Nat} (h : i < 0x100000000) : ∃ id, ofIndex? i = some id := by
  simp [ofIndex?, h]

namespace Tree

-- A node is one of the tree's if the tree has it under its number.
instance : Membership Node Tree where
  mem t n := t.node? n.id = some n

variable {t : Tree} {n m p : Node} {id : NodeId}

theorem mem_iff_node? : n ∈ t ↔ t.node? n.id = some n :=
  Iff.rfl

theorem mem_iff_record : n ∈ t ↔ t.records[n.id.index]? = some n.record := by
  rw [mem_iff_node?, node?, Option.map_eq_some_iff]
  constructor
  case mp =>
    rintro ⟨r, hr, hn⟩
    exact hn ▸ hr
  case mpr => exact fun h => ⟨_, h, rfl⟩

theorem record_mem (h : n ∈ t) : n.record ∈ t.records :=
  Array.mem_of_getElem? <| mem_iff_record.mp h

theorem mem_of_node? (h : t.node? id = some n) : n ∈ t := by
  rwa [mem_iff_node?, t.node?_id h]

theorem node?_eq_some_iff : t.node? id = some n ↔ n ∈ t ∧ n.id = id := by
  constructor
  case mp  => exact fun h => ⟨mem_of_node? h, t.node?_id h⟩
  case mpr => exact fun ⟨h, hi⟩ => hi ▸ h

theorem rootNode_mem : t.rootNode ∈ t :=
  t.node?_root

theorem eq_of_id_eq (hn : n ∈ t) (hm : m ∈ t) (h : n.id = m.id) : n = m :=
  Option.some.inj <| hn.symm.trans <| h ▸ hm

theorem index_lt_size (h : n ∈ t) : n.id.index < t.size :=
  t.node?_isSome_iff.mp <| Option.isSome_of_eq_some h

theorem exists_mem_of_index_lt (h : id.index < t.size) : ∃ n ∈ t, n.id = id := by
  have ⟨n, hn⟩ := Option.isSome_iff_exists.mp <| t.node?_isSome_iff.mpr h
  exact ⟨n, node?_eq_some_iff.mp hn⟩

theorem exists_mem_of_lt {i : Nat} (hs : t.size ≤ 0x100000000) (h : i < t.size) : ∃ n ∈ t, n.id.index = i := by
  have ⟨id, hi⟩ := NodeId.exists_ofIndex? (Nat.lt_of_lt_of_le h hs)
  have hi := NodeId.index_of_ofIndex? hi
  have ⟨n, hn, he⟩ := exists_mem_of_index_lt (hi ▸ h)
  exact ⟨n, hn, he ▸ hi⟩

theorem indices_nodup {l : List Node} (hl : l.Nodup) (h : ∀ n ∈ l, n ∈ t) : (l.map (·.id.index)).Nodup := by
  refine hl.map_on fun n hn m hm he => ?_
  exact eq_of_id_eq (h n hn) (h m hm) (NodeId.index_inj he)

theorem indices_subset_range {l : List Node} (h : ∀ n ∈ l, n ∈ t) :
    l.map (·.id.index) ⊆ List.range t.size := by
  intro i hi
  have ⟨n, hm, he⟩ := List.mem_map.mp hi
  exact List.mem_range.mpr <| he ▸ index_lt_size (h n hm)

-- There is only so much room for different nodes.
theorem length_le_size {l : List Node} (hl : l.Nodup) (h : ∀ n ∈ l, n ∈ t) : l.length ≤ t.size := by
  simpa using (List.subperm_of_subset (indices_nodup hl h) (indices_subset_range h)).length_le

theorem children_eq (t : Tree) (n : Node) : t.children n = n.record.childIds.filterMap t.node? := by
  simp only [children, argNodes, body, Node.args, Node.bodyIds, Record.childIds, List.filterMap_append,
    List.filterMap_filterMap]

theorem mem_children : m ∈ t.children n ↔ m ∈ t ∧ m.id ∈ n.record.childIds := by
  simp only [children_eq, List.mem_filterMap, node?_eq_some_iff]
  constructor
  case mp  => exact fun ⟨_, hc, hm, he⟩ => ⟨hm, he ▸ hc⟩
  case mpr => exact fun ⟨hm, hc⟩ => ⟨_, hc, hm, rfl⟩

theorem map_id_children (t : Tree) (n : Node) :
    (t.children n).map Node.id = n.record.childIds.filter (·.index < t.size) := by
  rw [children_eq, List.map_filterMap, ←List.filterMap_eq_filter]
  congr 1
  funext c
  by_cases h : c.index < t.size
  case pos =>
    have ⟨m, hm, he⟩ := exists_mem_of_index_lt h
    simp [node?_eq_some_iff.mpr ⟨hm, he⟩, he, Option.guard, h]
  case neg =>
    have hn : t.node? c = none := by simpa using mt t.node?_isSome_iff.mp h
    simp [hn, Option.guard, h]

theorem mem_of_mem_children (h : m ∈ t.children n) : m ∈ t :=
  (mem_children.mp h).left

theorem mem_of_parent? (h : t.parent? n = some p) : p ∈ t := by
  have ⟨_, _, hp⟩ := Option.bind_eq_some_iff.mp h
  exact mem_of_node? hp

theorem parent?_eq_some (h : n.record.parent = some p.id) (hp : p ∈ t) : t.parent? n = some p := by
  rw [parent?, h]
  exact hp

section Once

variable (ho : ∀ id : NodeId, id.index < t.size → (slots t.records).count id ≤ 1)
include ho

-- Where no node is in two slots, a node holds none of its children twice.
theorem count_childIds_le_one (hn : n ∈ t) (h : id.index < t.size) : n.record.childIds.count id ≤ 1 := by
  have hr := Array.mem_toList_iff.mpr <| record_mem hn
  have hs := List.sublist_flatten_of_mem <| List.mem_map_of_mem (f := Record.childIds) hr
  calc
    _ ≤ (slots t.records).count id := hs.count_le id
    _ ≤ 1                          := ho id h

theorem children_nodup (hn : n ∈ t) : (t.children n).Nodup := by
  refine List.Nodup.of_map Node.id ?_
  rw [map_id_children, List.nodup_iff_count_le_one]
  intro id
  by_cases h : id.index < t.size
  case pos =>
    have hs : (n.record.childIds.filter (·.index < t.size)).Sublist n.record.childIds := List.filter_sublist
    exact Nat.le_trans (hs.count_le id) (count_childIds_le_one ho hn h)
  case neg => simp [List.count_eq_zero_of_not_mem, h]

end Once

namespace WellFormed

variable (hw : WellFormed t.root t.records)
include hw

theorem parent?_root : t.parent? t.rootNode = none := by
  have h := hw.root_parent _ <| mem_iff_record.mp rootNode_mem
  simp [parent?, h]

theorem parent?_of_mem_children (hp : p ∈ t) (h : m ∈ t.children p) : t.parent? m = some p := by
  have ⟨hm, hc⟩ := mem_children.mp h
  exact parent?_eq_some (hw.held_by_parent (mem_iff_record.mp hp) hc (mem_iff_record.mp hm)) hp

-- What holds of the root and passes from nodes to their children holds of all nodes.
theorem descend {P : Node → Prop} (root : P t.rootNode)
    (child : ∀ p ∈ t, P p → ∀ m ∈ t.children p, P m) : ∀ n ∈ t, P n := by
  intro n hn
  have hr := hw.reachable n.id (index_lt_size hn)
  generalize hi : n.id = id at hr
  induction hr generalizing n
  case root => exact eq_of_id_eq rootNode_mem hn hi.symm ▸ root
  case child p c r _ hp hc _ ih =>
    have hp : ⟨p, r⟩ ∈ t := mem_iff_record.mpr hp
    exact child _ hp (ih _ hp rfl) n <| mem_children.mpr ⟨hn, hi ▸ hc⟩

theorem eq_root_or_mem_children : ∀ n ∈ t, n = t.rootNode ∨ ∃ p ∈ t, n ∈ t.children p := by
  refine hw.descend (.inl rfl) ?_
  intro p hp _ m hm
  exact .inr ⟨p, hp, hm⟩

theorem exists_parent (hn : n ∈ t) (h : n ≠ t.rootNode) : ∃ p ∈ t, n.record.parent = some p.id := by
  have ⟨p, hp, hc⟩ := (hw.eq_root_or_mem_children n hn).resolve_left h
  have ⟨_, hc⟩ := mem_children.mp hc
  exact ⟨p, hp, hw.held_by_parent (mem_iff_record.mp hp) hc (mem_iff_record.mp hn)⟩

theorem mem_children_iff (hm : m ∈ t) (hp : p ∈ t) : m ∈ t.children p ↔ t.parent? m = some p := by
  constructor
  case mp  => exact hw.parent?_of_mem_children hp
  case mpr =>
    intro h
    cases hw.eq_root_or_mem_children m hm
    case inl hr => exact absurd (hr ▸ h) (by simp [hw.parent?_root])
    case inr hc =>
      have ⟨q, hq, hc⟩ := hc
      have he := hw.parent?_of_mem_children hq hc
      exact Option.some.inj (he.symm.trans h) ▸ hc

end WellFormed
end Tree
end ScriptCheck
