import Mathlib.Data.List.Count
import Mathlib.Data.List.FinRange
import ScriptCheck.Proofs.Tree.Shape

namespace ScriptCheck

section

variable (f : NodeId → NodeId)

def Leaf.mapIds (l : Leaf) : Leaf :=
  { l with parent := f l.parent }

def Arg.mapIds : Arg → Arg
  | node id => node (f id)
  | leaf l  => leaf (l.mapIds f)

def Record.mapIds (r : Record) : Record where
  kind   := r.kind
  args   := r.args.map fun arg => (arg.1, arg.2.mapIds f)
  body   := r.body.map f
  parent := r.parent.map f

def Node.mapIds (n : Node) : Node :=
  ⟨f n.id, n.record.mapIds f⟩

def Value.mapIds : Value → Value
  | node n => node (n.mapIds f)
  | leaf l => leaf (l.mapIds f)

end

-- The number that a permutation of the first `n` numbers gives to a node. All other numbers stay.
def NodeId.renumber {n : Nat} (s : Equiv.Perm (Fin n)) (id : NodeId) : NodeId :=
  if h : id.index < n then ⟨.ofNat (s ⟨id.index, h⟩)⟩ else id

-- The record with the number `i` is moved to the number `s i`.
def Tree.renumber (records : Array Record) (s : Equiv.Perm (Fin records.size)) : Array Record :=
  .ofFn fun i => records[s.symm i].mapIds (.renumber s)

namespace Record

variable {f g : NodeId → NodeId} {r : Record}

@[simp]
theorem argNames_mapIds : (r.mapIds f).argNames = r.argNames := by
  simp [argNames, mapIds]

theorem childIds_mapIds : (r.mapIds f).childIds = r.childIds.map f := by
  have h (a : Arg) : (a.mapIds f).node? = a.node?.map f := by cases a <;> rfl
  simp [childIds, mapIds, List.filterMap_map, List.map_filterMap, h]

theorem leaf_mem_mapIds {name : String} {l : Leaf} :
    (name, .leaf l) ∈ (r.mapIds f).args ↔ ∃ l', (name, .leaf l') ∈ r.args ∧ l'.mapIds f = l := by
  simp only [mapIds, Array.mem_map, Prod.exists, Prod.mk.injEq]
  constructor
  case mp =>
    rintro ⟨name', a, hm, rfl, ha⟩
    cases a
    case node   => cases ha
    case leaf l => exact ⟨l, hm, Arg.leaf.inj ha⟩
  case mpr =>
    rintro ⟨l, hm, rfl⟩
    exact ⟨name, .leaf l, hm, rfl, rfl⟩

theorem mapIds_mapIds (h : ∀ id, g (f id) = id) : (r.mapIds f).mapIds g = r := by
  have ha (a : Arg) : (a.mapIds f).mapIds g = a := by
    cases a
    case node => simp [Arg.mapIds, h]
    case leaf => simp [Arg.mapIds, Leaf.mapIds, h]
  cases r
  simp [mapIds, Function.comp_def, h, ha]

end Record

namespace Tree

-- The records of `records'` are those of `records`, under the numbers that `e` gives them.
structure Renumbers (e : Equiv.Perm NodeId) (records records' : Array Record) : Prop where
  perm   : records'.toList.Perm (records.toList.map (·.mapIds e))
  record : ∀ id : NodeId, records'[(e id).index]? = records[id.index]?.map (·.mapIds e)

namespace Renumbers

variable {e : Equiv.Perm NodeId} {records records' : Array Record} {root id : NodeId} {r r' : Record}
variable (h : Renumbers e records records')
include h

theorem size_eq : records'.size = records.size := by
  simpa using h.perm.length_eq

theorem symm : Renumbers e.symm records' records where
  perm := by
    have hm : records.toList.map ((·.mapIds e.symm) ∘ (·.mapIds e)) = records.toList := by
      simp [Function.comp_def, Record.mapIds_mapIds e.symm_apply_apply]
    simpa [hm] using (h.perm.map (·.mapIds e.symm)).symm
  record id := by
    have hr := congrArg (Option.map (·.mapIds e.symm)) (h.record (e.symm id))
    simpa [Function.comp_def, Record.mapIds_mapIds e.symm_apply_apply] using hr.symm

theorem exists_record (hr : records'[(e id).index]? = some r') :
    ∃ r, records[id.index]? = some r ∧ r.mapIds e = r' :=
  Option.map_eq_some_iff.mp <| h.record id ▸ hr

theorem index_lt (hi : id.index < records.size) : (e id).index < records'.size := by
  have hr := h.record id
  rw [Array.getElem?_eq_getElem hi] at hr
  exact (Array.getElem?_eq_some_iff.mp hr).choose

theorem count_slots : (slots records').count (e id) = (slots records).count id := by
  have hs : (slots records').Perm ((slots records).map e) := by
    simpa [slots, List.flatMap_map, List.map_flatMap, Record.childIds_mapIds] using h.perm.flatMap_right Record.childIds
  rw [hs.count_eq, List.count_map_of_injective _ _ e.injective]

theorem reachable (hr : Reachable root records id) : Reachable (e root) records' (e id) := by
  induction hr
  case root => exact .root
  case child p c r _ hp hc hi ih =>
    refine .child ih (by rw [h.record p, hp]; rfl) ?_ (h.index_lt hi)
    exact Record.childIds_mapIds ▸ List.mem_map_of_mem hc

theorem wellFormed (hw : WellFormed root records) : WellFormed (e root) records' := by
  have hm : ∀ r' ∈ records', ∃ r ∈ records, r.mapIds e = r' := by
    intro r' hr'
    simpa using h.perm.mem_iff.mp (Array.mem_toList_iff.mpr hr')
  constructor
  case root_lt => exact h.index_lt hw.root_lt
  case root_parent =>
    intro r' hr'
    obtain ⟨r, hr, rfl⟩ := h.exists_record hr'
    simp [Record.mapIds, hw.root_parent r hr]
  case names_nodup =>
    intro r' hr'
    obtain ⟨r, hr, rfl⟩ := hm r' hr'
    simpa using hw.names_nodup r hr
  case leaf_finite =>
    intro r' hr' name l hl
    obtain ⟨r, hr, rfl⟩ := hm r' hr'
    obtain ⟨l, hm, rfl⟩ := Record.leaf_mem_mapIds.mp hl
    exact (hw.leaf_finite r hr hm :)
  case leaf_parent =>
    intro id' r' name l hr' hl
    obtain ⟨id, rfl⟩ := e.surjective id'
    obtain ⟨r, hr, rfl⟩ := h.exists_record hr'
    obtain ⟨l, hm, rfl⟩ := Record.leaf_mem_mapIds.mp hl
    exact congrArg e <| hw.leaf_parent hr hm
  case held_once =>
    intro id' hi
    obtain ⟨id, rfl⟩ := e.surjective id'
    rw [h.count_slots]
    exact hw.held_once id <| by simpa using h.symm.index_lt hi
  case held_by_parent =>
    intro p' c' r' s' hr' hc hs'
    obtain ⟨p, rfl⟩ := e.surjective p'
    obtain ⟨c, rfl⟩ := e.surjective c'
    obtain ⟨r, hr, rfl⟩ := h.exists_record hr'
    obtain ⟨s, hs, rfl⟩ := h.exists_record hs'
    rw [Record.childIds_mapIds, List.mem_map_of_injective e.injective] at hc
    simp [Record.mapIds, hw.held_by_parent hr hc hs]
  case reachable =>
    intro id' hi
    obtain ⟨id, rfl⟩ := e.surjective id'
    exact h.reachable <| hw.reachable id <| by simpa using h.symm.index_lt hi

theorem wellFormed_iff : WellFormed (e root) records' ↔ WellFormed root records := by
  constructor
  case mp  => exact fun hw => by simpa using h.symm.wellFormed hw
  case mpr => exact h.wellFormed

end Renumbers

-- The nodes of `t'` are those of `t`, under the numbers that `e` gives them.
structure Renumbered (e : Equiv.Perm NodeId) (t t' : Tree) : Prop where
  root    : t'.root = e t.root
  records : Renumbers e t.records t'.records

namespace Renumbered

variable {e : Equiv.Perm NodeId} {t t' : Tree} {n : Node} {id : NodeId}
variable (h : t.Renumbered e t')
include h

theorem node?_eq : t'.node? (e id) = (t.node? id).map (·.mapIds e) := by
  simp [node?, h.records.record id, Function.comp_def, Node.mapIds]

theorem resolve?_eq {a : Arg} : t'.resolve? (a.mapIds e) = (t.resolve? a).map (·.mapIds e) := by
  cases a
  case leaf => rfl
  case node => simp [resolve?, Arg.mapIds, h.node?_eq, Function.comp_def, Value.mapIds]

theorem rootNode_eq : t'.rootNode = t.rootNode.mapIds e := by
  have hr := t'.node?_root
  rw [h.root, h.node?_eq, t.node?_root] at hr
  exact (Option.some.inj hr).symm

theorem children_eq_map : t'.children (n.mapIds e) = (t.children n).map (·.mapIds e) := by
  rw [children_eq, children_eq, Node.mapIds, Record.childIds_mapIds, List.filterMap_map, List.map_filterMap]
  congr 1
  funext id
  exact h.node?_eq

-- One step of the walk goes to the same node, and leaves the same stack.
theorem visited_eq (k : Nat) (stack : List Node) :
    Walk.visited t' k ⟨stack.map (·.mapIds e)⟩ = (Walk.visited t k ⟨stack⟩).map (·.mapIds e) := by
  induction k generalizing stack
  case zero => rfl
  case succ k ih =>
    cases stack
    case nil => rfl
    case cons n rest =>
      have hs : t'.children (n.mapIds e) ++ rest.map (·.mapIds e) = (t.children n ++ rest).map (·.mapIds e) := by
        rw [h.children_eq_map, List.map_append]
      simp only [Walk.visited, Walk.next?, List.map_cons, hs, ih]

theorem preorder_eq_map : t'.preorder (n.mapIds e) = (t.preorder n).map (·.mapIds e) := by
  have hs : t'.size = t.size := h.records.size_eq
  rw [preorder, preorder, hs]
  exact h.visited_eq t.size [n]

theorem preorder_rootNode_eq : t'.preorder t'.rootNode = (t.preorder t.rootNode).map (·.mapIds e) := by
  rw [h.rootNode_eq, h.preorder_eq_map]

end Renumbered
end Tree

namespace NodeId

variable {n : Nat} {s : Equiv.Perm (Fin n)}

-- There is a number for each of up to `2 ^ 32` nodes, so none is lost.
theorem index_renumber (hn : n ≤ 0x100000000) (i : Fin n) {id : NodeId} (hi : id.index = i) :
    (id.renumber s).index = s i := by
  have hl : (s i).val < 0x100000000 := by omega
  simp only [renumber, hi, i.isLt, dif_pos]
  exact UInt32.toNat_ofNat_of_lt hl

theorem renumber_of_le {id : NodeId} (h : n ≤ id.index) : id.renumber s = id :=
  dif_neg (Nat.not_lt.mpr h)

theorem renumber_renumber (hn : n ≤ 0x100000000) {s s' : Equiv.Perm (Fin n)} (hs : ∀ i, s' (s i) = i) (id : NodeId) :
    (id.renumber s).renumber s' = id := by
  by_cases h : id.index < n
  case neg => rw [renumber_of_le (Nat.le_of_not_lt h), renumber_of_le (Nat.le_of_not_lt h)]
  case pos =>
    apply index_inj
    rw [index_renumber hn _ (index_renumber hn ⟨id.index, h⟩ rfl), hs]

-- The permutation of all numbers that agrees with `s` on the first `n` of them.
def permute (s : Equiv.Perm (Fin n)) (hn : n ≤ 0x100000000) : Equiv.Perm NodeId where
  toFun     := renumber s
  invFun    := renumber s.symm
  left_inv  := renumber_renumber hn s.symm_apply_apply
  right_inv := renumber_renumber hn s.apply_symm_apply

end NodeId

namespace Tree

variable {records : Array Record} {s : Equiv.Perm (Fin records.size)}

theorem size_renumber : (renumber records s).size = records.size := by
  simp [renumber]

theorem renumbers_permute (hs : records.size ≤ 0x100000000) :
    Renumbers (NodeId.permute s hs) records (renumber records s) where
  perm := by
    let f (i : Fin records.size) : Record := records[i].mapIds (.renumber s)
    have hl : records.toList.map (·.mapIds (NodeId.permute s hs)) = List.ofFn f := by
      apply List.ext_getElem
      case hl => simp
      case h  => simp [f, NodeId.permute]
    rw [hl, renumber, Array.toList_ofFn]
    exact Equiv.Perm.ofFn_comp_perm s.symm f
  record id := by
    by_cases h : id.index < records.size
    case pos =>
      have hi : (NodeId.permute s hs id).index = s ⟨id.index, h⟩ := NodeId.index_renumber hs ⟨id.index, h⟩ rfl
      simp [hi, h, renumber]
      rfl
    case neg =>
      have hi : NodeId.permute s hs id = id := NodeId.renumber_of_le (Nat.le_of_not_lt h)
      simp [hi, h, renumber]

theorem size_le_of_ofRecords {root : NodeId} {t : Tree} (h : ofRecords root records = .ok t) :
    records.size ≤ 0x100000000 := by
  obtain ⟨_, rfl, hp⟩ := ofRecords_eq_ok_iff.mp h
  exact (passes_iff_wellFormed.mp hp).left

-- Too many records are refused under any numbers.
theorem isOk_ofRecords_renumber_iff {root : NodeId} :
    (∃ t, ofRecords (root.renumber s) (renumber records s) = .ok t) ↔ ∃ t, ofRecords root records = .ok t := by
  by_cases hs : records.size ≤ 0x100000000
  case pos =>
    have hs' : (renumber records s).size ≤ 0x100000000 := by rwa [size_renumber]
    rw [isOk_ofRecords_iff hs, isOk_ofRecords_iff hs']
    exact (renumbers_permute hs).wellFormed_iff
  case neg =>
    constructor
    case mp =>
      intro ⟨t, h⟩
      exact absurd (size_renumber ▸ size_le_of_ofRecords h) hs
    case mpr =>
      intro ⟨t, h⟩
      exact absurd (size_le_of_ofRecords h) hs

theorem renumbered_of_ofRecords {root : NodeId} {t t' : Tree} (h : ofRecords root records = .ok t)
    (h' : ofRecords (root.renumber s) (renumber records s) = .ok t') :
    t.Renumbered (NodeId.permute s (size_le_of_ofRecords h)) t' := by
  have hr := renumbers_permute (s := s) (size_le_of_ofRecords h)
  obtain ⟨rfl, hp, _⟩ := ofRecords_eq_ok_iff.mp h
  obtain ⟨hr', hp', _⟩ := ofRecords_eq_ok_iff.mp h'
  exact ⟨hr', by rwa [hp, hp']⟩

end Tree
end ScriptCheck
