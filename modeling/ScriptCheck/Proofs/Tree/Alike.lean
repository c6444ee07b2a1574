import ScriptCheck.Tree.WellFormed

namespace ScriptCheck

-- Records with the same parent and the same children below `size`, in any order.
structure Record.Alike (size : Nat) (r r' : Record) : Prop where
  parent   : r'.parent = r.parent
  children : ∀ id : NodeId, id.index < size → r'.childIds.count id = r.childIds.count id

theorem Record.Alike.symm {size : Nat} {r r' : Record} (h : r.Alike size r') : r'.Alike size r where
  parent        := h.parent.symm
  children id i := (h.children id i).symm

theorem Record.Alike.mem_childIds {size : Nat} {r r' : Record} (h : r.Alike size r') {id : NodeId}
    (hi : id.index < size) : id ∈ r'.childIds ↔ id ∈ r.childIds := by
  rw [←List.count_pos_iff, h.children id hi, List.count_pos_iff]

namespace Tree

-- Lists of records that are alike one by one.
structure Alike (records records' : Array Record) : Prop where
  size   : records'.size = records.size
  record : ∀ {i : Nat} {r r'}, records[i]? = some r → records'[i]? = some r' → r.Alike records.size r'

variable {records records' : Array Record} {root id : NodeId} {r : Record}

namespace Alike

theorem symm (h : Alike records records') : Alike records' records where
  size := h.size.symm
  record hr' hr := h.size ▸ (h.record hr hr').symm

theorem exists_record (h : Alike records records') {i : Nat} (hr : records[i]? = some r) :
    ∃ r', records'[i]? = some r' ∧ r.Alike records.size r' := by
  have ⟨hi, _⟩ := Array.getElem?_eq_some_iff.mp hr
  have hs : records'[i]?.isSome := by simp [h.size, hi]
  have ⟨r', hr'⟩ := Option.isSome_iff_exists.mp hs
  exact ⟨r', hr', h.record hr hr'⟩

theorem count_slots (h : Alike records records') (hi : id.index < records.size) :
    (slots records').count id = (slots records).count id := by
  have hc : records'.toList.map (·.childIds.count id) = records.toList.map (·.childIds.count id) := by
    apply List.ext_getElem
    case hl => simpa using h.size
    case h =>
      intro i h₁ h₂
      simp only [List.length_map, Array.length_toList] at h₁ h₂
      have ha := h.record (Array.getElem?_eq_getElem h₂) (Array.getElem?_eq_getElem h₁)
      simpa using ha.children id hi
  simpa [slots, List.count_flatMap, Function.comp_def] using congrArg List.sum hc

theorem reachable (h : Alike records records') (hr : Reachable root records id) : Reachable root records' id := by
  induction hr
  case root => exact .root
  case child c r _ hr hc hi ih =>
    have ⟨r', hr', ha⟩ := h.exists_record hr
    exact .child ih hr' ((ha.mem_childIds hi).mpr hc) (h.size ▸ hi)

end Alike

theorem WellFormed.of_alike (hw : WellFormed root records) (h : Alike records records')
    (hn : ∀ r ∈ records', r.argNames.Nodup)
    (hp : ∀ {id : NodeId} {r name l}, records'[id.index]? = some r → (name, .leaf l) ∈ r.args → l.parent = id)
    (hf : ∀ r ∈ records', ∀ {name l}, (name, .leaf l) ∈ r.args → l.value.isFinite) : WellFormed root records' := by
  constructor
  case root_lt => exact h.size ▸ hw.root_lt
  case names_nodup => exact hn
  case leaf_parent => exact hp
  case leaf_finite => exact hf
  case root_parent =>
    intro r' hr'
    have ⟨r, hr, ha⟩ := h.symm.exists_record hr'
    exact ha.parent ▸ hw.root_parent r hr
  case held_once =>
    intro id hi
    rw [h.size] at hi
    rw [h.count_slots hi]
    exact hw.held_once id hi
  case held_by_parent =>
    intro p c r' s' hr' hc hs'
    have ⟨r, hr, ha⟩ := h.symm.exists_record hr'
    have ⟨s, hs, hb⟩ := h.symm.exists_record hs'
    have ⟨hi, _⟩ := Array.getElem?_eq_some_iff.mp hs'
    exact hb.parent ▸ hw.held_by_parent hr ((ha.mem_childIds hi).mpr hc) hs
  case reachable =>
    intro id hi
    exact h.reachable <| hw.reachable id (h.size ▸ hi)

end Tree

-- The record without its references to nodes from `size` on.
def Record.prune (size : Nat) (r : Record) : Record where
  kind   := r.kind
  args   := r.args.filter (·.2.node?.all (·.index < size))
  body   := r.body.filter (·.index < size)
  parent := r.parent

namespace Record

variable (size : Nat) (r : Record)

theorem childIds_prune : (r.prune size).childIds = r.childIds.filter (·.index < size) := by
  have h : ∀ args : List (String × Arg),
      (args.filter (·.2.node?.all (·.index < size))).filterMap (·.2.node?) =
        (args.filterMap (·.2.node?)).filter (·.index < size) := by
    intro args
    induction args
    case nil => rfl
    case cons arg args ih =>
      have ⟨_, a⟩ := arg
      cases a
      case leaf    => simpa [Arg.node?] using ih
      case node id => by_cases h : id.index < size <;> simpa [Arg.node?, h] using ih
  simp [childIds, prune, h]

theorem alike_prune : r.Alike size (r.prune size) where
  parent := rfl
  children id hi := by rw [childIds_prune, List.count_filter (by simpa using hi)]

theorem leaf_mem_prune {name : String} {l : Leaf} :
    (name, .leaf l) ∈ (r.prune size).args ↔ (name, .leaf l) ∈ r.args := by
  simp [prune, Arg.node?]

theorem argNames_prune_nodup (h : r.argNames.Nodup) : (r.prune size).argNames.Nodup := by
  refine h.sublist ?_
  simpa [argNames, prune] using List.filter_sublist.map Prod.fst

end Record

namespace Tree

theorem alike_prune (records : Array Record) : Alike records (records.map (·.prune records.size)) where
  size := by simp
  record hr hr' := by
    rw [Array.getElem?_map, hr] at hr'
    cases hr'
    exact Record.alike_prune ..

-- References to nodes that are not there do not matter, if only no name is repeated.
theorem wellFormed_prune_iff {root : NodeId} {records : Array Record} (hn : ∀ r ∈ records, r.argNames.Nodup) :
    WellFormed root (records.map (·.prune records.size)) ↔ WellFormed root records := by
  constructor
  case mp =>
    intro hw
    refine hw.of_alike (alike_prune records).symm hn ?_ ?_
    · intro id r name l hr hl
      exact hw.leaf_parent (by rw [Array.getElem?_map, hr]; rfl) (r.leaf_mem_prune _ |>.mpr hl)
    · intro r hr name l hl
      exact hw.leaf_finite _ (Array.mem_map_of_mem hr) (r.leaf_mem_prune _ |>.mpr hl)
  case mpr =>
    intro hw
    refine hw.of_alike (alike_prune records) ?_ ?_ ?_
    · simpa using fun r hr => r.argNames_prune_nodup _ (hn r hr)
    · intro id r name l hr hl
      have ⟨s, hs, he⟩ := Option.map_eq_some_iff.mp <| Array.getElem?_map ▸ hr
      exact hw.leaf_parent hs (s.leaf_mem_prune _ |>.mp <| he ▸ hl)
    · intro r hr name l hl
      have ⟨s, hs, he⟩ := Array.mem_map.mp hr
      exact hw.leaf_finite s hs (s.leaf_mem_prune _ |>.mp <| he ▸ hl)

end Tree
end ScriptCheck
