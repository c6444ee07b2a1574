import ScriptCheck.Proofs.Tree.Walk

namespace ScriptCheck

-- A place for a child in a record, by its position among the arguments or in the body.
inductive Slot where
  | arg (i : Nat)
  | body (i : Nat)
  deriving DecidableEq

namespace Record

variable {r : Record} {id : NodeId} {s s' : Slot}

-- The number in a slot. An argument that holds a leaf has none.
def child? (r : Record) : Slot → Option NodeId
  | .arg i  => r.args[i]?.bind (·.2.node?)
  | .body i => r.body[i]?

def slots (r : Record) : List Slot :=
  (List.range r.args.size).map .arg ++ (List.range r.body.size).map .body

theorem mem_slots_of_child? (h : r.child? s = some id) : s ∈ r.slots := by
  cases s
  case arg i =>
    have ⟨_, hi, _⟩ := Option.bind_eq_some_iff.mp h
    have ⟨hi, _⟩ := Array.getElem?_eq_some_iff.mp hi
    simp [slots, hi]
  case body i =>
    have ⟨hi, _⟩ := Array.getElem?_eq_some_iff.mp h
    simp [slots, hi]

theorem childIds_eq (r : Record) : r.childIds = r.slots.filterMap r.child? := by
  have h {α : Type} (as : Array α) (f : α → Option NodeId) :
      as.toList.filterMap f = (List.range as.size).filterMap (as[·]?.bind f) := by
    have hr : as.toList.map some = (List.range as.size).map (as[·]?) := by
      apply List.ext_getElem <;> simp
    simpa [List.filterMap_map, Function.comp_def] using congrArg (List.filterMap (·.bind f)) hr
  have ha := h r.args (·.2.node?)
  have hb := h r.body some
  simp only [List.filterMap_some, Option.bind_fun_some] at hb
  rw [childIds, slots, ha, hb, List.filterMap_append, List.filterMap_map, List.filterMap_map]
  rfl

theorem mem_childIds_iff : id ∈ r.childIds ↔ ∃ s, r.child? s = some id := by
  rw [childIds_eq, List.mem_filterMap]
  exact exists_congr fun s => and_iff_right_of_imp mem_slots_of_child?

theorem slot_unique (h : r.childIds.count id ≤ 1) (hs : r.child? s = some id) (hs' : r.child? s' = some id) :
    s = s' := by
  by_contra hne
  have hsub : [s, s'] ⊆ r.slots.filter (r.child? · == some id) := by
    simp [hs, hs', mem_slots_of_child? hs, mem_slots_of_child? hs']
  have hlen := (List.subperm_of_subset (by simp [hne]) hsub).length_le
  rw [childIds_eq, List.count_filterMap, List.countP_eq_length_filter] at h
  exact absurd (Nat.le_trans hlen h) (by simp)

end Record

namespace Tree

variable {t : Tree} {n p : Node} {l : List Node}

theorem mem_slots_iff (hs : t.size ≤ 0x100000000) {id : NodeId} :
    id ∈ slots t.records ↔ ∃ p ∈ t, id ∈ p.record.childIds := by
  rw [mem_slots]
  constructor
  case mp =>
    intro ⟨i, r, hr, hc⟩
    have ⟨hi, _⟩ := Array.getElem?_eq_some_iff.mp hr
    have ⟨p, hp, he⟩ := exists_mem_of_lt hs hi
    cases (he ▸ mem_iff_record.mp hp).symm.trans hr
    exact ⟨p, hp, hc⟩
  case mpr => exact fun ⟨p, hp, hc⟩ => ⟨_, _, mem_iff_record.mp hp, hc⟩

namespace Lineage

theorem exists_above (h : Lineage t n l) : ∃ above, l = n :: above := by
  cases h
  case root  => exact ⟨[], rfl⟩
  case child => exact ⟨_, rfl⟩

theorem getLast? (h : Lineage t n l) : l.getLast? = some t.rootNode := by
  induction h
  case root => rfl
  case child h _ ih =>
    have ⟨_, he⟩ := h.exists_above
    simpa [he] using ih

end Lineage

namespace WellFormed

variable (hw : WellFormed t.root t.records)
include hw

theorem lineage_isChain (h : Lineage t n l) : l.IsChain (t.parent? · = some ·) := by
  induction h
  case root => exact .singleton _
  case child h hc ih =>
    have ⟨_, he⟩ := h.exists_above
    subst he
    exact .cons_cons (hw.parent?_of_mem_children h.head_mem hc) ih

-- Parents are found up to the root if there are enough steps for it.
theorem ancestors_go_eq (h : Lineage t n l) {k : Nat} (hk : l.length ≤ k) : ancestors.go t k n = l := by
  induction h generalizing k
  case root =>
    obtain ⟨k, rfl⟩ := Nat.exists_eq_add_of_le' hk
    simp [ancestors.go, hw.parent?_root]
  case child p m l h hc ih =>
    obtain ⟨k, rfl⟩ := Nat.exists_eq_add_of_le' (Nat.lt_of_lt_of_le (Nat.zero_lt_succ _) hk)
    have hk : l.length ≤ k := by simpa using hk
    simp [ancestors.go, hw.parent?_of_mem_children h.head_mem hc, ih hk]

theorem lineage_ancestors (hn : n ∈ t) : Lineage t n (t.ancestors n) := by
  have ⟨l, hl⟩ := hw.exists_lineage n hn
  rwa [ancestors, hw.ancestors_go_eq hl (hw.lineage_length_le hl)]

theorem isRoot_iff (hn : n ∈ t) : n.isRoot ↔ n = t.rootNode := by
  rw [Node.isRoot, Option.isNone_iff_eq_none]
  constructor
  case mp =>
    intro h
    by_contra hr
    obtain ⟨_, _, hp⟩ := hw.exists_parent hn hr
    cases h.symm.trans hp
  case mpr => exact fun h => h ▸ hw.root_parent _ (mem_iff_record.mp rootNode_mem)

-- A slot that holds a node is a slot of its parent.
theorem parent?_of_child? (hp : p ∈ t) (hn : n ∈ t) {s : Slot} (h : p.record.child? s = some n.id) :
    t.parent? n = some p :=
  hw.parent?_of_mem_children hp <| mem_children.mpr ⟨hn, Record.mem_childIds_iff.mpr ⟨s, h⟩⟩

theorem exists_unique_slot (hn : n ∈ t) (hr : n ≠ t.rootNode) :
    ∃ p ∈ t, t.parent? n = some p ∧ ∃ s, p.record.child? s = some n.id ∧
      ∀ q ∈ t, ∀ s', q.record.child? s' = some n.id → q = p ∧ s' = s := by
  have ⟨p, hp, hc⟩ := (hw.eq_root_or_mem_children n hn).resolve_left hr
  have ⟨s, hs⟩ := Record.mem_childIds_iff.mp (mem_children.mp hc).right
  have hpp := hw.parent?_of_mem_children hp hc
  refine ⟨p, hp, hpp, s, hs, fun q hq s' hs' => ?_⟩
  cases hpp.symm.trans (hw.parent?_of_child? hq hn hs')
  exact ⟨rfl, Record.slot_unique (count_childIds_le_one hw.held_once hp (index_lt_size hn)) hs' hs⟩

variable (hs : t.size ≤ 0x100000000)
include hs

-- The root and what the slots hold are all nodes.
theorem mem_root_cons_slots_iff {id : NodeId} :
    id ∈ t.root :: (slots t.records).filter (·.index < t.size) ↔ id.index < t.size := by
  rw [List.mem_cons, List.mem_filter, decide_eq_true_iff, mem_slots_iff hs]
  constructor
  case mp =>
    rintro (rfl | ⟨_, h⟩)
    · exact t.root_lt
    · exact h
  case mpr =>
    intro h
    obtain ⟨n, hn, rfl⟩ := exists_mem_of_index_lt h
    cases hw.eq_root_or_mem_children n hn
    case inl hr => exact .inl (hr ▸ rfl)
    case inr hc =>
      have ⟨p, hp, hc⟩ := hc
      exact .inr ⟨⟨p, hp, (mem_children.mp hc).right⟩, h⟩

-- No slot holds the root, and none holds what another one holds.
theorem root_cons_slots_nodup : (t.root :: (slots t.records).filter (·.index < t.size)).Nodup := by
  rw [List.nodup_cons, List.nodup_iff_count_le_one]
  constructor
  case left =>
    intro h
    have ⟨p, hp, hc⟩ := (mem_slots_iff hs).mp (List.mem_filter.mp h).left
    have := hw.parent?_of_mem_children hp <| mem_children.mpr ⟨rootNode_mem, hc⟩
    simp [hw.parent?_root] at this
  case right =>
    intro id
    by_cases h : id.index < t.size
    case pos => exact Nat.le_trans (List.filter_sublist.count_le id) (hw.held_once id h)
    case neg => simp [List.count_eq_zero_of_not_mem, h]

theorem countP_slots : (slots t.records).countP (·.index < t.size) + 1 = t.size := by
  have h := perm_range_of_nodup hs (hw.root_cons_slots_nodup hs) fun _ => hw.mem_root_cons_slots_iff hs
  simpa [List.countP_eq_length_filter] using h.length_eq

end WellFormed

theorem parents_invert_slots (ht : t.Obtained) :
    (∀ n ∈ t, n.isRoot ↔ n = t.rootNode) ∧
    (∀ n ∈ t, n ≠ t.rootNode →
      ∃ p ∈ t, t.parent? n = some p ∧ ∃ s, p.record.child? s = some n.id ∧
        ∀ q ∈ t, ∀ s', q.record.child? s' = some n.id → q = p ∧ s' = s) ∧
    (∀ p ∈ t, ∀ n ∈ t.argNodes p ++ t.body p, t.parent? n = some p) ∧
    (∀ n ∈ t, ∃ above, t.ancestors n = n :: above ∧ (n :: above).IsChain (t.parent? · = some ·) ∧
      (n :: above).getLast? = some t.rootNode ∧ (n :: above).Nodup ∧ above.length < t.size) ∧
    (slots t.records).countP (·.index < t.size) + 1 = t.size := by
  have hw := ht.wellFormed
  refine ⟨fun n => hw.isRoot_iff, fun n => hw.exists_unique_slot, ?_, ?_, hw.countP_slots ht.size_le⟩
  · exact fun p hp n hn => hw.parent?_of_mem_children hp hn
  · intro n hn
    have hl := hw.lineage_ancestors hn
    have ⟨above, he⟩ := hl.exists_above
    rw [he] at hl
    exact ⟨above, he, hw.lineage_isChain hl, hl.getLast?, hw.lineage_nodup hl, hw.lineage_length_le hl⟩

-- Three nodes in a row, with the root in the middle of the records. Two references lead nowhere.
theorem parents_invert_slots_in_row :
    let n : Node := ⟨⟨0⟩, ⟨"wait", #[], #[], some ⟨2⟩⟩⟩
    let p : Node := ⟨⟨2⟩, ⟨"loop", #[("count", .leaf ⟨"count", .integer 3, ⟨2⟩⟩), ("setup", .node ⟨0⟩)], #[], some ⟨1⟩⟩⟩
    let root : Record := ⟨"sequence", #[("label", .node ⟨9⟩)], #[⟨7⟩, ⟨2⟩], none⟩
    ∃ t, ofRecords ⟨1⟩ #[n.record, root, p.record] = .ok t ∧ n ∈ t ∧ n ≠ t.rootNode ∧
      t.parent? n = some p ∧ p.record.child? (.arg 1) = some n.id ∧
      (∀ q ∈ t, ∀ s, q.record.child? s = some n.id → q = p ∧ s = .arg 1) ∧
      (t.ancestors n).map Node.id = [⟨0⟩, ⟨2⟩, ⟨1⟩] ∧ (slots t.records).countP (·.index < 3) = 2 := by
  intro n p root
  let t : Tree := ⟨⟨1⟩, #[n.record, root, p.record], by decide⟩
  have ht : ofRecords ⟨1⟩ #[n.record, root, p.record] = .ok t := by decide +kernel
  have hn : t.node? n.id = some n := by decide +kernel
  have hp : t.node? p.id = some p := by decide +kernel
  have hr : n ≠ t.rootNode := by decide +kernel
  have ⟨_, hs, _, _, hc⟩ := parents_invert_slots (.records ht)
  have ⟨_, _, hpp, _, _, hu⟩ := hs n hn hr
  have hi : p.record.child? (.arg 1) = some n.id := rfl
  obtain ⟨rfl, rfl⟩ := hu p hp (.arg 1) hi
  exact ⟨t, ht, hn, hr, hpp, hi, hu, by decide +kernel, Nat.succ.inj hc⟩

end Tree
end ScriptCheck
