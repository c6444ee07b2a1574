import ScriptCheck.Proofs.Tree.Alike
import ScriptCheck.Proofs.Tree.Preorder
import ScriptCheck.Proofs.Tree.Scan

namespace ScriptCheck
namespace Tree

variable {records : Array Record} {id : NodeId}
variable {root : NodeId} {t : Tree}

theorem size_marked (nodes : List Node) (seen : Array Bool) :
    (nodes.foldl (fun seen n => seen.setIfInBounds n.id.index true) seen).size = seen.size := by
  induction nodes generalizing seen
  case nil          => rfl
  case cons n _ ih => rw [List.foldl_cons, ih, Array.size_setIfInBounds]

theorem marked_iff {nodes : List Node} {seen : Array Bool} {i : Nat} :
    (nodes.foldl (fun seen n => seen.setIfInBounds n.id.index true) seen)[i]? = some true ↔
      seen[i]? = some true ∨ i < seen.size ∧ ∃ n ∈ nodes, n.id.index = i := by
  induction nodes generalizing seen
  case nil => simp
  case cons n nodes ih =>
    rw [List.foldl_cons, ih, Array.getElem?_setIfInBounds, Array.size_setIfInBounds]
    by_cases h : n.id.index = i
    case pos => by_cases hi : i < seen.size <;> simp [h, hi]
    case neg => simp [h]

theorem reached_iff {i : Nat} :
    t.reached[i]? = some true ↔ i < t.size ∧ ∃ n ∈ t.preorder t.rootNode, n.id.index = i := by
  simp [reached, marked_iff, Array.getElem?_replicate]

theorem firstUnreached?_eq_none_iff :
    t.firstUnreached? = none ↔ ∀ i < t.size, ∃ n ∈ t.preorder t.rootNode, n.id.index = i := by
  have hs : t.reached.size = t.size := by simp [reached, size_marked]
  rw [firstUnreached?, Array.findIdx?_eq_none_iff]
  constructor
  case mp =>
    intro h i hi
    have hr : t.reached[i]? = some true := by
      have := h t.reached[i] (Array.getElem_mem _)
      simpa [hs, hi] using this
    exact (reached_iff.mp hr).right
  case mpr =>
    intro h b hb
    have ⟨i, hi, he⟩ := Array.mem_iff_getElem.mp hb
    have hr := reached_iff.mpr ⟨hs ▸ hi, h i (hs ▸ hi)⟩
    have := (Array.getElem?_eq_some_iff.mp hr).choose_spec
    simp [←he, this]

-- Whatever the stack of a walk consists of, it visits only what its stack leads to.
theorem reachable_of_mem_visited {k : Nat} {w : Walk}
    (h : ∀ n ∈ w.stack, n ∈ t ∧ Reachable t.root t.records n.id) :
    ∀ n ∈ Walk.visited t k w, n ∈ t ∧ Reachable t.root t.records n.id := by
  induction k generalizing w
  case zero => simp [Walk.visited]
  case succ k ih =>
    obtain ⟨stack⟩ := w
    cases stack
    case nil => simp [Walk.visited, Walk.next?]
    case cons p rest =>
      obtain ⟨⟨hp, hr⟩, h⟩ := List.forall_mem_cons.mp h
      refine List.forall_mem_cons.mpr ⟨⟨hp, hr⟩, ih fun n hn => ?_⟩
      cases List.mem_append.mp hn
      case inr hn => exact h n hn
      case inl hn =>
        obtain ⟨hn, hc⟩ := mem_children.mp hn
        exact ⟨hn, .child hr (mem_iff_record.mp hp) hc (index_lt_size hn)⟩

theorem reachable_of_mem_preorder {n : Node} (h : n ∈ t.preorder t.rootNode) :
    n ∈ t ∧ Reachable t.root t.records n.id := by
  refine reachable_of_mem_visited (fun m hm => ?_) n h
  cases List.mem_singleton.mp hm
  exact ⟨rootNode_mem, .root⟩

theorem WellFormed.recordFits (hw : WellFormed root records) {r : Record} (hr : records[id.index]? = some r) :
    RecordFits records id r where
  names := hw.names_nodup r <| Array.mem_of_getElem? hr
  leaves _ _ h := ⟨hw.leaf_parent hr h, hw.leaf_finite r (Array.mem_of_getElem? hr) h⟩
  links _ hc _ hs := hw.held_by_parent hr hc hs

theorem wellFormed_of_recordFits (hs : records.size ≤ 0x100000000) (hr : root.index < records.size)
    (hp : ∀ r, records[root.index]? = some r → r.parent = none)
    (hf : ∀ id r, records[NodeId.index id]? = some r → RecordFits records id r)
    (ho : Once records (slots records)) (hc : ∀ id : NodeId, id.index < records.size → Reachable root records id) :
    WellFormed root records := by
  have hm : ∀ r ∈ records, ∃ id, RecordFits records id r := by
    intro r hr
    have ⟨i, hi, he⟩ := Array.mem_iff_getElem.mp hr
    have ⟨id, hid⟩ := NodeId.exists_ofIndex? (Nat.lt_of_lt_of_le hi hs)
    refine ⟨id, hf id r ?_⟩
    simp [NodeId.index_of_ofIndex? hid, hi, he]
  constructor
  case root_lt => exact hr
  case root_parent => exact hp
  case names_nodup =>
    intro r hr
    have ⟨_, hf⟩ := hm r hr
    exact hf.names
  case leaf_parent => exact fun hr h => (hf _ _ hr).leaves _ _ h |>.parent
  case leaf_finite =>
    intro r hr name l h
    have ⟨_, hf⟩ := hm r hr
    exact (hf.leaves name l h).finite
  case held_once => exact ho
  case held_by_parent => exact fun hr hc hs => (hf _ _ hr).links _ hc _ hs
  case reachable => exact hc

-- The three parts of the shape check.
structure Passes (t : Tree) : Prop where
  root  : t.rootNode.isRoot
  scan  : ∃ held, checkRecords t.records = .ok held
  reach : t.firstUnreached? = none

theorem ofRecords_parts_eq_ok_iff {t' : Tree} : ofRecords t.root t.records = .ok t' ↔ t = t' ∧ t.Passes := by
  rw [ofRecords, dif_pos t.root_lt]
  by_cases hr : t.rootNode.isRoot
  case neg => simpa [hr] using fun _ (hp : t.Passes) => hr hp.root
  case pos =>
    simp only [hr, Bool.not_true, Bool.false_eq_true, if_false, bind_eq_ok_iff]
    cases hu : t.firstUnreached?
    case some => simpa using fun _ (hp : t.Passes) => by simp [hp.reach] at hu
    case none =>
      constructor
      case mp =>
        intro ⟨held, hs, he⟩
        exact ⟨Except.ok.inj he, hr, ⟨held, hs⟩, hu⟩
      case mpr =>
        intro ⟨he, hp⟩
        have ⟨held, hs⟩ := hp.scan
        exact ⟨held, hs, congrArg _ he⟩

theorem ofRecords_eq_ok_iff :
    ofRecords root records = .ok t ↔ t.root = root ∧ t.records = records ∧ t.Passes := by
  constructor
  case mpr =>
    rintro ⟨rfl, rfl, hp⟩
    exact ofRecords_parts_eq_ok_iff.mpr ⟨rfl, hp⟩
  case mp =>
    intro h
    by_cases hr : root.index < records.size
    case neg => simp [ofRecords, hr] at h
    case pos =>
      have ⟨he, hp⟩ := ofRecords_parts_eq_ok_iff (t := ⟨root, records, hr⟩) |>.mp h
      exact he ▸ ⟨rfl, rfl, hp⟩

theorem passes_iff_wellFormed : t.Passes ↔ t.size ≤ 0x100000000 ∧ WellFormed t.root t.records := by
  have hr := mem_iff_record.mp <| t.rootNode_mem
  constructor
  case mp =>
    intro hp
    obtain ⟨⟨hs, hf⟩, ho⟩ := checkRecords_isOk_iff.mp hp.scan
    refine ⟨hs, wellFormed_of_recordFits hs t.root_lt ?_ hf ho ?_⟩
    · intro r hr'
      cases hr.symm.trans hr'
      simpa [Node.isRoot] using hp.root
    · intro id hi
      obtain ⟨n, hn, he⟩ := firstUnreached?_eq_none_iff.mp hp.reach id.index hi
      exact NodeId.index_inj he ▸ (reachable_of_mem_preorder hn).right
  case mpr =>
    rintro ⟨hs, hw⟩
    constructor
    case root =>
      have := hw.root_parent _ hr
      simp [Node.isRoot, this]
    case scan => exact checkRecords_isOk_iff.mpr ⟨⟨hs, fun _ _ => hw.recordFits⟩, hw.held_once⟩
    case reach =>
      refine firstUnreached?_eq_none_iff.mpr fun i hi => ?_
      obtain ⟨n, hn, he⟩ := exists_mem_of_lt hs hi
      exact ⟨n, hw.mem_walk_root_iff.mpr hn, he⟩

theorem isOk_ofRecords_iff (hs : records.size ≤ 0x100000000) :
    (∃ t, ofRecords root records = .ok t) ↔ WellFormed root records := by
  constructor
  case mp =>
    intro ⟨t, ht⟩
    obtain ⟨rfl, rfl, hp⟩ := ofRecords_eq_ok_iff.mp ht
    exact (passes_iff_wellFormed.mp hp).right
  case mpr =>
    intro hw
    let t : Tree := ⟨root, records, hw.root_lt⟩
    exact ⟨t, ofRecords_eq_ok_iff.mpr ⟨rfl, rfl, passes_iff_wellFormed.mpr ⟨hs, hw⟩⟩⟩

theorem ofRecords_accepts_exactly_wellFormed (root : NodeId) (records : Array Record)
    (hs : records.size ≤ 0x100000000) :
    ((∃ t, ofRecords root records = .ok t) ↔ WellFormed root records) ∧
    (∀ t, ofRecords root records = .ok t → t.root = root ∧ t.records = records) ∧
    ((∀ r ∈ records, r.argNames.Nodup) →
      ((∃ t, ofRecords root (records.map (·.prune records.size)) = .ok t) ↔
        ∃ t, ofRecords root records = .ok t)) := by
  refine ⟨isOk_ofRecords_iff hs, fun t ht => ?_, fun hn => ?_⟩
  · have ⟨hr, he, _⟩ := ofRecords_eq_ok_iff.mp ht
    exact ⟨hr, he⟩
  · rw [isOk_ofRecords_iff hs, isOk_ofRecords_iff (by simpa using hs)]
    exact wellFormed_prune_iff hn

-- A script of two nodes, the root last, with two references that lead nowhere.
theorem ofRecords_accepts_dangling :
    let records := #[
      ⟨"wait", #[("time", .leaf ⟨"time", .integer 5, ⟨0⟩⟩)], #[], some ⟨1⟩⟩,
      ⟨"sequence", #[("label", .node ⟨9⟩)], #[⟨0⟩, ⟨7⟩], none⟩]
    WellFormed ⟨1⟩ records ∧ ∃ t, ofRecords ⟨1⟩ (records.map (·.prune records.size)) = .ok t := by
  intro records
  have h := ofRecords_accepts_exactly_wellFormed ⟨1⟩ records (by decide)
  have ho : ∃ t, ofRecords ⟨1⟩ records = .ok t := ⟨⟨⟨1⟩, records, by decide⟩, by decide +kernel⟩
  exact ⟨h.left.mp ho, (h.right.right (by decide)).mpr ho⟩

end Tree
end ScriptCheck
