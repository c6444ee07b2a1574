import Mathlib.Data.List.Range
import ScriptCheck.Proofs.Tree.Obtained

namespace ScriptCheck
namespace Tree

variable {t : Tree} {n : Node}

theorem travel_eq_forM {m : Type → Type} [Monad m] (visit : Node → m Unit) :
    t.travel visit n = (t.preorder n).forM visit := by
  have h (k : Nat) (w : Walk) : Walk.travel t visit k w = (Walk.visited t k w).forM visit := by
    induction k generalizing w
    case zero => rfl
    case succ k ih =>
      rw [Walk.travel, Walk.visited]
      split
      case h_1      => rfl
      case h_2 n w' =>
        simp only [ih]
        rfl
  exact h t.size (.start n)

-- A list that names every node once has the numbers of the nodes in some order.
theorem perm_range_of_nodup {ids : List NodeId} (hs : t.size ≤ 0x100000000) (hd : ids.Nodup)
    (h : ∀ id, id ∈ ids ↔ id.index < t.size) : (ids.map NodeId.index).Perm (List.range t.size) := by
  have hd : (ids.map NodeId.index).Nodup := hd.map_on fun _ _ _ _ => NodeId.index_inj
  refine (List.perm_ext_iff_of_nodup hd List.nodup_range).mpr fun i => ?_
  rw [List.mem_map, List.mem_range]
  constructor
  case mp =>
    intro ⟨id, hi, he⟩
    exact he ▸ (h id).mp hi
  case mpr =>
    intro hi
    have ⟨n, hn, he⟩ := exists_mem_of_lt hs hi
    exact ⟨n.id, (h n.id).mpr (index_lt_size hn), he⟩

-- Every number below the size of the tree is that of a node, and the walk comes to that node once.
theorem WellFormed.walk_perm_range (hw : WellFormed t.root t.records) (hs : t.size ≤ 0x100000000) :
    ((t.preorder t.rootNode).map (·.id.index)).Perm (List.range t.size) := by
  have hd : ((t.preorder t.rootNode).map Node.id).Nodup := by
    refine (hw.walk_nodup rootNode_mem).map_on fun n hn m hm => ?_
    exact eq_of_id_eq (hw.mem_walk_root_iff.mp hn) (hw.mem_walk_root_iff.mp hm)
  have hm (id : NodeId) : id ∈ (t.preorder t.rootNode).map Node.id ↔ id.index < t.size := by
    rw [List.mem_map]
    constructor
    case mp =>
      intro ⟨n, hn, he⟩
      exact he ▸ index_lt_size (hw.mem_walk_root_iff.mp hn)
    case mpr =>
      intro hi
      have ⟨n, hn, he⟩ := exists_mem_of_index_lt hi
      exact ⟨n, hw.mem_walk_root_iff.mpr hn, he⟩
  simpa [Function.comp_def] using perm_range_of_nodup hs hd hm

theorem walk_lists_recursive_preorder (ht : t.Obtained) (hn : n ∈ t) :
    (∀ k, t.size ≤ k → Walk.visited t k (.start n) = t.preorder n) ∧
    (∀ nodes, t.Preorder [n] nodes ↔ nodes = t.preorder n) ∧
    t.preorder n = n :: ((t.argNodes n).flatMap t.preorder ++ (t.body n).flatMap t.preorder) ∧
    ((t.preorder t.rootNode).map (·.id.index)).Perm (List.range t.size) ∧
    (∀ m, m ∈ t.preorder n ↔ m ∈ t ∧ t.Below n m) ∧
    (t.preorder n).Nodup ∧
    (∀ m ∈ t.preorder n, m = n ∨ ∃ p, t.parent? m = some p ∧ [p, m].Sublist (t.preorder n)) := by
  have hw := ht.wellFormed
  have hp := hw.preorder_walk hn
  refine ⟨?_, ?_, ?_, hw.walk_perm_range ht.size_le, fun m => hw.mem_walk_iff hn, hw.walk_nodup hn, ?_⟩
  · exact fun k hk => (hw.preorder_visited hn hk).unique hp
  · exact fun nodes => ⟨fun h => h.unique hp, fun h => h ▸ hp⟩
  · rw [hw.preorder_eq hn, children, List.flatMap_append]
  · simpa using hw.parent_before hp (by simpa using hn)

-- A loop nested in an argument of the root, with its nodes out of order.
theorem walk_lists_nested_loop :
    let t := ((Draft.start "sequence").applyAll [
      .body ⟨0⟩ "wait", .node ⟨0⟩ "setup" "loop", .body ⟨2⟩ "move", .node ⟨2⟩ "count" "sum", .body ⟨4⟩ "term"]).build
    let n : Node := ⟨⟨2⟩, ⟨"loop", #[("count", .node ⟨4⟩)], #[⟨3⟩], some ⟨0⟩⟩⟩
    n ∈ t ∧ (t.preorder n).map Node.kind = ["loop", "sum", "term", "move"] ∧
      (∀ nodes, t.Preorder [n] nodes ↔ nodes = t.preorder n) ∧ (∀ m, m ∈ t.preorder n ↔ m ∈ t ∧ t.Below n m) := by
  intro t n
  have hn : t.node? n.id = some n := by decide +kernel
  have ⟨_, hp, _, _, hm, _⟩ := walk_lists_recursive_preorder (.draft ..) hn
  exact ⟨hn, by decide +kernel, hp, hm⟩

end Tree
end ScriptCheck
