import ScriptCheck.Proofs.Tree.Shape

namespace ScriptCheck

-- A walk up to its end, however many steps that takes.
inductive Walk.Ends (t : Tree) : Walk → List Node → Prop
  | stop {w : Walk} : w.next? t = none → Ends t w []
  | step {w w' : Walk} {n : Node} {nodes : List Node} :
    w.next? t = some (n, w') → Ends t w' nodes → Ends t w (n :: nodes)

namespace Tree

variable {t : Tree} {n p c : Node} {seen stack rest : List Node}

-- How far a walk from the root has come if it has seen some nodes and has others on its stack.
structure Progress (t : Tree) (seen stack : List Node) : Prop where
  mem    : ∀ n ∈ seen ++ stack, n ∈ t
  nodup  : (seen ++ stack).Nodup
  origin : ∀ n ∈ seen ++ stack, n = t.rootNode ∨ ∃ p ∈ seen, n ∈ t.children p

theorem Progress.start (t : Tree) : Progress t [] [t.rootNode] where
  mem := by simpa using rootNode_mem
  nodup := by simp
  origin := by simp

theorem Progress.length_le (h : Progress t seen stack) : seen.length + stack.length ≤ t.size := by
  simpa using length_le_size h.nodup h.mem

section Scan

variable (hs : ∃ held, checkRecords t.records = .ok held)
include hs

theorem parent_of_mem_children (hp : p ∈ t) (hc : c ∈ t.children p) : c.record.parent = some p.id := by
  have ⟨⟨_, hf⟩, _⟩ := checkRecords_isOk_iff.mp hs
  have ⟨hm, hc⟩ := mem_children.mp hc
  exact (hf p.id _ (mem_iff_record.mp hp)).links c.id hc _ (mem_iff_record.mp hm)

variable (hr : t.rootNode.isRoot)
include hr

theorem rootNode_not_mem_children (hp : p ∈ t) : t.rootNode ∉ t.children p := by
  intro hc
  have h := parent_of_mem_children hs hp hc
  simp [Node.isRoot, h] at hr

-- The children of the next node are new: a node the walk knows is the root or has another parent.
theorem Progress.not_mem_children (h : Progress t seen (n :: rest)) (hc : c ∈ seen ++ n :: rest) :
    c ∉ t.children n := by
  intro hn
  have hm : n ∈ t := h.mem n (by simp)
  cases h.origin c hc
  case inl he => exact rootNode_not_mem_children hs hr hm (he ▸ hn)
  case inr ho =>
    have ⟨p, hp, hcp⟩ := ho
    have hpt : p ∈ t := h.mem p (List.mem_append_left _ hp)
    have he := (parent_of_mem_children hs hpt hcp).symm.trans (parent_of_mem_children hs hm hn)
    have he := eq_of_id_eq hpt hm (Option.some.inj he)
    exact List.disjoint_of_nodup_append h.nodup (he ▸ hp) List.mem_cons_self

theorem Progress.step (h : Progress t seen (n :: rest)) : Progress t (n :: seen) (t.children n ++ rest) := by
  have hp : (n :: seen ++ (t.children n ++ rest)).Perm (t.children n ++ (seen ++ n :: rest)) := by
    rw [List.perm_iff_count]
    intro m
    simp only [List.count_append, List.count_cons]
    omega
  have hn : n ∈ t := h.mem n (by simp)
  constructor
  case mem =>
    intro m hm
    cases List.mem_append.mp (hp.mem_iff.mp hm)
    case inl hc => exact mem_of_mem_children hc
    case inr hm => exact h.mem m hm
  case nodup =>
    have ho := (checkRecords_isOk_iff.mp hs).right
    refine hp.nodup_iff.mpr <| List.nodup_append.mpr ⟨children_nodup ho hn, h.nodup, ?_⟩
    exact fun c hc m hm he => h.not_mem_children hs hr hm (he ▸ hc)
  case origin =>
    intro m hm
    cases List.mem_append.mp (hp.mem_iff.mp hm)
    case inl hc => exact .inr ⟨n, List.mem_cons_self, hc⟩
    case inr hm => exact (h.origin m hm).imp_right fun ⟨p, hp, hc⟩ => ⟨p, List.mem_cons_of_mem _ hp, hc⟩

-- By induction on the number of steps left: each of them adds to what is seen, for which there is only so much
-- room.
theorem Progress.ends (h : Progress t seen stack) {k : Nat} (hk : t.size ≤ seen.length + k) :
    Walk.Ends t ⟨stack⟩ (Walk.visited t k ⟨stack⟩) ∧ (seen ++ Walk.visited t k ⟨stack⟩).Nodup := by
  induction k generalizing seen stack
  case zero =>
    have hl := h.length_le
    have he : stack = [] := List.length_eq_zero_iff.mp (by omega)
    subst he
    exact ⟨.stop rfl, h.nodup⟩
  case succ k ih =>
    cases stack
    case nil => exact ⟨.stop rfl, h.nodup⟩
    case cons n rest =>
      have ⟨he, hd⟩ := ih (h.step hs hr) (by simp; omega)
      exact ⟨.step rfl he, List.nodup_middle.mpr hd⟩

theorem walk_root_nodup_of_scan : (t.preorder t.rootNode).Nodup :=
  (Progress.start t).ends hs hr (by simp) |>.right

end Scan

-- Nodes that have bits of their own set as many bits as there are nodes.
theorem count_marked {nodes : List Node} {seen : Array Bool} (hd : (nodes.map (·.id.index)).Nodup)
    (h : ∀ n ∈ nodes, seen[n.id.index]? = some false) :
    (nodes.foldl (fun seen n => seen.setIfInBounds n.id.index true) seen).count true =
      seen.count true + nodes.length := by
  induction nodes generalizing seen
  case nil => simp
  case cons n nodes ih =>
    have ⟨hn, hd⟩ := List.nodup_cons.mp hd
    have ⟨hf, h⟩ := List.forall_mem_cons.mp h
    have ⟨hi, hf⟩ := Array.getElem?_eq_some_iff.mp hf
    rw [List.foldl_cons, ih hd]
    · simp [Array.setIfInBounds, hi, Array.count_set, hf]
      omega
    · intro m hm
      have he : n.id.index ≠ m.id.index := fun he => hn <| List.mem_map.mpr ⟨m, hm, he.symm⟩
      simpa [Array.getElem?_setIfInBounds, he] using h m hm

theorem mem_of_mem_walk_root : ∀ n ∈ t.preorder t.rootNode, n ∈ t :=
  fun _ h => (reachable_of_mem_preorder h).left

-- A walk that comes to no node twice comes to all of them if it is as long as the tree.
theorem firstUnreached?_eq_none_iff_length (hd : (t.preorder t.rootNode).Nodup) :
    t.firstUnreached? = none ↔ (t.preorder t.rootNode).length = t.size := by
  have hp := List.subperm_of_subset (indices_nodup hd mem_of_mem_walk_root) (indices_subset_range mem_of_mem_walk_root)
  rw [firstUnreached?_eq_none_iff]
  constructor
  case mp =>
    intro h
    have hs : List.range t.size ⊆ (t.preorder t.rootNode).map (·.id.index) :=
      fun i hi => List.mem_map.mpr <| h i (List.mem_range.mp hi)
    have hl := (List.subperm_of_subset List.nodup_range hs).length_le
    exact Nat.le_antisymm (length_le_size hd mem_of_mem_walk_root) (by simpa using hl)
  case mpr =>
    intro hl i hi
    have hp := hp.perm_of_length_le (by simp [hl])
    exact List.mem_map.mp <| hp.mem_iff.mpr <| List.mem_range.mpr hi

-- There may be cycles among records that pass the scan, but none that the root leads to.
theorem walk_of_scanned_ends (t : Tree) (hr : t.rootNode.isRoot) (hs : ∃ held, checkRecords t.records = .ok held) :
    Walk.Ends t (.start t.rootNode) (t.preorder t.rootNode) ∧
    (t.preorder t.rootNode).length ≤ t.size ∧
    ((t.preorder t.rootNode).map (·.id.index)).Nodup ∧
    (∀ n ∈ t.preorder t.rootNode, n.id.index < t.reached.size) ∧
    t.reached.count true = (t.preorder t.rootNode).length ∧
    (ofRecords t.root t.records = .ok t ↔ (t.preorder t.rootNode).length = t.size) := by
  have hn := walk_root_nodup_of_scan hs hr
  have hd := indices_nodup hn mem_of_mem_walk_root
  have hm : ∀ n ∈ t.preorder t.rootNode, n.id.index < t.size := fun n h => index_lt_size (mem_of_mem_walk_root n h)
  refine ⟨(Progress.start t).ends hs hr (by simp) |>.left, length_le_size hn mem_of_mem_walk_root, hd, ?_, ?_, ?_⟩
  · simpa [reached, size_marked] using hm
  · rw [reached, count_marked hd fun n h => by simp [hm n h]]
    simp [Array.count_replicate]
  · rw [ofRecords_parts_eq_ok_iff, ←firstUnreached?_eq_none_iff_length hn]
    exact ⟨fun h => h.right.reach, fun h => ⟨rfl, hr, hs, h⟩⟩

-- Two nodes that hold each other, beside a root that holds a node and refers to one that is not there.
theorem walk_beside_cycle_ends :
    let t : Tree := ⟨⟨2⟩, #[
      ⟨"loop", #[], #[⟨1⟩], some ⟨1⟩⟩, ⟨"sum", #[("left", .node ⟨0⟩)], #[], some ⟨0⟩⟩,
      ⟨"sequence", #[("label", .node ⟨9⟩)], #[⟨3⟩], none⟩, ⟨"wait", #[], #[], some ⟨2⟩⟩], by decide⟩
    t.rootNode.isRoot ∧ (∃ held, checkRecords t.records = .ok held) ∧
      (t.preorder t.rootNode).map (·.id.index) = [2, 3] ∧ Walk.Ends t (.start t.rootNode) (t.preorder t.rootNode) ∧
      t.reached.count true = 2 ∧ ofRecords t.root t.records ≠ .ok t := by
  intro t
  have hr : t.rootNode.isRoot := by decide
  have hs : ∃ held, checkRecords t.records = .ok held := ⟨_, by rfl⟩
  have hl : (t.preorder t.rootNode).length = 2 := by decide +kernel
  have ⟨he, _, _, _, hc, ho⟩ := walk_of_scanned_ends t hr hs
  exact ⟨hr, hs, by decide +kernel, he, hc.trans hl, fun h => absurd (hl.symm.trans (ho.mp h)) (by decide)⟩

end Tree
end ScriptCheck
