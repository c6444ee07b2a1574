import ScriptCheck.Proofs.Tree.Termination
import ScriptCheck.Tree.Defect

namespace ScriptCheck

theorem foldlM_eq_error {ε α β : Type} {f : β → α → Except ε β} {as : List α} {b : β} {e : ε}
    (h : as.foldlM f b = .error e) :
    ∃ before a after b', as = before ++ a :: after ∧ before.foldlM f b = .ok b' ∧ f b' a = .error e := by
  induction as generalizing b
  case nil => cases h
  case cons a as ih =>
    rw [List.foldlM_cons, bind_eq_error_iff] at h
    cases h
    case inl h => exact ⟨[], a, as, b, rfl, rfl, h⟩
    case inr h =>
      have ⟨b₁, h₁, h⟩ := h
      have ⟨before, a', after, b', he, hb, ha⟩ := ih h
      refine ⟨a :: before, a', after, b', by rw [he, List.cons_append], ?_, ha⟩
      rw [List.foldlM_cons, h₁, ok_bind, hb]

namespace Tree

variable {root : NodeId} {records : Array Record} {e : ShapeError}

section Record

variable {id : NodeId} {r : Record} (hr : records[id.index]? = some r)
include hr

theorem defect_of_checkArg {name : String} {a : Arg} (ha : (name, a) ∈ r.args)
    (h : Record.checkArg id name a = .error e) : Defect root records e := by
  unfold Record.checkArg at h
  split at h
  case h_1 => contradiction
  case h_2 l =>
    split at h
    case isTrue hp =>
      cases h
      exact .leafParentMismatch hr ha hp
    case isFalse =>
      split at h
      case isTrue hf =>
        cases h
        exact .nonFiniteLeaf hr ha (by simpa using hf)
      case isFalse => contradiction

-- By induction on the arguments left. Those before are kept in front, so that a name among them counts twice.
theorem defect_of_checkArgs (before : List (String × Arg)) {args : List (String × Arg)} {seen : List String}
    (ha : r.args.toList = before ++ args) (hs : ∀ name ∈ seen, name ∈ before.map Prod.fst)
    (h : Record.checkArgs id seen args = .error e) : Defect root records e := by
  induction args generalizing before seen
  case nil => contradiction
  case cons arg args ih =>
    obtain ⟨name, a⟩ := arg
    simp only [Record.checkArgs] at h
    split at h
    case isTrue hn =>
      cases h
      refine .duplicateArgument hr ?_
      have hc := List.count_pos_iff.mpr <| hs name hn
      simp only [Record.argNames, ha, List.map_append, List.map_cons, List.count_append, List.count_cons_self]
      omega
    case isFalse =>
      cases bind_eq_error_iff.mp h
      case inl h => exact defect_of_checkArg hr (Array.mem_toList_iff.mp <| ha ▸ by simp) h
      case inr h =>
        obtain ⟨_, _, h⟩ := h
        refine ih (before ++ [(name, a)]) (by simp [ha]) ?_ h
        simpa using fun n hn => .inl <| by simpa using hs n hn

theorem defect_of_hold {held : Array Bool} {c : NodeId} {before : List NodeId} (after : List NodeId)
    (hm : Marks records before held) (hs : slots records = before ++ c :: after) (hc : c ∈ r.childIds)
    (h : hold records id held c = .error e) : Defect root records e := by
  unfold hold at h
  split at h
  case h_1 => contradiction
  case h_2 s hr' =>
    have hi := (Array.getElem?_eq_some_iff.mp hr').choose
    split at h
    case isTrue hh =>
      cases h
      refine .sharedNode hi ?_
      have hp := List.count_pos_iff.mpr <| (hm.mem c hi).mp hh
      rw [hs, List.count_append, List.count_cons_self]
      omega
    case isFalse =>
      split at h
      case isTrue hp =>
        cases h
        exact .parentMismatch hr hc hr' hp
      case isFalse => contradiction

end Record

theorem defect_of_checkRecord {held : Array Bool} {r : Record} {i : Nat} {before : List NodeId} (after : List NodeId)
    (hm : Marks records before held) (hs : slots records = before ++ (r.childIds ++ after))
    (hr : records[i]? = some r) (h : checkRecord records held (r, i) = .error e) : Defect root records e := by
  unfold checkRecord at h
  split at h
  case h_1 hn =>
    cases h
    have hi := (Array.getElem?_eq_some_iff.mp hr).choose
    have hn : 0x100000000 ≤ i := by simpa [NodeId.ofIndex?] using hn
    exact .tooManyNodes (by omega)
  case h_2 id hi =>
    have hr : records[id.index]? = some r := by rwa [NodeId.index_of_ofIndex? hi]
    cases bind_eq_error_iff.mp h
    case inl h => exact defect_of_checkArgs hr [] rfl (by simp) h
    case inr h =>
      obtain ⟨_, _, h⟩ := h
      obtain ⟨front, c, back, held', hc, hf, h⟩ := foldlM_eq_error h
      have hm := (scans_hold records id).foldlM.marks hm hf
      rw [List.flatMap_singleton'] at hm
      exact defect_of_hold hr (back ++ after) hm (by simp [hs, hc]) (by simp [hc]) h

theorem defect_of_checkRecords (h : checkRecords records = .error e) : Defect root records e := by
  obtain ⟨front, ⟨r, i⟩, back, held, hz, hf, h⟩ := foldlM_eq_error h
  have hm := (scans_checkRecord records).foldlM.marks marks_nil hf
  have hr : records[i]? = some r := by
    have : (r, i) ∈ records.toList.zipIdx := hz ▸ by simp
    simpa [List.mem_zipIdx_iff_getElem?] using this
  refine defect_of_checkRecord (back.flatMap (·.1.childIds)) hm ?_ hr h
  rw [←flatMap_zipIdx_childIds, hz]
  simp

theorem not_defect_of_scan (hl : root.index < records.size)
    (hp : ∀ r, records[root.index]? = some r → r.parent = none) (hs : ∃ held, checkRecords records = .ok held)
    (e : ShapeError) : ¬Defect root records e := by
  obtain ⟨⟨hn, hf⟩, ho⟩ := checkRecords_isOk_iff.mp hs
  intro hd
  cases hd
  case rootMissing h              => exact Nat.not_lt.mpr h hl
  case rootHasParent hr h         => exact h <| hp _ hr
  case sharedNode id hi h         => exact Nat.not_lt.mpr (ho id hi) h
  case parentMismatch hr hc hs h  => exact h <| (hf _ _ hr).links _ hc _ hs
  case leafParentMismatch hr ha h => exact h <| (hf _ _ hr).leaves _ _ ha |>.parent
  case duplicateArgument hr h     => exact Nat.not_lt.mpr (List.nodup_iff_count_le_one.mp (hf _ _ hr).names _) h
  case nonFiniteLeaf hr ha h      => exact h <| (hf _ _ hr).leaves _ _ ha |>.finite
  case tooManyNodes h             => exact Nat.not_lt.mpr hn h

end Tree

namespace Walk

variable {t : Tree} {w w' : Walk} {nodes : List Node} {n p : Node}

theorem Ends.mem_of_mem_stack (h : Ends t w nodes) (hn : n ∈ w.stack) : n ∈ nodes := by
  induction h
  case stop h => simp [next?_eq_none_iff.mp h] at hn
  case step h _ ih =>
    obtain ⟨rest, hs, hs'⟩ := next?_eq_some_iff.mp h
    cases List.mem_cons.mp (hs ▸ hn)
    case inl h => exact h ▸ List.mem_cons_self
    case inr h => exact List.mem_cons_of_mem _ <| ih <| hs' ▸ List.mem_append_right _ h

-- A walk that has ended has been to the children of all nodes that it has been to.
theorem Ends.mem_of_mem_children (h : Ends t w nodes) (hp : p ∈ nodes) (hn : n ∈ t.children p) : n ∈ nodes := by
  induction h
  case stop => contradiction
  case step h he ih =>
    obtain ⟨rest, _, hs'⟩ := next?_eq_some_iff.mp h
    cases List.mem_cons.mp hp
    case inl h => exact List.mem_cons_of_mem _ <| he.mem_of_mem_stack <| hs' ▸ List.mem_append_left _ (h ▸ hn)
    case inr h => exact List.mem_cons_of_mem _ <| ih h

end Walk

namespace Tree

variable {t : Tree} {id root : NodeId} {records : Array Record} {e : ShapeError}

theorem mem_walk_of_reachable (he : Walk.Ends t (.start t.rootNode) (t.preorder t.rootNode))
    (h : Reachable t.root t.records id) : ∃ n ∈ t.preorder t.rootNode, n.id = id := by
  induction h
  case root => exact ⟨_, he.mem_of_mem_stack List.mem_cons_self, rfl⟩
  case child p c r _ hr hc hi ih =>
    obtain ⟨n, hn, rfl⟩ := ih
    obtain ⟨m, hm, rfl⟩ := exists_mem_of_index_lt (t := t) hi
    have hn' := mem_iff_record.mp <| mem_of_mem_walk_root n hn
    refine ⟨m, he.mem_of_mem_children hn <| mem_children.mpr ⟨hm, ?_⟩, rfl⟩
    exact Option.some.inj (hr.symm.trans hn') ▸ hc

theorem reached_iff_reachable (hr : t.rootNode.isRoot) (hs : ∃ held, checkRecords t.records = .ok held) :
    t.reached[id.index]? = some true ↔ Reachable t.root t.records id := by
  rw [reached_iff]
  constructor
  case mp =>
    intro ⟨_, n, hn, hi⟩
    exact NodeId.index_inj hi ▸ (reachable_of_mem_preorder hn).right
  case mpr =>
    intro h
    have he := (Progress.start t).ends hs hr (k := t.size) (by simp) |>.left
    obtain ⟨n, hn, rfl⟩ := mem_walk_of_reachable he h
    exact ⟨index_lt_size <| mem_of_mem_walk_root n hn, n, hn, rfl⟩

theorem accurate_of_firstUnreached (hr : t.rootNode.isRoot) (hs : ∃ held, checkRecords t.records = .ok held)
    (hd : ∀ e, ¬Defect t.root t.records e) {i : Nat} (h : t.firstUnreached? = some i) :
    Accurate t.root t.records (.unreachable ⟨.ofNat i⟩) := by
  obtain ⟨hi, hf, hb⟩ := Array.findIdx?_eq_some_iff_getElem.mp h
  have hl : i < t.records.size := by simpa [reached, size_marked, size] using hi
  have hn := (checkRecords_isOk_iff.mp hs).left.left
  have hx : NodeId.index ⟨.ofNat i⟩ = i := UInt32.toNat_ofNat_of_lt (Nat.lt_of_lt_of_le hl hn)
  refine .unreachable (by rwa [hx]) ?_ (fun id hid => ?_) hd
  · rw [←reached_iff_reachable hr hs, hx]
    simpa [hi] using hf
  · rw [hx] at hid
    rw [←reached_iff_reachable hr hs]
    simpa [Nat.lt_trans hid hi] using hb id.index hid

theorem rootNode_isRoot_iff : t.rootNode.isRoot ↔ ∀ r, t.records[t.root.index]? = some r → r.parent = none := by
  have ht := mem_iff_record.mp t.rootNode_mem
  simp [show t.records[t.root.index]? = some t.rootNode.record from ht, Node.isRoot]

theorem accurate_of_parts (h : ofRecords t.root t.records = .error e) : Accurate t.root t.records e := by
  rw [ofRecords, dif_pos t.root_lt] at h
  by_cases hr : t.rootNode.isRoot
  case neg =>
    simp only [hr, Bool.not_false, if_true] at h
    cases h
    refine .defect <| .rootHasParent (mem_iff_record.mp t.rootNode_mem) ?_
    simpa [Node.isRoot] using hr
  case pos =>
    simp only [hr, Bool.not_true, Bool.false_eq_true, if_false, bind_eq_error_iff] at h
    cases h
    case inl h => exact .defect <| defect_of_checkRecords h
    case inr h =>
      obtain ⟨held, hs, h⟩ := h
      cases hu : t.firstUnreached? <;> rw [hu] at h <;> cases h
      have hd := not_defect_of_scan t.root_lt (rootNode_isRoot_iff.mp hr) ⟨held, hs⟩
      exact accurate_of_firstUnreached hr ⟨held, hs⟩ hd hu

theorem accurate_of_ofRecords (h : ofRecords root records = .error e) : Accurate root records e := by
  by_cases hl : root.index < records.size
  case pos => exact accurate_of_parts (t := ⟨root, records, hl⟩) h
  case neg =>
    rw [ofRecords, dif_neg hl] at h
    cases h
    exact .defect <| .rootMissing <| Nat.not_lt.mp hl

theorem not_accurate_of_passes (h : t.Passes) (e : ShapeError) : ¬Accurate t.root t.records e := by
  intro ha
  cases ha
  case defect hd => exact not_defect_of_scan t.root_lt (rootNode_isRoot_iff.mp h.root) h.scan e hd
  case unreachable hi hu _ _ => exact hu <| (passes_iff_wellFormed.mp h).right.reachable _ hi

-- What is reported is so, and where something of the kind is so something is reported.
theorem errors_are_accurate (root : NodeId) (records : Array Record) :
    (∀ e, ofRecords root records = .error e → Accurate root records e) ∧
    ((∃ e, Accurate root records e) → ∃ e, ofRecords root records = .error e) := by
  refine ⟨fun e => accurate_of_ofRecords, fun ⟨e, ha⟩ => ?_⟩
  cases h : ofRecords root records
  case error e => exact ⟨e, rfl⟩
  case ok t =>
    obtain ⟨rfl, rfl, hp⟩ := ofRecords_eq_ok_iff.mp h
    exact absurd ha <| not_accurate_of_passes hp e

-- Two nodes that hold each other out of reach of the root, and a node that two others hold.
theorem errors_are_accurate_of_cycle :
    let cyclic := #[
      ⟨"sequence", #[("label", .node ⟨9⟩)], #[⟨2⟩], none⟩, ⟨"loop", #[], #[⟨3⟩], some ⟨3⟩⟩,
      ⟨"wait", #[], #[], some ⟨0⟩⟩, ⟨"sum", #[("left", .node ⟨1⟩)], #[], some ⟨1⟩⟩]
    let shared := #[
      ⟨"sequence", #[("first", .node ⟨2⟩)], #[⟨1⟩], none⟩, ⟨"loop", #[], #[⟨2⟩], some ⟨0⟩⟩,
      ⟨"wait", #[], #[], some ⟨0⟩⟩]
    ofRecords ⟨0⟩ cyclic = .error (.unreachable ⟨1⟩) ∧ ¬Reachable ⟨0⟩ cyclic ⟨1⟩ ∧ (∀ e, ¬Defect ⟨0⟩ cyclic e) ∧
      ofRecords ⟨0⟩ shared = .error (.sharedNode ⟨2⟩) ∧ 2 ≤ (slots shared).count ⟨2⟩ := by
  intro cyclic shared
  have hc : ofRecords ⟨0⟩ cyclic = .error (.unreachable ⟨1⟩) := by decide +kernel
  have hs : ofRecords ⟨0⟩ shared = .error (.sharedNode ⟨2⟩) := by decide +kernel
  obtain hd | ⟨_, hu, _, hd⟩ := (errors_are_accurate ⟨0⟩ cyclic).left _ hc
  case defect => contradiction
  case unreachable =>
    obtain hd' | _ := (errors_are_accurate ⟨0⟩ shared).left _ hs
    cases hd'
    case sharedNode h => exact ⟨hc, hu, hd, hs, h⟩

end Tree
end ScriptCheck
