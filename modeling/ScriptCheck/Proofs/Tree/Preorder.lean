import ScriptCheck.Proofs.Tree.Lineage
import ScriptCheck.Tree.Preorder
import ScriptCheck.Tree.Walk

namespace ScriptCheck

namespace Walk

variable {t : Tree} {w w' : Walk} {n : Node}

theorem next?_eq_none_iff : w.next? t = none ↔ w.stack = [] := by
  cases hs : w.stack <;> simp [next?, hs]

theorem next?_eq_some_iff :
    w.next? t = some (n, w') ↔ ∃ rest, w.stack = n :: rest ∧ w'.stack = t.children n ++ rest := by
  obtain ⟨stack⟩ := w
  obtain ⟨stack'⟩ := w'
  cases stack
  case nil          => simp [next?]
  case cons m rest =>
    simp only [next?, Option.some.injEq, Prod.mk.injEq, mk.injEq, List.cons.injEq]
    constructor
    case mp =>
      rintro ⟨rfl, rfl⟩
      exact ⟨rest, ⟨rfl, rfl⟩, rfl⟩
    case mpr =>
      rintro ⟨_, ⟨rfl, rfl⟩, rfl⟩
      exact ⟨rfl, rfl⟩

end Walk

namespace Tree

variable {t : Tree} {n m p : Node} {roots roots' nodes nodes' : List Node} {w w' : Walk}

namespace Preorder

theorem append (h : Preorder t roots nodes) (h' : Preorder t roots' nodes') :
    Preorder t (roots ++ roots') (nodes ++ nodes') := by
  induction h
  case nil => exact h'
  case cons hb _ _ ih => simpa using Preorder.cons hb ih

theorem unique (h : Preorder t roots nodes) (h' : Preorder t roots nodes') : nodes = nodes' := by
  induction h generalizing nodes'
  case nil =>
    cases h'
    rfl
  case cons ihb ih =>
    cases h'
    case cons hb hr => rw [ihb hb, ih hr]

theorem roots_sublist (h : Preorder t roots nodes) : roots.Sublist nodes := by
  induction h
  case nil => exact List.Sublist.refl _
  case cons ih => exact .cons_cons _ <| ih.trans <| List.sublist_append_right ..

theorem split (h : Preorder t (roots ++ roots') nodes) :
    ∃ before after, Preorder t roots before ∧ Preorder t roots' after ∧ nodes = before ++ after := by
  induction roots generalizing nodes
  case nil => exact ⟨[], nodes, .nil, h, rfl⟩
  case cons n roots ih =>
    cases h
    case cons below nodes hb hr =>
      have ⟨before, after, hb', ha, he⟩ := ih hr
      exact ⟨_, after, .cons hb hb', ha, by simp [he]⟩

-- The children of the first root take its place.
theorem cons_iff :
    Preorder t (n :: roots) nodes ↔ ∃ rest, nodes = n :: rest ∧ Preorder t (t.children n ++ roots) rest := by
  constructor
  case mp =>
    intro h
    cases h
    case cons hb hr => exact ⟨_, rfl, hb.append hr⟩
  case mpr =>
    rintro ⟨rest, rfl, h⟩
    obtain ⟨below, after, hb, ha, rfl⟩ := h.split
    exact .cons hb ha

-- A step visits the first node of the recursive order of the stack.
theorem next (h : Preorder t w.stack nodes) (hs : w.next? t = some (n, w')) :
    ∃ rest, nodes = n :: rest ∧ Preorder t w'.stack rest := by
  obtain ⟨roots, hw, hw'⟩ := Walk.next?_eq_some_iff.mp hs
  exact hw' ▸ cons_iff.mp (hw ▸ h)

theorem eq_nil_of_next? (h : Preorder t w.stack nodes) (hs : w.next? t = none) : nodes = [] := by
  rw [Walk.next?_eq_none_iff.mp hs] at h
  exact h.unique .nil

theorem visited_eq_take (h : Preorder t w.stack nodes) (k : Nat) : Walk.visited t k w = nodes.take k := by
  induction k generalizing w nodes
  case zero => rfl
  case succ k ih =>
    cases hs : w.next? t
    case none => simp [Walk.visited, hs, h.eq_nil_of_next? hs]
    case some =>
      obtain ⟨rest, rfl, hr⟩ := h.next hs
      simp [Walk.visited, hs, ih hr]

end Preorder

namespace WellFormed

variable (hw : WellFormed t.root t.records)
include hw

theorem exists_preorder : ∀ n ∈ t, ∃ nodes, Preorder t [n] nodes := by
  refine hw.ascend fun n hn ih => ?_
  -- The orders of the children, one after the other, are the order of their list.
  have hf : ∀ l : List Node, (∀ m ∈ l, ∃ nodes, Preorder t [m] nodes) → ∃ nodes, Preorder t l nodes := by
    intro l hl
    induction l
    case nil => exact ⟨[], .nil⟩
    case cons m l ih =>
      have ⟨nodes, hm⟩ := hl m List.mem_cons_self
      have ⟨nodes', hl⟩ := ih fun m hm => hl m <| List.mem_cons_of_mem _ hm
      exact ⟨_, hm.append hl⟩
  have ⟨below, hb⟩ := hf _ ih
  exact ⟨_, .cons hb .nil⟩

theorem mem_preorder_iff (h : Preorder t roots nodes) (hr : ∀ r ∈ roots, r ∈ t) :
    m ∈ nodes ↔ m ∈ t ∧ ∃ r ∈ roots, t.Below r m := by
  induction h
  case nil => simp
  case cons n roots below after _ _ ihb ih =>
    have ⟨hn, hr⟩ := List.forall_mem_cons.mp hr
    have hc : ∀ c ∈ t.children n, c ∈ t := fun _ => mem_of_mem_children
    simp only [List.cons_append, List.mem_cons, List.mem_append, ihb hc, ih hr, exists_eq_or_imp]
    constructor
    case mp =>
      rintro (h | ⟨hm, h⟩ | ⟨hm, h⟩)
      · exact ⟨h ▸ hn, .inl <| h ▸ below_refl ..⟩
      · exact ⟨hm, .inl <| (hw.below_iff_children hn hm).mpr (.inr h)⟩
      · exact ⟨hm, .inr h⟩
    case mpr =>
      rintro ⟨hm, h | h⟩
      · cases (hw.below_iff_children hn hm).mp h
        case inl h => exact .inl h
        case inr h => exact .inr <| .inl ⟨hm, h⟩
      · exact .inr <| .inr ⟨hm, h⟩

theorem preorder_nodup (h : Preorder t roots nodes) (hr : ∀ r ∈ roots, r ∈ t) (ha : roots.Pairwise t.Apart) :
    nodes.Nodup := by
  induction h
  case nil => exact List.nodup_nil
  case cons n roots below after hb hs ihb ih =>
    have ⟨hn, hr⟩ := List.forall_mem_cons.mp hr
    have ⟨ha, hp⟩ := List.pairwise_cons.mp ha
    have hc : ∀ c ∈ t.children n, c ∈ t := fun _ => mem_of_mem_children
    have hnb : n ∉ below := by
      rw [hw.mem_preorder_iff hb hc]
      rintro ⟨_, c, hc, h⟩
      exact hw.not_below_of_mem_children hn hc h
    have hna : ∀ m ∈ n :: below, m ∉ after := by
      intro m hm ha'
      have hm : t.Below n m := by
        cases hm
        case head    => exact below_refl ..
        case tail hm =>
          have ⟨hm, h⟩ := (hw.mem_preorder_iff hb hc).mp hm
          exact (hw.below_iff_children hn hm).mpr (.inr h)
      have ⟨_, r, hr, h⟩ := (hw.mem_preorder_iff hs hr).mp ha'
      exact (ha r hr).not_below hm h
    refine List.nodup_append.mpr ⟨?_, ih hr hp, fun a ha b hb he => hna a ha (he ▸ hb)⟩
    exact List.nodup_cons.mpr ⟨hnb, ihb hc (hw.children_apart hn)⟩

-- A parent comes before its children.
theorem parent_before (h : Preorder t roots nodes) (hr : ∀ r ∈ roots, r ∈ t) :
    ∀ m ∈ nodes, m ∈ roots ∨ ∃ p, t.parent? m = some p ∧ [p, m].Sublist nodes := by
  induction h
  case nil => simp
  case cons n roots below after hb hs ihb ih =>
    have ⟨hn, hr⟩ := List.forall_mem_cons.mp hr
    have hc : ∀ c ∈ t.children n, c ∈ t := fun _ => mem_of_mem_children
    intro m hm
    simp only [List.cons_append, List.mem_cons, List.mem_append] at hm
    obtain hm | hm | hm := hm
    · exact .inl <| hm ▸ List.mem_cons_self
    · refine .inr ?_
      cases ihb hc m hm
      case inl h =>
        refine ⟨n, hw.parent?_of_mem_children hn h, .cons_cons _ ?_⟩
        exact List.singleton_sublist.mpr <| List.mem_append_left _ hm
      case inr h =>
        have ⟨p, hp, hs⟩ := h
        exact ⟨p, hp, (hs.trans <| List.sublist_append_left ..).cons _⟩
    · cases ih hr m hm
      case inl h => exact .inl <| List.mem_cons_of_mem _ h
      case inr h =>
        have ⟨p, hp, hs⟩ := h
        exact .inr ⟨p, hp, hs.trans <| List.sublist_append_right ..⟩

theorem preorder_length_le (h : Preorder t [n] nodes) (hn : n ∈ t) : nodes.length ≤ t.size := by
  have hr : ∀ r ∈ [n], r ∈ t := by simp [hn]
  refine length_le_size (hw.preorder_nodup h hr (List.pairwise_singleton ..)) ?_
  exact fun m hm => ((hw.mem_preorder_iff h hr).mp hm).left

-- The walk finds the whole recursive order, however many steps it is given beyond the size of the tree.
theorem preorder_visited (hn : n ∈ t) {k : Nat} (hk : t.size ≤ k) :
    Preorder t [n] (Walk.visited t k (.start n)) := by
  have ⟨nodes, h⟩ := hw.exists_preorder n hn
  have hl := hw.preorder_length_le h hn
  have hv := Preorder.visited_eq_take (w := .start n) h k
  rw [List.take_of_length_le (Nat.le_trans hl hk)] at hv
  exact hv ▸ h

theorem preorder_walk (hn : n ∈ t) : Preorder t [n] (t.preorder n) :=
  hw.preorder_visited hn (Nat.le_refl _)

theorem preorder_forest {l : List Node} (hl : ∀ m ∈ l, m ∈ t) : Preorder t l (l.flatMap t.preorder) := by
  induction l
  case nil => exact .nil
  case cons m l ih =>
    have ⟨hm, hl⟩ := List.forall_mem_cons.mp hl
    exact (hw.preorder_walk hm).append (ih hl)

theorem preorder_eq (hn : n ∈ t) : t.preorder n = n :: (t.children n).flatMap t.preorder := by
  have hc := hw.preorder_forest (fun m (hm : m ∈ t.children n) => mem_of_mem_children hm)
  simpa using (hw.preorder_walk hn).unique (.cons hc .nil)

theorem mem_walk_iff (hn : n ∈ t) : m ∈ t.preorder n ↔ m ∈ t ∧ t.Below n m := by
  simpa using hw.mem_preorder_iff (hw.preorder_walk hn) (by simp [hn])

theorem walk_nodup (hn : n ∈ t) : (t.preorder n).Nodup :=
  hw.preorder_nodup (hw.preorder_walk hn) (by simp [hn]) (List.pairwise_singleton ..)

theorem below_root (hn : n ∈ t) : t.Below t.rootNode n := by
  refine hw.descend (below_refl ..) (fun p hp h m hm => ?_) n hn
  exact h.trans <| hw.below_of_mem_children hp hm

theorem mem_walk_root_iff : m ∈ t.preorder t.rootNode ↔ m ∈ t := by
  rw [hw.mem_walk_iff rootNode_mem]
  exact and_iff_left_of_imp hw.below_root

end WellFormed
end Tree
end ScriptCheck
