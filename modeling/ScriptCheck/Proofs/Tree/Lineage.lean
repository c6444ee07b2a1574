import Mathlib.Logic.Relation
import ScriptCheck.Proofs.Tree.Family

namespace ScriptCheck
namespace Tree

-- The nodes from a node up to the root.
inductive Lineage (t : Tree) : Node → List Node → Prop
  | root : Lineage t t.rootNode [t.rootNode]
  | child {p m : Node} {l : List Node} : Lineage t p l → m ∈ t.children p → Lineage t m (m :: l)

-- Following parents from `m` leads to `n`. In particular every node lies below itself.
def Below (t : Tree) (n m : Node) : Prop :=
  Relation.ReflTransGen (fun m p => t.parent? m = some p) m n

variable {t : Tree} {n m p a b : Node} {l l' : List Node}

namespace Lineage

theorem mem_tree (h : Lineage t n l) : ∀ m ∈ l, m ∈ t := by
  induction h
  case root => simp [rootNode_mem]
  case child hm ih =>
    rw [List.forall_mem_cons]
    exact ⟨mem_of_mem_children hm, ih⟩

theorem head_mem (h : Lineage t n l) : n ∈ t := by
  cases h
  case root     => exact rootNode_mem
  case child hm => exact mem_of_mem_children hm

-- From any node of a lineage on, the rest is the lineage of that node.
theorem exists_suffix (h : Lineage t n l) (hm : m ∈ l) : ∃ l', Lineage t m l' ∧ l' <:+ l := by
  induction h
  case root =>
    rw [List.mem_singleton.mp hm]
    exact ⟨_, .root, List.suffix_rfl⟩
  case child hp hc ih =>
    cases hm
    case head    => exact ⟨_, .child hp hc, List.suffix_rfl⟩
    case tail hm =>
      have ⟨l', hl, hs⟩ := ih hm
      exact ⟨l', hl, hs.trans <| List.suffix_cons _ _⟩

end Lineage

theorem below_refl (t : Tree) (n : Node) : t.Below n n :=
  .refl

theorem below_iff : t.Below n m ↔ m = n ∨ ∃ p, t.parent? m = some p ∧ t.Below n p :=
  Relation.ReflTransGen.cases_head_iff

theorem Below.trans (h : t.Below n m) (h' : t.Below m p) : t.Below n p :=
  Relation.ReflTransGen.trans h' h

theorem Below.mem (h : t.Below n m) (hm : m ∈ t) : n ∈ t := by
  cases h
  case refl     => exact hm
  case tail _ h => exact mem_of_parent? h

-- Of two nodes above the same node one is above the other.
theorem Below.total (ha : t.Below a n) (hb : t.Below b n) : t.Below a b ∨ t.Below b a := by
  refine (Relation.ReflTransGen.total_of_right_unique ?_ ha hb).symm
  intro m p q hp hq
  exact Option.some.inj <| hp.symm.trans hq

-- Neither of two nodes lies below the other.
structure Apart (t : Tree) (a b : Node) : Prop where
  left  : ¬t.Below a b
  right : ¬t.Below b a

-- Nothing lies below two nodes that are apart.
theorem Apart.not_below (h : t.Apart a b) (ha : t.Below a n) : ¬t.Below b n :=
  fun hb => (ha.total hb).elim h.left h.right

theorem Apart.of_below (h : t.Apart a b) (ha : t.Below a n) : t.Apart n b where
  left  := fun hb => h.left <| ha.trans hb
  right := h.not_below ha

namespace WellFormed

variable (hw : WellFormed t.root t.records)
include hw

theorem exists_lineage : ∀ n ∈ t, ∃ l, Lineage t n l := by
  refine hw.descend ⟨_, .root⟩ ?_
  intro p _ ⟨l, hl⟩ m hm
  exact ⟨m :: l, .child hl hm⟩

theorem lineage_unique (h : Lineage t n l) (h' : Lineage t n l') : l = l' := by
  induction h generalizing l'
  case root =>
    generalize hr : t.rootNode = r at h'
    cases h'
    case root => rw [hr]
    case child p l' hp hc =>
      have := hw.parent?_of_mem_children hp.head_mem hc
      simp [←hr, hw.parent?_root] at this
  case child p m l hp hc ih =>
    have he := hw.parent?_of_mem_children hp.head_mem hc
    cases h'
    case root => simp [hw.parent?_root] at he
    case child q l' hq hc' =>
      have he' := hw.parent?_of_mem_children hq.head_mem hc'
      cases he.symm.trans he'
      rw [ih hq]

theorem lineage_nodup (h : Lineage t n l) : l.Nodup := by
  induction h
  case root => exact List.nodup_singleton _
  case child p m l hp hc ih =>
    refine List.nodup_cons.mpr ⟨fun hm => ?_, ih⟩
    have ⟨l', hl', hs⟩ := hp.exists_suffix hm
    have hlen := hs.length_le
    rw [hw.lineage_unique hl' (.child hp hc), List.length_cons] at hlen
    omega

theorem lineage_length_le (h : Lineage t n l) : l.length ≤ t.size :=
  length_le_size (hw.lineage_nodup h) h.mem_tree

-- What passes from the children of a node to the node holds of all nodes.
theorem ascend {P : Node → Prop} (step : ∀ n ∈ t, (∀ m ∈ t.children n, P m) → P n) : ∀ n ∈ t, P n := by
  -- The lineages get longer on the way down, and cannot be longer than the tree.
  have main : ∀ k n l, Lineage t n l → t.size ≤ l.length + k → P n := by
    intro k
    induction k
    case zero =>
      intro n l hl hk
      refine step n hl.head_mem fun m hm => ?_
      have := hw.lineage_length_le (.child hl hm)
      simp at this
      omega
    case succ k ih =>
      intro n l hl hk
      refine step n hl.head_mem fun m hm => ih m (m :: l) (.child hl hm) ?_
      simp
      omega
  intro n hn
  have ⟨l, hl⟩ := hw.exists_lineage n hn
  exact main t.size n l hl (Nat.le_add_left ..)

theorem below_iff_mem_lineage (h : Lineage t m l) : t.Below n m ↔ n ∈ l := by
  induction h
  case root =>
    rw [below_iff, hw.parent?_root]
    simp [eq_comm]
  case child p m l hp hc ih =>
    rw [below_iff, hw.parent?_of_mem_children hp.head_mem hc]
    simp [ih, eq_comm]

theorem below_of_mem_children (hn : n ∈ t) (h : m ∈ t.children n) : t.Below n m :=
  .single <| hw.parent?_of_mem_children hn h

theorem not_below_of_mem_children (hn : n ∈ t) (h : m ∈ t.children n) : ¬t.Below m n := by
  have ⟨l, hl⟩ := hw.exists_lineage n hn
  have hd := hw.lineage_nodup <| hl.child h
  rw [hw.below_iff_mem_lineage hl]
  exact (List.nodup_cons.mp hd).left

-- What lies below a node, other than the node itself, lies below one of its children.
theorem below_iff_children (hn : n ∈ t) (hm : m ∈ t) :
    t.Below n m ↔ m = n ∨ ∃ c ∈ t.children n, t.Below c m := by
  constructor
  case mp =>
    intro h
    cases h
    case refl => exact .inl rfl
    case tail c h hc =>
      have hc := hw.mem_children_iff (Below.mem h hm) hn |>.mpr hc
      exact .inr ⟨c, hc, h⟩
  case mpr =>
    intro h
    cases h
    case inl h => exact h ▸ below_refl ..
    case inr h =>
      have ⟨c, hc, h⟩ := h
      exact hw.below_of_mem_children hn hc |>.trans h

theorem not_below_sibling (hn : n ∈ t) (ha : a ∈ t.children n) (hb : b ∈ t.children n) (h : a ≠ b) :
    ¬t.Below a b := by
  rw [below_iff, hw.parent?_of_mem_children hn hb]
  simp [h.symm, hw.not_below_of_mem_children hn ha]

theorem children_apart (hn : n ∈ t) : (t.children n).Pairwise t.Apart := by
  refine (children_nodup hw.held_once hn).imp_of_mem fun ha hb h => ?_
  exact ⟨hw.not_below_sibling hn ha hb h, hw.not_below_sibling hn hb ha h.symm⟩

end WellFormed
end Tree
end ScriptCheck
