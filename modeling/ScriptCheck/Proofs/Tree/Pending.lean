import ScriptCheck.Proofs.Tree.Walk

namespace ScriptCheck

namespace Walk

-- The walk that at most `k` steps lead to. A walk that is over stays as it is.
def after (t : Tree) : Nat → Walk → Walk
  | 0,     w => w
  | k + 1, w =>
    match w.next? t with
    | none         => w
    | some (_, w') => after t k w'

-- A walk that still has `rest` to visit.
structure Pending (t : Tree) (w : Walk) (rest : List Node) : Prop where
  mem   : ∀ n ∈ w.stack, n ∈ t
  apart : w.stack.Pairwise t.Apart
  order : t.Preorder w.stack rest

namespace Pending

variable {t : Tree} {w w' : Walk} {n : Node} {rest : List Node}

theorem start (hn : n ∈ t) (h : t.Preorder [n] rest) : Pending t (.start n) rest where
  mem   := List.forall_mem_singleton.mpr hn
  apart := List.pairwise_singleton ..
  order := h

variable (hw : Tree.WellFormed t.root t.records)
include hw

-- The children of the node that is visited take its place: they are apart from each other, and lie below a node that
-- was apart from all others.
theorem step (h : Pending t w rest) (hs : w.next? t = some (n, w')) :
    ∃ rest', rest = n :: rest' ∧ Pending t w' rest' := by
  have ⟨others, hst, hst'⟩ := next?_eq_some_iff.mp hs
  have ⟨hn, hm⟩ := List.forall_mem_cons.mp (hst ▸ h.mem)
  have ⟨ha, hp⟩ := List.pairwise_cons.mp (hst ▸ h.apart)
  have ⟨rest', he, ho⟩ := h.order.next hs
  refine ⟨rest', he, ?mem, ?apart, ho⟩
  case mem =>
    rw [hst', List.forall_mem_append]
    exact ⟨fun _ => Tree.mem_of_mem_children, hm⟩
  case apart =>
    rw [hst', List.pairwise_append]
    refine ⟨hw.children_apart hn, hp, fun c hc m hm => ?_⟩
    exact (ha m hm).of_below <| hw.below_of_mem_children hn hc

theorem after (h : Pending t w rest) (k : Nat) : Pending t (w.after t k) (rest.drop k) := by
  induction k generalizing w rest
  case zero => exact h
  case succ k ih =>
    cases hs : w.next? t
    case none =>
      have he := h.order.eq_nil_of_next? hs
      simpa [Walk.after, hs, he] using he ▸ h
    case some =>
      obtain ⟨rest', rfl, hr⟩ := h.step hw hs
      simpa [Walk.after, hs] using ih hr

-- What has been visited comes first in the order, and what is on the stack leads to all that comes after it.
theorem preorder_stack_iff (h : Pending t w rest) (k : Nat) {nodes : List Node} :
    t.Preorder (w.after t k).stack nodes ↔ w.visited t k ++ nodes = rest := by
  have hd := (h.after hw k).order
  have hv : w.visited t k ++ rest.drop k = rest := by rw [h.order.visited_eq_take, List.take_append_drop]
  constructor
  case mp =>
    intro hn
    rw [hn.unique hd, hv]
  case mpr =>
    intro he
    exact List.append_cancel_left (he.trans hv.symm) ▸ hd

-- No node occurs twice in the order, and what has been visited and what is on the stack are different parts of it.
theorem ids_nodup (h : Pending t w rest) (k : Nat) :
    ((w.visited t k ++ (w.after t k).stack).map Node.id).Nodup := by
  have hd := (h.after hw k).order
  have hs := hd.roots_sublist.append_left (w.visited t k)
  rw [(h.preorder_stack_iff hw k).mp hd] at hs
  have hm : ∀ m ∈ rest, m ∈ t := fun m hm => (hw.mem_preorder_iff h.order h.mem).mp hm |>.left
  refine (hw.preorder_nodup h.order h.mem h.apart).sublist hs |>.map_on fun a ha b hb => ?_
  exact Tree.eq_of_id_eq (hm a <| hs.subset ha) (hm b <| hs.subset hb)

end Pending
end Walk

-- A visitor keeps a state from call to call and may reject a node.
abbrev Visitor (σ ε : Type) :=
  Node → ExceptT ε (StateM σ) Unit

namespace Visitor

-- `Accepts visit s nodes s'` says that the visitor accepts all of `nodes`, one after the other, and that its state
-- changes from `s` to `s'` meanwhile.
inductive Accepts {σ ε : Type} (visit : Visitor σ ε) : σ → List Node → σ → Prop
  | nil {s : σ} : Accepts visit s [] s
  | cons {s s' s'' : σ} {n : Node} {nodes : List Node} :
    (visit n).run.run s = (.ok (), s') → Accepts visit s' nodes s'' → Accepts visit s (n :: nodes) s''

-- `Outcome visit s nodes calls r s'` says how a visitor in state `s` fares on `nodes` if the first node that it rejects
-- is the last one it is called on: the calls are on `calls`, the answer is `r`, and the state is `s'` then.
inductive Outcome {σ ε : Type} (visit : Visitor σ ε) (s : σ) (nodes : List Node) :
    List Node → Except ε Unit → σ → Prop
  | all {s' : σ} : Accepts visit s nodes s' → Outcome visit s nodes nodes (.ok ()) s'
  | stop {before after : List Node} {n : Node} {s' s'' : σ} {e : ε} :
    nodes = before ++ n :: after → Accepts visit s before s' → (visit n).run.run s' = (.error e, s'') →
    Outcome visit s nodes (before ++ [n]) (.error e) s''

variable {σ ε : Type} {visit : Visitor σ ε} {s s' s'' : σ} {n : Node} {nodes calls : List Node}
variable {r : Except ε Unit} {e : ε}

-- The visitor that also lists the nodes it is called on.
def listing (visit : Visitor σ ε) : Visitor (List Node × σ) ε := fun n =>
  ExceptT.mk <| modifyGet fun state =>
    let answer := (visit n).run.run state.2
    (answer.1, state.1 ++ [n], answer.2)

theorem run_listing (calls : List Node) (h : (visit n).run.run s = (r, s')) :
    (visit.listing n).run.run (calls, s) = (r, calls ++ [n], s') := by
  have hl : (visit.listing n).run.run (calls, s) =
      (((visit n).run.run s).1, calls ++ [n], ((visit n).run.run s).2) := rfl
  rw [hl, h]

theorem run_forM_of_ok (nodes : List Node) (h : (visit n).run.run s = (.ok (), s')) :
    ((n :: nodes).forM visit).run.run s = (nodes.forM visit).run.run s' :=
  run_bind_of_ok _ h

theorem run_forM_of_error (nodes : List Node) (h : (visit n).run.run s = (.error e, s')) :
    ((n :: nodes).forM visit).run.run s = (.error e, s') :=
  run_bind_of_error _ h

namespace Accepts

theorem run_forM_append (h : visit.Accepts s nodes s') (rest : List Node) :
    ((nodes ++ rest).forM visit).run.run s = (rest.forM visit).run.run s' := by
  induction h
  case nil          => rfl
  case cons hn _ ih => rw [List.cons_append, run_forM_of_ok _ hn, ih]

theorem listing (h : visit.Accepts s nodes s') (calls : List Node) :
    visit.listing.Accepts (calls, s) nodes (calls ++ nodes, s') := by
  induction h generalizing calls
  case nil              => simpa using Accepts.nil
  case cons n _ hn _ ih => simpa using Accepts.cons (run_listing calls hn) (ih (calls ++ [n]))

end Accepts

namespace Outcome

theorem run_forM (h : visit.Outcome s nodes calls r s') : (nodes.forM visit).run.run s = (r, s') := by
  cases h
  case all ha =>
    have h := ha.run_forM_append []
    rwa [List.append_nil] at h
  case stop he ha hn => rw [he, ha.run_forM_append, run_forM_of_error _ hn]

theorem listing (h : visit.Outcome s nodes calls r s') : visit.listing.Outcome ([], s) nodes calls r (calls, s') := by
  cases h
  case all ha        => exact .all <| ha.listing []
  case stop he ha hn => exact .stop he (ha.listing []) (run_listing _ hn)

theorem cons (h : visit.Outcome s' nodes calls r s'') (hn : (visit n).run.run s = (.ok (), s')) :
    visit.Outcome s (n :: nodes) (n :: calls) r s'' := by
  cases h
  case all ha        => exact .all <| .cons hn ha
  case stop he ha hm => exact .stop (by rw [he, List.cons_append]) (.cons hn ha) hm

end Outcome

theorem exists_outcome (visit : Visitor σ ε) (s : σ) (nodes : List Node) :
    ∃ calls r s', visit.Outcome s nodes calls r s' := by
  induction nodes generalizing s
  case nil => exact ⟨[], _, _, .all .nil⟩
  case cons n nodes ih =>
    cases hn : (visit n).run.run s
    case mk r s' =>
      cases r
      case error e => exact ⟨_, _, _, .stop (List.nil_append _).symm .nil hn⟩
      case ok      =>
        have ⟨_, _, _, h⟩ := ih s'
        exact ⟨_, _, _, h.cons hn⟩

theorem run_forM_iff :
    (nodes.forM visit).run.run s = (r, s') ↔ ∃ calls, visit.Outcome s nodes calls r s' := by
  constructor
  case mp =>
    intro h
    have ⟨calls, _, _, ho⟩ := visit.exists_outcome s nodes
    cases ho.run_forM.symm.trans h
    exact ⟨calls, ho⟩
  case mpr => exact fun ⟨_, ho⟩ => ho.run_forM

theorem run_forM_listing_iff :
    (nodes.forM visit.listing).run.run ([], s) = (r, calls, s') ↔ visit.Outcome s nodes calls r s' := by
  constructor
  case mp =>
    intro h
    have ⟨_, _, _, ho⟩ := visit.exists_outcome s nodes
    cases ho.listing.run_forM.symm.trans h
    exact ho
  case mpr => exact fun ho => ho.listing.run_forM

end Visitor

namespace Tree

variable {t : Tree} {n : Node}

theorem walk_at_every_step (ht : t.Obtained) (hn : n ∈ t) :
    ∃ order, (∀ nodes, t.Preorder [n] nodes ↔ nodes = order) ∧
      (∀ k,
        let seen  := Walk.visited t k (.start n)
        let stack := (Walk.after t k (.start n)).stack
        ((seen ++ stack).map Node.id).Nodup ∧ stack.Pairwise t.Apart ∧ seen = order.take k ∧
        ∀ rest, t.Preorder stack rest ↔ seen ++ rest = order) ∧
      ∀ {σ ε : Type} (visit : Visitor σ ε) (s : σ) (r : Except ε Unit) (s' : σ),
        ((t.travel visit n).run.run s = (r, s') ↔ ∃ calls, visit.Outcome s order calls r s') ∧
        ∀ calls, (t.travel visit.listing n).run.run ([], s) = (r, calls, s') ↔ visit.Outcome s order calls r s' := by
  have hw := ht.wellFormed
  have hp := hw.preorder_walk hn
  refine ⟨t.preorder n, fun nodes => ⟨fun h => h.unique hp, fun h => h ▸ hp⟩, fun k => ?_, fun visit s r s' => ?_⟩
  · have h := Walk.Pending.start hn hp
    exact ⟨h.ids_nodup hw k, (h.after hw k).apart, h.order.visited_eq_take k, fun _ => h.preorder_stack_iff hw k⟩
  · rw [travel_eq_forM, travel_eq_forM]
    exact ⟨Visitor.run_forM_iff, fun _ => Visitor.run_forM_listing_iff⟩

-- After three steps nodes of three levels are on the stack. The visitor counts its calls and rejects the next node.
theorem walk_at_every_step_of_nested_loop :
    let t := ((Draft.start "sequence").applyAll [
      .body ⟨0⟩ "wait", .node ⟨0⟩ "setup" "loop", .body ⟨2⟩ "move", .node ⟨2⟩ "count" "sum", .body ⟨4⟩ "term"]).build
    let visit : Visitor Nat String := fun n => do
      modify (· + 1)
      if n.kind = "term" then throw n.kind
    t.rootNode ∈ t ∧ (Walk.after t 3 (.start t.rootNode)).stack.map Node.kind = ["term", "move", "wait"] ∧
      (Walk.after t 3 (.start t.rootNode)).stack.Pairwise t.Apart ∧
      ∃ order calls, t.Preorder [t.rootNode] order ∧ calls.map Node.kind = ["sequence", "loop", "sum", "term"] ∧
        visit.Outcome 0 order calls (.error "term") 4 := by
  intro t visit
  have hc : @Eq (Except String Unit × List Node × Nat) ((t.travel visit.listing t.rootNode).run.run ([], 0))
      (.error "term", (t.preorder t.rootNode).take 4, 4) := by decide +kernel
  have ⟨order, ho, hk, hv⟩ := walk_at_every_step (.draft ..) (rootNode_mem (t := t))
  refine ⟨rootNode_mem, by decide +kernel, (hk 3).right.left, order, (t.preorder t.rootNode).take 4, ?_, ?_, ?_⟩
  · exact (ho order).mpr rfl
  · decide +kernel
  · exact (hv visit 0 _ _).right _ |>.mp hc

end Tree
end ScriptCheck
