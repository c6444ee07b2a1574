import ScriptCheck.Proofs.Check.Violations
import ScriptCheck.Proofs.Tree.Renumber

namespace ScriptCheck
namespace Check

variable {ρ : Type} {judge : Judge ρ} {c : Corpus ρ} {t t' : Tree} {n : Node} {e : Equiv.Perm NodeId}

-- Each value that a rule is for is judged alike in `t` and, under its new numbers, in `t'`.
def JudgedAlike (judge : Judge ρ) (c : Corpus ρ) (t t' : Tree) (f : NodeId → NodeId) : Prop :=
  ∀ n ∈ t, ∀ name a v, (name, a) ∈ n.args → t.resolve? a = some v →
    ∀ spec r, c.args[name]? = some spec → spec.rule = some r → judge r c t' (v.mapIds f) = judge r c t v

section

variable (h : t.Renumbered e t')
include h

theorem bodyViolations_renumber {spec? : Option NodeSpec} :
    bodyViolations t' spec? (n.mapIds e) = bodyViolations t spec? n := by
  have he (id : NodeId) (index : Nat) :
      entryViolations t' spec? (n.mapIds e) (e id) index = entryViolations t spec? n id index := by
    unfold entryViolations
    rw [h.node?_eq]
    cases t.node? id <;> cases spec? <;> rfl
  have hb : (n.mapIds e).bodyIds = n.bodyIds.map e := by
    simp [Node.bodyIds, Node.mapIds, Record.mapIds]
  simp only [bodyViolations, hb, List.zipIdx_map, List.flatMap_map, Prod.map, he, id_eq]

-- A leaf keeps its kind and its value, and the node that holds it keeps its kind.
omit h in
theorem typeViolations_renumber {v : Value} :
    typeViolations c (n.mapIds e) (v.mapIds e) = typeViolations c n v := by
  cases v <;> rfl

variable (hj : JudgedAlike judge c t t' e) (hn : n ∈ t)
include hj hn

omit h in
theorem ruleViolations_renumber {name : String} {a : Arg} (ha : (name, a) ∈ n.args) :
    ruleViolations judge c t' name ((t.resolve? a).map (·.mapIds e)) =
      ruleViolations judge c t name (t.resolve? a) := by
  unfold ruleViolations
  cases hs : c.args[name]?
  case none => rfl
  case some spec =>
    cases hr : spec.rule <;> cases hv : t.resolve? a
    case some.some r v =>
      have := hj n hn name a v ha hv spec r hs hr
      simp [hr, this]
    all_goals simp [hr]

theorem argViolations_renumber {name : String} {a : Arg} (ha : (name, a) ∈ n.args) :
    argViolations judge c t' (n.mapIds e) (name, a.mapIds e) = argViolations judge c t n (name, a) := by
  have hr := ruleViolations_renumber hj hn ha
  unfold argViolations
  rw [h.resolve?_eq]
  cases hv : t.resolve? a <;> simp only [hv, Option.map_none, Option.map_some] at hr ⊢
  case none => rw [hr]
  case some => rw [hr, typeViolations_renumber]

theorem nodeViolations_renumber : nodeViolations judge c t' (n.mapIds e) = nodeViolations judge c t n := by
  have ha : (n.mapIds e).args.flatMap (argViolations judge c t' (n.mapIds e)) =
      n.args.flatMap (argViolations judge c t n) := by
    have hm : (n.mapIds e).args = n.args.map fun arg => (arg.1, arg.2.mapIds e) := by
      simp [Node.args, Node.mapIds, Record.mapIds]
    rw [hm, List.flatMap_map]
    exact List.flatMap_congr fun arg hm => argViolations_renumber h hj hn hm
  have hk : (n.mapIds e).kind = n.kind := rfl
  have hs : (n.mapIds e).argNames = n.argNames := Record.argNames_mapIds
  simp only [nodeViolations, kindViolations, bodyViolations_renumber h, arityViolations, missingViolations,
    unexpectedViolations, ha, hk, hs]

omit hn in
theorem check_renumber {rs : List (Registration ρ)} (hw : Tree.WellFormed t.root t.records)
    (hw' : Tree.WellFormed t'.root t'.records) (hc : Corpus.ofRegistrations rs = .ok c) :
    t'.check judge c = (t.check judge c).map (·.mapIds e) := by
  have hv : (t'.preorder t'.rootNode).flatMap (nodeViolations judge c t') =
      (t.preorder t.rootNode).flatMap (nodeViolations judge c t) := by
    rw [h.preorder_rootNode_eq, List.flatMap_map]
    refine List.flatMap_congr fun n hn => ?_
    exact nodeViolations_renumber h hj <| hw.mem_walk_root_iff.mp hn
  rw [check_eq_verdict hw' hc, check_eq_verdict hw hc, hv, h.rootNode_eq]
  cases (t.preorder t.rootNode).flatMap (nodeViolations judge c t) <;> rfl

end

-- Renumbered records are accepted if the records are. The walk then visits the same nodes in the same order, and
-- the check ends with the same node or the same violation.
theorem renumbering_changes_nothing (root : NodeId) (records : Array Record) (s : Equiv.Perm (Fin records.size)) :
    ((∃ t', Tree.ofRecords (root.renumber s) (Tree.renumber records s) = .ok t') ↔
      ∃ t, Tree.ofRecords root records = .ok t) ∧
    ∀ t t', Tree.ofRecords root records = .ok t →
      Tree.ofRecords (root.renumber s) (Tree.renumber records s) = .ok t' →
      (t'.preorder t'.rootNode).map Node.id = (t.preorder t.rootNode).map (·.id.renumber s) ∧
      ∀ {ρ : Type} (judge : Judge ρ) (rs : List (Registration ρ)) (c : Corpus ρ),
        Corpus.ofRegistrations rs = .ok c → JudgedAlike judge c t t' (.renumber s) →
          t'.check judge c = (t.check judge c).map (·.mapIds (.renumber s)) := by
  refine ⟨Tree.isOk_ofRecords_renumber_iff, fun t t' ht ht' => ?_⟩
  have h := Tree.renumbered_of_ofRecords ht ht'
  have hw := (Tree.Obtained.records ht).wellFormed
  have hw' := (Tree.Obtained.records ht').wellFormed
  refine ⟨?_, fun judge rs c hc hj => check_renumber h hj hw hw' hc⟩
  rw [h.preorder_rootNode_eq, List.map_map]
  rfl

-- The root and the last node change places. The entry of the body that leads nowhere is reported all the same.
theorem renumbering_of_swapped :
    let records := #[
      ⟨"sequence", #[("scope", .node ⟨1⟩)], #[⟨2⟩, ⟨9⟩], none⟩,
      ⟨"wait", #[("time", .leaf ⟨"time", .integer 5, ⟨1⟩⟩)], #[], some ⟨0⟩⟩,
      ⟨"wait", #[], #[], some ⟨0⟩⟩]
    let s : Equiv.Perm (Fin 3) := Equiv.swap 0 2
    let rs : List (Registration String) := [.node "sequence" ["scope"] ["wait"], .arg "scope" [] (some "wait")]
    let judge : Judge String := fun kind _ _ v => if v.kind = kind then .ok () else .error kind
    ∃ t t' c, Tree.ofRecords ⟨0⟩ records = .ok t ∧ Tree.ofRecords ⟨2⟩ (Tree.renumber records s) = .ok t' ∧
      Corpus.ofRegistrations rs = .ok c ∧ JudgedAlike judge c t t' (.renumber s) ∧
      (t.preorder t.rootNode).map Node.id = [⟨0⟩, ⟨1⟩, ⟨2⟩] ∧
      (t'.preorder t'.rootNode).map Node.id = [⟨2⟩, ⟨1⟩, ⟨0⟩] ∧
      t'.check judge c = .error (.malformedBody "sequence" 1) := by
  intro records s rs judge
  let t : Tree := ⟨⟨0⟩, records, by decide⟩
  have ht : Tree.ofRecords ⟨0⟩ records = .ok t := by decide +kernel
  have ⟨hi, h⟩ := renumbering_changes_nothing ⟨0⟩ records s
  have ⟨t', ht'⟩ := hi.mpr ⟨t, ht⟩
  have ⟨hp, hk⟩ := h t t' ht ht'
  have ⟨c, hc⟩ : ∃ c, Corpus.ofRegistrations rs = .ok c := ⟨_, rfl⟩
  have hj : JudgedAlike judge c t t' (.renumber s) := by
    intro _ _ _ _ v
    cases v <;> intros <;> rfl
  have hv : t.check judge c = .error (.malformedBody "sequence" 1) := by
    cases hc
    decide +kernel
  refine ⟨t, t', c, ht, ht', hc, hj, by decide +kernel, ?_, ?_⟩
  case refine_1 => rw [hp]; decide +kernel
  case refine_2 => rw [hk judge rs c hc hj, hv]; rfl

end Check
end ScriptCheck
