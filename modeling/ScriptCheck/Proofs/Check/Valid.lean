import ScriptCheck.Check.Valid
import ScriptCheck.Proofs.Check.Violations

namespace ScriptCheck
namespace Check

variable {ρ : Type} {judge : Judge ρ} {c : Corpus ρ} {t : Tree} {n : Node} {spec : NodeSpec}

theorem bodyViolations_eq_nil_iff :
    bodyViolations t (some spec) n = [] ↔
      ∀ id ∈ n.bodyIds, ∃ child, t.node? id = some child ∧ child.kind ∈ spec.body := by
  have h (id : NodeId) (index : Nat) : entryViolations t (some spec) n id index = [] ↔
      ∃ child, t.node? id = some child ∧ child.kind ∈ spec.body := by
    dsimp only [entryViolations]
    cases t.node? id <;> simp
  simp only [bodyViolations, List.flatMap_eq_nil_iff, Prod.forall, h]
  constructor
  case mp =>
    intro h id hm
    have ⟨index, hi⟩ := List.mem_iff_getElem?.mp hm
    exact h id index (List.mem_zipIdx_iff_getElem?.mpr hi)
  case mpr => exact fun h id _ hm => h id (List.fst_mem_of_mem_zipIdx hm)

theorem arityViolations_eq_nil_iff :
    arityViolations spec n = [] ↔ ∀ name, name ∈ n.argNames ↔ name ∈ spec.args := by
  have hu : unexpectedViolations spec n = [] ↔ n.argNames.filter (· ∉ spec.args) = [] := by
    rw [unexpectedViolations]
    split <;> simp_all
  simp only [arityViolations, missingViolations, List.append_eq_nil_iff, List.map_eq_nil_iff, hu,
    List.filter_eq_nil_iff, decide_not, Bool.not_eq_true', decide_eq_false_iff_not, not_not]
  exact ⟨fun h name => ⟨h.right name, h.left name⟩, fun h => ⟨fun name => (h name).mpr, fun name => (h name).mp⟩⟩

theorem typeViolations_eq_nil_iff {v : Value} :
    typeViolations c n v = [] ↔
      ∀ l, v = .leaf l → ∃ spec, c.args[l.kind]? = some spec ∧ l.value.type ∈ spec.types := by
  cases v
  case node => simp [typeViolations]
  case leaf l =>
    simp only [typeViolations, Value.leaf.injEq, forall_eq']
    cases c.args[l.kind]? <;> simp

theorem ruleViolations_eq_nil_iff {name : String} {v : Value} :
    ruleViolations judge c t name (some v) = [] ↔
      ∃ spec, c.args[name]? = some spec ∧ ∀ r, spec.rule = some r → judge r c t v = .ok () := by
  rw [ruleViolations]
  cases c.args[name]?
  case none => simp
  case some spec =>
    cases hr : spec.rule
    case none   => simp [hr]
    case some r => cases hj : judge r c t v <;> simp [hr, hj]

theorem argViolations_eq_nil_iff {name : String} {a : Arg} :
    argViolations judge c t n (name, a) = [] ↔ ∃ v, ArgValid judge c t name a v := by
  rw [argViolations]
  cases hv : t.resolve? a
  case none =>
    simp only [reduceCtorEq, false_iff]
    rintro ⟨v, h⟩
    cases hv.symm.trans h.resolves
  case some v =>
    simp only [List.append_eq_nil_iff, typeViolations_eq_nil_iff, ruleViolations_eq_nil_iff]
    constructor
    case mp => exact fun h => ⟨v, hv, h.left, h.right⟩
    case mpr =>
      rintro ⟨v', h⟩
      cases hv.symm.trans h.resolves
      exact ⟨h.typed, h.accepted⟩

theorem nodeViolations_eq_nil_iff : nodeViolations judge c t n = [] ↔ NodeValid judge c t n := by
  have ha : n.args.flatMap (argViolations judge c t n) = [] ↔
      ∀ name a, (name, a) ∈ n.args → ∃ v, ArgValid judge c t name a v := by
    simp only [List.flatMap_eq_nil_iff, Prod.forall, argViolations_eq_nil_iff]
  rw [nodeViolations]
  cases hs : c.nodes[n.kind]?
  case none =>
    simp only [kindViolations, List.cons_append, reduceCtorEq, false_iff]
    rintro ⟨⟨_, h⟩, _⟩
    cases hs.symm.trans h.known
  case some spec =>
    simp only [kindViolations, List.nil_append, List.append_eq_nil_iff, bodyViolations_eq_nil_iff, Option.toList_some,
      List.flatMap_singleton, arityViolations_eq_nil_iff, ha]
    constructor
    case mp =>
      rintro ⟨⟨hb, hn⟩, ha⟩
      exact ⟨⟨spec, hs, hb, hn⟩, ha⟩
    case mpr =>
      rintro ⟨⟨_, h⟩, ha⟩
      cases hs.symm.trans h.known
      exact ⟨⟨h.body, h.names⟩, ha⟩

-- The references of a valid node lead to nodes.
theorem NodeValid.index_lt (h : NodeValid judge c t n) {id : NodeId} (hi : id ∈ n.record.childIds) :
    id.index < t.size := by
  refine t.node?_isSome_iff.mp ?_
  cases List.mem_append.mp hi
  case inl hi =>
    have ⟨(name, a), hm, ha⟩ := List.mem_filterMap.mp hi
    have ⟨v, hv⟩ := h.args name a hm
    cases a
    case leaf => contradiction
    case node =>
      cases ha
      have ⟨_, hn, _⟩ := Option.map_eq_some_iff.mp hv.resolves
      exact Option.isSome_of_eq_some hn
  case inr hi =>
    have ⟨_, ho⟩ := h.outline
    have ⟨_, hn, _⟩ := ho.body id hi
    exact Option.isSome_of_eq_some hn

variable {rs : List (Registration ρ)}

theorem check_eq_ok_iff_valid (hw : Tree.WellFormed t.root t.records) (hc : Corpus.ofRegistrations rs = .ok c) :
    t.check judge c = .ok n ↔ n = t.rootNode ∧ t.Valid judge c := by
  rw [check_eq_ok_iff hw hc, List.flatMap_eq_nil_iff]
  refine and_congr_right fun _ => ?_
  simp only [nodeViolations_eq_nil_iff, hw.mem_walk_root_iff]
  constructor
  case mp  => exact fun h id n hn => h n (Tree.mem_of_node? hn)
  case mpr => exact fun h n hn => h n.id n hn

theorem check_accepts_exactly_valid (ht : t.Obtained) (hc : Corpus.ofRegistrations rs = .ok c) :
    (∀ n, t.check judge c = .ok n ↔ n = t.rootNode ∧ t.Valid judge c) ∧
    (∀ i < t.size, ∃ id n, id.index = i ∧ t.node? id = some n) ∧
    (∀ n, t.check judge c = .ok n → ∀ id ∈ Tree.slots t.records, id.index < t.size) := by
  have hw := ht.wellFormed
  refine ⟨fun n => check_eq_ok_iff_valid hw hc, fun i hi => ?_, fun n hn id hs => ?_⟩
  · have ⟨n, hn, he⟩ := Tree.exists_mem_of_lt ht.size_le hi
    exact ⟨n.id, n, he, hn⟩
  · have ⟨_, hv⟩ := (check_eq_ok_iff_valid hw hc).mp hn
    have ⟨i, r, hr, hc⟩ := Tree.mem_slots.mp hs
    have ⟨m, hm, he⟩ := Tree.exists_mem_of_lt ht.size_le (Array.getElem?_eq_some_iff.mp hr).choose
    cases (he ▸ Tree.mem_iff_record.mp hm).symm.trans hr
    exact (hv m.id m hm).index_lt hc

-- A script whose rule looks at a nested node.
theorem check_accepts_nested :
    let rs : List (Registration String) := [
      .node "sequence" ["label", "scope"] ["wait"], .node "wait" [] [], .arg "label" [.string] none,
      .arg "scope" [] (some "wait")]
    let judge : Judge String := fun kind _ _ v => if v.kind = kind then .ok () else .error kind
    let t := ((Draft.start "sequence").applyAll [
      .node ⟨0⟩ "scope" "wait", .leaf ⟨0⟩ "label" "label" (.string "start"), .body ⟨0⟩ "wait"]).build
    ∃ c, Corpus.ofRegistrations rs = .ok c ∧ t.check judge c = .ok t.rootNode ∧ t.Valid judge c := by
  intro rs judge t
  let c : Corpus String := {
    nodes := .insert (.insert ∅ "sequence" ⟨["label", "scope"], ["wait"]⟩) "wait" ⟨[], []⟩
    args  := .insert (.insert ∅ "label" ⟨[.string], none⟩) "scope" ⟨[], some "wait"⟩ }
  have hc : Corpus.ofRegistrations rs = .ok c := rfl
  have ht : t.Obtained := .draft ..
  have hk : t.check judge c = .ok t.rootNode := by decide +kernel
  exact ⟨c, hc, hk, ((check_accepts_exactly_valid ht hc).left _ |>.mp hk).right⟩

end Check
end ScriptCheck
