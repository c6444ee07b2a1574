import ScriptCheck.Check.Basic
import ScriptCheck.Check.Violations
import ScriptCheck.Proofs.Corpus.Registration
import ScriptCheck.Proofs.Tree.Walk

namespace ScriptCheck
namespace Check

variable {ρ : Type} {judge : Judge ρ} {c : Corpus ρ} {t : Tree} {n : Node} {spec : NodeSpec}

theorem checkBody_eq_verdict : checkBody t spec n = verdict (bodyViolations t (some spec) n) := by
  refine forM_eq_verdict fun (id, index) _ => ?_
  dsimp only [entryViolations]
  cases t.node? id
  case none => rfl
  case some child => by_cases h : child.kind ∈ spec.body <;> simp [h, NodeSpec.allowsBody, verdict]

-- A list of names that has all the required ones is longer by as many as it has others.
theorem length_eq_add_length_filter {names required : List String} (hn : names.Nodup) (hr : required.Nodup)
    (hs : required ⊆ names) : names.length = required.length + (names.filter (· ∉ required)).length := by
  have hp : (names.filter (· ∈ required)).Perm required := by
    refine (List.perm_ext_iff_of_nodup (hn.filter _) hr).mpr fun name => ?_
    simpa using @hs name
  have hl := List.length_eq_length_filter_add (l := names) (· ∈ required)
  simpa [hp.length_eq] using hl

theorem length_eq_iff_filter_eq_nil {names required : List String} (hn : names.Nodup) (hr : required.Nodup)
    (hs : required ⊆ names) : names.length = required.length ↔ names.filter (· ∉ required) = [] := by
  rw [length_eq_add_length_filter hn hr hs, Nat.add_eq_left, List.length_eq_zero_iff]

theorem length_args (n : Node) : n.args.length = n.argNames.length := by
  simp [Node.args, Node.argNames, Record.argNames]

theorem checkArity_eq_verdict (hn : n.argNames.Nodup) (hs : spec.args.Nodup) :
    checkArity spec n = verdict (arityViolations spec n) := by
  have hf : spec.args.find? (! n.hasArg ·) = (spec.args.filter (· ∉ n.argNames)).head? := by
    simp [Node.hasArg_eq_decide]
  rw [checkArity, arityViolations, missingViolations, unexpectedViolations, hf]
  cases hm : spec.args.filter (· ∉ n.argNames)
  case cons => rfl
  case nil =>
    -- No name is missing, so the numbers of names decide whether there are others.
    have hr : spec.args ⊆ n.argNames := fun _ h => by simpa using List.filter_eq_nil_iff.mp hm _ h
    have he : n.argNames.filter (! spec.allowsArg ·) = n.argNames.filter (· ∉ spec.args) := by
      simp [NodeSpec.allowsArg]
    simp only [List.head?_nil, length_args, length_eq_iff_filter_eq_nil hn hs hr, he]
    cases n.argNames.filter (· ∉ spec.args) <;> rfl

-- The kind of a leaf's parent is the kind of the node that holds the leaf.
theorem checkType_eq_verdict (hn : n ∈ t) {v : Value} (hv : ∀ l, v = .leaf l → l.parent = n.id) :
    checkType c t n v = verdict (typeViolations c n v) := by
  cases v
  case node => rfl
  case leaf l =>
    rw [checkType, typeViolations, Corpus.arg, hv l rfl, Tree.mem_iff_node?.mp hn]
    cases c.args[l.kind]?
    case none      => rfl
    case some spec => by_cases h : l.value.type ∈ spec.types <;> simp [h, verdict]

-- What the entry for the name of an argument says about a value.
def ruling (judge : Judge ρ) (c : Corpus ρ) (t : Tree) (name : String) (v : Value) : Except Violation Unit := do
  let spec ← c.arg name
  spec.rule.elim (.ok ()) fun r => (judge r c t v).mapError (.refused name)

theorem checkArg_eq_ruling {arg : String × Arg} {v : Value} (h : t.resolve? arg.2 = some v) :
    checkArg judge c t n arg = checkType c t n v >>= fun _ => ruling judge c t arg.1 v := by
  rw [checkArg, vet, h]
  dsimp only
  cases checkType c t n v
  case error => rfl
  case ok =>
    simp only [ok_bind, ruling]
    cases c.arg arg.1
    case error   => rfl
    case ok spec =>
      simp only [ok_bind, pure_bind]
      cases spec.rule <;> rfl

theorem ruling_eq_verdict {name : String} {v : Value} :
    ruling judge c t name v = verdict (ruleViolations judge c t name (some v)) := by
  rw [ruling, Corpus.arg, ruleViolations]
  cases c.args[name]?
  case none      => rfl
  case some spec =>
    simp only [Option.elim_some, ok_bind]
    cases spec.rule
    case none   => rfl
    case some r =>
      dsimp only [Option.elim_some]
      cases judge r c t v <;> rfl

theorem checkArg_eq_verdict (hn : n ∈ t) {arg : String × Arg} (ha : ∀ l, arg.2 = .leaf l → l.parent = n.id) :
    checkArg judge c t n arg = verdict (argViolations judge c t n arg) := by
  cases hv : t.resolve? arg.2
  case none =>
    rw [checkArg, vet, argViolations, hv]
    rfl
  case some v =>
    have hl : ∀ l, v = .leaf l → l.parent = n.id :=
      fun l hl => ha l <| t.resolve?_eq_leaf_iff.mp (hl ▸ hv)
    simp only [checkArg_eq_ruling hv, argViolations, hv, verdict_append, checkType_eq_verdict hn hl, ruling_eq_verdict]

section

variable {rs : List (Registration ρ)}
variable (hw : Tree.WellFormed t.root t.records) (hc : Corpus.ofRegistrations rs = .ok c)
include hw hc

theorem checkNode_eq_verdict (hn : n ∈ t) : checkNode judge c t n = verdict (nodeViolations judge c t n) := by
  have hr := Tree.mem_iff_record.mp hn
  have ha : n.args.forM (checkArg judge c t n) = verdict (n.args.flatMap (argViolations judge c t n)) := by
    refine forM_eq_verdict fun (name, a) hm => checkArg_eq_verdict hn ?_
    rintro l rfl
    exact hw.leaf_parent hr (Array.mem_toList_iff.mp hm)
  rw [checkNode, checkOutline, Corpus.node, ha, nodeViolations]
  cases hs : c.nodes[n.kind]?
  case none => rfl
  case some spec =>
    have hn : n.argNames.Nodup := hw.names_nodup _ (Array.mem_of_getElem? hr)
    have ha := checkArity_eq_verdict hn (Corpus.args_nodup hc hs)
    simp [kindViolations, verdict_append, checkBody_eq_verdict, ha]

theorem check_eq_verdict :
    t.check judge c =
      verdict ((t.preorder t.rootNode).flatMap (nodeViolations judge c t)) >>= fun _ => .ok t.rootNode := by
  have hn : ∀ n ∈ t.preorder t.rootNode, checkNode judge c t n = verdict (nodeViolations judge c t n) :=
    fun _ hn => checkNode_eq_verdict hw hc (hw.mem_walk_root_iff.mp hn)
  rw [Tree.check, Tree.travel_eq_forM, forM_eq_verdict hn]
  rfl

theorem check_eq_error_iff {v : Violation} :
    t.check judge c = .error v ↔
      ((t.preorder t.rootNode).flatMap (nodeViolations judge c t)).head? = some v := by
  rw [check_eq_verdict hw hc, verdict_bind_eq_error_iff]

theorem check_eq_ok_iff :
    t.check judge c = .ok n ↔
      n = t.rootNode ∧ (t.preorder t.rootNode).flatMap (nodeViolations judge c t) = [] := by
  rw [check_eq_verdict hw hc, verdict_bind_eq_ok_iff]

end

theorem kind_of_mem_kindViolations {spec? : Option NodeSpec} {v : Violation} (h : v ∈ kindViolations spec? n) :
    v.kind = .unknownKind := by
  cases spec?
  case none   => exact List.mem_singleton.mp h ▸ rfl
  case some _ => contradiction

theorem kind_of_mem_bodyViolations {spec? : Option NodeSpec} {v : Violation} (h : v ∈ bodyViolations t spec? n) :
    v.kind = .malformedBody ∨ v.kind = .invalidBodyChild := by
  have ⟨(id, index), _, h⟩ := List.mem_flatMap.mp h
  dsimp only [entryViolations] at h
  split at h
  case h_1 => exact .inl (List.mem_singleton.mp h ▸ rfl)
  case h_2 => contradiction
  case h_3 =>
    split at h
    case isTrue  => contradiction
    case isFalse => exact .inr (List.mem_singleton.mp h ▸ rfl)

theorem kind_of_mem_arityViolations {v : Violation} (h : v ∈ arityViolations spec n) :
    v.kind = .missingArgument ∨ v.kind = .unexpectedArguments := by
  cases List.mem_append.mp h
  case inl h =>
    have ⟨_, _, h⟩ := List.mem_map.mp h
    exact .inl (h ▸ rfl)
  case inr h =>
    rw [unexpectedViolations] at h
    split at h
    case h_1 => contradiction
    case h_2 => exact .inr (List.mem_singleton.mp h ▸ rfl)

theorem kind_of_mem_ruleViolations {name : String} {v? : Option Value} {v : Violation}
    (h : v ∈ ruleViolations judge c t name v?) : v.kind = .unknownKind ∨ v.kind = .refused := by
  rw [ruleViolations] at h
  split at h
  case h_1 => exact .inl (List.mem_singleton.mp h ▸ rfl)
  case h_2 =>
    split at h
    case h_2 => contradiction
    case h_1 =>
      split at h
      case h_1 => contradiction
      case h_2 => exact .inr (List.mem_singleton.mp h ▸ rfl)

variable {leafKind parentKind : String} {allowed : List ScalarType} {actual : ScalarType}

theorem leaf_of_mem_typeViolations {v : Value}
    (h : .invalidLeafType leafKind parentKind allowed actual ∈ typeViolations c n v) :
    ∃ l, v = .leaf l ∧ n.kind = parentKind ∧ l.kind = leafKind ∧ l.value.type = actual := by
  cases v
  case node   => contradiction
  case leaf l =>
    rw [typeViolations] at h
    split at h
    case h_1 => cases List.mem_singleton.mp h
    case h_2 =>
      split at h
      case isTrue  => contradiction
      case isFalse =>
        cases List.mem_singleton.mp h
        exact ⟨l, rfl, rfl, rfl, rfl⟩

-- The type of a leaf is reported with the kind of the node that holds the leaf.
theorem leaf_of_mem_nodeViolations
    (h : .invalidLeafType leafKind parentKind allowed actual ∈ nodeViolations judge c t n) :
    n.kind = parentKind ∧ ∃ name l, (name, .leaf l) ∈ n.args ∧ l.kind = leafKind ∧ l.value.type = actual := by
  have hr {name v?} : .invalidLeafType leafKind parentKind allowed actual ∉ ruleViolations judge c t name v? :=
    fun h => by cases kind_of_mem_ruleViolations h <;> contradiction
  simp only [nodeViolations, List.mem_append, List.mem_flatMap] at h
  obtain ((h | h) | ⟨_, _, h⟩) | ⟨⟨name, a⟩, ha, h⟩ := h
  · exact nomatch kind_of_mem_kindViolations h
  · cases kind_of_mem_bodyViolations h <;> contradiction
  · cases kind_of_mem_arityViolations h <;> contradiction
  · rw [argViolations] at h
    split at h
    case h_1      => exact absurd ((List.mem_cons.mp h).resolve_left nofun) hr
    case h_2 v hv =>
      have ⟨l, hl, hk, h⟩ := leaf_of_mem_typeViolations <| (List.mem_append.mp h).resolve_right hr
      have he : a = .leaf l := t.resolve?_eq_leaf_iff.mp (hl ▸ hv)
      exact ⟨hk, name, l, he ▸ ha, h⟩

theorem check_reports_first_violation {rs : List (Registration ρ)} (ht : t.Obtained)
    (hc : Corpus.ofRegistrations rs = .ok c) :
    ∃ nodes, (∀ l, t.Preorder [t.rootNode] l ↔ l = nodes) ∧
      (∀ v, t.check judge c = .error v ↔ (nodes.flatMap (nodeViolations judge c t)).head? = some v) ∧
      (∀ n, t.check judge c = .ok n ↔ n = t.rootNode ∧ nodes.flatMap (nodeViolations judge c t) = []) ∧
      ∀ leafKind parentKind allowed actual,
        t.check judge c = .error (.invalidLeafType leafKind parentKind allowed actual) →
          ∃ n ∈ t, n.kind = parentKind ∧
            ∃ name l, (name, .leaf l) ∈ n.args ∧ l.kind = leafKind ∧ l.value.type = actual := by
  have hw := ht.wellFormed
  have hp := hw.preorder_walk Tree.rootNode_mem
  refine ⟨t.preorder t.rootNode, ?_, fun v => check_eq_error_iff hw hc, fun n => check_eq_ok_iff hw hc, ?_⟩
  · exact fun l => ⟨fun h => h.unique hp, fun h => h ▸ hp⟩
  · intro leafKind parentKind allowed actual h
    have ⟨n, hn, h⟩ := List.mem_flatMap.mp <| List.mem_of_head? ((check_eq_error_iff hw hc).mp h)
    exact ⟨n, hw.mem_walk_root_iff.mp hn, leaf_of_mem_nodeViolations h⟩

-- A script with seven violations, of which the body of its root has the first.
theorem check_reports_body_first :
    let rs : List (Registration String) := [.node "sequence" ["label"] ["wait"], .arg "label" [.string] (some "long")]
    let judge : Judge String := fun r _ _ _ => .error r
    let t := ((Draft.start "sequence").applyAll [
      .leaf ⟨0⟩ "label" "label" (.integer 5), .leaf ⟨0⟩ "speed" "speed" (.boolean true), .body ⟨0⟩ "sequence"]).build
    let v := Violation.invalidBodyChild "sequence" "sequence" 0 ["wait"]
    ∃ c, Corpus.ofRegistrations rs = .ok c ∧ t.check judge c = .error v ∧
      ∃ nodes, t.Preorder [t.rootNode] nodes ∧ (nodes.flatMap (nodeViolations judge c t)).head? = some v := by
  intro rs judge t v
  let c : Corpus String := {
    nodes := .insert ∅ "sequence" ⟨["label"], ["wait"]⟩
    args  := .insert ∅ "label" ⟨[.string], some "long"⟩ }
  have hc : Corpus.ofRegistrations rs = .ok c := rfl
  have hv : t.check judge c = .error v := by decide +kernel
  have ht : t.Obtained := .draft ..
  have ⟨nodes, hn, he, _⟩ := @check_reports_first_violation _ judge _ _ _ ht hc
  exact ⟨c, hc, hv, nodes, (hn nodes).mpr rfl, (he v).mp hv⟩

end Check
end ScriptCheck
