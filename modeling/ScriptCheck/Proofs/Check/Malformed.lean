import ScriptCheck.Proofs.Check.Violations

namespace ScriptCheck
namespace Tree

variable {t : Tree} {n : Node} {id : NodeId}

-- Some argument called `name` refers to a node that is not there.
def DanglingArg (t : Tree) (name : String) : Prop :=
  ∃ n ∈ t, ∃ id, (name, .node id) ∈ n.args ∧ t.size ≤ id.index

-- Some node of the kind has a body whose entry at `index` refers to a node that is not there.
def DanglingEntry (t : Tree) (kind : String) (index : Nat) : Prop :=
  ∃ n ∈ t, n.kind = kind ∧ ∃ id, n.bodyIds[index]? = some id ∧ t.size ≤ id.index

theorem node?_eq_none_iff : t.node? id = none ↔ t.size ≤ id.index := by
  rw [←Option.not_isSome_iff_eq_none, t.node?_isSome_iff, Nat.not_lt]

theorem resolve?_eq_none_iff {a : Arg} : t.resolve? a = none ↔ ∃ id, a = .node id ∧ t.size ≤ id.index := by
  cases a <;> simp [resolve?, node?_eq_none_iff]

theorem mem_slots_of_mem_childIds (hn : n ∈ t) (h : id ∈ n.record.childIds) : id ∈ slots t.records :=
  mem_slots.mpr ⟨n.id.index, n.record, mem_iff_record.mp hn, h⟩

section

variable (h : ∀ id ∈ slots t.records, id.index < t.size)
include h

theorem not_danglingArg (name : String) : ¬t.DanglingArg name := by
  intro ⟨n, hn, id, ha, hi⟩
  have hc : id ∈ n.record.childIds := List.mem_append_left _ <| List.mem_filterMap.mpr ⟨_, ha, rfl⟩
  exact Nat.not_lt.mpr hi <| h id <| mem_slots_of_mem_childIds hn hc

theorem not_danglingEntry (kind : String) (index : Nat) : ¬t.DanglingEntry kind index := by
  intro ⟨n, hn, _, id, hb, hi⟩
  have hc : id ∈ n.record.childIds := List.mem_append_right _ <| List.mem_of_getElem? hb
  exact Nat.not_lt.mpr hi <| h id <| mem_slots_of_mem_childIds hn hc

end
end Tree

namespace Check

variable {ρ : Type} {judge : Judge ρ} {c : Corpus ρ} {t : Tree} {n : Node}

theorem kind_of_mem_typeViolations {value : Value} {v : Violation} (h : v ∈ typeViolations c n value) :
    v.kind = .unknownKind ∨ v.kind = .invalidLeafType := by
  cases value
  case node   => contradiction
  case leaf l =>
    rw [typeViolations] at h
    split at h
    case h_1 => exact .inl (List.mem_singleton.mp h ▸ rfl)
    case h_2 =>
      split at h
      case isTrue  => contradiction
      case isFalse => exact .inr (List.mem_singleton.mp h ▸ rfl)

theorem malformed_or_kind_of_mem_argViolations {arg : String × Arg} {v : Violation}
    (h : v ∈ argViolations judge c t n arg) :
    (v = .malformedArgument arg.1 ∧ t.resolve? arg.2 = none) ∨
      v.kind = .unknownKind ∨ v.kind = .invalidLeafType ∨ v.kind = .refused := by
  have hr {v?} (h : v ∈ ruleViolations judge c t arg.1 v?) :
      v.kind = .unknownKind ∨ v.kind = .invalidLeafType ∨ v.kind = .refused := by
    cases kind_of_mem_ruleViolations h
    case inl h => exact .inl h
    case inr h => exact .inr (.inr h)
  rw [argViolations] at h
  split at h
  case h_1 hv =>
    cases List.mem_cons.mp h
    case inl h => exact .inl ⟨h, hv⟩
    case inr h => exact .inr (hr h)
  case h_2 =>
    cases List.mem_append.mp h
    case inl h => exact .inr <| (kind_of_mem_typeViolations h).imp_right .inl
    case inr h => exact .inr (hr h)

theorem dangling_of_mem_bodyViolations {spec? : Option NodeSpec} {kind : String} {index : Nat}
    (h : .malformedBody kind index ∈ bodyViolations t spec? n) :
    n.kind = kind ∧ ∃ id, n.bodyIds[index]? = some id ∧ t.size ≤ id.index := by
  obtain ⟨⟨id, i⟩, hi, h⟩ := List.mem_flatMap.mp h
  simp only [entryViolations] at h
  split at h
  case h_1 hn _ =>
    cases List.mem_singleton.mp h
    exact ⟨rfl, id, List.mem_zipIdx_iff_getElem?.mp hi, Tree.node?_eq_none_iff.mp hn⟩
  case h_2 => contradiction
  case h_3 =>
    split at h
    case isTrue  => contradiction
    case isFalse => cases List.mem_singleton.mp h

theorem danglingArg_of_mem_nodeViolations (hn : n ∈ t) {name : String}
    (h : .malformedArgument name ∈ nodeViolations judge c t n) : t.DanglingArg name := by
  simp only [nodeViolations, List.mem_append, List.mem_flatMap] at h
  obtain ((h | h) | ⟨_, _, h⟩) | ⟨⟨_, a⟩, ha, h⟩ := h
  · cases kind_of_mem_kindViolations h
  · cases kind_of_mem_bodyViolations h <;> contradiction
  · cases kind_of_mem_arityViolations h <;> contradiction
  · obtain ⟨he, hv⟩ | h | h | h := malformed_or_kind_of_mem_argViolations h
    case inl =>
      cases he
      obtain ⟨id, rfl, hi⟩ := Tree.resolve?_eq_none_iff.mp hv
      exact ⟨n, hn, id, ha, hi⟩
    all_goals cases h

theorem danglingEntry_of_mem_nodeViolations (hn : n ∈ t) {kind : String} {index : Nat}
    (h : .malformedBody kind index ∈ nodeViolations judge c t n) : t.DanglingEntry kind index := by
  simp only [nodeViolations, List.mem_append, List.mem_flatMap] at h
  obtain ((h | h) | ⟨_, _, h⟩) | ⟨arg, _, h⟩ := h
  · cases kind_of_mem_kindViolations h
  · exact ⟨n, hn, dangling_of_mem_bodyViolations h⟩
  · cases kind_of_mem_arityViolations h <;> contradiction
  · obtain ⟨h, _⟩ | h | h | h := malformed_or_kind_of_mem_argViolations h <;> cases h

section

variable {rs : List (Registration ρ)} {v : Violation} {name kind : String} {index : Nat}
variable (ht : t.Obtained) (hc : Corpus.ofRegistrations rs = .ok c)
include ht hc

theorem exists_node_of_check (h : t.check judge c = .error v) : ∃ n ∈ t, v ∈ nodeViolations judge c t n := by
  have hw := ht.wellFormed
  have ⟨n, hn, hv⟩ := List.mem_flatMap.mp <| List.mem_of_head? <| (check_eq_error_iff hw hc).mp h
  exact ⟨n, hw.mem_walk_root_iff.mp hn, hv⟩

theorem danglingArg_of_check (h : t.check judge c = .error (.malformedArgument name)) : t.DanglingArg name := by
  have ⟨_, hn, hv⟩ := exists_node_of_check ht hc h
  exact danglingArg_of_mem_nodeViolations hn hv

theorem danglingEntry_of_check (h : t.check judge c = .error (.malformedBody kind index)) :
    t.DanglingEntry kind index := by
  have ⟨_, hn, hv⟩ := exists_node_of_check ht hc h
  exact danglingEntry_of_mem_nodeViolations hn hv

end

-- Malformed arguments and bodies are reported only where a reference leads nowhere, so never of a draft.
theorem malformed_only_if_dangling {rs : List (Registration ρ)} (judge : Judge ρ)
    (hc : Corpus.ofRegistrations rs = .ok c) :
    (∀ rootKind steps, let t := ((Draft.start rootKind).applyAll steps).build
      (∀ name, t.check judge c ≠ .error (.malformedArgument name)) ∧
      (∀ kind index, t.check judge c ≠ .error (.malformedBody kind index))) ∧
    ∀ t : Tree, t.Obtained →
      (∀ name, t.check judge c = .error (.malformedArgument name) → t.DanglingArg name) ∧
      (∀ kind index, t.check judge c = .error (.malformedBody kind index) → t.DanglingEntry kind index) := by
  constructor
  case right => exact fun t ht => ⟨fun _ => danglingArg_of_check ht hc, fun _ _ => danglingEntry_of_check ht hc⟩
  case left =>
    intro rootKind steps t
    have ht : t.Obtained := .draft rootKind steps
    have hs := (Draft.sound_start rootKind).applyAll steps
    constructor
    case left  => exact fun _ h => Tree.not_danglingArg hs.closed _ <| danglingArg_of_check ht hc h
    case right => exact fun _ _ h => Tree.not_danglingEntry hs.closed _ _ <| danglingEntry_of_check ht hc h

-- The second entry of a nested body leads nowhere, and in other records an argument of the root.
theorem malformed_only_if_dangling_of_loop :
    let rs : List (Registration String) := [
      .node "sequence" ["scope"] ["loop"], .node "loop" [] ["loop"], .arg "scope" [] none]
    let judge : Judge String := fun r _ _ _ => .error r
    let root : Record := ⟨"sequence", #[("scope", .node ⟨1⟩)], #[⟨2⟩], none⟩
    let records := #[
      root, ⟨"loop", #[], #[], some ⟨0⟩⟩, ⟨"loop", #[], #[⟨3⟩, ⟨7⟩], some ⟨0⟩⟩, ⟨"loop", #[], #[], some ⟨2⟩⟩]
    let records' := #[{ root with args := #[("scope", .node ⟨9⟩)], body := #[⟨1⟩] }, ⟨"loop", #[], #[], some ⟨0⟩⟩]
    ∃ c t t', Corpus.ofRegistrations rs = .ok c ∧
      Tree.ofRecords ⟨0⟩ records = .ok t ∧ t.check judge c = .error (.malformedBody "loop" 1) ∧
      t.DanglingEntry "loop" 1 ∧
      Tree.ofRecords ⟨0⟩ records' = .ok t' ∧ t'.check judge c = .error (.malformedArgument "scope") ∧
      t'.DanglingArg "scope" := by
  intro rs judge root records records'
  have ⟨c, hc⟩ : ∃ c, Corpus.ofRegistrations rs = .ok c := ⟨_, rfl⟩
  let t : Tree := ⟨⟨0⟩, records, by decide⟩
  let t' : Tree := ⟨⟨0⟩, records', by decide⟩
  have ht : Tree.ofRecords ⟨0⟩ records = .ok t := by decide +kernel
  have ht' : Tree.ofRecords ⟨0⟩ records' = .ok t' := by decide +kernel
  have hv : t.check judge c = .error (.malformedBody "loop" 1) := by
    cases hc
    decide +kernel
  have hv' : t'.check judge c = .error (.malformedArgument "scope") := by
    cases hc
    decide +kernel
  have ⟨_, h⟩ := malformed_only_if_dangling judge hc
  have hd := (h t (.records ht)).right "loop" 1 hv
  have hd' := (h t' (.records ht')).left "scope" hv'
  exact ⟨c, t, t', hc, ht, hv, hd, ht', hv', hd'⟩

end Check
end ScriptCheck
