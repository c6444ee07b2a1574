import ScriptCheck.Proofs.Check.Valid

namespace ScriptCheck
namespace Check

variable {ρ : Type} {c : Corpus ρ} {t : Tree} {n : Node} {spec : NodeSpec}

theorem checkArity_of_missing (h : ∃ name ∈ spec.args, name ∉ n.argNames) :
    ∃ before name after, spec.args = before ++ name :: after ∧ before ⊆ n.argNames ∧ name ∉ n.argNames ∧
      checkArity spec n = .error (.missingArgument n.kind name n.argNames) := by
  have hs : (spec.args.find? (! n.hasArg ·)).isSome := by
    simpa [Node.hasArg_eq_decide] using h
  have ⟨name, hf⟩ := Option.isSome_iff_exists.mp hs
  have ⟨hn, before, after, he, hb⟩ := List.find?_eq_some_iff_append.mp hf
  refine ⟨before, name, after, he, fun m hm => ?_, ?_, ?_⟩
  · simpa [Node.hasArg_eq_decide] using hb m hm
  · simpa [Node.hasArg_eq_decide] using hn
  · rw [checkArity, hf]

section Nodup

variable (hn : n.argNames.Nodup) (hs : spec.args.Nodup)
include hn hs

theorem checkArity_eq_ok_iff : checkArity spec n = .ok () ↔ ∀ name, name ∈ n.argNames ↔ name ∈ spec.args := by
  rw [checkArity_eq_verdict hn hs, verdict_eq_ok_iff, arityViolations_eq_nil_iff]

theorem checkArity_eq_ok_iff_perm : checkArity spec n = .ok () ↔ n.argNames.Perm spec.args := by
  rw [checkArity_eq_ok_iff hn hs, List.perm_ext_iff_of_nodup hn hs]

theorem checkArity_of_unexpected (h : spec.args ⊆ n.argNames) (hp : ¬n.argNames.Perm spec.args) :
    n.argNames.filter (· ∉ spec.args) ≠ [] ∧
      checkArity spec n = .error (.unexpectedArguments n.kind (n.argNames.filter (· ∉ spec.args)) spec.args) := by
  have hm : missingViolations spec n = [] := by
    rw [missingViolations, List.map_eq_nil_iff, List.filter_eq_nil_iff]
    exact fun name hm => by simpa using h hm
  have hv : checkArity spec n = verdict (unexpectedViolations spec n) := by
    rw [checkArity_eq_verdict hn hs, arityViolations, hm, List.nil_append]
  rw [←checkArity_eq_ok_iff_perm hn hs, hv, verdict_eq_ok_iff, unexpectedViolations] at hp
  rw [hv, unexpectedViolations]
  split at hp
  case h_1 => contradiction
  case h_2 hne => exact ⟨hne, rfl⟩

end Nodup

theorem checkArity_decides_same_names {rs : List (Registration ρ)} {kind : String} (ht : t.Obtained) (hn : n ∈ t)
    (hc : Corpus.ofRegistrations rs = .ok c) (hs : c.node kind = .ok spec) :
    (checkArity spec n = .ok () ↔ n.argNames.Perm spec.args) ∧
    (∀ args body, .node kind args body ∈ rs →
      (checkArity spec n = .ok () ↔ ∀ name, name ∈ n.argNames ↔ name ∈ args)) ∧
    ((∃ name ∈ spec.args, name ∉ n.argNames) →
      ∃ before name after, spec.args = before ++ name :: after ∧ before ⊆ n.argNames ∧ name ∉ n.argNames ∧
        checkArity spec n = .error (.missingArgument n.kind name n.argNames)) ∧
    (spec.args ⊆ n.argNames → ¬n.argNames.Perm spec.args →
      let extra := n.argNames.filter (· ∉ spec.args)
      extra ≠ [] ∧ n.args.length = spec.args.length + extra.length ∧
        checkArity spec n = .error (.unexpectedArguments n.kind extra spec.args)) ∧
    (n.args.length = spec.args.length → ∀ name ∈ n.argNames, name ∉ spec.args →
      ∃ missing ∈ spec.args, checkArity spec n = .error (.missingArgument n.kind missing n.argNames)) := by
  have hd : n.argNames.Nodup := ht.wellFormed.names_nodup _ (Tree.record_mem hn)
  have hk : c.nodes[kind]? = some spec := c.node_eq_ok_iff.mp hs
  have hs : spec.args.Nodup := Corpus.args_nodup hc hk
  refine ⟨checkArity_eq_ok_iff_perm hd hs, ?_, checkArity_of_missing, ?_, ?_⟩
  · intro args body hr
    have hr := (Corpus.node_registered hc).mpr ⟨args, body, hr, rfl⟩
    cases hk.symm.trans hr
    simp only [checkArity_eq_ok_iff hd hs, List.mem_eraseDups]
  · intro h hp extra
    have ⟨hne, hv⟩ := checkArity_of_unexpected hd hs h hp
    exact ⟨hne, (length_args n).trans (length_eq_add_length_filter hd hs h), hv⟩
  · intro hl name hm hne
    have hx : ∃ missing ∈ spec.args, missing ∉ n.argNames := by
      -- A list that has all the names and one more is too long.
      by_contra hx
      have h : spec.args ⊆ n.argNames := fun m hm => by_contra fun hn => hx ⟨m, hm, hn⟩
      have hf := (length_eq_iff_filter_eq_nil hd hs h).mp ((length_args n).symm.trans hl)
      exact absurd (List.filter_eq_nil_iff.mp hf name hm) (by simpa using hne)
    obtain ⟨before, missing, after, he, -, -, hv⟩ := checkArity_of_missing hx
    exact ⟨missing, by simp [he], hv⟩

-- A kind registered with a repeated name, and a node that has one of the two names and another one instead.
theorem checkArity_refuses_substitution :
    let rs : List (Registration Unit) := [.node "sum" ["left", "right", "left"] []]
    let t := ((Draft.start "sum").applyAll [
      .leaf ⟨0⟩ "left" "term" (.integer 1), .leaf ⟨0⟩ "rihgt" "term" (.integer 2)]).build
    ∃ c spec, t.Obtained ∧ t.rootNode ∈ t ∧ Corpus.ofRegistrations rs = .ok c ∧ c.node "sum" = .ok spec ∧
      t.rootNode.args.length = spec.args.length ∧
      checkArity spec t.rootNode = .error (.missingArgument "sum" "right" ["left", "rihgt"]) ∧
      ¬t.rootNode.argNames.Perm spec.args := by
  intro rs t
  let c : Corpus Unit := { nodes := .insert ∅ "sum" ⟨["left", "right"], []⟩, args := ∅ }
  have hc : Corpus.ofRegistrations rs = .ok c := rfl
  have hs : c.node "sum" = .ok ⟨["left", "right"], []⟩ := rfl
  have ht : t.Obtained := .draft ..
  have hk : checkArity ⟨["left", "right"], []⟩ t.rootNode =
    .error (.missingArgument "sum" "right" ["left", "rihgt"]) := by decide +kernel
  have hp := (checkArity_decides_same_names ht Tree.rootNode_mem hc hs).left
  exact ⟨c, _, ht, Tree.rootNode_mem, hc, hs, by decide +kernel, hk, fun h => by simp [hp.mpr h] at hk⟩

end Check
end ScriptCheck
