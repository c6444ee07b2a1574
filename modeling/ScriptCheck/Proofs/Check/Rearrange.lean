import Mathlib.Data.List.Forall2
import ScriptCheck.Proofs.Check.Valid
import ScriptCheck.Proofs.Tree.Rearrange

namespace ScriptCheck

-- The same registration with its lists written differently: in another order, with entries repeated or not.
inductive Registration.Rearranged {ρ : Type} : Registration ρ → Registration ρ → Prop
  | node {name : String} {args args' body body' : List String} :
    (∀ a, a ∈ args' ↔ a ∈ args) → (∀ b, b ∈ body' ↔ b ∈ body) →
    Rearranged (.node name args body) (.node name args' body')
  | arg {name : String} {types types' : List ScalarType} {rule : Option ρ} :
    (∀ t, t ∈ types' ↔ t ∈ types) → Rearranged (.arg name types rule) (.arg name types' rule)

namespace Registration.Rearranged

variable {ρ : Type} {r r' : Registration ρ}

theorem symm (h : r.Rearranged r') : r'.Rearranged r := by
  cases h
  case node ha hb => exact .node (fun a => (ha a).symm) (fun b => (hb b).symm)
  case arg ht     => exact .arg fun t => (ht t).symm

theorem nodeName?_eq (h : r.Rearranged r') : r'.nodeName? = r.nodeName? := by
  cases h <;> rfl

theorem argName?_eq (h : r.Rearranged r') : r'.argName? = r.argName? := by
  cases h <;> rfl

end Registration.Rearranged

namespace Corpus

variable {ρ : Type} {rs rs' : List (Registration ρ)} {c c' : Corpus ρ}

-- Each entry of `c` has its counterpart in `c'`, with the same names and types in its lists and the same rule.
structure Rearranged (c c' : Corpus ρ) : Prop where
  node : ∀ (kind : String) spec, c.nodes[kind]? = some spec → ∃ spec', c'.nodes[kind]? = some spec' ∧
         (∀ a, a ∈ spec'.args ↔ a ∈ spec.args) ∧ ∀ b, b ∈ spec'.body ↔ b ∈ spec.body
  arg  : ∀ (name : String) spec, c.args[name]? = some spec → ∃ spec', c'.args[name]? = some spec' ∧
         (∀ t, t ∈ spec'.types ↔ t ∈ spec.types) ∧ spec'.rule = spec.rule

theorem names_of_rearranged (h : List.Forall₂ Registration.Rearranged rs rs') :
    nodeNames rs' = nodeNames rs ∧ argNames rs' = argNames rs := by
  induction h
  case nil         => exact ⟨rfl, rfl⟩
  case cons h _ hi => simp_all [nodeNames, argNames, List.filterMap_cons, h.nodeName?_eq, h.argName?_eq]

theorem exists_mem_of_rearranged (h : List.Forall₂ Registration.Rearranged rs rs') :
    ∀ r ∈ rs, ∃ r' ∈ rs', r.Rearranged r' := by
  induction h
  case nil => simp
  case cons r' _ _ h _ hi =>
    refine List.forall_mem_cons.mpr ⟨⟨r', List.mem_cons_self, h⟩, fun r hr => ?_⟩
    have ⟨r', hr', h⟩ := hi r hr
    exact ⟨r', List.mem_cons_of_mem _ hr', h⟩

theorem rearranged_of_registrations (hc : ofRegistrations rs = .ok c) (hc' : ofRegistrations rs' = .ok c')
    (h : List.Forall₂ Registration.Rearranged rs rs') : Rearranged c c' where
  node kind spec hs := by
    have ⟨args, body, hr, he⟩ := (node_registered hc).mp hs
    have ⟨r', hr', ha⟩ := exists_mem_of_rearranged h _ hr
    cases ha
    case node ha hb =>
      refine ⟨_, (node_registered hc').mpr ⟨_, _, hr', rfl⟩, ?_, ?_⟩
      · simpa [he] using ha
      · simpa [he] using hb
  arg name spec hs := by
    have hr := (arg_registered hc).mp hs
    have ⟨r', hr', ha⟩ := exists_mem_of_rearranged h _ hr
    cases ha
    case arg types' ht => exact ⟨⟨types', spec.rule⟩, (arg_registered hc').mpr hr', ht, rfl⟩

end Corpus

namespace Check

variable {ρ : Type} {judge : Judge ρ} {c c' : Corpus ρ} {t t' : Tree} {n n' : Node}

-- Each value that a rule is for is accepted in `t`, with `c` at hand, exactly if what its argument holds in `t'` is
-- accepted there, with `c'` at hand.
def AcceptedAlike (judge : Judge ρ) (c c' : Corpus ρ) (t t' : Tree) : Prop :=
  ∀ n ∈ t, ∀ name a v v', (name, a) ∈ n.args → t.resolve? a = some v → t'.resolve? a = some v' →
    ∀ spec r, c.args[name]? = some spec → spec.rule = some r → (judge r c' t' v' = .ok () ↔ judge r c t v = .ok ())

theorem AcceptedAlike.symm (h : AcceptedAlike judge c c' t t') (hc : Corpus.Rearranged c' c)
    (hr : Tree.Rearranged t'.records t.records) : AcceptedAlike judge c' c t' t := by
  intro n' hn' name a v' v ha hv' hv spec' r hs' hr'
  have ⟨n, hn, hn'⟩ := Tree.exists_node?_of_rearranged hr hn'
  have ⟨spec, hs, _, he⟩ := hc.arg name spec' hs'
  exact (h n (Tree.mem_of_node? hn) name a v v' (hn'.mem_args_iff.mpr ha) hv hv' spec r hs (he.trans hr')).symm

section

variable (hc : Corpus.Rearranged c c') (hr : Tree.Rearranged t.records t'.records)
include hc hr

theorem OutlineValid.rearrange {spec : NodeSpec} (h : OutlineValid c t n spec) (hn : n.Rearranged n') :
    ∃ spec', OutlineValid c' t' n' spec' := by
  have ⟨spec', hs, ha, hb⟩ := hc.node n.kind spec h.known
  refine ⟨spec', ?_, ?_, ?_⟩
  case refine_1 => exact hn.kind_eq ▸ hs
  case refine_2 =>
    intro id hi
    have ⟨child, hm, hk⟩ := h.body id (hn.bodyIds_eq ▸ hi)
    have ⟨child', hm', hn'⟩ := Tree.exists_node?_of_rearranged hr hm
    exact ⟨child', hm', (hb _).mpr (hn'.kind_eq ▸ hk)⟩
  case refine_3 =>
    intro name
    rw [hn.mem_argNames_iff, ha]
    exact h.names name

theorem ArgValid.rearrange {name : String} {a : Arg} {v : Value} (h : ArgValid judge c t name a v)
    (hj : AcceptedAlike judge c c' t t') (hn : n ∈ t) (ha : (name, a) ∈ n.args) :
    ∃ v', ArgValid judge c' t' name a v' := by
  have ⟨v', hv', hl⟩ := Tree.exists_resolve?_of_rearranged hr h.resolves
  refine ⟨v', hv', ?_, ?_⟩
  case refine_1 =>
    intro l he
    have ⟨spec, hs, ht⟩ := h.typed l (hl l he)
    have ⟨spec', hs', hm, _⟩ := hc.arg l.kind spec hs
    exact ⟨spec', hs', (hm _).mpr ht⟩
  case refine_2 =>
    have ⟨spec, hs, hk⟩ := h.accepted
    have ⟨spec', hs', _, he⟩ := hc.arg name spec hs
    refine ⟨spec', hs', fun r hr' => ?_⟩
    have hr' := he.symm.trans hr'
    exact (hj n hn name a v v' ha h.resolves hv' spec r hs hr').mpr (hk r hr')

theorem NodeValid.rearrange (h : NodeValid judge c t n) (hj : AcceptedAlike judge c c' t t') (hn : n ∈ t)
    (hn' : n.Rearranged n') : NodeValid judge c' t' n' where
  outline :=
    have ⟨_, ho⟩ := h.outline
    ho.rearrange hc hr hn'
  args name a ha :=
    have ha := hn'.mem_args_iff.mp ha
    have ⟨_, hv⟩ := h.args name a ha
    hv.rearrange hc hr hj hn ha

theorem valid_rearrange (h : t.Valid judge c) (hj : AcceptedAlike judge c c' t t') : t'.Valid judge c' := by
  intro id n' hn'
  have ⟨n, hn, ha⟩ := Tree.exists_node?_of_rearranged hr.symm hn'
  exact (h id n hn).rearrange hc hr hj (Tree.mem_of_node? hn) ha.symm

end

theorem isOk_check_iff_valid {rs : List (Registration ρ)} (hw : Tree.WellFormed t.root t.records)
    (hc : Corpus.ofRegistrations rs = .ok c) : (t.check judge c).isOk ↔ t.Valid judge c := by
  constructor
  case mp =>
    intro h
    cases hk : t.check judge c
    case ok => exact ((check_eq_ok_iff_valid hw hc).mp hk).right
    case error v =>
      rw [hk] at h
      cases h
  case mpr =>
    intro h
    rw [(check_eq_ok_iff_valid hw hc).mpr ⟨rfl, h⟩]
    rfl

-- A script with its arguments in another order is as valid as before, and so it is for a corpus whose lists are written
-- differently.
theorem verdict_ignores_order (ht : t.Obtained) {records : Array Record} (hr : Tree.Rearranged t.records records) :
    ∃ t', Tree.ofRecords t.root records = .ok t' ∧
      ∀ {ρ : Type} (judge : Judge ρ) (rs rs' : List (Registration ρ)) (c : Corpus ρ),
        Corpus.ofRegistrations rs = .ok c → List.Forall₂ Registration.Rearranged rs rs' →
        ∃ c', Corpus.ofRegistrations rs' = .ok c' ∧
          (AcceptedAlike judge c c' t t' → (t'.check judge c').isOk = (t.check judge c).isOk) := by
  have hw := ht.wellFormed
  obtain ⟨t', ht', rfl⟩ := Tree.exists_ofRecords_of_rearranged ht.size_le hw hr
  have hw' := (Tree.Obtained.records ht').wellFormed
  refine ⟨t', ht', fun judge rs rs' c hc hl => ?_⟩
  have hl' : List.Forall₂ Registration.Rearranged rs' rs := (hl.imp fun _ _ h => h.symm).flip
  have ⟨hn, ha⟩ := Corpus.names_of_rearranged hl
  have ⟨c', hc'⟩ : ∃ c', Corpus.ofRegistrations rs' = .ok c' := by
    rw [Corpus.exists_ofRegistrations_iff, hn, ha, ←Corpus.exists_ofRegistrations_iff]
    exact ⟨c, hc⟩
  refine ⟨c', hc', fun hj => ?_⟩
  have hs := Corpus.rearranged_of_registrations hc hc' hl
  have hs' := Corpus.rearranged_of_registrations hc' hc hl'
  rw [Bool.eq_iff_iff, isOk_check_iff_valid hw' hc', isOk_check_iff_valid hw hc]
  constructor
  case mp  => exact fun h => valid_rearrange hs' hr.symm h (hj.symm hs' hr.symm)
  case mpr => exact fun h => valid_rearrange hs hr h hj

-- Both arguments of a script have the wrong type. It is not valid either way, but the first of them is reported.
theorem verdict_ignores_order_of_two :
    let rs : List (Registration String) := [
      .node "move" ["x", "y"] [], .arg "x" [.integer] (some "x"), .arg "y" [.integer, .float] none]
    let rs' : List (Registration String) := [
      .node "move" ["y", "x", "y"] [], .arg "x" [.integer, .integer] (some "x"), .arg "y" [.float, .integer] none]
    let judge : Judge String := fun kind _ _ v => if v.leaf?.map Leaf.kind = some kind then .ok () else .error kind
    let t := ((Draft.start "move").applyAll [
      .leaf ⟨0⟩ "x" "x" (.boolean true), .leaf ⟨0⟩ "y" "y" (.string "far")]).build
    let records := t.records.map fun r => { r with args := r.args.reverse }
    Tree.Rearranged t.records records ∧ List.Forall₂ Registration.Rearranged rs rs' ∧
      ∃ t' c c', Tree.ofRecords t.root records = .ok t' ∧ Corpus.ofRegistrations rs = .ok c ∧
        Corpus.ofRegistrations rs' = .ok c' ∧ AcceptedAlike judge c c' t t' ∧
        t.check judge c = .error (.invalidLeafType "x" "move" [.integer] .boolean) ∧
        t'.check judge c' = .error (.invalidLeafType "y" "move" [.float, .integer] .string) ∧
        (t'.check judge c').isOk = (t.check judge c).isOk := by
  intro rs rs' judge t records
  have hr : Tree.Rearranged t.records records := by
    constructor
    case size   => simp [records]
    case record =>
      intro i r r' hi hi'
      rw [Array.getElem?_map, hi] at hi'
      cases hi'
      exact ⟨rfl, Array.perm_iff_toList_perm.mpr (by simp), rfl, rfl⟩
  have hl : List.Forall₂ Registration.Rearranged rs rs' := by
    refine .cons (.node ?_ ?_) <| .cons (.arg ?_) <| .cons (.arg ?_) .nil <;> grind
  have ⟨c, hc⟩ : ∃ c, Corpus.ofRegistrations rs = .ok c := ⟨_, rfl⟩
  have ht : t.Obtained := .draft ..
  have ⟨t', ht', h⟩ := verdict_ignores_order ht hr
  have ⟨c', hc', h⟩ := h judge rs rs' c hc hl
  have hj : AcceptedAlike judge c c' t t' := by
    intro n _ name a v v' _ hv hv' spec r _ _
    cases a
    case leaf =>
      cases hv
      cases hv'
      exact Iff.rfl
    case node =>
      obtain ⟨_, _, rfl⟩ := Option.map_eq_some_iff.mp hv
      obtain ⟨_, _, rfl⟩ := Option.map_eq_some_iff.mp hv'
      exact Iff.rfl
  have hv : t.check judge c = .error (.invalidLeafType "x" "move" [.integer] .boolean) := by
    cases hc
    decide +kernel
  have hv' : t'.check judge c' = .error (.invalidLeafType "y" "move" [.float, .integer] .string) := by
    have ho : Tree.ofRecords t.root records = .ok ⟨t.root, records, by decide +kernel⟩ := by decide +kernel
    cases hc'
    cases Except.ok.inj (ho.symm.trans ht')
    decide +kernel
  exact ⟨hr, hl, t', c, c', ht', hc, hc', hj, hv, hv', h hj⟩

end Check
end ScriptCheck
