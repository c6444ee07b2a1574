import ScriptCheck.Proofs.Check.Violations

namespace ScriptCheck

section

variable {ε α β : Type} {excused : ε → Prop} {x y : Except ε α}

-- `y` is the same as `x`, unless `x` is a failure that is excused.
def Follows (excused : ε → Prop) (x y : Except ε α) : Prop :=
  y = x ∨ ∃ e, excused e ∧ x = .error e

namespace Follows

theorem refl (x : Except ε α) : Follows excused x x :=
  .inl rfl

theorem bind {f g : α → Except ε β} (h : Follows excused x y) (hf : ∀ a, x = .ok a → Follows excused (f a) (g a)) :
    Follows excused (x >>= f) (y >>= g) := by
  obtain h | ⟨e, he, hx⟩ := h
  case inr => exact .inr ⟨e, he, hx ▸ rfl⟩
  case inl =>
    subst h
    cases y
    case error => exact refl _
    case ok a  => exact hf a rfl

-- Looking something up where there is at least as much to be found.
theorem lookup {o o' : Option α} {e e' : ε} (he : excused e) (h : ∀ a, o = some a → o' = some a) :
    Follows excused (o.elim (.error e) .ok) (o'.elim (.error e') .ok) := by
  cases o
  case none   => exact .inr ⟨e, he, rfl⟩
  case some a => exact .inl <| by rw [h a rfl]; rfl

theorem map {f : α → β} (h : Follows excused x y) : Follows excused (x.map f) (y.map f) := by
  obtain h | ⟨e, he, hx⟩ := h
  case inl => exact .inl (h ▸ rfl)
  case inr => exact .inr ⟨e, he, hx ▸ rfl⟩

theorem forM {f g : α → Except ε Unit} {as : List α} (h : ∀ a ∈ as, Follows excused (f a) (g a)) :
    Follows excused (as.forM f) (as.forM g) := by
  induction as
  case nil => exact refl _
  case cons a as ih =>
    have ⟨ha, h⟩ := List.forall_mem_cons.mp h
    exact ha.bind fun _ _ => ih h

theorem eq_ok {a : α} (h : Follows excused x y) (hx : x = .ok a) : y = .ok a := by
  obtain h | ⟨e, _, he⟩ := h
  case inl => exact h.trans hx
  case inr => cases he.symm.trans hx

theorem eq_error {e : ε} (h : Follows excused x y) (hx : x = .error e) (he : ¬excused e) : y = .error e := by
  obtain h | ⟨e', he', hx'⟩ := h
  case inl => exact h.trans hx
  case inr =>
    cases hx.symm.trans hx'
    contradiction

theorem eq_of_none_excused (h : Follows (fun _ => False) x y) : y = x :=
  h.resolve_right fun ⟨_, he, _⟩ => he

end Follows
end

-- Some argument called `name` has the value `v`.
def Tree.HasValue (t : Tree) (name : String) (v : Value) : Prop :=
  ∃ n ∈ t, ∃ a, (name, a) ∈ n.args ∧ t.resolve? a = some v

-- The corpus with another entry for the name of an argument.
def Corpus.setArg {ρ : Type} (c : Corpus ρ) (name : String) (spec : ArgSpec ρ) : Corpus ρ where
  nodes := c.nodes
  args  := c.args.insert name spec

namespace Check

variable {ρ : Type} {judge : Judge ρ} {c c' : Corpus ρ} {t : Tree} {n : Node} {excused : Violation → Prop}

theorem checkType_leaf (l : Leaf) :
    checkType c t n (.leaf l) = (c.arg l.kind).map ArgSpec.types >>= fun types =>
      if l.value.type ∈ types then .ok ()
      else .error (.invalidLeafType l.kind (((t.node? l.parent).map Node.kind).getD n.kind) types l.value.type) := by
  rw [checkType]
  cases c.arg l.kind <;> rfl

-- In each place where the check of `t` reads `c`, it reads the same in `c'`, unless what it reads is an excused failure.
structure ReadsAlike (excused : Violation → Prop) (judge : Judge ρ) (t : Tree) (c c' : Corpus ρ) : Prop where
  node  : ∀ n ∈ t, Follows excused (c.node n.kind) (c'.node n.kind)
  types : ∀ n ∈ t, ∀ name l, (name, .leaf l) ∈ n.args →
          Follows excused ((c.arg l.kind).map ArgSpec.types) ((c'.arg l.kind).map ArgSpec.types)
  rule  : ∀ name v, t.HasValue name v → Follows excused (ruling judge c t name v) (ruling judge c' t name v)

namespace ReadsAlike

variable (h : ReadsAlike excused judge t c c')
include h

theorem checkType (hn : n ∈ t) {name : String} {a : Arg} {v : Value} (ha : (name, a) ∈ n.args)
    (hv : t.resolve? a = some v) : Follows excused (checkType c t n v) (checkType c' t n v) := by
  cases v
  case node   => exact .refl _
  case leaf l =>
    cases t.resolve?_eq_leaf_iff.mp hv
    rw [checkType_leaf, checkType_leaf]
    exact (h.types n hn name l ha).bind fun _ _ => .refl _

theorem checkArg (hn : n ∈ t) {name : String} {a : Arg} (ha : (name, a) ∈ n.args) :
    Follows excused (checkArg judge c t n (name, a)) (checkArg judge c' t n (name, a)) := by
  cases hv : t.resolve? a
  case none =>
    simp only [Check.checkArg, vet, hv]
    exact .refl _
  case some v =>
    rw [checkArg_eq_ruling hv, checkArg_eq_ruling hv]
    exact (h.checkType hn ha hv).bind fun _ _ => h.rule name v ⟨n, hn, a, ha, hv⟩

theorem checkNode (hn : n ∈ t) : Follows excused (checkNode judge c t n) (checkNode judge c' t n) := by
  refine Follows.bind ?_ fun _ _ => Follows.forM fun arg ha => h.checkArg hn ha
  exact (h.node n hn).bind fun _ _ => .refl _

theorem check : Follows excused (t.check judge c) (t.check judge c') := by
  rw [Tree.check, Tree.check, Tree.travel_eq_forM, Tree.travel_eq_forM]
  exact .bind (.forM fun n hn => h.checkNode (Tree.reachable_of_mem_preorder hn).left) fun _ _ => .refl _

end ReadsAlike

-- What the two corpora have for the name of an argument amounts to the same: nothing, an entry without a rule, or an
-- entry whose rule gives the same answers on the values under that name, each rule with its own corpus at hand.
inductive RulesAgree (judge : Judge ρ) (t : Tree) (c c' : Corpus ρ) (name : String) : Prop
  | missing : c.args[name]? = none → c'.args[name]? = none → RulesAgree judge t c c' name
  | free {spec spec' : ArgSpec ρ} :
    c.args[name]? = some spec → c'.args[name]? = some spec' → spec.rule = none → spec'.rule = none →
    RulesAgree judge t c c' name
  | ruled {spec spec' : ArgSpec ρ} {r r' : ρ} :
    c.args[name]? = some spec → c'.args[name]? = some spec' → spec.rule = some r → spec'.rule = some r' →
    (∀ v, t.HasValue name v → judge r' c' t v = judge r c t v) → RulesAgree judge t c c' name

structure AgreeOn (judge : Judge ρ) (t : Tree) (c c' : Corpus ρ) : Prop where
  node  : ∀ n ∈ t, c'.nodes[n.kind]? = c.nodes[n.kind]?
  types : ∀ n ∈ t, ∀ name l, (name, .leaf l) ∈ n.args →
          (c'.args[l.kind]?).map ArgSpec.types = (c.args[l.kind]?).map ArgSpec.types
  rule  : ∀ n ∈ t, ∀ name ∈ n.argNames, RulesAgree judge t c c' name

theorem ruling_of_none {name : String} {v : Value} (h : c.args[name]? = none) :
    ruling judge c t name v = .error (.unknownKind .arg name) := by
  simp [ruling, Corpus.arg, h]

theorem ruling_of_some {name : String} {v : Value} {spec : ArgSpec ρ} (h : c.args[name]? = some spec) :
    ruling judge c t name v = spec.rule.elim (.ok ()) fun r => (judge r c t v).mapError (.refused name) := by
  simp [ruling, Corpus.arg, h]

theorem RulesAgree.ruling_eq {name : String} {v : Value} (h : RulesAgree judge t c c' name) (hv : t.HasValue name v) :
    ruling judge c' t name v = ruling judge c t name v := by
  cases h
  case missing h h' => rw [ruling_of_none h, ruling_of_none h']
  case free h h' hr hr' => rw [ruling_of_some h, ruling_of_some h', hr, hr', Option.elim_none, Option.elim_none]
  case ruled h h' hr hr' ha =>
    rw [ruling_of_some h, ruling_of_some h', hr, hr', Option.elim_some, Option.elim_some, ha v hv]

theorem map_types_arg (c : Corpus ρ) (kind : String) :
    (c.arg kind).map ArgSpec.types =
      ((c.args[kind]?).map ArgSpec.types).elim (.error (.unknownKind .arg kind)) .ok := by
  rw [Corpus.arg]
  cases c.args[kind]? <;> rfl

theorem AgreeOn.readsAlike (h : AgreeOn judge t c c') : ReadsAlike (fun _ => False) judge t c c' where
  node n hn := by
    rw [Corpus.node, Corpus.node, h.node n hn]
    exact .refl _
  types n hn name l ha := by
    rw [map_types_arg, map_types_arg, h.types n hn name l ha]
    exact .refl _
  rule name v := by
    rintro ⟨n, hn, a, ha, hv⟩
    exact .inl <| (h.rule n hn name (List.mem_map_of_mem ha)).ruling_eq ⟨n, hn, a, ha, hv⟩

theorem AgreeOn.check_eq (h : AgreeOn judge t c c') : t.check judge c' = t.check judge c :=
  h.readsAlike.check.eq_of_none_excused

-- The rules of `c` answer in the same way when they have `c'` at hand.
def SameAnswers (judge : Judge ρ) (t : Tree) (c c' : Corpus ρ) : Prop :=
  ∀ (name : String) spec r, c.args[name]? = some spec → spec.rule = some r →
    ∀ v, t.HasValue name v → judge r c' t v = judge r c t v

-- All entries of `c` are in `c'`.
structure Extends (judge : Judge ρ) (t : Tree) (c c' : Corpus ρ) : Prop where
  node : ∀ (kind : String) spec, c.nodes[kind]? = some spec → c'.nodes[kind]? = some spec
  arg  : ∀ (name : String) spec, c.args[name]? = some spec → c'.args[name]? = some spec
  rule : SameAnswers judge t c c'

namespace Extends

variable (h : Extends judge t c c')
include h

theorem arg_follows (name : String) : Follows (·.kind = .unknownKind) (c.arg name) (c'.arg name) :=
  .lookup rfl (h.arg name)

theorem readsAlike : ReadsAlike (·.kind = .unknownKind) judge t c c' where
  node n _        := .lookup rfl (h.node n.kind)
  types _ _ _ l _ := (h.arg_follows l.kind).map
  rule name v hv  := by
    refine (h.arg_follows name).bind fun spec hs => ?_
    have hs := c.arg_eq_ok_iff.mp hs
    cases hr : spec.rule
    case none   => exact .refl _
    case some r => exact .inl <| by rw [Option.elim_some, Option.elim_some, h.rule name spec r hs hr v hv]

end Extends

-- An entry that has the same rule in both corpora.
theorem RulesAgree.of_same_rule {name : String} (ha : SameAnswers judge t c c')
    (h : (c'.args[name]?).map ArgSpec.rule = (c.args[name]?).map ArgSpec.rule) : RulesAgree judge t c c' name := by
  cases hs : c.args[name]? <;> cases hs' : c'.args[name]? <;> simp only [hs, hs', Option.map_none, Option.map_some] at h
  case none.none => exact .missing hs hs'
  case none.some => contradiction
  case some.none => contradiction
  case some.some spec spec' =>
    have h := Option.some.inj h
    cases hr : spec.rule
    case none   => exact .free hs hs' hr (h.trans hr)
    case some r => exact .ruled hs hs' hr (h.trans hr) (ha name spec r hs hr)

section

variable {name other : String} {spec spec' : ArgSpec ρ}

theorem getElem?_setArg_of_ne (h : name ≠ other) : (c.setArg name spec).args[other]? = c.args[other]? := by
  simp [Corpus.setArg, Std.TreeMap.getElem?_insert, h]

-- What an entry has in common with the one that it replaces is the same under all names.
theorem map_setArg {α : Type} {f : ArgSpec ρ → α} (hs : c.args[name]? = some spec) (hf : f spec' = f spec) :
    ((c.setArg name spec').args[other]?).map f = (c.args[other]?).map f := by
  by_cases h : name = other
  case neg => rw [getElem?_setArg_of_ne h]
  case pos =>
    subst h
    simp [Corpus.setArg, hs, hf]

variable (hs : c.args[name]? = some spec) (ha : SameAnswers judge t c (c.setArg name spec'))
include hs ha

theorem agreeOn_setArg_of_same_types (ht : spec'.types = spec.types) (hn : ∀ n ∈ t, name ∉ n.argNames) :
    AgreeOn judge t c (c.setArg name spec') where
  node _ _ := rfl
  types _ _ _ _ _ := map_setArg hs ht
  rule n hm other ho := by
    have hne : name ≠ other := fun h => hn n hm (h ▸ ho)
    exact .of_same_rule ha <| by rw [getElem?_setArg_of_ne hne]

theorem agreeOn_setArg_of_same_rule (hr : spec'.rule = spec.rule)
    (hl : ∀ n ∈ t, ∀ arg l, (arg, .leaf l) ∈ n.args → l.kind ≠ name) : AgreeOn judge t c (c.setArg name spec') where
  node _ _ := rfl
  types n hm arg l h := by rw [getElem?_setArg_of_ne (hl n hm arg l h).symm]
  rule _ _ _ _ := .of_same_rule ha (map_setArg hs hr)

end

-- The check of a script depends on the entries of a corpus only in the roles that their names have in the script. In
-- particular it makes no difference which rule there is for a kind of leaves, nor which types there are for the
-- name of an argument, unless the name is used in the other role too.
theorem check_reads_entries_by_role (judge : Judge ρ) (t : Tree) (c : Corpus ρ) :
    (∀ c', AgreeOn judge t c c' → t.check judge c' = t.check judge c) ∧
    ∀ name types rule, c.args[name]? = some ⟨types, rule⟩ →
      (∀ rule', (∀ n ∈ t, name ∉ n.argNames) → SameAnswers judge t c (c.setArg name ⟨types, rule'⟩) →
        t.check judge (c.setArg name ⟨types, rule'⟩) = t.check judge c) ∧
      (∀ types', (∀ n ∈ t, ∀ arg l, (arg, .leaf l) ∈ n.args → l.kind ≠ name) →
        SameAnswers judge t c (c.setArg name ⟨types', rule⟩) →
        t.check judge (c.setArg name ⟨types', rule⟩) = t.check judge c) := by
  refine ⟨fun c' h => h.check_eq, fun name types rule hs => ⟨?_, ?_⟩⟩
  · exact fun rule' hn ha => (agreeOn_setArg_of_same_types hs ha rfl hn).check_eq
  · exact fun types' hl ha => (agreeOn_setArg_of_same_rule hs ha rfl hl).check_eq

-- A leaf of another kind than the name of its argument. The corpora have other rules for the kind, other types for the
-- name, and two rules for the name that give the same answer.
theorem check_reads_entries_by_role_of_move :
    let rs : List (Registration String) := [
      .node "move" ["speed"] ["wait"], .node "wait" [] [], .arg "number" [.integer] none, .arg "speed" [] (some "slow")]
    let rs' : List (Registration String) := [
      .arg "speed" [.string] (some "low"), .arg "number" [.integer] (some "never"), .node "turn" [] [],
      .node "wait" [] [], .node "move" ["speed"] ["wait"]]
    let judge : Judge String := fun r _ _ _ => if r = "never" then .ok () else .error "too fast"
    let t := ((Draft.start "move").applyAll [.leaf ⟨0⟩ "speed" "number" (.integer 5), .body ⟨0⟩ "wait"]).build
    ∃ c c', Corpus.ofRegistrations rs = .ok c ∧ Corpus.ofRegistrations rs' = .ok c' ∧ AgreeOn judge t c c' ∧
      t.check judge c' = .error (.refused "speed" "too fast") ∧
      t.check judge (c.setArg "number" ⟨[.integer], some "never"⟩) = .error (.refused "speed" "too fast") ∧
      t.check judge (c.setArg "speed" ⟨[.string], some "slow"⟩) = .error (.refused "speed" "too fast") := by
  intro rs rs' judge t
  let c : Corpus String := {
    nodes := .insert (.insert ∅ "move" ⟨["speed"], ["wait"]⟩) "wait" ⟨[], []⟩
    args  := .insert (.insert ∅ "number" ⟨[.integer], none⟩) "speed" ⟨[], some "slow"⟩ }
  let c' : Corpus String := {
    nodes := .insert (.insert (.insert ∅ "turn" ⟨[], []⟩) "wait" ⟨[], []⟩) "move" ⟨["speed"], ["wait"]⟩
    args  := .insert (.insert ∅ "speed" ⟨[.string], some "low"⟩) "number" ⟨[.integer], some "never"⟩ }
  have hv : t.check judge c = .error (.refused "speed" "too fast") := by decide +kernel
  have hk : ∀ r ∈ t.records, c'.nodes[r.kind]? = c.nodes[r.kind]? := by decide +kernel
  have hn : ∀ r ∈ t.records, ∀ name ∈ r.argNames, name = "speed" := by decide +kernel
  have hl : ∀ r ∈ t.records, ∀ arg ∈ r.args, ∀ l ∈ arg.2.leaf?, l.kind = "number" := by decide +kernel
  have hl : ∀ n ∈ t, ∀ arg l, (arg, .leaf l) ∈ n.args → l.kind = "number" :=
    fun n hm arg l ha => hl n.record (Tree.record_mem hm) (arg, .leaf l) (Array.mem_toList_iff.mp ha) l rfl
  have ha : AgreeOn judge t c c' := by
    constructor
    case node  => exact fun n hm => hk n.record (Tree.record_mem hm)
    case types => exact fun n hm arg l ha => by rw [hl n hm arg l ha]; decide +kernel
    case rule  =>
      intro n hm name ha
      cases hn n.record (Tree.record_mem hm) name ha
      exact .ruled rfl rfl rfl rfl fun _ _ => rfl
  have ⟨h, hs⟩ := check_reads_entries_by_role judge t c
  have ⟨hr, _⟩ := hs "number" [.integer] none rfl
  have ⟨_, ht⟩ := hs "speed" [] (some "slow") rfl
  refine ⟨c, c', rfl, rfl, ha, (h c' ha).trans hv, (hr _ ?_ ?_).trans hv, (ht _ ?_ ?_).trans hv⟩
  case refine_1 => exact fun n hm h => absurd (hn n.record (Tree.record_mem hm) "number" h) (by decide)
  case refine_3 => exact fun n hm arg l h => by simp [hl n hm arg l h]
  all_goals exact fun _ _ _ _ _ _ _ => rfl

-- A larger corpus accepts what a smaller one accepts, and reports the same violations, unless the smaller one does not
-- know a kind.
theorem check_monotone (h : Extends judge t c c') :
    (∀ n, t.check judge c = .ok n → t.check judge c' = .ok n) ∧
    (∀ v, t.check judge c = .error v → v.kind ≠ .unknownKind → t.check judge c' = .error v) := by
  have hf := h.readsAlike.check
  exact ⟨fun n hn => hf.eq_ok hn, fun v hv hk => hf.eq_error hv hk⟩

-- Registering more extends a corpus.
theorem Extends.of_subset {rs rs' : List (Registration ρ)} (hc : Corpus.ofRegistrations rs = .ok c)
    (hc' : Corpus.ofRegistrations rs' = .ok c') (h : rs ⊆ rs') (ha : SameAnswers judge t c c') :
    Extends judge t c c' where
  node _ _ hs :=
    have ⟨args, body, hr, he⟩ := (Corpus.node_registered hc).mp hs
    (Corpus.node_registered hc').mpr ⟨args, body, h hr, he⟩
  arg _ _ hs := (Corpus.arg_registered hc').mpr <| h <| (Corpus.arg_registered hc).mp hs
  rule := ha

-- The smaller corpus does not know the last node, but its rule refuses a node before that.
theorem check_monotone_of_unknown_last :
    let rs : List (Registration String) := [
      .node "sequence" [] ["wait", "move"], .node "wait" ["time"] [], .arg "time" [.integer] (some "too long")]
    let rs' : List (Registration String) := .node "move" [] [] :: rs ++ [.arg "speed" [] none]
    let judge : Judge String := fun r _ _ _ => .error r
    let t := ((Draft.start "sequence").applyAll [
      .body ⟨0⟩ "wait", .body ⟨0⟩ "move", .leaf ⟨1⟩ "time" "time" (.integer 5)]).build
    let v := Violation.refused "time" "too long"
    ∃ c c', Corpus.ofRegistrations rs = .ok c ∧ Corpus.ofRegistrations rs' = .ok c' ∧ Extends judge t c c' ∧
      t.check judge c = .error v ∧ t.check judge c' = .error v := by
  intro rs rs' judge t v
  have ⟨c, hc⟩ : ∃ c, Corpus.ofRegistrations rs = .ok c := ⟨_, rfl⟩
  have ⟨c', hc'⟩ : ∃ c', Corpus.ofRegistrations rs' = .ok c' := ⟨_, rfl⟩
  have he : Extends judge t c c' := .of_subset hc hc' (by simp [rs, rs']) fun _ _ _ _ _ _ _ => rfl
  have hv : t.check judge c = .error v := by
    cases hc
    decide +kernel
  exact ⟨c, c', hc, hc', he, hv, (check_monotone he).right v hv (by decide)⟩

end Check
end ScriptCheck
