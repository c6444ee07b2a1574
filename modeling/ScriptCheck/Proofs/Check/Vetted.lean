import ScriptCheck.Proofs.Check.Arity
import ScriptCheck.Proofs.Check.Corpora
import ScriptCheck.Proofs.Corpus.Export

namespace ScriptCheck
namespace Check

variable {ρ σ : Type} {judge : Judge ρ} {judge' : Judge σ} {c : Corpus ρ} {c' : Corpus σ} {t : Tree} {n : Node}

-- The value that the node `n` has under `name` may be put before a rule: the node fits the outline of its kind, the
-- value is there, and if it is a leaf then it has one of the types that its kind allows.
structure Vetted (c : Corpus ρ) (t : Tree) (n : Node) (name : String) (v : Value) : Prop where
  node    : n ∈ t
  outline : ∃ spec, OutlineValid c t n spec
  stored  : ∃ a, (name, a) ∈ n.args ∧ t.resolve? a = some v
  typed   : ∀ l, v = .leaf l → ∃ spec, c.args[l.kind]? = some spec ∧ l.value.type ∈ spec.types

-- Each rule of `c'`, with `c'` at hand, answers as the rule of `c` for the same name does, with `c` at hand, if it is
-- asked about a vetted value.
def AgreeOnVetted (judge : Judge ρ) (judge' : Judge σ) (t : Tree) (c : Corpus ρ) (c' : Corpus σ) : Prop :=
  ∀ n name v, Vetted c t n name v → ∀ spec spec' r r', c.args[name]? = some spec → c'.args[name]? = some spec' →
    spec.rule = some r → spec'.rule = some r' → judge' r' c' t v = judge r c t v

theorem checkBody_eq_ok_iff {spec : NodeSpec} :
    checkBody t spec n = .ok () ↔ ∀ id ∈ n.bodyIds, ∃ child, t.node? id = some child ∧ child.kind ∈ spec.body := by
  rw [checkBody_eq_verdict, verdict_eq_ok_iff, bodyViolations_eq_nil_iff]

theorem checkOutline_eq_ok_iff {rs : List (Registration ρ)} (hw : Tree.WellFormed t.root t.records)
    (hc : Corpus.ofRegistrations rs = .ok c) (hn : n ∈ t) :
    checkOutline c t n = .ok () ↔ ∃ spec, OutlineValid c t n spec := by
  have hd : n.argNames.Nodup := hw.names_nodup _ (Tree.record_mem hn)
  have ha {spec : NodeSpec} (hs : c.nodes[n.kind]? = some spec) :=
    checkArity_eq_ok_iff hd (Corpus.args_nodup hc hs)
  simp only [checkOutline, bind_eq_ok_iff, c.node_eq_ok_iff]
  constructor
  case mp =>
    rintro ⟨spec, hs, _, hb, hk⟩
    exact ⟨spec, hs, checkBody_eq_ok_iff.mp hb, (ha hs).mp hk⟩
  case mpr =>
    rintro ⟨spec, h⟩
    exact ⟨spec, h.known, (), checkBody_eq_ok_iff.mpr h.body, (ha h.known).mpr h.names⟩

theorem checkType_eq_ok_iff {v : Value} :
    checkType c t n v = .ok () ↔
      ∀ l, v = .leaf l → ∃ spec, c.args[l.kind]? = some spec ∧ l.value.type ∈ spec.types := by
  cases v
  case node   => simp [checkType]
  case leaf l => cases hs : c.args[l.kind]? <;> simp [checkType, Corpus.arg, hs]

section

variable (hs : Corpus.SameSpecs c c')
include hs

theorem checkOutline_of_sameSpecs : checkOutline c' t n = checkOutline c t n := by
  have ⟨hn, _⟩ := Corpus.sameSpecs_iff.mp hs
  rw [checkOutline, checkOutline, Corpus.node, Corpus.node, hn]

theorem checkType_of_sameSpecs {v : Value} : checkType c' t n v = checkType c t n v := by
  cases v
  case node   => rfl
  case leaf l =>
    have ⟨_, ha⟩ := Corpus.sameSpecs_iff.mp hs
    have ht := congrArg (Option.map Prod.fst) (ha l.kind)
    simp only [Option.map_map, Function.comp_def, ArgSpec.outline] at ht
    rw [checkType_leaf, checkType_leaf, map_types_arg, map_types_arg, ht]

-- The corpora have entries for the same names, and rules in the same entries.
theorem ruling_of_sameSpecs {name : String} {v : Value}
    (h : ∀ spec spec' r r', c.args[name]? = some spec → c'.args[name]? = some spec' →
      spec.rule = some r → spec'.rule = some r' → judge' r' c' t v = judge r c t v) :
    ruling judge' c' t name v = ruling judge c t name v := by
  have ⟨_, ha⟩ := Corpus.sameSpecs_iff.mp hs
  have ha := ha name
  cases hs : c.args[name]? <;> cases hs' : c'.args[name]? <;> rw [hs, hs'] at ha
  case none.none => rw [ruling_of_none hs, ruling_of_none hs']
  case none.some => cases ha
  case some.none => cases ha
  case some.some spec spec' =>
    have ⟨_, ho⟩ := Prod.mk.inj (Option.some.inj ha)
    rw [ruling_of_some hs, ruling_of_some hs']
    cases hr : spec.rule <;> cases hr' : spec'.rule <;> rw [hr, hr'] at ho
    case none.none => rfl
    case none.some => cases ho
    case some.none => cases ho
    case some.some r r' => rw [Option.elim_some, Option.elim_some, h spec spec' r r' hs hs' hr hr']

variable (ha : AgreeOnVetted judge judge' t c c')
include ha

theorem checkArg_of_agreeOnVetted (hn : n ∈ t) (ho : ∃ spec, OutlineValid c t n spec) {arg : String × Arg}
    (hm : arg ∈ n.args) :
    Follows (fun _ => False) (checkArg judge c t n arg) (checkArg judge' c' t n arg) := by
  cases hv : t.resolve? arg.2
  case none =>
    simp only [checkArg, vet, hv]
    exact .refl _
  case some v =>
    rw [checkArg_eq_ruling hv, checkArg_eq_ruling hv, checkType_of_sameSpecs hs]
    refine .bind (.refl _) fun _ ht => .inl <| ruling_of_sameSpecs hs <| ha n arg.1 v ?_
    exact ⟨hn, ho, ⟨arg.2, hm, hv⟩, checkType_eq_ok_iff.mp ht⟩

theorem checkNode_of_agreeOnVetted {rs : List (Registration ρ)} (hw : Tree.WellFormed t.root t.records)
    (hc : Corpus.ofRegistrations rs = .ok c) (hn : n ∈ t) :
    Follows (fun _ => False) (checkNode judge c t n) (checkNode judge' c' t n) := by
  rw [checkNode, checkNode, checkOutline_of_sameSpecs hs]
  refine .bind (.refl _) fun _ ho => .forM fun arg hm => ?_
  exact checkArg_of_agreeOnVetted hs ha hn ((checkOutline_eq_ok_iff hw hc hn).mp ho) hm

end

-- Rules may be replaced by any others that give the same answers on vetted values.
theorem check_asks_about_vetted_values {rs : List (Registration ρ)} (ht : t.Obtained)
    (hc : Corpus.ofRegistrations rs = .ok c) (hs : Corpus.SameSpecs c c') (ha : AgreeOnVetted judge judge' t c c') :
    t.check judge' c' = t.check judge c := by
  have hw := ht.wellFormed
  refine Follows.eq_of_none_excused ?_
  rw [Tree.check, Tree.check, Tree.travel_eq_forM, Tree.travel_eq_forM]
  refine .bind (.forM fun n hn => ?_) fun _ _ => .refl _
  exact checkNode_of_agreeOnVetted hs ha hw hc (hw.mem_walk_root_iff.mp hn)

-- The new rule refuses texts, but a text is not among the allowed types, and that is reported as before.
theorem check_asks_about_vetted_values_of_text :
    let rs (strict : Bool) : List (Registration Bool) := [
      .node "sequence" [] ["move"], .node "move" ["speed"] [], .arg "speed" [.integer] (some strict)]
    let judge : Judge Bool := fun strict _ _ v =>
      if strict ∧ v.leaf?.map (·.value.type) = some .string then .error "no text" else .ok ()
    let t := ((Draft.start "sequence").applyAll [
      .body ⟨0⟩ "move", .body ⟨0⟩ "move", .leaf ⟨1⟩ "speed" "speed" (.integer 5),
      .leaf ⟨2⟩ "speed" "speed" (.string "fast")]).build
    ∃ c c', Corpus.ofRegistrations (rs false) = .ok c ∧ Corpus.ofRegistrations (rs true) = .ok c' ∧
      Corpus.SameSpecs c c' ∧ AgreeOnVetted judge judge t c c' ∧
      (∃ v, t.HasValue "speed" v ∧ judge true c' t v ≠ judge false c t v) ∧
      t.check judge c' = .error (.invalidLeafType "speed" "move" [.integer] .string) := by
  intro rs judge t
  obtain ⟨c, hc⟩ : ∃ c, Corpus.ofRegistrations (rs false) = .ok c := ⟨_, rfl⟩
  obtain ⟨c', hc'⟩ : ∃ c, Corpus.ofRegistrations (rs true) = .ok c := ⟨_, rfl⟩
  have ht : t.Obtained := .draft ..
  have hs : Corpus.SameSpecs c c' := by
    constructor
    case nodes =>
      rw [Corpus.nodeSpecs_eq_registered hc, Corpus.nodeSpecs_eq_registered hc']
      simp [Corpus.registeredNodes, rs]
    case args =>
      rw [Corpus.argSpecs_eq_registered hc, Corpus.argSpecs_eq_registered hc']
      simp [Corpus.registeredArgs, rs]
  have ha : AgreeOnVetted judge judge t c c' := by
    intro n name v hv spec spec' r r' h h' hr hr'
    cases v
    case node   => simp [judge, Value.leaf?]
    case leaf l =>
      obtain ⟨s, hs, hm⟩ := hv.typed l rfl
      obtain ⟨_, hi, _⟩ : l.kind = "speed" ∧ s.types = [.integer] ∧ s.rule = some false := by
        simpa [rs] using (Corpus.arg_registered hc).mp hs
      have hi : l.value.type = .integer := by simpa [hi] using hm
      simp [judge, Value.leaf?, hi]
  have hv : t.check judge c = .error (.invalidLeafType "speed" "move" [.integer] .string) := by
    cases hc
    decide +kernel
  let l : Leaf := ⟨"speed", .string "fast", ⟨2⟩⟩
  have hl : t.HasValue "speed" (.leaf l) := by
    let n : Node := ⟨⟨2⟩, ⟨"move", #[("speed", .leaf l)], #[], some ⟨0⟩⟩⟩
    have hn : t.node? n.id = some n := by decide +kernel
    exact ⟨n, hn, .leaf l, List.mem_singleton.mpr rfl, rfl⟩
  have hj : judge true c' t (.leaf l) ≠ judge false c t (.leaf l) := by
    simp [judge, l, Value.leaf?, Scalar.type]
  exact ⟨c, c', hc, hc', hs, ha, ⟨_, hl, hj⟩, (check_asks_about_vetted_values ht hc hs ha).trans hv⟩

end Check
end ScriptCheck
