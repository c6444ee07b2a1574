import Mathlib.Data.List.Forall2
import Mathlib.Data.Set.Basic
import ScriptCheck.Proofs.Corpus.Registration
import ScriptCheck.Proofs.Json.Parser
import ScriptCheck.Proofs.Scalar.Json

namespace ScriptCheck

variable {ρ σ α : Type}

-- What is exported of the entry for an argument: the types, and whether there is a rule.
def ArgSpec.outline (s : ArgSpec ρ) : List ScalarType × Bool :=
  (s.types, s.rule.isSome)

namespace Corpus

def nodeSpecs (c : Corpus ρ) : Set (String × NodeSpec) :=
  { entry | c.node entry.1 = .ok entry.2 }

def argSpecs (c : Corpus ρ) : Set (String × List ScalarType × Bool) :=
  { entry | ∃ spec, c.arg entry.1 = .ok spec ∧ spec.outline = entry.2 }

-- The corpora have the same entries, with rules for the same arguments.
structure SameSpecs (c : Corpus ρ) (c' : Corpus σ) : Prop where
  nodes : c.nodeSpecs = c'.nodeSpecs
  args  : c.argSpecs = c'.argSpecs

-- The entries that registrations stand for. Repeated names in the lists of a node kind count once.
def registeredNodes (rs : List (Registration ρ)) : Set (String × NodeSpec) :=
  { entry | ∃ args body, .node entry.1 args body ∈ rs ∧ entry.2 = ⟨firstOccurrences args, firstOccurrences body⟩ }

def registeredArgs (rs : List (Registration ρ)) : Set (String × List ScalarType × Bool) :=
  { entry | ∃ rule, .arg entry.1 entry.2.1 rule ∈ rs ∧ rule.isSome = entry.2.2 }

end Corpus

theorem NodeSpec.toJson_eq_iff (s s' : NodeSpec) (name name' : String) :
    s.toJson name = s'.toJson name' ↔ (name, s) = (name', s') := by
  cases s
  cases s'
  simp [toJson, Json.record, Json.text, Json.texts_injective.eq_iff]

theorem ArgSpec.toJson_eq_iff (s : ArgSpec ρ) (s' : ArgSpec σ) (name name' : String) :
    s.toJson name = s'.toJson name' ↔ (name, s.outline) = (name', s'.outline) := by
  have ht := (List.map_injective_iff.mpr ScalarType.toJson_injective).eq_iff (a := s.types) (b := s'.types)
  simp [toJson, outline, Json.record, Json.text, Json.list, ht]

namespace Corpus

theorem toList_eq_iff {entries entries' : Std.TreeMap String α} :
    entries.toList = entries'.toList ↔ ∀ name : String, entries[name]? = entries'[name]? := by
  constructor
  case mpr => exact fun h => (equiv_of_getElem?_eq h).toList_eq
  case mp =>
    intro h name
    ext spec
    rw [←Std.TreeMap.mem_toList_iff_getElem?_eq_some, h, Std.TreeMap.mem_toList_iff_getElem?_eq_some]

theorem toList_sorted (entries : Std.TreeMap String α) : entries.toList.Pairwise (·.1 < ·.1) := by
  have hs := keys_sorted entries
  rwa [←Std.TreeMap.map_fst_toList_eq_keys, List.pairwise_map] at hs

-- Where names are all different, sorting by name leaves nothing of the order in which the entries came.
theorem mergeSort_eq_of_perm (name : α → String) {l l' : List α} (hp : l.Perm l')
    (hs : l'.Pairwise (name · < name ·)) : l.mergeSort (fun a b => name a ≤ name b) = l' := by
  have hl : (l.mergeSort fun a b => name a ≤ name b).Pairwise (name · ≤ name ·) := by
    refine (List.pairwise_mergeSort (fun a b c => ?_) (fun a b => ?_) l).imp of_decide_eq_true
    · simpa using String.le_trans
    · simpa using String.le_total (name a) (name b)
  have hd : (l'.map name).Nodup := List.pairwise_map.mpr <| hs.imp Std.ne_of_lt
  have hp := (List.mergeSort_perm l fun a b => name a ≤ name b).trans hp
  refine hp.eq_of_pairwise (fun a b ha hb h h' => ?_) hl (hs.imp Std.le_of_lt)
  exact List.inj_on_of_nodup_map hd (hp.mem_iff.mp ha) hb (String.le_antisymm h h')

theorem mergeSort_names {entries : Std.TreeMap String α} {l : List (String × α)} (h : l.Perm entries.toList) :
    (l.map Prod.fst).mergeSort = entries.keys := by
  have hp := h.map Prod.fst
  rw [Std.TreeMap.map_fst_toList_eq_keys] at hp
  exact mergeSort_eq_of_perm id hp (keys_sorted entries)

-- In whatever order a corpus is gone through, its names and entries come out as they are listed and exported once they
-- are sorted by name.
theorem listings_of_sorted (c : Corpus ρ) {nodes : List (String × NodeSpec)} {args : List (String × ArgSpec ρ)}
    (hn : nodes.Perm c.nodes.toList) (ha : args.Perm c.args.toList) :
    (nodes.map Prod.fst).mergeSort = c.nodeKinds ∧ (args.map Prod.fst).mergeSort = c.argKinds ∧
    Json.record [
      ("nodes", .list ((nodes.mergeSort (·.1 ≤ ·.1)).map fun entry => entry.2.toJson entry.1)),
      ("args", .list ((args.mergeSort (·.1 ≤ ·.1)).map fun entry => entry.2.toJson entry.1))] = c.toJson := by
  refine ⟨mergeSort_names hn, mergeSort_names ha, ?_⟩
  rw [mergeSort_eq_of_perm Prod.fst hn (toList_sorted _), mergeSort_eq_of_perm Prod.fst ha (toList_sorted _)]
  rfl

-- Entries are listed in the order of their names, so lists are exported alike exactly if what is exported is the same
-- under each name.
theorem exported_eq_iff {write : String × ρ → Json} {write' : String × σ → Json} {f : ρ → α} {g : σ → α}
    (h : ∀ entry entry', write entry = write' entry' ↔ (entry.1, f entry.2) = (entry'.1, g entry'.2))
    (entries : Std.TreeMap String ρ) (entries' : Std.TreeMap String σ) :
    entries.toList.map write = entries'.toList.map write' ↔
      ∀ name : String, (entries[name]?).map f = (entries'[name]?).map g := by
  calc entries.toList.map write = entries'.toList.map write'
    _ ↔ (entries.map fun _ => f).toList = (entries'.map fun _ => g).toList := by
      simp only [Std.TreeMap.toList_map, ←List.forall₂_eq_eq_eq, List.forall₂_map_left_iff,
        List.forall₂_map_right_iff, h]
    _ ↔ _ := by simp only [toList_eq_iff, Std.TreeMap.getElem?_map]

variable {c : Corpus ρ} {c' : Corpus σ}

theorem mem_nodeSpecs {name : String} {spec : NodeSpec} : (name, spec) ∈ c.nodeSpecs ↔ c.nodes[name]? = some spec :=
  c.node_eq_ok_iff

theorem mem_argSpecs {name : String} {outline : List ScalarType × Bool} :
    (name, outline) ∈ c.argSpecs ↔ (c.args[name]?).map ArgSpec.outline = some outline := by
  simp only [argSpecs, Set.mem_ofPred_eq, c.arg_eq_ok_iff, Option.map_eq_some_iff]

theorem sameSpecs_iff :
    SameSpecs c c' ↔
      (∀ name : String, c.nodes[name]? = c'.nodes[name]?) ∧
      ∀ name : String, (c.args[name]?).map ArgSpec.outline = (c'.args[name]?).map ArgSpec.outline := by
  constructor
  case mp =>
    intro h
    constructor
    case left =>
      intro name
      ext spec
      rw [←mem_nodeSpecs, h.nodes, mem_nodeSpecs]
    case right =>
      intro name
      ext outline
      rw [←mem_argSpecs, h.args, mem_argSpecs]
  case mpr =>
    intro ⟨hn, ha⟩
    constructor
    case nodes =>
      ext ⟨name, spec⟩
      rw [mem_nodeSpecs, mem_nodeSpecs, hn]
    case args =>
      ext ⟨name, outline⟩
      rw [mem_argSpecs, mem_argSpecs, ha]

theorem toJson_eq_iff : c.toJson = c'.toJson ↔ SameSpecs c c' := by
  have hn := exported_eq_iff (f := id) (g := id) (fun entry entry' => NodeSpec.toJson_eq_iff entry.2 entry'.2 _ _)
    c.nodes c'.nodes
  have ha := exported_eq_iff (fun entry entry' => ArgSpec.toJson_eq_iff entry.2 entry'.2 _ _) c.args c'.args
  simp only [Option.map_id_fun, id_eq] at hn
  rw [sameSpecs_iff, ←hn, ←ha]
  simp [toJson, Json.record, Json.list]

theorem whole_toJson (c : Corpus ρ) : c.toJson.Whole := by
  have hn (entry : String × NodeSpec) : (entry.2.toJson entry.1).Whole :=
    .record <| by simp [Json.Whole.text, Json.Whole.texts]
  have ht (t : ScalarType) : t.toJson.Whole := .text
  have ha (entry : String × ArgSpec ρ) : (entry.2.toJson entry.1).Whole :=
    .record <| by simp [Json.Whole.text, Json.Whole.bool, Json.Whole.list ht]
  exact .record <| by simp [Json.Whole.list hn, Json.Whole.list ha]

theorem write_eq_iff_sameSpecs : c.write = c'.write ↔ SameSpecs c c' := by
  rw [←toJson_eq_iff]
  exact ⟨c.whole_toJson.write_inj c'.whole_toJson, congrArg Json.write⟩

section

variable {rs : List (Registration ρ)} {rs' : List (Registration σ)}

theorem nodeSpecs_eq_registered (hc : ofRegistrations rs = .ok c) : c.nodeSpecs = registeredNodes rs := by
  ext ⟨name, spec⟩
  exact (holds_of_ofRegistrations hc).node name spec

theorem argSpecs_eq_registered (hc : ofRegistrations rs = .ok c) : c.argSpecs = registeredArgs rs := by
  have ha := (holds_of_ofRegistrations hc).arg
  ext ⟨name, types, ruled⟩
  constructor
  case mp =>
    rintro ⟨spec, hs, he⟩
    obtain ⟨rfl, rfl⟩ := Prod.mk.inj he
    exact ⟨spec.rule, (ha name spec).mp hs, rfl⟩
  case mpr =>
    rintro ⟨rule, hr, rfl⟩
    exact ⟨⟨types, rule⟩, (ha name ⟨types, rule⟩).mpr hr, rfl⟩

-- Corpora are exported alike exactly if they have the same entries, which depends only on what was registered.
theorem export_is_canonical (hc : ofRegistrations rs = .ok c) (hc' : ofRegistrations rs' = .ok c') :
    (c.write = c'.write ↔ c.nodeSpecs = c'.nodeSpecs ∧ c.argSpecs = c'.argSpecs) ∧
    (c.write = c'.write ↔ registeredNodes rs = registeredNodes rs' ∧ registeredArgs rs = registeredArgs rs') := by
  have h : c.write = c'.write ↔ c.nodeSpecs = c'.nodeSpecs ∧ c.argSpecs = c'.argSpecs := by
    rw [write_eq_iff_sameSpecs]
    exact ⟨fun h => ⟨h.nodes, h.args⟩, fun ⟨hn, ha⟩ => ⟨hn, ha⟩⟩
  refine ⟨h, ?_⟩
  rw [←nodeSpecs_eq_registered hc, ←nodeSpecs_eq_registered hc', ←argSpecs_eq_registered hc,
    ←argSpecs_eq_registered hc']
  exact h

end

-- Another order, other rules and repeated names make no difference, but the order of names does.
theorem export_is_canonical_of_reordered :
    let rs : List (Registration String) := [
      .node "wait" ["time", "\"unit\""] [], .node "loop" [] ["loop", "wait"], .arg "time" [.integer] (some "short")]
    let rs' : List (Registration Nat) := [
      .arg "time" [.integer] (some 7), .node "loop" [] ["loop", "wait", "loop"],
      .node "wait" ["time", "\"unit\"", "time"] []]
    let rs'' : List (Registration String) := [
      .node "wait" ["\"unit\"", "time"] [], .node "loop" [] ["loop", "wait"], .arg "time" [.integer] (some "short")]
    ∃ c c' c'', ofRegistrations rs = .ok c ∧ ofRegistrations rs' = .ok c' ∧ ofRegistrations rs'' = .ok c'' ∧
      c.write = c'.write ∧ c.nodeSpecs = c'.nodeSpecs ∧ c.argSpecs = c'.argSpecs ∧ c.write ≠ c''.write := by
  intro rs rs' rs''
  have ⟨c, hc⟩ : ∃ c, ofRegistrations rs = .ok c := ⟨_, rfl⟩
  have ⟨c', hc'⟩ : ∃ c, ofRegistrations rs' = .ok c := ⟨_, rfl⟩
  have ⟨c'', hc''⟩ : ∃ c, ofRegistrations rs'' = .ok c := ⟨_, rfl⟩
  have hn : registeredNodes rs = registeredNodes rs' := by
    have hl : firstOccurrences ["loop", "wait", "loop"] = firstOccurrences ["loop", "wait"] := by decide
    have ht : firstOccurrences ["time", "\"unit\"", "time"] = firstOccurrences ["time", "\"unit\""] := by decide
    ext ⟨name, spec⟩
    simp [registeredNodes, rs, rs', or_and_right, exists_or, hl, ht, or_comm]
  have ha : registeredArgs rs = registeredArgs rs' := by
    ext ⟨name, types, ruled⟩
    simp [registeredArgs, rs, rs']
  have hd : registeredNodes rs ≠ registeredNodes rs'' := by
    intro h
    have hm : ("wait", ⟨["time", "\"unit\""], []⟩) ∈ registeredNodes rs := ⟨_, _, List.mem_cons_self, by decide⟩
    have ⟨args, body, hr, he⟩ := h ▸ hm
    have hr : args = ["\"unit\"", "time"] ∧ body = [] := by simpa [rs''] using hr
    rw [hr.left, hr.right] at he
    exact absurd he (by decide)
  have ⟨h, hr⟩ := export_is_canonical hc hc'
  have ⟨_, hr'⟩ := export_is_canonical hc hc''
  have hw := hr.mpr ⟨hn, ha⟩
  have ⟨hs, hs'⟩ := h.mp hw
  exact ⟨c, c', c'', hc, hc', hc'', hw, hs, hs', fun he => hd (hr'.mp he).left⟩

end Corpus
end ScriptCheck
