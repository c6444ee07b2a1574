import Mathlib.Data.List.Induction
import Mathlib.Data.List.Nodup
import ScriptCheck.Corpus.Registered
import ScriptCheck.Proofs.Verdict

namespace ScriptCheck

theorem nodup_eraseDups {α : Type} [BEq α] [LawfulBEq α] (l : List α) : l.eraseDups.Nodup := by
  match l with
  | []      => simp
  | a :: as =>
    rw [List.eraseDups_cons, List.nodup_cons, List.mem_eraseDups]
    exact ⟨by simp, nodup_eraseDups _⟩
termination_by l.length
decreasing_by exact Nat.lt_succ_of_le <| List.length_filter_le ..

theorem firstOccurrences_concat (names : List String) (name : String) :
    firstOccurrences (names ++ [name]) = firstOccurrences names ++ if name ∈ names then [] else [name] := by
  have h : names.zipIdx.filter (fun entry => entry.1 ∉ (names ++ [name]).take entry.2) =
      names.zipIdx.filter (fun entry => entry.1 ∉ names.take entry.2) := by
    refine List.filter_congr fun entry he => ?_
    have hl := List.snd_lt_of_mem_zipIdx he
    rw [List.take_append_of_le_length (by omega)]
  rw [firstOccurrences, List.zipIdx_append, List.filter_append, h, List.map_append, firstOccurrences]
  by_cases hn : name ∈ names <;> simp [hn]

theorem eraseDups_eq_firstOccurrences (names : List String) : names.eraseDups = firstOccurrences names := by
  induction names using List.reverseRecOn
  case nil => rfl
  case append_singleton names name ih =>
    rw [List.eraseDups_append, firstOccurrences_concat, ih]
    by_cases hn : name ∈ names <;> simp [List.removeAll, List.eraseDups_cons, hn]

theorem nodup_or_firstRepeat (names : List String) : names.Nodup ∨ ∃ name, FirstRepeat names name := by
  induction names using List.reverseRecOn
  case nil => exact .inl List.nodup_nil
  case append_singleton names name ih =>
    obtain hd | ⟨other, before, after, he, hd, hm⟩ := ih
    case inr => exact .inr ⟨other, before, after ++ [name], by simp [he], hd, hm⟩
    case inl =>
      by_cases hn : name ∈ names
      case pos => exact .inr ⟨name, names, [], rfl, hd, hn⟩
      case neg => exact .inl <| hd.append (List.nodup_singleton _) (by simpa using hn)

theorem FirstRepeat.not_nodup {names : List String} {name : String} (h : FirstRepeat names name) : ¬names.Nodup := by
  obtain ⟨before, after, rfl, _, hm⟩ := h
  intro hd
  exact List.disjoint_of_nodup_append hd hm List.mem_cons_self

theorem exists_firstRepeat_iff {names : List String} : (∃ name, FirstRepeat names name) ↔ ¬names.Nodup :=
  ⟨fun ⟨_, h⟩ => h.not_nodup, (nodup_or_firstRepeat names).resolve_left⟩

namespace Corpus

variable {ρ σ : Type} {duplicate : String → CorpusError} {entries entries' : Std.TreeMap String σ}

theorem insertNew_eq_ok_iff {entry : String × σ} :
    insertNew duplicate entries entry = .ok entries' ↔
      entries[entry.1]? = none ∧ entries.insert entry.1 entry.2 = entries' := by
  rw [insertNew]
  split
  case isTrue h  => simp_all
  case isFalse h => simp_all

theorem getElem?_insertNew {entry : String × σ} (h : insertNew duplicate entries entry = .ok entries')
    {name : String} {spec : σ} : entries'[name]? = some spec ↔ entries[name]? = some spec ∨ (name, spec) = entry := by
  have ⟨hn, he⟩ := insertNew_eq_ok_iff.mp h
  subst he
  rw [Std.TreeMap.getElem?_insert, Prod.ext_iff]
  split
  case isTrue hc =>
    have : entry.1 = name := by simpa using hc
    simp_all [eq_comm]
  case isFalse hc =>
    have : entry.1 ≠ name := by simpa using hc
    simp [this.symm]

theorem getElem?_insertAll {l : List (String × σ)} (h : l.foldlM (insertNew duplicate) entries = .ok entries')
    {name : String} {spec : σ} : entries'[name]? = some spec ↔ entries[name]? = some spec ∨ (name, spec) ∈ l := by
  induction l generalizing entries
  case nil =>
    cases h
    simp
  case cons entry l ih =>
    rw [List.foldlM_cons] at h
    have ⟨_, h₁, h⟩ := bind_eq_ok_iff.mp h
    rw [ih h, getElem?_insertNew h₁, List.mem_cons, or_assoc]

theorem insertAll_of_nodup {l : List (String × σ)} (hd : (l.map Prod.fst).Nodup)
    (hn : ∀ entry ∈ l, entries[entry.1]? = none) : ∃ entries', l.foldlM (insertNew duplicate) entries = .ok entries' := by
  induction l generalizing entries
  case nil => exact ⟨entries, rfl⟩
  case cons entry l ih =>
    have ⟨he, hd⟩ := List.nodup_cons.mp hd
    have ⟨hn, hl⟩ := List.forall_mem_cons.mp hn
    have h₁ : insertNew duplicate entries entry = .ok (entries.insert entry.1 entry.2) :=
      insertNew_eq_ok_iff.mpr ⟨hn, rfl⟩
    rw [List.foldlM_cons, h₁]
    -- What comes later has other names, so it is still new.
    refine ih hd fun other ho => ?_
    have hne : entry.1 ≠ other.1 := fun h => he <| h ▸ List.mem_map_of_mem ho
    simpa [Std.TreeMap.getElem?_insert, hne] using hl other ho

theorem insertAll_of_firstRepeat {l : List (String × σ)} {name : String} (h : FirstRepeat (l.map Prod.fst) name) :
    l.foldlM (insertNew duplicate) ∅ = .error (duplicate name) := by
  obtain ⟨_, _, he, hd, hm⟩ := h
  obtain ⟨before, _, rfl, rfl, ht⟩ := List.map_eq_append_iff.mp he
  obtain ⟨entry, after, rfl, rfl, _⟩ := List.map_eq_cons_iff.mp ht
  have ⟨entries, hb⟩ : ∃ entries, before.foldlM (insertNew duplicate) ∅ = .ok entries :=
    insertAll_of_nodup hd (by simp)
  have ⟨other, ho, hn⟩ := List.mem_map.mp hm
  have hs := (getElem?_insertAll hb).mpr (.inr ho)
  have hc : entries.contains entry.1 := by
    rw [Std.TreeMap.contains_eq_isSome_getElem?, ←hn, hs, Option.isSome_some]
  rw [List.foldlM_append, hb, ok_bind, List.foldlM_cons, insertNew, if_pos hc, error_bind]

variable (duplicate) in
theorem insertAll_isOk_iff {l : List (String × σ)} :
    (∃ entries, l.foldlM (insertNew duplicate) ∅ = .ok entries) ↔ (l.map Prod.fst).Nodup := by
  constructor
  case mpr => exact fun hd => insertAll_of_nodup hd (by simp)
  case mp =>
    intro ⟨_, ho⟩
    refine (nodup_or_firstRepeat _).resolve_right fun ⟨_, hr⟩ => ?_
    cases ho.symm.trans (insertAll_of_firstRepeat hr)

theorem insertAll_eq_error_iff {l : List (String × σ)} {e : CorpusError} :
    l.foldlM (insertNew duplicate) ∅ = .error e ↔ ∃ name, FirstRepeat (l.map Prod.fst) name ∧ e = duplicate name := by
  constructor
  case mpr => exact fun ⟨_, h, he⟩ => he ▸ insertAll_of_firstRepeat h
  case mp =>
    intro h
    cases nodup_or_firstRepeat (l.map Prod.fst)
    case inl hd =>
      have ⟨_, ho⟩ := (insertAll_isOk_iff duplicate).mpr hd
      cases h.symm.trans ho
    case inr hr =>
      have ⟨name, hr⟩ := hr
      cases h.symm.trans (insertAll_of_firstRepeat hr)
      exact ⟨name, hr, rfl⟩

variable {rs rs' : List (Registration ρ)} {c c' : Corpus ρ}

theorem map_fst_entries {held? : Registration ρ → Option (String × σ)} {name? : Registration ρ → Option String}
    (h : ∀ r, (held? r).map Prod.fst = name? r) (rs : List (Registration ρ)) :
    (rs.filterMap held?).map Prod.fst = rs.filterMap name? := by
  rw [List.map_filterMap]
  exact congrArg (rs.filterMap ·) (funext h)

theorem map_fst_nodes (rs : List (Registration ρ)) :
    (rs.filterMap Registration.node?).map Prod.fst = nodeNames rs :=
  map_fst_entries (fun r => by cases r <;> rfl) rs

theorem map_fst_args (rs : List (Registration ρ)) :
    (rs.filterMap Registration.arg?).map Prod.fst = argNames rs :=
  map_fst_entries (fun r => by cases r <;> rfl) rs

theorem ofRegistrations_eq_ok_iff :
    ofRegistrations rs = .ok c ↔
      (rs.filterMap Registration.node?).foldlM (insertNew .duplicateNode) ∅ = .ok c.nodes ∧
      (rs.filterMap Registration.arg?).foldlM (insertNew .duplicateArg) ∅ = .ok c.args := by
  simp only [ofRegistrations, bind_eq_ok_iff]
  constructor
  case mp =>
    intro ⟨_, hn, _, ha, he⟩
    cases he
    exact ⟨hn, ha⟩
  case mpr => exact fun ⟨hn, ha⟩ => ⟨_, hn, _, ha, rfl⟩

theorem node_registered (hc : ofRegistrations rs = .ok c) {name : String} {spec : NodeSpec} :
    c.nodes[name]? = some spec ↔
      ∃ args body, .node name args body ∈ rs ∧ spec = ⟨args.eraseDups, body.eraseDups⟩ := by
  rw [getElem?_insertAll (ofRegistrations_eq_ok_iff.mp hc).left, List.mem_filterMap]
  simp only [Std.TreeMap.getElem?_emptyc, reduceCtorEq, false_or]
  constructor
  case mp =>
    intro ⟨r, hr, he⟩
    cases r
    case arg => cases he
    case node =>
      cases he
      exact ⟨_, _, hr, rfl⟩
  case mpr => exact fun ⟨args, body, hr, he⟩ => ⟨_, hr, he ▸ rfl⟩

theorem arg_registered (hc : ofRegistrations rs = .ok c) {name : String} {spec : ArgSpec ρ} :
    c.args[name]? = some spec ↔ .arg name spec.types spec.rule ∈ rs := by
  rw [getElem?_insertAll (ofRegistrations_eq_ok_iff.mp hc).right, List.mem_filterMap]
  simp only [Std.TreeMap.getElem?_emptyc, reduceCtorEq, false_or]
  constructor
  case mp =>
    intro ⟨r, hr, he⟩
    cases r
    case node => cases he
    case arg =>
      cases he
      exact hr
  case mpr => exact fun hr => ⟨_, hr, rfl⟩

-- Names are listed once, as the count of arguments takes for granted.
theorem args_nodup (hc : ofRegistrations rs = .ok c) {name : String} {spec : NodeSpec}
    (h : c.nodes[name]? = some spec) : spec.args.Nodup := by
  have ⟨_, _, _, he⟩ := (node_registered hc).mp h
  exact he ▸ nodup_eraseDups _

theorem exists_ofRegistrations_iff :
    (∃ c, ofRegistrations rs = .ok c) ↔ (nodeNames rs).Nodup ∧ (argNames rs).Nodup := by
  rw [←map_fst_nodes, ←map_fst_args, ←insertAll_isOk_iff .duplicateNode,
    ←insertAll_isOk_iff .duplicateArg]
  simp only [ofRegistrations_eq_ok_iff]
  constructor
  case mp  => exact fun ⟨c, hn, ha⟩ => ⟨⟨_, hn⟩, ⟨_, ha⟩⟩
  case mpr => exact fun ⟨⟨nodes, hn⟩, ⟨args, ha⟩⟩ => ⟨⟨nodes, args⟩, hn, ha⟩

theorem ofRegistrations_eq_error_iff {e : CorpusError} :
    ofRegistrations rs = .error e ↔
      (∃ name, FirstRepeat (nodeNames rs) name ∧ e = .duplicateNode name) ∨
      (nodeNames rs).Nodup ∧ ∃ name, FirstRepeat (argNames rs) name ∧ e = .duplicateArg name := by
  rw [←map_fst_nodes, ←map_fst_args, ←insertAll_eq_error_iff, ←insertAll_eq_error_iff,
    ←insertAll_isOk_iff .duplicateNode]
  rw [ofRegistrations, bind_eq_error_iff, ←exists_and_right]
  refine or_congr_right <| exists_congr fun nodes => and_congr_right fun _ => ?_
  rw [bind_eq_error_iff]
  exact or_iff_left fun ⟨_, _, h⟩ => by cases h

-- Entries of the same names are listed in the same order.
theorem equiv_of_getElem?_eq {entries entries' : Std.TreeMap String σ}
    (h : ∀ name : String, entries[name]? = entries'[name]?) : entries.Equiv entries' := by
  have hd (entries : Std.TreeMap String σ) : entries.toList.Nodup := by
    refine Std.TreeMap.distinct_keys_toList.imp fun hne he => hne ?_
    rw [he, Std.ReflOrd.compare_self]
  refine .of_toList_perm <| (List.perm_ext_iff_of_nodup (hd _) (hd _)).mpr fun entry => ?_
  rw [Std.TreeMap.mem_toList_iff_getElem?_eq_some, Std.TreeMap.mem_toList_iff_getElem?_eq_some, h]

theorem keys_sorted (entries : Std.TreeMap String σ) : entries.keys.Pairwise (· < ·) := by
  refine Std.TreeMap.ordered_keys.imp fun h => ?_
  exact compareOfLessAndEq_eq_lt.mp h

-- The names of a table are those of the entries that went into it.
theorem mem_keys_iff {l : List (String × σ)} (h : l.foldlM (insertNew duplicate) ∅ = .ok entries) {name : String} :
    name ∈ entries.keys ↔ name ∈ l.map Prod.fst := by
  rw [Std.TreeMap.mem_keys, Std.TreeMap.mem_iff_isSome_getElem?, Option.isSome_iff_exists, List.mem_map]
  simp only [getElem?_insertAll h, Std.TreeMap.getElem?_emptyc, reduceCtorEq, false_or]
  constructor
  case mp  => exact fun ⟨spec, hs⟩ => ⟨(name, spec), hs, rfl⟩
  case mpr => exact fun ⟨entry, he, hn⟩ => ⟨entry.2, hn ▸ he⟩

theorem holds_of_ofRegistrations (hc : ofRegistrations rs = .ok c) : Holds rs c where
  node name spec := by
    rw [c.node_eq_ok_iff, node_registered hc]
    simp only [eraseDups_eq_firstOccurrences]
  arg name spec := by
    rw [c.arg_eq_ok_iff, arg_registered hc]
  nodeKinds_sorted := keys_sorted _
  argKinds_sorted := keys_sorted _
  mem_nodeKinds name := by
    rw [nodeKinds, mem_keys_iff (ofRegistrations_eq_ok_iff.mp hc).left, map_fst_nodes]
  mem_argKinds name := by
    rw [argKinds, mem_keys_iff (ofRegistrations_eq_ok_iff.mp hc).right, map_fst_args]

-- The order of registrations does not matter.
theorem same_of_perm (hc : ofRegistrations rs = .ok c) (hc' : ofRegistrations rs' = .ok c') (hp : rs'.Perm rs) :
    Same c c' := by
  have hn (name : String) : c'.nodes[name]? = c.nodes[name]? := by
    ext spec
    simp only [node_registered hc, node_registered hc', hp.mem_iff]
  have ha (name : String) : c'.args[name]? = c.args[name]? := by
    ext spec
    simp only [arg_registered hc, arg_registered hc', hp.mem_iff]
  constructor
  case node      => exact fun name => by rw [node, node, hn]
  case arg       => exact fun name => by rw [arg, arg, ha]
  case nodeKinds => exact (equiv_of_getElem?_eq hn).keys_eq
  case argKinds  => exact (equiv_of_getElem?_eq ha).keys_eq

theorem ofRegistrations_exact (rs : List (Registration ρ)) :
    (∀ name, ofRegistrations rs = .error (.duplicateNode name) ↔ FirstRepeat (nodeNames rs) name) ∧
    (∀ name, ofRegistrations rs = .error (.duplicateArg name) ↔
      (nodeNames rs).Nodup ∧ FirstRepeat (argNames rs) name) ∧
    ((∃ name, FirstRepeat (nodeNames rs) name) ↔ ¬(nodeNames rs).Nodup) ∧
    ((∃ name, FirstRepeat (argNames rs) name) ↔ ¬(argNames rs).Nodup) ∧
    ((nodeNames rs).Nodup → (argNames rs).Nodup →
      ∃ c, ofRegistrations rs = .ok c ∧ Holds rs c ∧
        ∀ rs', rs'.Perm rs → ∃ c', ofRegistrations rs' = .ok c' ∧ Same c c') := by
  refine ⟨fun name => ?_, fun name => ?_, exists_firstRepeat_iff, exists_firstRepeat_iff, fun hn ha => ?_⟩
  · simp [ofRegistrations_eq_error_iff]
  · simp [ofRegistrations_eq_error_iff]
  · have ⟨c, hc⟩ := exists_ofRegistrations_iff.mpr ⟨hn, ha⟩
    refine ⟨c, hc, holds_of_ofRegistrations hc, fun rs' hp => ?_⟩
    have hn' : (nodeNames rs').Nodup := (hp.filterMap _).nodup_iff.mpr hn
    have ha' : (argNames rs').Nodup := (hp.filterMap _).nodup_iff.mpr ha
    have ⟨c', hc'⟩ := exists_ofRegistrations_iff.mpr ⟨hn', ha'⟩
    exact ⟨c', hc', same_of_perm hc hc' hp⟩

-- A name for both a node and an argument, repetitions in a list, and two repeated names, of which the node is reported.
theorem ofRegistrations_exact_of_shared_name :
    let rs : List (Registration String) := [
      .arg "wait" [.integer, .integer] none, .node "wait" ["time"] [], .node "loop" [] ["wait", "loop", "wait"]]
    (nodeNames rs).Nodup ∧ (argNames rs).Nodup ∧ rs.reverse.Perm rs ∧
    (∃ c c', ofRegistrations rs = .ok c ∧ ofRegistrations rs.reverse = .ok c' ∧ Same c c' ∧
      c'.node "loop" = .ok ⟨[], ["wait", "loop"]⟩ ∧ c'.nodeKinds = ["loop", "wait"]) ∧
    ofRegistrations (rs ++ [.arg "wait" [] none, .node "loop" [] []]) = .error (.duplicateNode "loop") := by
  intro rs
  have hn : (nodeNames rs).Nodup := by decide
  have ha : (argNames rs).Nodup := by decide
  have ⟨_, _, _, _, h⟩ := ofRegistrations_exact rs
  have ⟨he, _⟩ := ofRegistrations_exact (rs ++ [.arg "wait" [] none, .node "loop" [] []])
  have ⟨c, hc, hh, hp⟩ := h hn ha
  have ⟨c', hc', hs⟩ := hp rs.reverse rs.reverse_perm
  have hl : c.node "loop" = .ok ⟨[], ["wait", "loop"]⟩ :=
    (hh.node _ _).mpr ⟨[], ["wait", "loop", "wait"], by simp [rs], by decide⟩
  have hk : c.nodeKinds = ["loop", "wait"] := by
    cases hc
    decide +kernel
  refine ⟨hn, ha, rs.reverse_perm, ⟨c, c', hc, hc', hs, (hs.node _).trans hl, hs.nodeKinds.trans hk⟩, ?_⟩
  exact (he "loop").mpr ⟨["wait", "loop"], [], by decide, by decide, by decide⟩

end Corpus
end ScriptCheck
