import ScriptCheck.Proofs.Tree.Alike
import ScriptCheck.Proofs.Verdict
import ScriptCheck.Tree.History

namespace ScriptCheck
namespace Tree

variable {records : Array Record} {root id p : NodeId} {r : Record} {i : Nat} {f : Record → Record}

theorem count_flatMap_modify {l : List Record} (c : NodeId) (h : l[i]? = some r) :
    ((l.modify i f).flatMap Record.childIds).count c + r.childIds.count c =
      (l.flatMap Record.childIds).count c + (f r).childIds.count c := by
  induction l generalizing i
  case nil => simp at h
  case cons s l ih =>
    cases i
    case zero =>
      cases h
      simp
      omega
    case succ i =>
      have := ih (i := i) (by simpa using h)
      simp
      omega

theorem count_slots_modify (c : NodeId) (h : records[i]? = some r) :
    (slots (records.modify i f)).count c + r.childIds.count c =
      (slots records).count c + (f r).childIds.count c := by
  simpa [slots] using count_flatMap_modify c (l := records.toList) (by simpa using h)

theorem alike_modify (h : ∀ r, records[i]? = some r → r.Alike records.size (f r)) :
    Alike records (records.modify i f) where
  size := by simp
  record {j r r'} hr hr' := by
    rw [Array.getElem?_modify, hr] at hr'
    split at hr'
    case isTrue he =>
      cases hr'
      exact h r (he ▸ hr)
    case isFalse =>
      cases hr'
      exact ⟨rfl, fun _ _ => rfl⟩

theorem modify_push {s : Record} (h : i < records.size) :
    (records.push s).modify i f = (records.modify i f).push s := by
  apply Array.ext_getElem?
  intro j
  simp only [Array.getElem?_modify, Array.getElem?_push, Array.size_modify]
  by_cases hj : j = records.size
  case pos => simp [hj, Nat.ne_of_lt h]
  case neg => simp [hj]

theorem getElem?_push_of_some {s : Record} (h : records[i]? = some r) : (records.push s)[i]? = some r := by
  have hi := (Array.getElem?_eq_some_iff.mp h).choose
  rwa [Array.getElem?_push_lt hi, ←Array.getElem?_eq_getElem hi]

theorem of_getElem?_push {s : Record} (h : (records.push s)[i]? = some r) :
    i = records.size ∧ r = s ∨ records[i]? = some r := by
  rw [Array.getElem?_push] at h
  split at h
  case isTrue hi => exact .inl ⟨hi, (Option.some.inj h).symm⟩
  case isFalse   => exact .inr h

theorem of_getElem?_modify {j : Nat} {s : Record} (h : (records.modify i f)[j]? = some s) :
    ∃ r, records[j]? = some r ∧ (i = j ∧ s = f r ∨ i ≠ j ∧ s = r) := by
  rw [Array.getElem?_modify] at h
  split at h
  case isTrue hi =>
    have ⟨r, hr, he⟩ := Option.map_eq_some_iff.mp h
    exact ⟨r, hr, .inl ⟨hi, he.symm⟩⟩
  case isFalse hi => exact ⟨s, h, .inr ⟨hi, rfl⟩⟩

theorem slots_push (records : Array Record) (kind : String) (p : NodeId) :
    slots (records.push ⟨kind, #[], #[], some p⟩) = slots records := by
  simp [slots, Record.childIds]

theorem Reachable.push {s : Record} (h : Reachable root records id) : Reachable root (records.push s) id := by
  induction h
  case root => exact .root
  case child hr hc hi ih => exact .child ih (getElem?_push_of_some hr) hc (by simp; omega)

-- A record may be replaced by one that is alike and whose names and leaves are in order.
theorem WellFormed.modify (hw : WellFormed root records) (hp : records[p.index]? = some r)
    (ha : r.Alike records.size (f r)) (hn : (f r).argNames.Nodup)
    (hl : ∀ {name l}, (name, .leaf l) ∈ (f r).args → l.parent = p ∧ l.value.isFinite) :
    WellFormed root (records.modify p.index f) := by
  refine hw.of_alike (alike_modify fun s hs => ?_) ?_ ?_ ?_
  · cases hp.symm.trans hs
    exact ha
  · intro s hs
    have ⟨i, hi⟩ := Array.mem_iff_getElem?.mp hs
    have ⟨s', hs', h⟩ := of_getElem?_modify hi
    obtain ⟨rfl, rfl⟩ | ⟨_, rfl⟩ := h
    · cases hp.symm.trans hs'
      exact hn
    · exact hw.names_nodup s <| Array.mem_of_getElem? hs'
  · intro id s name l hs hm
    have ⟨s', hs', h⟩ := of_getElem?_modify hs
    obtain ⟨he, rfl⟩ | ⟨_, rfl⟩ := h
    · cases NodeId.index_inj he
      cases hp.symm.trans hs'
      exact (hl hm).left
    · exact hw.leaf_parent hs' hm
  · intro s hs name l hm
    have ⟨i, hi⟩ := Array.mem_iff_getElem?.mp hs
    have ⟨s', hs', h⟩ := of_getElem?_modify hi
    obtain ⟨rfl, rfl⟩ | ⟨_, rfl⟩ := h
    · cases hp.symm.trans hs'
      exact (hl hm).right
    · exact hw.leaf_finite s (Array.mem_of_getElem? hs') hm

-- The list may go on with a node that exactly one reference leads to already.
theorem WellFormed.push (hw : WellFormed root records) (kind : String) (hi : id.index = records.size)
    (hp : records[p.index]? = some r) (hc : id ∈ r.childIds) (ho : (slots records).count id ≤ 1)
    (hh : ∀ {q : NodeId} {s}, records[q.index]? = some s → id ∈ s.childIds → q = p) :
    WellFormed root (records.push ⟨kind, #[], #[], some p⟩) := by
  constructor
  case root_lt =>
    have := hw.root_lt
    simp
    omega
  case root_parent =>
    intro s hs
    cases of_getElem?_push hs
    case inl h => exact absurd hw.root_lt (by omega)
    case inr h => exact hw.root_parent s h
  case names_nodup =>
    intro s hs
    cases Array.mem_push.mp hs
    case inl h => exact hw.names_nodup s h
    case inr h => simp [h, Record.argNames]
  case leaf_parent =>
    intro j s name l hs hl
    cases of_getElem?_push hs
    case inl h => simp [h.right] at hl
    case inr h => exact hw.leaf_parent h hl
  case leaf_finite =>
    intro s hs name l hl
    cases Array.mem_push.mp hs
    case inl h => exact hw.leaf_finite s h hl
    case inr h => simp [h] at hl
  case held_once =>
    intro j hj
    rw [slots_push]
    by_cases hl : j.index < records.size
    case pos => exact hw.held_once j hl
    case neg =>
      have : j = id := NodeId.index_inj (by simp at hj; omega)
      exact this ▸ ho
  case held_by_parent =>
    intro q c s s' hs hc hs'
    cases of_getElem?_push hs
    case inl h => simp [h.right, Record.childIds] at hc
    case inr hs =>
      cases of_getElem?_push hs'
      case inr hs' => exact hw.held_by_parent hs hc hs'
      case inl h =>
        have : c = id := NodeId.index_inj (by omega)
        rw [h.right, hh hs (this ▸ hc)]
  case reachable =>
    intro j hj
    by_cases hl : j.index < records.size
    case pos => exact (hw.reachable j hl).push
    case neg =>
      have : j = id := NodeId.index_inj (by simp at hj; omega)
      subst this
      have hp' := (Array.getElem?_eq_some_iff.mp hp).choose
      exact .child (hw.reachable p hp').push (getElem?_push_of_some hp) hc hj

end Tree

namespace Draft

variable {d : Draft} {p id : NodeId} {r : Record} {name : String} {f : Record → Record}

-- A draft of the right shape, all of whose references lead to nodes.
structure Sound (d : Draft) : Prop where
  shape   : Tree.WellFormed root d.records
  closed  : ∀ c ∈ Tree.slots d.records, c.index < d.records.size
  size_le : d.records.size ≤ 0x100000000

theorem Sound.index_lt (h : d.Sound) {i : Nat} (hr : d.records[i]? = some r) {c : NodeId} (hc : c ∈ r.childIds) :
    c.index < d.records.size :=
  h.closed c <| Tree.mem_slots.mpr ⟨i, r, hr, hc⟩

-- What a step may do to the record of a node: give it a slot that holds `id`, under a new name if at all.
structure Gains (id : NodeId) (r r' : Record) : Prop where
  parent   : r'.parent = r.parent
  names    : r'.argNames.Nodup
  leaves   : ∀ {name l}, (name, .leaf l) ∈ r'.args → (name, .leaf l) ∈ r.args
  children : r'.childIds.Perm (id :: r.childIds)

theorem Gains.alike {r' : Record} {size : Nat} (h : Gains id r r') (hi : size ≤ id.index) : r.Alike size r' where
  parent := h.parent
  children c hc := by
    rw [h.children.count_eq, List.count_cons_of_ne]
    exact fun he => absurd (he ▸ hc) (by omega)

theorem Sound.graft (h : d.Sound) (kind : String) (hi : id.index = d.records.size) (hp : d.records[p.index]? = some r)
    (hg : Gains id r (f r)) : ((d.push p kind).modify p f).Sound := by
  have hlt := (Array.getElem?_eq_some_iff.mp hp).choose
  have hn {i : Nat} {s : Record} (hs : d.records[i]? = some s) : id ∉ s.childIds :=
    fun hc => absurd (h.index_lt hs hc) (by omega)
  have hr : (d.records.modify p.index f)[p.index]? = some (f r) := by simp [Array.getElem?_modify, hp]
  -- Before the node is there the reference to it leads nowhere, so the record is still alike.
  have hw : Tree.WellFormed root (d.records.modify p.index f) := by
    refine h.shape.modify hp (hg.alike (by omega)) hg.names fun hm => ?_
    have hm := hg.leaves hm
    exact ⟨h.shape.leaf_parent hp hm, h.shape.leaf_finite r (Array.mem_of_getElem? hp) hm⟩
  have ho : (Tree.slots (d.records.modify p.index f)).count id ≤ 1 := by
    have hc := Tree.count_slots_modify (f := f) id hp
    have hs : (Tree.slots d.records).count id = 0 := by
      refine List.count_eq_zero_of_not_mem fun hs => ?_
      have ⟨_, _, hs, hc⟩ := Tree.mem_slots.mp hs
      exact hn hs hc
    rw [hg.children.count_eq, List.count_cons_self, List.count_eq_zero_of_not_mem (hn hp)] at hc
    omega
  have he : ((d.push p kind).modify p f).records = (d.records.modify p.index f).push ⟨kind, #[], #[], some p⟩ :=
    Tree.modify_push hlt
  constructor
  case shape =>
    rw [he]
    refine hw.push kind (by simpa using hi) hr (hg.children.mem_iff.mpr List.mem_cons_self) ho fun {q s} hs hc => ?_
    have ⟨s', hs', h⟩ := Tree.of_getElem?_modify hs
    obtain ⟨he, _⟩ | ⟨_, rfl⟩ := h
    · exact (NodeId.index_inj he).symm
    · exact absurd hc (hn hs')
  case closed =>
    rw [he, Tree.slots_push, Array.size_push, Array.size_modify]
    intro c hc
    have ⟨i, s, hs, hc⟩ := Tree.mem_slots.mp hc
    have ⟨s', hs', h'⟩ := Tree.of_getElem?_modify hs
    obtain ⟨rfl, rfl⟩ | ⟨_, rfl⟩ := h'
    · cases hp.symm.trans hs'
      cases List.mem_cons.mp <| hg.children.mem_iff.mp hc
      case inl he => simp [he, hi]
      case inr hc => exact Nat.lt_succ_of_lt (h.index_lt hp hc)
    · exact Nat.lt_succ_of_lt (h.index_lt hs' hc)
  case size_le =>
    have := id.index_lt
    simp [he]
    omega

theorem argNames_push {arg : String × Arg} (hd : r.argNames.Nodup) (hn : arg.1 ∉ r.argNames) :
    Record.argNames { r with args := r.args.push arg } |>.Nodup := by
  have he : Record.argNames { r with args := r.args.push arg } = r.argNames ++ [arg.1] := by
    simp [Record.argNames]
  rw [he, List.nodup_append]
  refine ⟨hd, by simp, fun a ha b hb he => hn ?_⟩
  exact List.mem_singleton.mp hb ▸ he ▸ ha

-- A leaf may be added under a new name.
theorem Sound.modify_leaf (h : d.Sound) (hp : d.records[p.index]? = some r) {l : Leaf}
    (hn : name ∉ r.argNames) (hl : l.parent = p) (hf : l.value.isFinite) :
    (d.modify p fun r => { r with args := r.args.push (name, .leaf l) }).Sound := by
  have hc (r : Record) : Record.childIds { r with args := r.args.push (name, .leaf l) } = r.childIds := by
    simp [Record.childIds, Arg.node?]
  constructor
  case shape =>
    refine h.shape.modify (f := fun r => { r with args := r.args.push (name, .leaf l) }) hp ?_ ?_ fun hm => ?_
    · exact ⟨rfl, fun _ _ => by rw [hc]⟩
    · exact argNames_push (h.shape.names_nodup r <| Array.mem_of_getElem? hp) hn
    · cases Array.mem_push.mp hm
      case inl hm => exact ⟨h.shape.leaf_parent hp hm, h.shape.leaf_finite r (Array.mem_of_getElem? hp) hm⟩
      case inr he =>
        cases he
        exact ⟨hl, hf⟩
  case closed =>
    intro c hm
    obtain ⟨i, s, hs, hm⟩ := Tree.mem_slots.mp hm
    obtain ⟨s', hs', h'⟩ := Tree.of_getElem?_modify hs
    have hm : c ∈ s'.childIds := by
      obtain ⟨_, rfl⟩ | ⟨_, rfl⟩ := h'
      · exact hc s' ▸ hm
      · exact hm
    simpa [modify] using h.index_lt hs' hm
  case size_le => simpa [modify] using h.size_le

theorem sound_start (kind : String) : (start kind).Sound := by
  have hr {i : Nat} {r : Record} (h : (start kind).records[i]? = some r) :
      i = 0 ∧ r = ⟨kind, #[], #[], none⟩ := by
    cases i <;> simp_all [start]
  constructor
  case closed => simp [start, Tree.slots, Record.childIds]
  case size_le => simp [start]
  case shape =>
    constructor
    case root_lt => simp [start, root, NodeId.index]
    case root_parent => exact fun r h => (hr h).right ▸ rfl
    case names_nodup => simp [start, Record.argNames]
    case leaf_parent =>
      intro id r name l h hl
      simp [(hr h).right] at hl
    case leaf_finite => simp [start]
    case held_once => simp [start, Tree.slots, Record.childIds]
    case held_by_parent =>
      intro p c r s h hc
      simp [(hr h).right, Record.childIds] at hc
    case reachable =>
      intro id hi
      have : id = root := NodeId.index_inj (Nat.lt_one_iff.mp hi)
      exact this ▸ .root

theorem gains_body (h : r.argNames.Nodup) : Gains id r { r with body := r.body.push id } where
  parent   := rfl
  names    := h
  leaves   := (·)
  children := by simp [Record.childIds, List.perm_append_singleton, ←List.append_assoc]

theorem gains_node (h : r.argNames.Nodup) (hn : name ∉ r.argNames) :
    Gains id r { r with args := r.args.push (name, .node id) } where
  parent   := rfl
  names    := argNames_push h hn
  leaves   := by simp
  children := by simp [Record.childIds, Arg.node?]

-- What a step does that is taken. A node gets a slot at the end of its body or under a new name, and what the slot
-- is for is added too: a node after all others, or a leaf with a finite value.
inductive Takes (d : Draft) : Step → Option NodeId → Draft → Prop
  | body {p id : NodeId} {r : Record} {kind : String} :
    d.records[p.index]? = some r → id.index = d.records.size →
    Takes d (.body p kind) (some id) ((d.push p kind).modify p fun r => { r with body := r.body.push id })
  | node {p id : NodeId} {r : Record} {name kind : String} :
    d.records[p.index]? = some r → name ∉ r.argNames → id.index = d.records.size →
    Takes d (.node p name kind) (some id)
      ((d.push p kind).modify p fun r => { r with args := r.args.push (name, .node id) })
  | leaf {p : NodeId} {r : Record} {name kind : String} {value : Scalar} :
    d.records[p.index]? = some r → name ∉ r.argNames → value.isFinite →
    Takes d (.leaf p name kind value) none
      (d.modify p fun r => { r with args := r.args.push (name, .leaf ⟨kind, value, p⟩) })

-- Whether the node `p` has an argument called `name`.
def hasArg (d : Draft) (p : NodeId) (name : String) : Bool :=
  d.records[p.index]?.any (name ∈ ·.argNames)

-- Whether what an error says is so.
def applies (d : Draft) : DraftError → Bool
  | .unknownParent p      => d.records.size ≤ p.index
  | .argumentTaken p name => d.hasArg p name
  | .notFinite _ _ value  => !value.isFinite
  | .full                 => 0x100000000 ≤ d.records.size

-- The errors with which a step may be refused, in the order in which they are looked for.
def Step.errors : Step → List DraftError
  | body p _            => [.unknownParent p, .full]
  | node p name _       => [.unknownParent p, .argumentTaken p name, .full]
  | leaf p name _ value => [.unknownParent p, .argumentTaken p name, .notFinite p name value]

theorem hasArg_eq_decide (h : d.records[p.index]? = some r) : d.hasArg p name = decide (name ∈ r.argNames) := by
  rw [hasArg, h, Option.any_some]

theorem not_applies_unknownParent (h : p.index < d.records.size) : ¬d.applies (.unknownParent p) := by
  simpa [applies] using h

-- Both tests come before the record is added.
theorem run_push_cases (d : Draft) (p : NodeId) (kind : String) :
    (∃ e, (Drafting.push p kind).run.run d = (.error e, d) ∧ [.unknownParent p, .full].find? d.applies = some e) ∨
    ∃ id, (Drafting.push p kind).run.run d = (.ok id, d.push p kind) ∧
      p.index < d.records.size ∧ id.index = d.records.size ∧ ¬d.applies .full := by
  rw [Drafting.push, run_get_bind]
  by_cases hp : p.index < d.records.size
  case neg =>
    rw [if_neg hp]
    exact .inl ⟨_, rfl, by simp [applies, Nat.le_of_not_lt hp]⟩
  case pos =>
    rw [if_pos hp, List.find?_cons_of_neg (not_applies_unknownParent hp)]
    cases hi : NodeId.ofIndex? d.records.size
    case none => exact .inl ⟨_, rfl, by simpa [applies, NodeId.ofIndex?] using hi⟩
    case some id =>
      have hi := NodeId.index_of_ofIndex? hi
      exact .inr ⟨_, rfl, hp, hi, by simpa [applies, ←hi] using id.index_lt⟩

theorem run_requireFree_cases (d : Draft) (p : NodeId) (name : String) :
    (∃ e, (Drafting.requireFree p name).run.run d = (.error e, d) ∧
      ∀ errors, (.unknownParent p :: .argumentTaken p name :: errors).find? d.applies = some e) ∨
    (Drafting.requireFree p name).run.run d = (.ok (), d) ∧ (∃ r, d.records[p.index]? = some r ∧ name ∉ r.argNames) ∧
      ∀ errors, (.unknownParent p :: .argumentTaken p name :: errors).find? d.applies = errors.find? d.applies := by
  rw [Drafting.requireFree, run_get_bind]
  cases hr : d.records[p.index]?
  case none => exact .inl ⟨_, rfl, fun _ => List.find?_cons_of_pos (by simpa [applies] using hr)⟩
  case some r =>
    have hp := not_applies_unknownParent (Array.getElem?_eq_some_iff.mp hr).choose
    simp only [List.find?_cons_of_neg hp]
    by_cases hn : name ∈ r.argNames
    case pos =>
      simp only [Record.mem_argNames_iff.mp hn]
      exact .inl ⟨_, rfl, fun _ => List.find?_cons_of_pos (by simp [applies, hasArg_eq_decide hr, hn])⟩
    case neg =>
      simp only [mt Record.mem_argNames_iff.mpr hn]
      exact .inr ⟨rfl, ⟨r, rfl, hn⟩, fun _ => List.find?_cons_of_neg (by simp [applies, hasArg_eq_decide hr, hn])⟩

-- A step ends with the first of its errors that applies, and then has changed nothing. If none does it is taken.
theorem apply_cases (d : Draft) (s : Step) :
    (∃ e, d.apply s = (.error e, d) ∧ s.errors.find? d.applies = some e) ∨
    ∃ id? d', d.apply s = (.ok id?, d') ∧ d.Takes s id? d' ∧ s.errors.find? d.applies = none := by
  cases s
  case body p kind =>
    rw [Draft.apply, Drafting.take, run_map, Drafting.addBody, Step.errors]
    obtain ⟨e, he, hf⟩ | ⟨id, he, hp, hi, hf⟩ := d.run_push_cases p kind
    · rw [run_bind_of_error _ he]
      exact .inl ⟨e, rfl, hf⟩
    · rw [run_bind_of_ok _ he]
      refine .inr ⟨_, _, rfl, .body (Array.getElem?_eq_getElem hp) hi, ?_⟩
      simp [not_applies_unknownParent hp, hf]
  case node p name kind =>
    rw [Draft.apply, Drafting.take, run_map, Drafting.addNodeArg, Step.errors]
    obtain ⟨e, he, hf⟩ | ⟨he, ⟨r, hr, hn⟩, hf⟩ := d.run_requireFree_cases p name
    · rw [run_bind_of_error _ he]
      exact .inl ⟨e, rfl, hf _⟩
    · rw [run_bind_of_ok _ he, hf]
      obtain ⟨e, he, hf⟩ | ⟨id, he, hp, hi, hf⟩ := d.run_push_cases p kind
      · rw [run_bind_of_error _ he]
        rw [List.find?_cons_of_neg (not_applies_unknownParent (Array.getElem?_eq_some_iff.mp hr).choose)] at hf
        exact .inl ⟨e, rfl, hf⟩
      · rw [run_bind_of_ok _ he]
        exact .inr ⟨_, _, rfl, .node hr hn hi, by simp [hf]⟩
  case leaf p name kind value =>
    rw [Draft.apply, Drafting.take, Drafting.addLeafArg, bind_assoc, Step.errors]
    obtain ⟨e, he, hf⟩ | ⟨he, ⟨r, hr, hn⟩, hf⟩ := d.run_requireFree_cases p name
    · rw [run_bind_of_error _ he]
      exact .inl ⟨e, rfl, hf _⟩
    · rw [run_bind_of_ok _ he, hf]
      by_cases hv : value.isFinite
      case pos =>
        simp only [hv]
        exact .inr ⟨_, _, rfl, .leaf hr hn hv, by simp [applies, hv]⟩
      case neg =>
        simp only [hv]
        exact .inl ⟨_, rfl, by simp [applies, hv]⟩

-- What every step that is taken preserves, given the history so far, a run of any length preserves.
theorem applyAll_induction {P : List Entry → Draft → Prop} {h : List Entry}
    (step : ∀ {h d s id? d'}, P h d → d.Takes s id? d' → P (h ++ [⟨s, id?⟩]) d') (hd : P h d) (steps : List Step) :
    P (h ++ d.history steps) (d.applyAll steps) := by
  induction steps generalizing h d
  case nil => simpa [history, applyAll] using hd
  case cons s steps ih =>
    obtain ⟨e, he, _⟩ | ⟨id?, d', he, ht, _⟩ := d.apply_cases s
    · simpa [history, applyAll, he] using ih hd
    · simpa [history, applyAll, he] using ih (step hd ht)

theorem Sound.take {s : Step} {id? : Option NodeId} {d' : Draft} (h : d.Sound) (ht : d.Takes s id? d') :
    d'.Sound := by
  have hn {p : NodeId} {r : Record} (hr : d.records[p.index]? = some r) : r.argNames.Nodup :=
    h.shape.names_nodup r <| Array.mem_of_getElem? hr
  cases ht
  case body hr hi    => exact h.graft _ hi hr <| gains_body (hn hr)
  case node hr hf hi => exact h.graft _ hi hr <| gains_node (hn hr) hf
  case leaf hr hf hv => exact h.modify_leaf hr hf rfl hv

theorem Sound.applyAll (h : d.Sound) (steps : List Step) : (d.applyAll steps).Sound :=
  applyAll_induction (P := fun _ d => d.Sound) (h := []) Sound.take h steps

end Draft
end ScriptCheck
