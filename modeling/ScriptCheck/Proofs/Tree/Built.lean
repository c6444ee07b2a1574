import ScriptCheck.Proofs.Tree.Draft
import ScriptCheck.Proofs.Tree.Shape

namespace ScriptCheck
namespace Draft

variable {d d' : Draft} {s : Step} {id? : Option NodeId} {e : Entry} {p id : NodeId} {r r' : Record}
variable {name kind : String} {h : List Entry}

-- What an entry does to the record of the node `p`.
structure Gives (e : Entry) (p : NodeId) (r r' : Record) : Prop where
  kind   : r'.kind = r.kind
  parent : r'.parent = r.parent
  body   : r'.body.toList = r.body.toList ++ (e.body? p).toList
  args   : r'.args.toList = r.args.toList ++ (e.arg? p).toList

theorem gives_body : Gives ⟨.body p kind, some id⟩ p r { r with body := r.body.push id } where
  kind   := rfl
  parent := rfl
  body   := by simp [Entry.body?]
  args   := by simp [Entry.arg?]

theorem gives_node : Gives ⟨.node p name kind, some id⟩ p r { r with args := r.args.push (name, .node id) } where
  kind   := rfl
  parent := rfl
  body   := by simp [Entry.body?]
  args   := by simp [Entry.arg?]

theorem gives_leaf {value : Scalar} :
    Gives ⟨.leaf p name kind value, none⟩ p r
      { r with args := r.args.push (name, .leaf ⟨kind, value, p⟩) } where
  kind   := rfl
  parent := rfl
  body   := by simp [Entry.body?]
  args   := by simp [Entry.arg?]

theorem body?_of_ne (h : e.step.parent ≠ p) : e.body? p = none := by
  have ⟨s, _⟩ := e
  cases s
  case body => exact if_neg h
  all_goals rfl

theorem arg?_of_ne (h : e.step.parent ≠ p) : e.arg? p = none := by
  have ⟨s, _⟩ := e
  cases s
  case body => rfl
  all_goals exact if_neg h

-- Nodes other than the parent gain nothing.
theorem gives_of_ne (h : e.step.parent ≠ p) : Gives e p r r where
  kind   := rfl
  parent := rfl
  body   := by simp [body?_of_ne h]
  args   := by simp [arg?_of_ne h]

theorem gives_of_modify {f : Record → Record} (hf : ∀ r, Gives e e.step.parent r (f r))
    (h : (d.records.modify e.step.parent.index f)[p.index]? = some r') :
    ∃ r, d.records[p.index]? = some r ∧ Gives e p r r' := by
  have ⟨r, hr, h⟩ := Tree.of_getElem?_modify h
  obtain ⟨hi, rfl⟩ | ⟨hi, rfl⟩ := h
  · exact ⟨r, hr, NodeId.index_inj hi ▸ hf r⟩
  · exact ⟨r', hr, gives_of_ne fun hp => hi (hp ▸ rfl)⟩

-- The record of the parent may as well be changed before the new node is added.
theorem of_graft {f : Record → Record} (hp : p.index < d.records.size) {i : Nat}
    (h : ((d.push p kind).modify p f).records[i]? = some r') :
    i = d.records.size ∧ r' = ⟨kind, #[], #[], some p⟩ ∨ (d.records.modify p.index f)[i]? = some r' := by
  have he : ((d.push p kind).modify p f).records = (d.records.modify p.index f).push ⟨kind, #[], #[], some p⟩ :=
    Tree.modify_push hp
  rw [he] at h
  exact Array.size_modify ▸ Tree.of_getElem?_push h

namespace Takes

theorem parent_lt (h : d.Takes s id? d') : s.parent.index < d.records.size := by
  cases h <;> exact (Array.getElem?_eq_some_iff.mp ‹_›).choose

theorem size (h : d.Takes s id? d') : d'.records.size = d.records.size + s.addsNode.toNat := by
  cases h <;> simp [push, modify, Step.addsNode]

-- A record after the step is that of the new node, or one from before with what the step gives it.
theorem record_cases (h : d.Takes s id? d') (hr : d'.records[p.index]? = some r') :
    p.index = d.records.size ∧ s.addsNode ∧ r' = ⟨s.kind, #[], #[], some s.parent⟩ ∨
      ∃ r, d.records[p.index]? = some r ∧ Gives ⟨s, id?⟩ p r r' := by
  have hp := h.parent_lt
  cases h
  case leaf => exact .inr <| gives_of_modify (fun _ => gives_leaf) hr
  case body =>
    cases of_graft hp hr
    case inl h  => exact .inl ⟨h.left, rfl, h.right⟩
    case inr hr => exact .inr <| gives_of_modify (e := ⟨.body .., _⟩) (fun _ => gives_body) hr
  case node =>
    cases of_graft hp hr
    case inl h  => exact .inl ⟨h.left, rfl, h.right⟩
    case inr hr => exact .inr <| gives_of_modify (e := ⟨.node .., _⟩) (fun _ => gives_node) hr

-- Every record stays, with what the step gives it.
theorem keeps (h : d.Takes s id? d') (hr : d.records[p.index]? = some r) :
    ∃ r', d'.records[p.index]? = some r' ∧ Gives ⟨s, id?⟩ p r r' := by
  have hp := (Array.getElem?_eq_some_iff.mp hr).choose
  have hs := h.size
  have hp' : p.index < d'.records.size := by omega
  have hr' := Array.getElem?_eq_getElem hp'
  cases h.record_cases hr'
  case inl h => exact absurd h.left (by omega)
  case inr h =>
    have ⟨_, h, hg⟩ := h
    cases hr.symm.trans h
    exact ⟨_, hr', hg⟩

-- A new node gets the first number that is free.
theorem adds (h : d.Takes s id? d') (hs : s.addsNode) :
    ∃ id, id? = some id ∧ id.index = d.records.size ∧
      d'.records[id.index]? = some ⟨s.kind, #[], #[], some s.parent⟩ := by
  have ⟨id, he, hi⟩ : ∃ id, id? = some id ∧ id.index = d.records.size := by
    cases h
    case leaf => contradiction
    all_goals exact ⟨_, rfl, ‹_›⟩
  have hl : id.index < d'.records.size := by simp [h.size, hs, hi]
  have hr := Array.getElem?_eq_getElem hl
  cases h.record_cases hr
  case inl h => exact ⟨id, he, hi, h.right.right ▸ hr⟩
  case inr h =>
    have ⟨_, h, _⟩ := h
    simp [hi] at h

end Takes

-- The records of a draft are those that its history tells of.
structure Recorded (kind : String) (h : List Entry) (d : Draft) : Prop where
  size  : d.records.size = (h.filter (·.step.addsNode)).length + 1
  known : ∀ e ∈ h, e.step.parent.index < d.records.size
  root  : ∃ r, d.records[root.index]? = some r ∧ r.kind = kind ∧ r.parent = none
  nodes : ∀ {k e}, (h.filter (·.step.addsNode))[k]? = some e →
          ∃ id r, e.id? = some id ∧ id.index = k + 1 ∧ d.records[id.index]? = some r ∧
            r.kind = e.step.kind ∧ r.parent = some e.step.parent
  slots : ∀ {p : NodeId} {r}, d.records[p.index]? = some r →
          r.body.toList = h.filterMap (·.body? p) ∧ r.args.toList = h.filterMap (·.arg? p)

theorem record_of_start {i : Nat} (hr : (start kind).records[i]? = some r) : r = ⟨kind, #[], #[], none⟩ := by
  simpa [start] using Array.mem_of_getElem? hr

theorem recorded_start (kind : String) : Recorded kind [] (start kind) where
  size  := rfl
  known := by simp
  root  := ⟨_, rfl, rfl, rfl⟩
  nodes := by simp
  slots hr := by simp [record_of_start hr]

namespace Recorded

variable (hd : Recorded kind h d) (ht : d.Takes s id? d')
include hd ht

theorem parent_lt : ∀ e ∈ h ++ [⟨s, id?⟩], e.step.parent.index < d.records.size := by
  intro e he
  cases List.mem_append.mp he
  case inl he => exact hd.known e he
  case inr he => exact List.mem_singleton.mp he ▸ ht.parent_lt

theorem take_nodes {k : Nat} (he : ((h ++ [Entry.mk s id?]).filter (·.step.addsNode))[k]? = some e) :
    ∃ id r, e.id? = some id ∧ id.index = k + 1 ∧ d'.records[id.index]? = some r ∧
      r.kind = e.step.kind ∧ r.parent = some e.step.parent := by
  rw [List.filter_append] at he
  by_cases hk : k < (h.filter (·.step.addsNode)).length
  case pos =>
    have ⟨id, r, hid, hi, hr, hk, hp⟩ := hd.nodes (List.getElem?_append_left hk ▸ he)
    have ⟨r', hr', hg⟩ := ht.keeps hr
    exact ⟨id, r', hid, hi, hr', hg.kind.trans hk, hg.parent.trans hp⟩
  case neg =>
    -- Only the new entry comes after those from before, and only if it adds a node.
    rw [List.getElem?_append_right (Nat.le_of_not_lt hk)] at he
    have ⟨hm, hn⟩ := List.mem_filter.mp <| List.mem_of_getElem? he
    cases List.mem_singleton.mp hm
    have ⟨id, hid, hi, hr⟩ := ht.adds hn
    have hl := (List.getElem?_eq_some_iff.mp he).choose
    simp [hn] at hl
    have := hd.size
    exact ⟨id, _, hid, by omega, hr, rfl, rfl⟩

theorem take_slots (hr' : d'.records[p.index]? = some r') :
    r'.body.toList = (h ++ [Entry.mk s id?]).filterMap (·.body? p) ∧
      r'.args.toList = (h ++ [Entry.mk s id?]).filterMap (·.arg? p) := by
  cases ht.record_cases hr'
  case inl hn =>
    -- The new node is not the parent of anything yet.
    have hp : ∀ e ∈ h ++ [⟨s, id?⟩], e.step.parent ≠ p := by
      rintro e he rfl
      exact absurd hn.left (Nat.ne_of_lt <| hd.parent_lt ht e he)
    rw [hn.right.right, List.filterMap_eq_nil_iff.mpr fun e he => body?_of_ne (hp e he),
      List.filterMap_eq_nil_iff.mpr fun e he => arg?_of_ne (hp e he)]
    exact ⟨rfl, rfl⟩
  case inr hg =>
    have ⟨r, hr, hg⟩ := hg
    have ⟨hb, ha⟩ := hd.slots hr
    rw [List.filterMap_append, List.filterMap_append, hg.body, hg.args, hb, ha]
    exact ⟨rfl, rfl⟩

theorem take : Recorded kind (h ++ [⟨s, id?⟩]) d' := by
  have hs := ht.size
  constructor
  case size =>
    rw [hs, hd.size, List.filter_append, List.length_append]
    cases hn : s.addsNode <;> simp [hn]
  case known =>
    intro e he
    have := hd.parent_lt ht e he
    omega
  case root =>
    have ⟨r, hr, hk, hp⟩ := hd.root
    have ⟨r', hr', hg⟩ := ht.keeps hr
    exact ⟨r', hr', hg.kind.trans hk, hg.parent.trans hp⟩
  case nodes => exact hd.take_nodes ht
  case slots => exact hd.take_slots ht

end Recorded

theorem recorded_history (kind : String) (steps : List Step) :
    Recorded kind ((start kind).history steps) ((start kind).applyAll steps) :=
  applyAll_induction (P := Recorded kind) Recorded.take (recorded_start kind) steps

theorem build_is_history (kind : String) (steps : List Step) :
    let h := (start kind).history steps
    let t := ((start kind).applyAll steps).build
    t.size = (h.filter (·.step.addsNode)).length + 1 ∧
    (∃ r, t.records[0]? = some r ∧ r.kind = kind ∧ r.parent = none) ∧
    (∀ k e, (h.filter (·.step.addsNode))[k]? = some e →
      ∃ id r, e.id? = some id ∧ id.index = k + 1 ∧ t.records[id.index]? = some r ∧
        r.kind = e.step.kind ∧ r.parent = some e.step.parent) ∧
    (∀ (p : NodeId) r, t.records[p.index]? = some r →
      r.body.toList = h.filterMap (·.body? p) ∧ r.args.toList = h.filterMap (·.arg? p)) := by
  intro h t
  have hr := recorded_history kind steps
  exact ⟨hr.size, hr.root, fun _ _ => hr.nodes, fun _ _ => hr.slots⟩

-- Of five steps two are refused: a node that is not there gets no child, and no name is given twice.
theorem build_is_history_of_three :
    let steps : List Step := [
      .body ⟨0⟩ "wait", .body ⟨7⟩ "wait", .leaf ⟨1⟩ "time" "time" (.integer 5), .node ⟨1⟩ "time" "sum",
      .node ⟨0⟩ "scope" "sum"]
    let t := ((start "sequence").applyAll steps).build
    let h := (start "sequence").history steps
    h.map (·.id?) = [some ⟨1⟩, none, some ⟨2⟩] ∧ t.size = 3 ∧
      (∃ r, t.records[2]? = some r ∧ r.kind = "sum" ∧ r.parent = some ⟨0⟩) ∧
      ∃ r, t.records[1]? = some r ∧ r.args.toList = [("time", .leaf ⟨"time", .integer 5, ⟨1⟩⟩)] := by
  intro steps t h
  have ⟨hs, _, hn, hr⟩ := build_is_history "sequence" steps
  obtain ⟨_, r₂, ⟨⟩, -, hr₂, hk⟩ := hn 1 ⟨.node ⟨0⟩ "scope" "sum", some ⟨2⟩⟩ (by decide +kernel)
  have ⟨r₁, hr₁⟩ : ∃ r, t.records[1]? = some r := Option.isSome_iff_exists.mp (by decide +kernel)
  have ha := (hr ⟨1⟩ r₁ hr₁).right
  exact ⟨by decide +kernel, hs.trans (by decide +kernel), ⟨r₂, hr₂, hk⟩, r₁, hr₁, ha.trans (by decide +kernel)⟩

-- Nodes come after their parents.
def Ordered (d : Draft) : Prop :=
  ∀ (c p : NodeId) (r : Record), d.records[c.index]? = some r → r.parent = some p → p.index < c.index

theorem ordered_start (kind : String) : (start kind).Ordered := by
  intro c p r hr hp
  simp [record_of_start hr] at hp

theorem Ordered.take (hd : d.Ordered) (ht : d.Takes s id? d') : d'.Ordered := by
  intro c p r' hr' hp
  cases ht.record_cases hr'
  case inl hn =>
    rw [hn.right.right] at hp
    cases hp
    exact hn.left ▸ ht.parent_lt
  case inr hg =>
    have ⟨r, hr, hg⟩ := hg
    exact hd c p r hr (hg.parent ▸ hp)

theorem Ordered.applyAll (hd : d.Ordered) (steps : List Step) : (d.applyAll steps).Ordered :=
  applyAll_induction (P := fun _ d => d.Ordered) (h := []) Ordered.take hd steps

theorem build_passes_shape_check (kind : String) (steps : List Step) :
    let t := ((start kind).applyAll steps).build
    Tree.ofRecords t.root t.records = .ok t ∧
    (∀ c ∈ Tree.slots t.records, c.index < t.size) ∧
    t.root.index = 0 ∧
    (∀ i r, t.records[i]? = some r → 0 < i → ∃ p, r.parent = some p ∧ p.index < i) := by
  intro t
  have hs := (sound_start kind).applyAll steps
  have ho := (ordered_start kind).applyAll steps
  have hw : Tree.WellFormed t.root t.records := hs.shape
  refine ⟨?_, hs.closed, rfl, fun i r hr hi => ?_⟩
  · exact Tree.ofRecords_eq_ok_iff.mpr ⟨rfl, rfl, Tree.passes_iff_wellFormed.mpr ⟨hs.size_le, hw⟩⟩
  · obtain ⟨n, hn, rfl⟩ := Tree.exists_mem_of_lt (t := t) hs.size_le (Array.getElem?_eq_some_iff.mp hr).choose
    have hne : n ≠ t.rootNode := fun h => absurd hi (by simp [h, Tree.rootNode, t, build, root, NodeId.index])
    obtain ⟨p, -, hp⟩ := hw.exists_parent hn hne
    cases hr.symm.trans (Tree.mem_iff_record.mp hn)
    exact ⟨p.id, hp, ho n.id p.id _ hr hp⟩

-- The second step is refused, so the third adds the node with number 2 below the one with number 1.
theorem build_passes_after_refusal :
    let t := ((start "sequence").applyAll [.body ⟨0⟩ "wait", .body ⟨2⟩ "wait", .node ⟨1⟩ "time" "sum"]).build
    t.size = 3 ∧ Tree.ofRecords t.root t.records = .ok t ∧
      (∃ c ∈ Tree.slots t.records, c.index < t.size) ∧
      ∃ r p, t.records[2]? = some r ∧ r.parent = some p ∧ p.index < 2 := by
  intro t
  have ⟨hs, hc, _, hp⟩ :=
    build_passes_shape_check "sequence" [.body ⟨0⟩ "wait", .body ⟨2⟩ "wait", .node ⟨1⟩ "time" "sum"]
  have hm : ⟨2⟩ ∈ Tree.slots t.records := by decide +kernel
  have ⟨r, hr⟩ : ∃ r, t.records[2]? = some r := Option.isSome_iff_exists.mp (by decide +kernel)
  have ⟨p, hp⟩ := hp 2 r hr (by decide)
  exact ⟨by decide +kernel, hs, ⟨_, hm, hc _ hm⟩, r, p, hr, hp⟩

end Draft
end ScriptCheck
