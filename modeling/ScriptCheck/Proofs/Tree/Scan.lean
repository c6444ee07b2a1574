import ScriptCheck.Proofs.Tree.Family
import ScriptCheck.Proofs.Verdict
import ScriptCheck.Tree.Shape

namespace ScriptCheck

namespace Record

variable {id : NodeId} {r : Record}

-- A leaf as the node `id` may hold it.
structure LeafFits (id : NodeId) (l : Leaf) : Prop where
  parent : l.parent = id
  finite : l.value.isFinite

theorem checkArg_eq_ok_iff {name : String} {a : Arg} :
    checkArg id name a = .ok () ↔ ∀ l, a = .leaf l → LeafFits id l := by
  cases a
  case node => simp [checkArg]
  case leaf l =>
    simp only [checkArg, Arg.leaf.injEq, forall_eq']
    split
    case isTrue h => simpa using fun hl : LeafFits id l => h hl.parent
    case isFalse h =>
      split
      case isTrue hf => simpa using fun hl : LeafFits id l => by simp [hl.finite] at hf
      case isFalse hf => simpa using ⟨not_not.mp h, by simpa using hf⟩

theorem checkArgs_eq_ok_iff {args : List (String × Arg)} {seen : List String} :
    checkArgs id seen args = .ok () ↔
      (args.map Prod.fst).Nodup ∧ (∀ name ∈ args.map Prod.fst, name ∉ seen) ∧
        ∀ name l, (name, .leaf l) ∈ args → LeafFits id l := by
  induction args generalizing seen
  case nil => simp [checkArgs]
  case cons arg args ih =>
    have ⟨name, a⟩ := arg
    simp only [checkArgs]
    split
    case isTrue h => simp [h]
    case isFalse h =>
      rw [bind_eq_ok_iff]
      constructor
      case mp =>
        intro ⟨_, ha, hs⟩
        have ha := checkArg_eq_ok_iff.mp ha
        have ⟨hd, hs, hl⟩ := ih.mp hs
        refine ⟨?_, ?_, ?_⟩
        · exact List.nodup_cons.mpr ⟨fun hn => hs name hn List.mem_cons_self, hd⟩
        · refine List.forall_mem_cons.mpr ⟨h, fun n hn => ?_⟩
          exact mt (List.mem_cons_of_mem _) (hs n hn)
        · intro n l hm
          cases hm
          case head    => exact ha l rfl
          case tail hm => exact hl n l hm
      case mpr =>
        intro ⟨hd, hs, hl⟩
        have ⟨hn, hd⟩ := List.nodup_cons.mp hd
        have ⟨_, hs⟩ := List.forall_mem_cons.mp hs
        refine ⟨(), checkArg_eq_ok_iff.mpr ?_, ih.mpr ⟨hd, ?_, ?_⟩⟩
        · exact fun l ha => hl name l <| ha ▸ List.mem_cons_self
        · exact fun n hm => List.not_mem_cons_of_ne_of_not_mem (fun he => hn (he ▸ hm)) (hs n hm)
        · exact fun n l hm => hl n l <| List.mem_cons_of_mem _ hm

end Record

namespace Tree

variable {records : Array Record} {held held' : Array Bool} {id p : NodeId} {l : List NodeId} {α : Type}

-- No node occurs twice in a list of numbers. Numbers without a node may.
def Once (records : Array Record) (l : List NodeId) : Prop :=
  ∀ id : NodeId, id.index < records.size → l.count id ≤ 1

-- The nodes that occur in a list are those marked, and none occurs twice.
structure Marks (records : Array Record) (l : List NodeId) (held : Array Bool) : Prop where
  size : held.size = records.size
  mem  : ∀ id : NodeId, id.index < records.size → (held[id.index]? = some true ↔ id ∈ l)
  once : Once records l

-- A part of the scan accepts what satisfies `Q`, unless a node is then held twice, and marks the nodes it holds.
structure Scans (records : Array Record) (scan : Array Bool → α → Except ShapeError (Array Bool))
    (holds : α → List NodeId) (Q : α → Prop) : Prop where
  marks  : ∀ {l held held' a}, Marks records l held → scan held a = .ok held' → Marks records (l ++ holds a) held'
  ok_iff : ∀ {l held a}, Marks records l held →
           ((∃ held', scan held a = .ok held') ↔ Q a ∧ Once records (l ++ holds a))

theorem Once.of_append {l' : List NodeId} (h : Once records (l ++ l')) : Once records l :=
  fun id hi => Nat.le_trans ((List.sublist_append_left ..).count_le id) (h id hi)

theorem marks_nil : Marks records [] (.replicate records.size false) where
  size := by simp
  mem id h := by simp [h]
  once := by simp [Once]

theorem Scans.foldlM {scan : Array Bool → α → Except ShapeError (Array Bool)} {holds : α → List NodeId}
    {Q : α → Prop} (h : Scans records scan holds Q) :
    Scans records (fun held (as : List α) => as.foldlM scan held) (·.flatMap holds) (∀ a ∈ ·, Q a) where
  marks {l held held' as} hm hs := by
    induction as generalizing l held
    case nil =>
      cases hs
      simpa using hm
    case cons a as ih =>
      simp only [List.foldlM_cons, bind_eq_ok_iff] at hs
      have ⟨held₁, h₁, hs⟩ := hs
      simpa using ih (h.marks hm h₁) hs
  ok_iff {l held as} hm := by
    induction as generalizing l held
    case nil => simpa [pure, Except.pure] using hm.once
    case cons a as ih =>
      simp only [List.foldlM_cons, bind_eq_ok_iff, List.forall_mem_cons, List.flatMap_cons, ←List.append_assoc]
      constructor
      case mp =>
        intro ⟨held', held₁, h₁, hs⟩
        have ⟨hq, _⟩ := (h.ok_iff hm).mp ⟨held₁, h₁⟩
        have ⟨hqs, ho⟩ := (ih <| h.marks hm h₁).mp ⟨held', hs⟩
        exact ⟨⟨hq, hqs⟩, ho⟩
      case mpr =>
        intro ⟨⟨hq, hqs⟩, ho⟩
        have ⟨held₁, h₁⟩ := (h.ok_iff hm).mpr ⟨hq, ho.of_append⟩
        have ⟨held', hs⟩ := (ih <| h.marks hm h₁).mpr ⟨hqs, ho⟩
        exact ⟨held', held₁, h₁, hs⟩

-- A child, if it is there, has `p` as its parent.
def Links (records : Array Record) (p c : NodeId) : Prop :=
  ∀ s, records[c.index]? = some s → s.parent = some p

theorem hold_eq_ok_iff {c : NodeId} (hs : held.size = records.size) :
    hold records p held c = .ok held' ↔
      Links records p c ∧ (c.index < records.size → held[c.index]? ≠ some true) ∧
        held' = held.setIfInBounds c.index true := by
  unfold hold Links
  split
  case h_1 hr =>
    have hc : records.size ≤ c.index := by simpa using hr
    rw [Array.setIfInBounds_eq_of_size_le (hs ▸ hc)]
    simp [Nat.not_lt.mpr hc, eq_comm]
  case h_2 r hr =>
    have hc := (Array.getElem?_eq_some_iff.mp hr).choose
    simp only [hr, hc, Option.some.injEq, forall_eq', forall_true_left]
    split
    case isTrue h => simp [h]
    case isFalse h =>
      split
      case isTrue hp  => simp [hp]
      case isFalse hp => simp [h, not_not.mp hp, eq_comm]

theorem once_concat_iff {c : NodeId} (h : Once records l) :
    Once records (l ++ [c]) ↔ (c.index < records.size → c ∉ l) := by
  constructor
  case mp =>
    intro ho hc hm
    have h₁ := ho c hc
    have h₂ := List.count_pos_iff.mpr hm
    rw [List.count_append, List.count_singleton_self] at h₁
    omega
  case mpr =>
    intro hc id hi
    rw [List.count_append]
    by_cases he : c = id
    case pos =>
      subst he
      simp [List.count_eq_zero_of_not_mem (hc hi)]
    case neg => simpa [List.count_singleton, he] using h id hi

theorem scans_hold (records : Array Record) (p : NodeId) :
    Scans records (hold records p) (fun c => [c]) (Links records p) where
  marks {l held held' c} hm hc := by
    have ⟨_, hn, he⟩ := (hold_eq_ok_iff hm.size).mp hc
    subst he
    constructor
    case size => simpa using hm.size
    case once => exact (once_concat_iff hm.once).mpr fun hi => mt (hm.mem c hi).mpr (hn hi)
    case mem =>
      intro id hi
      rw [Array.getElem?_setIfInBounds, List.mem_append, List.mem_singleton, ←hm.mem id hi]
      split
      case isTrue h  => simp [hm.size ▸ hi, NodeId.index_inj h]
      case isFalse h => simp [show id ≠ c from fun he => h (he ▸ rfl)]
  ok_iff {l held c} hm := by
    rw [once_concat_iff hm.once]
    simp only [hold_eq_ok_iff hm.size, exists_and_left, exists_eq, and_true]
    refine and_congr_right fun _ => forall_congr' fun hi => ?_
    exact not_congr (hm.mem c hi)

-- A record as the one under the number `id` may be.
structure RecordFits (records : Array Record) (id : NodeId) (r : Record) : Prop where
  names  : r.argNames.Nodup
  leaves : ∀ name l, (name, .leaf l) ∈ r.args → Record.LeafFits id l
  links  : ∀ c ∈ r.childIds, Links records id c

theorem scans_checkRecord (records : Array Record) :
    Scans records (checkRecord records) (·.1.childIds)
      fun r => ∃ id, NodeId.ofIndex? r.2 = some id ∧ RecordFits records id r.1 where
  marks {l held held' r} hm hr := by
    unfold checkRecord at hr
    split at hr
    case h_1 => contradiction
    case h_2 id _ =>
      have ⟨_, _, hr⟩ := bind_eq_ok_iff.mp hr
      simpa using (scans_hold records id).foldlM.marks hm hr
  ok_iff {l held r} hm := by
    unfold checkRecord
    split
    case h_1 h => simp [h]
    case h_2 id h =>
      simp only [h, bind_eq_ok_iff, Option.some.injEq, exists_eq_left']
      have hc := (scans_hold records id).foldlM.ok_iff (a := r.1.childIds) hm
      simp only [List.flatMap_singleton'] at hc
      constructor
      case mp =>
        intro ⟨held', _, ha, hr⟩
        have ⟨hd, _, hl⟩ := Record.checkArgs_eq_ok_iff.mp ha
        have ⟨hk, ho⟩ := hc.mp ⟨held', hr⟩
        exact ⟨⟨hd, fun name l h => hl name l (Array.mem_toList_iff.mpr h), hk⟩, ho⟩
      case mpr =>
        intro ⟨hf, ho⟩
        have ⟨held', hr⟩ := hc.mpr ⟨hf.links, ho⟩
        refine ⟨held', (), Record.checkArgs_eq_ok_iff.mpr ⟨hf.names, by simp, ?_⟩, hr⟩
        exact fun name l h => hf.leaves name l (Array.mem_toList_iff.mp h)

theorem flatMap_zipIdx_childIds (records : Array Record) :
    records.toList.zipIdx.flatMap (·.1.childIds) = slots records := by
  rw [slots, ←List.flatMap_map, List.zipIdx_map_fst]

theorem checkRecords_isOk_iff :
    (∃ held, checkRecords records = .ok held) ↔
      (records.size ≤ 0x100000000 ∧ ∀ id r, records[NodeId.index id]? = some r → RecordFits records id r) ∧
        Once records (slots records) := by
  rw [checkRecords, (scans_checkRecord records).foldlM.ok_iff marks_nil, flatMap_zipIdx_childIds, List.nil_append]
  refine and_congr_left fun _ => ?_
  simp only [List.mem_zipIdx_iff_getElem?, Prod.forall, Array.getElem?_toList]
  constructor
  case mp =>
    refine fun h => ⟨Nat.le_of_not_lt fun hs => ?_, fun id r hr => ?_⟩
    · obtain ⟨_, hi, _⟩ := h _ 0x100000000 (Array.getElem?_eq_getElem hs)
      simp [NodeId.ofIndex?] at hi
    · obtain ⟨id', hi, hf⟩ := h r id.index hr
      exact NodeId.index_inj (NodeId.index_of_ofIndex? hi) ▸ hf
  case mpr =>
    rintro ⟨hs, h⟩ r i hr
    have hi := (Array.getElem?_eq_some_iff.mp hr).choose
    obtain ⟨id, hi⟩ := NodeId.exists_ofIndex? (Nat.lt_of_lt_of_le hi hs)
    exact ⟨id, hi, h id r <| NodeId.index_of_ofIndex? hi ▸ hr⟩

end Tree
end ScriptCheck
