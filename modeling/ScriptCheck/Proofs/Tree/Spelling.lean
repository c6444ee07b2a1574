import Mathlib.Data.List.Forall2
import ScriptCheck.Proofs.Reader
import ScriptCheck.Proofs.Scalar.Json
import ScriptCheck.Tree.Spelling
import ScriptCheck.Tree.WellFormed

namespace ScriptCheck

open Reader (Reads reads_text reads_list reads_pair reads_record reads_optional_none reads_optional_some)

namespace Spelling

variable {σ α : Type} {filled : List String → σ} {names : List String} {name : String}

-- A field of a reader reads what is spelled for a field, where `filled names` is what the reader has when it has met
-- the fields `names`.
structure Fits (filled : List String → σ) (field : Reader.Field σ) (f : Field) : Prop where
  name  : field.name = f.name
  isSet : ∀ names, field.isSet (filled names) = decide (f.name ∈ names)
  set   : ∀ names v, f.value v → field.set (filled names) v = .ok (filled (f.name :: names))
  whole : ∀ v, f.value v → v.Whole

theorem Fits.of_reads {β : Type} {value : Json → Prop} {optional : Prop} {read : Reader β} {b : β} {isSet : σ → Bool}
    {put : σ → β → σ} (hv : ∀ v, value v → Reads read v b) (hi : ∀ names, isSet (filled names) = decide (name ∈ names))
    (hp : ∀ names, put (filled names) b = filled (name :: names)) :
    Fits filled ⟨name, isSet, fun s j => return put s (← read j)⟩ ⟨name, value, optional⟩ where
  name          := rfl
  isSet         := hi
  whole v h     := (hv v h).whole
  set names v h := by simp [(hv v h).read_eq, hp]

-- A member that is a field as it may be spelled, or any other member.
def Admitted (spelling : List Field) (m : String × Json) : Prop :=
  (∃ f ∈ spelling, f.name = m.1 ∧ f.value m.2) ∨ m.1 ∉ spelling.map Field.name ∧ m.2.Whole

section Fields

variable {fields : List (Reader.Field σ)} {spelling : List Field} (hf : List.Forall₂ (Fits filled) fields spelling)
include hf

theorem find?_of_mem (hd : (spelling.map Field.name).Nodup) {f : Field} (h : f ∈ spelling) :
    ∃ field, fields.find? (·.name == f.name) = some field ∧ Fits filled field f := by
  induction hf
  case nil => contradiction
  case cons field g fields spelling hg _ ih =>
    have ⟨hn, hd⟩ := List.nodup_cons.mp hd
    cases List.mem_cons.mp h
    case inl h => exact ⟨field, by simp [hg.name, h], h ▸ hg⟩
    case inr h =>
      have ⟨field', he, hf⟩ := ih hd h
      have hne : g.name ≠ f.name := fun he => hn <| he ▸ List.mem_map_of_mem h
      exact ⟨field', by simp [hg.name, hne, he], hf⟩

theorem find?_of_not_mem (h : name ∉ spelling.map Field.name) : fields.find? (·.name == name) = none := by
  induction hf
  case nil => rfl
  case cons hg _ ih =>
    have ⟨hn, h⟩ := not_or.mp <| mt List.mem_cons.mpr h
    simp [hg.name, Ne.symm hn, ih h]

theorem member_field (hd : (spelling.map Field.name).Nodup) {f : Field} (h : f ∈ spelling) (hn : f.name ∉ names)
    {v : Json} (hv : f.value v) :
    Reader.member fields (filled names) (some f.name, v) = .ok (filled (f.name :: names)) := by
  have ⟨field, he, hf⟩ := find?_of_mem hf hd h
  simp [Reader.member, he, hf.isSet, hn, hf.set names v hv]

theorem member_other (h : name ∉ spelling.map Field.name) {v : Json} (hv : v.Whole) :
    Reader.member fields (filled names) (some name, v) = .ok (filled names) := by
  have hc : v.isClosed := by cases hv <;> rfl
  simp [Reader.member, find?_of_not_mem hf h, hc]

-- By induction on the members left: a field that is met moves to the names met so far, so none is met twice.
theorem foldlM_member (names : List String) (hd : (spelling.map Field.name).Nodup) {members : List (String × Json)}
    (hm : ∀ m ∈ members, Admitted spelling m)
    (hc : ∀ f ∈ spelling, (names ++ members.map Prod.fst).count f.name ≤ 1) :
    ∃ names',
      (members.map fun m => (some m.1, m.2)).foldlM (Reader.member fields) (filled names) = .ok (filled names') ∧
      ∀ f ∈ spelling, f.name ∈ names ++ members.map Prod.fst → f.name ∈ names' := by
  induction members generalizing names
  case nil => exact ⟨names, rfl, by simp⟩
  case cons m members ih =>
    have ⟨ha, hm⟩ := List.forall_mem_cons.mp hm
    rw [List.map_cons, List.foldlM_cons]
    cases ha
    case inl h =>
      obtain ⟨f, h, he, hv⟩ := h
      have hp : (names ++ m.1 :: members.map Prod.fst).Perm (f.name :: names ++ members.map Prod.fst) :=
        he ▸ List.perm_middle
      have hn : f.name ∉ names := by
        have := hp.count_eq f.name ▸ hc f h
        simp only [List.cons_append, List.count_cons_self, List.count_append] at this
        exact List.count_eq_zero.mp (by omega)
      have ⟨names', hr, hi⟩ := ih (f.name :: names) hm fun g hg => hp.count_eq g.name ▸ hc g hg
      refine ⟨names', ?_, fun g hg hn => hi g hg <| hp.mem_iff.mp hn⟩
      rw [←he, member_field hf hd h hn hv, ok_bind, hr]
    case inr h =>
      have hs : (names ++ members.map Prod.fst).Sublist (names ++ m.1 :: members.map Prod.fst) :=
        (List.sublist_cons_self ..).append_left names
      have ⟨names', hr, hi⟩ := ih names hm fun g hg => (hs.count_le g.name).trans (hc g hg)
      refine ⟨names', ?_, fun g hg hn => hi g hg ?_⟩
      · rw [member_other hf h.left h.right, ok_bind, hr]
      · have hne : g.name ≠ m.1 := fun he => h.left <| he ▸ List.mem_map_of_mem hg
        simpa [hne] using hn

theorem items_listed (names : List String) {values : List Json} (h : Listed spelling values) :
    ∃ names', Reader.items fields (filled names) values = .ok (filled names') ∧ (∀ name ∈ names, name ∈ names') ∧
      ∀ f ∈ spelling, f.name ∈ names' ∨ f.optional := by
  induction hf generalizing names values
  case nil =>
    cases h
    exact ⟨names, rfl, fun _ => id, nofun⟩
  case cons field f fields spelling hf _ ih =>
    cases h
    case leave h => exact ⟨names, rfl, fun _ => id, fun f hf => .inr <| h f hf⟩
    case keep v values hv h =>
      have ⟨names', hr, hn, hi⟩ := ih (f.name :: names) h
      have ⟨hm, hn⟩ := List.forall_mem_cons.mp hn
      refine ⟨names', ?_, hn, List.forall_mem_cons.mpr ⟨.inl hm, hi⟩⟩
      rw [Reader.items, hf.set names v hv, ok_bind, hr]

end Fields

namespace Given

variable {spelling : List Field} {given : List (String × Json)} (h : Given spelling given)
include h

theorem exists_field {m : String × Json} (hm : m ∈ given) : ∃ f ∈ spelling, f.name = m.1 ∧ f.value m.2 := by
  induction h
  case nil => contradiction
  case keep f _ _ _ hv _ ih =>
    cases List.mem_cons.mp hm
    case inl h => exact ⟨f, List.mem_cons_self, h ▸ ⟨rfl, hv⟩⟩
    case inr h =>
      have ⟨g, hg, he⟩ := ih h
      exact ⟨g, List.mem_cons_of_mem _ hg, he⟩
  case leave ih =>
    have ⟨g, hg, he⟩ := ih hm
    exact ⟨g, List.mem_cons_of_mem _ hg, he⟩

theorem sublist : (given.map Prod.fst).Sublist (spelling.map Field.name) := by
  induction h
  case nil      => exact .slnil
  case keep ih  => exact ih.cons_cons _
  case leave ih => exact ih.cons _

theorem mem_or_optional : ∀ f ∈ spelling, f.name ∈ given.map Prod.fst ∨ f.optional := by
  induction h
  case nil => exact nofun
  case keep ih =>
    refine List.forall_mem_cons.mpr ⟨.inl List.mem_cons_self, fun f hf => ?_⟩
    exact (ih f hf).imp_left <| List.mem_cons_of_mem _
  case leave ho _ ih => exact List.forall_mem_cons.mpr ⟨.inr ho, ih⟩

end Given

-- However the members of an object are ordered, no field is among them twice.
theorem Given.count_le_one {spelling : List Field} {members given others : List (String × Json)}
    (hg : Given spelling given) (hd : (spelling.map Field.name).Nodup) (hp : members.Perm (given ++ others))
    (ho : ∀ m ∈ others, m.1 ∉ spelling.map Field.name ∧ m.2.Whole) {f : Field} (h : f ∈ spelling) :
    (members.map Prod.fst).count f.name ≤ 1 := by
  have hz : (others.map Prod.fst).count f.name = 0 := by
    refine List.count_eq_zero.mpr fun hn => ?_
    have ⟨m, hm, he⟩ := List.mem_map.mp hn
    exact (ho m hm).left <| he ▸ List.mem_map_of_mem h
  rw [(hp.map Prod.fst).count_eq, List.map_append, List.count_append, hz]
  exact List.nodup_iff_count_le_one.mp (hd.sublist hg.sublist) f.name

theorem Listed.exists_field {spelling : List Field} {values : List Json} (h : Listed spelling values) {v : Json}
    (hm : v ∈ values) : ∃ f ∈ spelling, f.value v := by
  induction h
  case leave => contradiction
  case keep f _ _ _ hv _ ih =>
    cases List.mem_cons.mp hm
    case inl h => exact ⟨f, List.mem_cons_self, h ▸ hv⟩
    case inr h =>
      have ⟨g, hg, hv⟩ := ih h
      exact ⟨g, List.mem_cons_of_mem _ hg, hv⟩

-- A record that a reader fills field by field, from nothing to what it stands for.
structure Fills (fields : List (Reader.Field σ)) (empty : σ) (finish : σ → Option α) (spelling : List Field)
    (filled : List String → σ) (a : α) : Prop where
  fits   : List.Forall₂ (Fits filled) fields spelling
  nodup  : (spelling.map Field.name).Nodup
  empty  : filled [] = empty
  finish : ∀ names, (∀ f ∈ spelling, f.name ∈ names ∨ f.optional) → finish (filled names) = some a

namespace Fills

variable {fields : List (Reader.Field σ)} {empty : σ} {finish : σ → Option α} {spelling : List Field} {a : α} {j : Json}

variable (hf : Fills fields empty finish spelling filled a)
include hf

theorem whole_value {f : Field} {v : Json} (h : f ∈ spelling) (hv : f.value v) : v.Whole := by
  have ⟨_, _, hf⟩ := find?_of_mem hf.fits hf.nodup h
  exact hf.whole v hv

theorem reads_object {members given others : List (String × Json)} (hp : members.Perm (given ++ others))
    (hg : Given spelling given) (ho : ∀ m ∈ others, m.1 ∉ spelling.map Field.name ∧ m.2.Whole) :
    Reads (Reader.record fields empty finish) (.record members) a := by
  have hm : ∀ m ∈ members, Admitted spelling m := by
    intro m hm
    exact (List.mem_append.mp <| hp.mem_iff.mp hm).imp hg.exists_field (ho m)
  have ⟨names, hr, hi⟩ := foldlM_member hf.fits [] hf.nodup hm fun _ => hg.count_le_one hf.nodup hp ho
  refine reads_record ?_ (hf.empty ▸ hr) <| hf.finish names fun f h => ?_
  · intro m h
    cases hm m h
    case inl h =>
      have ⟨f, h, _, hv⟩ := h
      exact hf.whole_value h hv
    case inr h => exact h.right
  · refine (hg.mem_or_optional f h).imp_left fun hn => hi f h ?_
    rw [List.nil_append, (hp.map Prod.fst).mem_iff, List.map_append]
    exact List.mem_append_left _ hn

theorem reads_array {values : List Json} (h : Listed spelling values) :
    Reads (Reader.record fields empty finish) (.list values) a where
  whole := by
    refine .array fun v hv => ?_
    have ⟨_, h, hv⟩ := h.exists_field hv
    exact hf.whole_value h hv
  read_eq := by
    have ⟨names, hr, _, hi⟩ := items_listed hf.fits [] h
    simp [Reader.record, Json.list, ←hf.empty, hr, hf.finish names hi]

theorem reads (h : Spelled spelling j) : Reads (Reader.record fields empty finish) j a := by
  cases h
  case object hp hg ho => exact hf.reads_object hp hg ho
  case array h         => exact hf.reads_array h

end Fills

theorem Each.reads {read : Reader α} {spelled : α → Json → Prop} {as : List α} {j : Json}
    (hr : ∀ a ∈ as, ∀ v, spelled a v → Reads read v a) (h : Each spelled as j) : Reads (Reader.list read) j as := by
  obtain ⟨items, rfl, rfl, h⟩ := h
  exact reads_list fun item hi => hr _ (List.mem_map_of_mem hi) _ (h item hi)

theorem spelled_of_given {fields : List Field} {members : List (String × Json)} (h : Given fields members) :
    Spelled fields (.record members) :=
  .object (by rw [List.append_nil]) h (by simp)

theorem each_map {spelled : α → Json → Prop} {as : List α} {f : α → Json} (h : ∀ a ∈ as, spelled a (f a)) :
    Each spelled as (.list (as.map f)) :=
  ⟨as.map fun a => (a, f a), by simp [Function.comp_def], by simp [Function.comp_def], by simpa using h⟩

-- What has been filled in for a field, if it has been met.
def met (names : List String) (name : String) (a : α) : Option α :=
  if name ∈ names then some a else none

variable {a : α}

theorem isSome_met : (met names name a).isSome = decide (name ∈ names) := by
  by_cases h : name ∈ names <;> simp [met, h]

theorem met_cons_self : met (name :: names) name a = some a := by
  simp [met]

theorem met_cons_of_ne {name' : String} (h : name ≠ name') : met (name' :: names) name a = met names name a := by
  simp [met, h]

theorem met_of_mem (h : name ∈ names) : met names name a = some a :=
  if_pos h

end Spelling

open Spelling

theorem NodeId.reads (id : NodeId) : Reads NodeId.read id.toJson id where
  whole := .number
  read_eq := by
    have hi : ofIndex? id.index = some id := by
      rw [ofIndex?, if_pos id.index_lt, index, UInt32.ofNat_toNat]
    have hn : NodeId.read id.toJson = (ofIndex? id.index).elim Reader.refuse .ok := rfl
    rw [hn, hi]
    rfl

theorem Scalar.reads {s : Scalar} (h : s.isFinite) : Reads Scalar.read s.toJson s where
  read_eq := read_toJson h
  whole := by
    cases s
    case integer => exact .number
    case string  => exact .string
    case boolean => exact .bool
    case float x =>
      cases x
      case finite   => exact .number
      case infinite => exact .null
      case nan      => exact .null

namespace Leaf

variable {l : Leaf}

def filled (l : Leaf) (names : List String) : Fields where
  kind   := met names "kind" l.kind
  value  := met names "value" l.value
  parent := met names "parent" l.parent

theorem fills (h : l.value.isFinite) : Fills fields {} Fields.finish l.spelling l.filled l where
  nodup := (by decide : ["kind", "value", "parent"].Nodup)
  empty := rfl
  finish names h := by
    simp [spelling] at h
    simp [Fields.finish, filled, met_of_mem, h]
  fits := by
    have hp names : { l.filled names with kind := some l.kind } = l.filled ("kind" :: names) := by
      simp [filled, met_cons_self, met_cons_of_ne]
    refine .cons (.of_reads (fun _ h => h ▸ reads_text l.kind) (fun _ => isSome_met) hp) <|
      .cons (.of_reads (fun _ hj => hj ▸ Scalar.reads h) (fun _ => isSome_met) fun _ => ?_) <|
      .cons (.of_reads (fun _ h => h ▸ l.parent.reads) (fun _ => isSome_met) fun _ => ?_) .nil
    all_goals simp [filled, met_cons_self, met_cons_of_ne]

theorem reads {j : Json} (h : l.value.isFinite) (hj : Spelled l.spelling j) : Reads Leaf.read j l :=
  (fills h).reads hj

end Leaf

theorem Arg.reads {a : Arg} {j : Json} (h : a.Finite) (hj : a.Spelled j) : Reads Arg.read j a := by
  cases hj
  case node id =>
    have hi := id.reads
    exact ⟨.object <| by simp [hi.whole], by simp [Json.record, Arg.read, hi.read_eq]⟩
  case leaf l j hj =>
    have hl := Leaf.reads (h l rfl) hj
    exact ⟨.object <| by simp [hl.whole], by simp [Json.record, Arg.read, hl.read_eq]⟩

namespace Record

variable {r : Record}

def filled (r : Record) (names : List String) : Fields where
  kind   := met names "kind" r.kind
  args   := met names "args" r.args.toList
  body   := met names "body" r.body.toList
  parent := met names "parent" r.parent

theorem finish_filled {names : List String} (h : ∀ f ∈ r.spelling, f.name ∈ names ∨ f.optional) :
    (r.filled names).finish = some r := by
  have hn {β : Type} {name : String} {b d : β} (h : name ∈ names ∨ b = d) : (met names name b).getD d = b := by
    by_cases hn : name ∈ names
    case pos => simp [met_of_mem hn]
    case neg => simp [met, hn, h.resolve_left hn]
  simp [spelling] at h
  simp [Fields.finish, filled, hn, met_of_mem, h]

variable (h : r.Finite)
include h

theorem reads_args {j : Json} (hj : Each SpelledArg r.args.toList j) : Reads readArgs j r.args.toList := by
  refine hj.reads fun arg ha v hv => ?_
  obtain ⟨a, hs, rfl⟩ := hv
  exact reads_pair (reads_text arg.1) <| Arg.reads (h arg <| Array.mem_toList_iff.mp ha) hs

theorem fills : Fills fields {} Fields.finish r.spelling r.filled r where
  nodup := (by decide : ["kind", "args", "body", "parent"].Nodup)
  empty := rfl
  finish _ := finish_filled
  fits := by
    have hb : Reads (Reader.list NodeId.read) (.list (r.body.toList.map NodeId.toJson)) r.body.toList := by
      simpa using reads_list (g := id) fun id (_ : id ∈ r.body.toList) => id.reads
    have hp : Reads (Reader.optional NodeId.read) ((r.parent.map NodeId.toJson).getD .null) r.parent := by
      cases r.parent
      case none    => exact reads_optional_none
      case some id => exact reads_optional_some id.reads Json.noConfusion
    refine .cons (.of_reads (fun _ h => h ▸ reads_text r.kind) (fun _ => isSome_met) fun _ => ?_) <|
      .cons (.of_reads (fun _ hj => reads_args h hj) (fun _ => isSome_met) fun _ => ?_) <|
      .cons (.of_reads (fun _ h => h ▸ hb) (fun _ => isSome_met) fun _ => ?_) <|
      .cons (.of_reads (fun _ h => h ▸ hp) (fun _ => isSome_met) fun _ => ?_) .nil
    all_goals simp [filled, met_cons_self, met_cons_of_ne]

theorem reads {j : Json} (hj : Spelled r.spelling j) : Reads Record.read j r :=
  (fills h).reads hj

end Record

namespace Tree

variable {root : NodeId} {records : Array Record}

def filled (root : NodeId) (records : Array Record) (names : List String) : Fields where
  root    := met names "root" root
  records := met names "nodes" records.toList

theorem fills (h : FiniteLeaves records) :
    Fills fields {} Fields.finish (spelling root records) (filled root records) (root, records) where
  nodup := (by decide : ["root", "nodes"].Nodup)
  empty := rfl
  finish names h := by
    simp [spelling] at h
    simp [Fields.finish, filled, met_of_mem, h]
  fits := by
    have hr {j} (hj : Each (fun r : Record => Spelled r.spelling) records.toList j) :
        Reads (Reader.list Record.read) j records.toList :=
      hj.reads fun r hr _ => Record.reads <| h r <| Array.mem_toList_iff.mp hr
    refine .cons (.of_reads (fun _ h => h ▸ root.reads) (fun _ => isSome_met) fun _ => ?_) <|
      .cons (.of_reads (fun _ => hr) (fun _ => isSome_met) fun _ => ?_) .nil
    all_goals simp [filled, met_cons_self, met_cons_of_ne]

theorem reads_spelled {j : Json} (h : FiniteLeaves records) (hj : Spelled (spelling root records) j) :
    Reads readParts j (root, records) :=
  (fills h).reads hj

theorem load_of_spelled {j : Json} {s : String} (h : FiniteLeaves records) (hj : Spelled (spelling root records) j)
    (hs : j.IsText s) : load s = (ofRecords root records).mapError .shape := by
  have hr := (Reader.run_of_isText readParts hs).trans (reads_spelled h hj).read_eq
  rw [load, hr]
  rfl

end Tree

-- What is written is one of the ways to spell it.
theorem Leaf.spelled_toJson (l : Leaf) : Spelled l.spelling l.toJson :=
  spelled_of_given <| .keep rfl <| .keep rfl <| .keep rfl .nil

theorem Arg.spelled_toJson (a : Arg) : a.Spelled a.toJson := by
  cases a
  case node id => exact .node id
  case leaf l  => exact .leaf l.spelled_toJson

theorem Record.spelled_toJson (r : Record) : Spelled r.spelling r.toJson := by
  have ha : Each SpelledArg r.args.toList _ := each_map fun arg _ => ⟨arg.2.toJson, arg.2.spelled_toJson, rfl⟩
  exact spelled_of_given <| .keep rfl <| .keep ha <| .keep rfl <| .keep rfl .nil

namespace Tree

variable {root : NodeId} {records : Array Record}

theorem spelled_partsJson (root : NodeId) (records : Array Record) :
    Spelled (spelling root records) (partsJson root records) := by
  have hn : Each (fun r : Record => Spelled r.spelling) records.toList _ := each_map fun r _ => r.spelled_toJson
  exact spelled_of_given <| .keep rfl <| .keep hn .nil

-- Whatever the spelling and the blanks, a text is read as the one that is written: as the same tree or with the same
-- error.
theorem load_ignores_spelling {j : Json} {s : String} (h : FiniteLeaves records)
    (hj : Spelled (spelling root records) j) (hs : j.IsText s) :
    load s = load (partsJson root records).write ∧
    load s = (ofRecords root records).mapError .shape ∧
    ∀ t : Tree, t.root = root → t.records = records → t.write = (partsJson root records).write := by
  have hp := spelled_partsJson root records
  have hl := load_of_spelled h hp (reads_spelled h hp).whole.isText_write
  refine ⟨(load_of_spelled h hj hs).trans hl.symm, load_of_spelled h hj hs, ?_⟩
  rintro t rfl rfl
  rfl

-- Arrays in place of objects, with blanks between the tokens; and an object with its fields in another order, between
-- members that mean nothing and are given twice.
theorem load_ignores_spelling_of_shuffled :
    let other : Json := .list [.string none, .record [("kind", .null)]]
    let j : Json := .record [("x", other),
      ("nodes", .list [.record [("x", other), ("x", .null), ("parent", NodeId.toJson ⟨7⟩), ("kind", .text "loop")]]),
      ("root", NodeId.toJson ⟨0⟩)]
    load " [0 ,\n[[\"wait\"]]]" = .ok ⟨⟨0⟩, #[⟨"wait", #[], #[], none⟩], by decide⟩ ∧
      load j.write = .error (.shape (.rootHasParent ⟨0⟩)) := by
  intro other j
  constructor
  case left =>
    let v : Json := .list [NodeId.toJson ⟨0⟩, .list [.list [.text "wait"]]]
    have hn : Each (fun r : Record => Spelled r.spelling) [⟨"wait", #[], #[], none⟩] _ :=
      ⟨[(_, .list [.text "wait"])], rfl, rfl, List.forall_mem_singleton.mpr <| .array <| .keep rfl <| .leave <| by simp⟩
    have hv : Spelled (spelling ⟨0⟩ #[⟨"wait", #[], #[], none⟩]) v := .array <| .keep rfl <| .keep hn <| .leave nofun
    have hf : FiniteLeaves #[⟨"wait", #[], #[], none⟩] := by simp [FiniteLeaves, Record.Finite]
    have hz : Token.Spelled (.number (.ofNat 0)) ['0'] :=
      .number <| (by decide +kernel : (Numeral.ofNat 0).chars = ['0']) ▸ .lower
    have hl : Token.Lexed v.tokens
        [' ', '[', '0', ' ', ',', '\n', '[', '[', '"', 'w', 'a', 'i', 't', '"', ']', ']', ']'] :=
      .cons [' '] rfl .openBracket nofun <| .cons [] rfl hz (by simp [Token.Delimited, Token.isBlank]) <|
      .cons [' '] rfl .comma nofun <| .cons ['\n'] rfl .openBracket nofun <| .cons [] rfl .openBracket nofun <|
      .cons [] rfl (Token.spelled_stringChars (some "wait")) nofun <| .cons [] rfl .closeBracket nofun <|
      .cons [] rfl .closeBracket nofun <| .cons [] rfl .closeBracket nofun <| .nil [] rfl
    have ht : v.IsText " [0 ,\n[[\"wait\"]]]" := ⟨(reads_spelled hf hv).whole, hl⟩
    obtain ⟨_, h, _⟩ := load_ignores_spelling hf hv ht
    exact h.trans (by decide +kernel)
  case right =>
    have ho : other.Whole := .array <| by simp [Json.Whole.string, Json.Whole.record, Json.Whole.null]
    have hr : Spelled (Record.spelling ⟨"loop", #[], #[], some ⟨7⟩⟩) _ :=
      .object (List.reverse_perm [_, _, ("x", .null), ("x", other)])
        (.keep rfl <| .leave rfl <| .leave rfl <| .keep rfl .nil) (by simp [Record.spelling, ho, Json.Whole.null])
    have hn : Each (fun r : Record => Spelled r.spelling) [⟨"loop", #[], #[], some ⟨7⟩⟩] _ :=
      ⟨[(_, _)], rfl, rfl, List.forall_mem_singleton.mpr hr⟩
    have hj : Spelled (spelling ⟨0⟩ #[⟨"loop", #[], #[], some ⟨7⟩⟩]) j :=
      .object (List.reverse_perm [_, _, _]).symm (.keep rfl <| .keep hn .nil) (by simp [spelling, ho])
    have hf : FiniteLeaves #[⟨"loop", #[], #[], some ⟨7⟩⟩] := by simp [FiniteLeaves, Record.Finite]
    obtain ⟨_, h, _⟩ := load_ignores_spelling hf hj (reads_spelled hf hj).whole.isText_write
    exact h.trans (by decide +kernel)

end Tree
end ScriptCheck
