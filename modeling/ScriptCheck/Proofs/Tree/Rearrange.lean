import ScriptCheck.Proofs.Tree.Shape

namespace ScriptCheck

-- The same record with its arguments in another order.
structure Record.Rearranged (r r' : Record) : Prop where
  kind   : r'.kind = r.kind
  args   : r'.args.Perm r.args
  body   : r'.body = r.body
  parent : r'.parent = r.parent

namespace Record.Rearranged

variable {r r' : Record} (h : r.Rearranged r')
include h

theorem symm : r'.Rearranged r where
  kind   := h.kind.symm
  args   := h.args.symm
  body   := h.body.symm
  parent := h.parent.symm

theorem argNames_perm : r'.argNames.Perm r.argNames :=
  (Array.perm_iff_toList_perm.mp h.args).map _

theorem childIds_perm : r'.childIds.Perm r.childIds := by
  rw [childIds, childIds, h.body]
  exact ((Array.perm_iff_toList_perm.mp h.args).filterMap _).append_right _

theorem alike (size : Nat) : r.Alike size r' where
  parent        := h.parent
  children id _ := h.childIds_perm.count_eq id

end Record.Rearranged

-- The same node with its arguments in another order.
def Node.Rearranged (n n' : Node) : Prop :=
  n.record.Rearranged n'.record

namespace Node.Rearranged

variable {n n' : Node} (h : n.Rearranged n')
include h

theorem symm : n'.Rearranged n :=
  Record.Rearranged.symm h

theorem kind_eq : n'.kind = n.kind :=
  h.kind

theorem bodyIds_eq : n'.bodyIds = n.bodyIds :=
  congrArg Array.toList h.body

theorem mem_args_iff {arg : String × Arg} : arg ∈ n'.args ↔ arg ∈ n.args :=
  (Array.perm_iff_toList_perm.mp h.args).mem_iff

theorem mem_argNames_iff {name : String} : name ∈ n'.argNames ↔ name ∈ n.argNames :=
  h.argNames_perm.mem_iff

end Node.Rearranged

namespace Tree

-- The same records, each with its arguments in another order.
structure Rearranged (records records' : Array Record) : Prop where
  size   : records'.size = records.size
  record : ∀ {i : Nat} {r r'}, records[i]? = some r → records'[i]? = some r' → r.Rearranged r'

namespace Rearranged

variable {records records' : Array Record} {root : NodeId} {r r' : Record} (h : Rearranged records records')
include h

theorem symm : Rearranged records' records where
  size          := h.size.symm
  record hr' hr := (h.record hr hr').symm

theorem alike : Alike records records' where
  size          := h.size
  record hr hr' := (h.record hr hr').alike _

theorem exists_record {i : Nat} (hr : records[i]? = some r) : ∃ r', records'[i]? = some r' ∧ r.Rearranged r' := by
  have ⟨r', hr', _⟩ := h.alike.exists_record hr
  exact ⟨r', hr', h.record hr hr'⟩

theorem exists_mem (hr : r' ∈ records') : ∃ r ∈ records, r.Rearranged r' := by
  have ⟨_, hi⟩ := Array.mem_iff_getElem?.mp hr
  have ⟨r, hr, ha⟩ := h.symm.exists_record hi
  exact ⟨r, Array.mem_of_getElem? hr, ha.symm⟩

theorem wellFormed (hw : WellFormed root records) : WellFormed root records' := by
  refine hw.of_alike h.alike ?_ ?_ ?_
  · intro r' hr'
    have ⟨r, hr, ha⟩ := h.exists_mem hr'
    exact ha.argNames_perm.nodup_iff.mpr (hw.names_nodup r hr)
  · intro id r' name l hr' hl
    have ⟨r, hr, ha⟩ := h.symm.exists_record hr'
    exact hw.leaf_parent hr (ha.args.mem_iff.mpr hl)
  · intro r' hr' name l hl
    have ⟨r, hr, ha⟩ := h.exists_mem hr'
    exact hw.leaf_finite r hr (ha.args.mem_iff.mp hl)

end Rearranged

section

variable {t t' : Tree} (h : Rearranged t.records t'.records)
include h

theorem exists_node?_of_rearranged {id : NodeId} {n : Node} (hn : t.node? id = some n) :
    ∃ n', t'.node? id = some n' ∧ n.Rearranged n' := by
  have ⟨r, hr, he⟩ := Option.map_eq_some_iff.mp hn
  have ⟨r', hr', ha⟩ := h.exists_record hr
  subst he
  exact ⟨⟨id, r'⟩, by rw [node?, hr']; rfl, ha⟩

-- What an argument holds is still there, and a leaf is still the same leaf.
theorem exists_resolve?_of_rearranged {a : Arg} {v : Value} (hv : t.resolve? a = some v) :
    ∃ v', t'.resolve? a = some v' ∧ ∀ l, v' = .leaf l → v = .leaf l := by
  cases a
  case leaf l =>
    cases hv
    exact ⟨.leaf l, rfl, fun _ => id⟩
  case node id =>
    have ⟨n, hn, _⟩ := Option.map_eq_some_iff.mp hv
    have ⟨n', hn', _⟩ := exists_node?_of_rearranged h hn
    exact ⟨.node n', by rw [resolve?, hn']; rfl, nofun⟩

end

theorem exists_ofRecords_of_rearranged {t : Tree} {records : Array Record} (hs : t.size ≤ 0x100000000)
    (hw : WellFormed t.root t.records) (h : Rearranged t.records records) :
    ∃ t', ofRecords t.root records = .ok t' ∧ t'.records = records := by
  have hs' : records.size ≤ 0x100000000 := h.size ▸ hs
  have ⟨t', ht'⟩ := (isOk_ofRecords_iff hs').mpr (h.wellFormed hw)
  have ⟨_, he, _⟩ := ofRecords_eq_ok_iff.mp ht'
  exact ⟨t', ht', he⟩

end Tree
end ScriptCheck
