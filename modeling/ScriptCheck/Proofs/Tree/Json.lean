import ScriptCheck.Proofs.Tree.Obtained
import ScriptCheck.Proofs.Tree.Spelling

namespace ScriptCheck
namespace Tree

variable {t : Tree}

theorem WellFormed.finiteLeaves {root : NodeId} {records : Array Record} (h : WellFormed root records) :
    FiniteLeaves records := by
  rintro r hr ⟨_, _⟩ ha _ rfl
  exact h.leaf_finite r hr ha

theorem reads_parts (h : WellFormed t.root t.records) : Reader.Reads readParts t.toJson (t.root, t.records) :=
  reads_spelled h.finiteLeaves <| spelled_partsJson t.root t.records

-- The text of a tree is read as that tree: the root and every field of every record come back as they were.
theorem load_write (ht : t.Obtained) : load t.write = .ok t := by
  have hr := (reads_parts ht.wellFormed).run
  have hs := ofRecords_parts_eq_ok_iff.mpr ⟨rfl, passes_iff_wellFormed.mpr ht.size_le_and_wellFormed⟩
  refine bind_eq_ok_iff.mpr ⟨_, mapError_eq_ok_iff.mpr hr, mapError_eq_ok_iff.mpr hs⟩

-- The root comes last, an entry of its body leads nowhere, and the leaves hold the least integer, minus zero and a
-- string that spells a number.
theorem load_write_of_edges :
    let records := #[
      ⟨"wait \"é\"", #[
        ("min", .leaf ⟨"integer", .integer Int64.minValue, ⟨0⟩⟩),
        ("zero\n", .leaf ⟨"float", .float (.finite true .zero), ⟨0⟩⟩),
        ("text", .leaf ⟨"string", .string "7", ⟨0⟩⟩)], #[], some ⟨1⟩⟩,
      ⟨"sequence", #[], #[⟨0⟩, ⟨9⟩], none⟩]
    ∃ t, ofRecords ⟨1⟩ records = .ok t ∧ t.records = records ∧ load t.write = .ok t := by
  intro records
  let t : Tree := ⟨⟨1⟩, records, by decide⟩
  have ht : ofRecords ⟨1⟩ records = .ok t := by decide +kernel
  exact ⟨t, ht, rfl, load_write <| .records ht⟩

end Tree
end ScriptCheck
