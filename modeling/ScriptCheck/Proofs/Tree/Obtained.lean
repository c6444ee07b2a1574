import ScriptCheck.Proofs.Tree.Draft
import ScriptCheck.Proofs.Tree.Shape
import ScriptCheck.Tree.Json

namespace ScriptCheck
namespace Tree

-- Trees come from records, from texts and from drafts.
inductive Obtained : Tree → Prop
  | records {root : NodeId} {records : Array Record} {t : Tree} : ofRecords root records = .ok t → Obtained t
  | text {s : String} {t : Tree} : load s = .ok t → Obtained t
  | draft (kind : String) (steps : List Draft.Step) : Obtained ((Draft.start kind).applyAll steps).build

namespace Obtained

variable {t : Tree}

theorem size_le_and_wellFormed (h : t.Obtained) : t.size ≤ 0x100000000 ∧ WellFormed t.root t.records := by
  cases h
  case records h => exact passes_iff_wellFormed.mp (ofRecords_eq_ok_iff.mp h).right.right
  case text h =>
    have ⟨_, _, h⟩ := bind_eq_ok_iff.mp h
    have h := mapError_eq_ok_iff.mp h
    exact passes_iff_wellFormed.mp (ofRecords_eq_ok_iff.mp h).right.right
  case draft kind steps =>
    have h := (Draft.sound_start kind).applyAll steps
    exact ⟨h.size_le, h.shape⟩

theorem size_le (h : t.Obtained) : t.size ≤ 0x100000000 :=
  h.size_le_and_wellFormed.left

theorem wellFormed (h : t.Obtained) : WellFormed t.root t.records :=
  h.size_le_and_wellFormed.right

end Obtained
end Tree
end ScriptCheck
