import ScriptCheck.Check.Journal
import ScriptCheck.Proofs.Tree.Walk

namespace ScriptCheck

section UpToFailure

variable {ε α : Type} {check : α → Except ε Unit} {as : List α}

-- The members of a list that a check comes to if the first one that fails is the last one it looks at.
def upToFailure (check : α → Except ε Unit) : List α → List α
  | []      => []
  | a :: as => a :: if (check a).isOk then upToFailure check as else []

theorem forM_eq_ok_iff : as.forM check = .ok () ↔ ∀ a ∈ as, check a = .ok () := by
  induction as
  case nil => exact iff_of_true rfl (by simp)
  case cons a as ih =>
    rw [List.forM, bind_eq_ok_iff, List.forall_mem_cons, ←ih]
    exact ⟨fun ⟨_, h⟩ => h, fun h => ⟨(), h⟩⟩

theorem upToFailure_of_ok (h : as.forM check = .ok ()) : upToFailure check as = as := by
  induction as
  case nil => rfl
  case cons a as ih =>
    have ⟨_, ha, h⟩ := bind_eq_ok_iff.mp h
    rw [upToFailure, ha, ih h]
    rfl

theorem upToFailure_of_error {e : ε} (h : as.forM check = .error e) :
    ∃ before a after, as = before ++ a :: after ∧ upToFailure check as = before ++ [a] ∧
      (∀ b ∈ before, check b = .ok ()) ∧ check a = .error e := by
  induction as
  case nil => cases h
  case cons a as ih =>
    rcases bind_eq_error_iff.mp h with ha | ⟨_, ha, h⟩
    · exact ⟨[], a, as, rfl, by rw [upToFailure, ha]; rfl, by simp, ha⟩
    · have ⟨before, b, after, he, hr, hb, hf⟩ := ih h
      refine ⟨a :: before, b, after, by rw [he, List.cons_append], ?_, List.forall_mem_cons.mpr ⟨ha, hb⟩, hf⟩
      rw [upToFailure, ha, hr]
      rfl

end UpToFailure

namespace Journal

def append (j : Journal) (nodes : List Node) (consultations : List Consultation) : Journal :=
  ⟨j.visited ++ nodes, j.consultations ++ consultations⟩

theorem append_nil (j : Journal) : j.append [] [] = j := by
  simp [append]

theorem append_append (j : Journal) (nodes nodes' : List Node) (consultations consultations' : List Consultation) :
    (j.append nodes consultations).append nodes' consultations' =
      j.append (nodes ++ nodes') (consultations ++ consultations') := by
  simp [append, ←Array.toList_inj]

end Journal

namespace Check

-- If noting a member gives the verdict of the plain check and adds to the journal what is to be noted about the member,
-- then noting a list gives the verdict on the list, and notes the members up to the first failure.
theorem run_forM_noting {α : Type} {note : α → Noting Unit} {check : α → Except Violation Unit}
    {nodes : α → List Node} {consultations : α → List Consultation}
    (h : ∀ a j, (note a).run.run j = (check a, j.append (nodes a) (consultations a))) (as : List α) (j : Journal) :
    (as.forM note).run.run j = (as.forM check,
      j.append ((upToFailure check as).flatMap nodes) ((upToFailure check as).flatMap consultations)) := by
  induction as generalizing j
  case nil => exact congrArg (Prod.mk _) j.append_nil.symm
  case cons a as ih =>
    have ha := h a j
    rw [upToFailure, List.forM, List.forM, List.flatMap_cons, List.flatMap_cons]
    cases hc : check a <;> rw [hc] at ha
    case error =>
      rw [run_bind_of_error _ ha]
      simp [Except.isOk, Except.toBool]
    case ok =>
      rw [run_bind_of_ok _ ha, ih, Journal.append_append]
      rfl

variable {ρ : Type} (judge : Judge ρ) (c : Corpus ρ) (t : Tree)

-- A rule is consulted on an argument if the argument has one and has been vetted.
def consultation? (n : Node) (arg : String × Arg) : Option Consultation :=
  match vet c t n arg.1 arg.2 with
  | .ok (v, some rule) => some ⟨arg.1, v.kind, (judge rule c t v).isOk⟩
  | _                  => none

def consulted (n : Node) : List Consultation :=
  if (checkOutline c t n).isOk then
    (upToFailure (checkArg judge c t n) n.args).filterMap (consultation? judge c t n)
  else
    []

variable {judge c t} {n : Node} {arg : String × Arg} {k : Consultation}

theorem run_noteArg (n : Node) (arg : String × Arg) (j : Journal) :
    (noteArg judge c t n arg).run.run j =
      (checkArg judge c t n arg, j.append [] (consultation? judge c t n arg).toList) := by
  have hl := run_liftExcept (s := j) (vet c t n arg.1 arg.2)
  rw [noteArg, checkArg, consultation?]
  rcases hv : vet c t n arg.1 arg.2 with e | ⟨v, _ | rule⟩ <;> rw [hv] at hl
  · rw [run_bind_of_error _ hl, Option.toList_none, Journal.append_nil]
    rfl
  · rw [run_bind_of_ok _ hl, Option.toList_none, Journal.append_nil]
    rfl
  · rw [run_bind_of_ok _ hl, ok_bind]
    dsimp only
    rw [consult, run_modify_bind, run_liftExcept]
    simp [Journal.append]

theorem run_noteNode (n : Node) (j : Journal) :
    (noteNode judge c t n).run.run j = (checkNode judge c t n, j.append [n] (consulted judge c t n)) := by
  have hl := run_liftExcept (s := j.append [n] []) (checkOutline c t n)
  have hj : (⟨j.visited.push n, j.consultations⟩ : Journal) = j.append [n] [] := by simp [Journal.append]
  rw [noteNode, checkNode, consulted, run_modify_bind, hj]
  cases ho : checkOutline c t n <;> rw [ho] at hl
  case error =>
    rw [run_bind_of_error _ hl]
    rfl
  case ok =>
    rw [run_bind_of_ok _ hl, run_forM_noting (run_noteArg n), Journal.append_append, ←List.filterMap_eq_flatMap_toList,
      List.flatMap_eq_nil_iff.mpr fun _ _ => rfl]
    rfl

theorem consulted_of_ok (h : checkNode judge c t n = .ok ()) :
    consulted judge c t n = n.args.filterMap (consultation? judge c t n) := by
  have ⟨_, ho, ha⟩ := bind_eq_ok_iff.mp h
  rw [consulted, ho, upToFailure_of_ok ha]
  rfl

theorem accepted_of_ok (h : checkArg judge c t n arg = .ok ()) (hk : consultation? judge c t n arg = some k) :
    k.accepted := by
  rw [checkArg, bind_eq_ok_iff] at h
  obtain ⟨⟨v, _ | rule⟩, hv, h⟩ := h
  · simp [consultation?, hv] at hk
  · rw [consultation?, hv] at hk
    cases hk
    simp only [mapError_eq_ok_iff.mp h]
    rfl

end Check

namespace Tree

open Check

variable {ρ : Type} {judge : Judge ρ} {c : Corpus ρ} {t : Tree} {n : Node} {e : Violation}

theorem forM_preorder : (t.preorder t.rootNode).forM (checkNode judge c t) = (t.check judge c).map fun _ => () := by
  rw [Tree.check, travel_eq_forM]
  cases (t.preorder t.rootNode).forM (checkNode judge c t) <;> rfl

-- Keeping a journal does not change the verdict.
theorem audit_eq :
    let visited := upToFailure (checkNode judge c t) (t.preorder t.rootNode)
    t.audit judge c =
      ((t.check judge c).map fun _ => (), ⟨visited.toArray, (visited.flatMap (consulted judge c t)).toArray⟩) := by
  intro visited
  rw [audit, travel_eq_forM, run_forM_noting run_noteNode, forM_preorder]
  simp [Journal.append, visited]

-- A check that passes has come to every node and consulted every rule, and all of them have accepted.
theorem audit_of_ok (h : t.check judge c = .ok n) :
    let order := t.preorder t.rootNode
    let consultations := order.flatMap fun n => n.args.filterMap (consultation? judge c t n)
    t.audit judge c = (.ok (), ⟨order.toArray, consultations.toArray⟩) ∧ ∀ k ∈ consultations, k.accepted := by
  intro order consultations
  have ho : order.forM (checkNode judge c t) = .ok () := by
    rw [forM_preorder, h]
    rfl
  have hn := forM_eq_ok_iff.mp ho
  have hc : order.flatMap (consulted judge c t) = consultations :=
    List.flatMap_congr fun n hm => consulted_of_ok (hn n hm)
  constructor
  · rw [audit_eq, upToFailure_of_ok ho, h]
    simp only [hc]
    rfl
  · intro k hk
    obtain ⟨n, hm, hk⟩ := List.mem_flatMap.mp hk
    obtain ⟨arg, ha, hk⟩ := List.mem_filterMap.mp hk
    have ⟨_, _, hf⟩ := bind_eq_ok_iff.mp (hn n hm)
    exact accepted_of_ok (forM_eq_ok_iff.mp hf arg ha) hk

-- The node that a check fails at is the last one it has come to.
theorem audit_of_error (h : t.check judge c = .error e) :
    ∃ before n after, t.preorder t.rootNode = before ++ n :: after ∧
      (t.audit judge c).1 = .error e ∧ (t.audit judge c).2.visited.toList = before ++ [n] ∧
      (∀ b ∈ before, checkNode judge c t b = .ok ()) ∧ checkNode judge c t n = .error e := by
  have ho : (t.preorder t.rootNode).forM (checkNode judge c t) = .error e := by
    rw [forM_preorder, h]
    rfl
  have ⟨before, n, after, he, hv, hb, hn⟩ := upToFailure_of_error ho
  refine ⟨before, n, after, he, ?_, ?_, hb, hn⟩
  · rw [audit_eq, h]
    rfl
  · rw [audit_eq, hv]

end Tree
end ScriptCheck
