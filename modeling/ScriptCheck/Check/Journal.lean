import ScriptCheck.Check.Basic

namespace ScriptCheck

structure Consultation where
  arg : String
  kind : String
  accepted : Bool
  deriving DecidableEq

inductive Event where
  | started (rootKind : String) (nodes : Nat)
  | visited (id : NodeId) (kind : String)
  | failed (kind : Violation.Kind) (message : String)
  deriving DecidableEq

-- Which nodes a check has come to so far, and which rules it has consulted.
structure Journal where
  visited : Array Node := #[]
  consultations : Array Consultation := #[]

namespace Check

variable {ρ : Type} (judge : Judge ρ) (c : Corpus ρ) (t : Tree)

-- A check that keeps a journal.
abbrev Noting := ExceptT Violation (StateM Journal)

-- A consultation is noted before its verdict can end the check.
def consult (rule : ρ) (name : String) (v : Value) : Noting Unit := do
  let verdict := judge rule c t v
  modify fun j => { j with consultations := j.consultations.push ⟨name, v.kind, verdict.isOk⟩ }
  liftExcept <| verdict.mapError (Violation.refused name)

def noteArg (n : Node) (arg : String × Arg) : Noting Unit := do
  match ← liftExcept (vet c t n arg.1 arg.2) with
  | (_, none)      => return ()
  | (v, some rule) => consult judge c t rule arg.1 v

def noteNode (n : Node) : Noting Unit := do
  modify fun j => { j with visited := j.visited.push n }
  liftExcept <| checkOutline c t n
  n.args.forM (noteArg judge c t n)

end Check

namespace Tree

variable {ρ : Type} (judge : Judge ρ) (c : Corpus ρ) (t : Tree)

-- Checks a script and keeps a journal.
def audit : Except Violation Unit × Journal :=
  (t.travel (Check.noteNode judge c t) t.rootNode).run.run {}

end Tree

namespace Journal

def events (t : Tree) (result : Except Violation Unit) (j : Journal) : List Event :=
  .started t.rootNode.kind t.size :: j.visited.toList.map (fun n => .visited n.id n.kind) ++
    match result with
    | .ok _    => []
    | .error e => [.failed e.kind e.message]

end Journal
end ScriptCheck
