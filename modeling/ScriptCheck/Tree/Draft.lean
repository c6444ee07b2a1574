import ScriptCheck.Tree.Text

namespace ScriptCheck

structure Draft where
  records : Array Record
  nonempty : 0 < records.size
  deriving DecidableEq

inductive DraftError where
  | unknownParent (parent : NodeId)
  | argumentTaken (parent : NodeId) (name : String)
  | notFinite (parent : NodeId) (name : String) (value : Scalar)
  | full
  deriving DecidableEq

def DraftError.message : DraftError → String
  | unknownParent parent => "Parent node " ++ parent.display ++ " does not belong to this builder"
  | argumentTaken parent name =>
    "Node " ++ parent.display ++ " already has an argument named `" ++ name ++ "`"
  | notFinite parent name value =>
    "Leaf `" ++ name ++ "` of node " ++ parent.display ++ " must hold a finite float, got " ++ value.display
  | full => "Tree cannot hold more than 4294967295 nodes"

-- One addition to a draft.
inductive Draft.Step where
  | body (parent : NodeId) (kind : String)
  | node (parent : NodeId) (name kind : String)
  | leaf (parent : NodeId) (name kind : String) (value : Scalar)
  deriving DecidableEq

namespace Draft

def start (kind : String) : Draft where
  records := #[⟨kind, #[], #[], none⟩]
  nonempty := by simp

def root : NodeId :=
  ⟨0⟩

-- Changes the record of a node, if there is one.
def modify (d : Draft) (id : NodeId) (f : Record → Record) : Draft where
  records := d.records.modify id.index f
  nonempty := by simp [d.nonempty]

-- Adds a record whose parent does not yet name it as a child.
def push (d : Draft) (parent : NodeId) (kind : String) : Draft where
  records := d.records.push ⟨kind, #[], #[], some parent⟩
  nonempty := by simp

end Draft

-- Work on a draft, which ends with the first error. What has been done to the draft by then is not undone.
abbrev Drafting := ExceptT DraftError (StateM Draft)

namespace Drafting

-- Adds a node that is in no slot of its parent yet, and gives its number.
def push (parent : NodeId) (kind : String) : Drafting NodeId := do
  let size := (← get).records.size
  if parent.index < size then
    match NodeId.ofIndex? size with
    | none    => throw .full
    | some id =>
      modify (·.push parent kind)
      return id
  else
    throw (.unknownParent parent)

-- Ends with an error if `parent` cannot get an argument called `name`.
def requireFree (parent : NodeId) (name : String) : Drafting Unit := do
  match (← get).records[parent.index]? with
  | none   => throw (.unknownParent parent)
  | some r => if r.args.any (·.1 == name) then throw (.argumentTaken parent name)

-- Adding a node gives its number.
def addBody (parent : NodeId) (kind : String) : Drafting NodeId := do
  let id ← push parent kind
  modify (·.modify parent fun r => { r with body := r.body.push id })
  return id

def addNodeArg (parent : NodeId) (name kind : String) : Drafting NodeId := do
  requireFree parent name
  let id ← push parent kind
  modify (·.modify parent fun r => { r with args := r.args.push (name, .node id) })
  return id

def addLeafArg (parent : NodeId) (name kind : String) (value : Scalar) : Drafting Unit := do
  requireFree parent name
  unless value.isFinite do
    throw (.notFinite parent name value)
  modify (·.modify parent fun r => { r with args := r.args.push (name, .leaf ⟨kind, value, parent⟩) })

-- A step that adds a node gives its number.
def take : Draft.Step → Drafting (Option NodeId)
  | .body parent kind            => some <$> addBody parent kind
  | .node parent name kind       => some <$> addNodeArg parent name kind
  | .leaf parent name kind value => do
    addLeafArg parent name kind value
    return none

end Drafting

namespace Draft

def addBody (d : Draft) (parent : NodeId) (kind : String) : Except DraftError NodeId × Draft :=
  (Drafting.addBody parent kind).run.run d

-- The answer to a step, and the draft as it is when the step has ended, be it with an error.
def apply (d : Draft) (s : Step) : Except DraftError (Option NodeId) × Draft :=
  (Drafting.take s).run.run d

-- Takes steps in order, whether or not some of them are refused.
def applyAll (d : Draft) (steps : List Step) : Draft :=
  steps.foldl (fun d s => (d.apply s).2) d

def build (d : Draft) : Tree where
  root := root
  records := d.records
  root_lt := d.nonempty

end Draft
end ScriptCheck
