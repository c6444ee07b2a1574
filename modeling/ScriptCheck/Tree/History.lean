import ScriptCheck.Tree.Draft

namespace ScriptCheck
namespace Draft

namespace Step

def parent : Step → NodeId
  | body parent _     => parent
  | node parent _ _   => parent
  | leaf parent _ _ _ => parent

-- The kind of the node or leaf that is added.
def kind : Step → String
  | body _ kind     => kind
  | node _ _ kind   => kind
  | leaf _ _ kind _ => kind

def addsNode : Step → Bool
  | leaf .. => false
  | _       => true

end Step

-- A step that was taken, with the number that it gave.
structure Entry where
  step : Step
  id? : Option NodeId
  deriving DecidableEq

namespace Entry

-- What the entry adds to the body of `p`.
def body? (p : NodeId) : Entry → Option NodeId
  | ⟨.body parent _, id?⟩ => if parent = p then id? else none
  | _                     => none

-- What the entry adds to the arguments of `p`.
def arg? (p : NodeId) : Entry → Option (String × Arg)
  | ⟨.node parent name _, id?⟩        => if parent = p then id?.map fun id => (name, .node id) else none
  | ⟨.leaf parent name kind value, _⟩ => if parent = p then some (name, .leaf ⟨kind, value, p⟩) else none
  | _                                 => none

end Entry

-- The steps of a list that the draft takes. Refused steps leave no trace.
def history (d : Draft) : List Step → List Entry
  | []         => []
  | s :: steps =>
    match d.apply s with
    | (.ok id?, d')  => ⟨s, id?⟩ :: d'.history steps
    | (.error _, d') => d'.history steps

end Draft
end ScriptCheck
