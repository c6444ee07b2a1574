import ScriptCheck.Corpus.Basic

namespace ScriptCheck

inductive Registration (ρ : Type) where
  | node (name : String) (args body : List String)
  | arg (name : String) (types : List ScalarType) (rule : Option ρ)
  deriving DecidableEq

inductive CorpusError where
  | duplicateNode (name : String)
  | duplicateArg (name : String)
  deriving DecidableEq

def CorpusError.message : CorpusError → String
  | duplicateNode name => "node kind '" ++ name ++ "' is defined more than once"
  | duplicateArg name  => "arg kind '" ++ name ++ "' is defined more than once"

namespace Registration

variable {ρ : Type}

-- Repeated names in the lists of a node kind count once.
def node? : Registration ρ → Option (String × NodeSpec)
  | node name args body => some (name, ⟨args.eraseDups, body.eraseDups⟩)
  | arg ..              => none

def arg? : Registration ρ → Option (String × ArgSpec ρ)
  | node ..             => none
  | arg name types rule => some (name, ⟨types, rule⟩)

end Registration

namespace Corpus

variable {ρ σ : Type}

-- Adds an entry under a name that must be new.
def insertNew (duplicate : String → CorpusError) (entries : Std.TreeMap String σ) (entry : String × σ) :
    Except CorpusError (Std.TreeMap String σ) :=
  if entries.contains entry.1 then .error (duplicate entry.1) else .ok (entries.insert entry.1 entry.2)

-- A name may be registered once as a node kind and once as an argument kind. Node kinds are looked at first.
def ofRegistrations (rs : List (Registration ρ)) : Except CorpusError (Corpus ρ) := do
  let nodes ← (rs.filterMap Registration.node?).foldlM (insertNew .duplicateNode) ∅
  let args ← (rs.filterMap Registration.arg?).foldlM (insertNew .duplicateArg) ∅
  return ⟨nodes, args⟩

end Corpus
end ScriptCheck
