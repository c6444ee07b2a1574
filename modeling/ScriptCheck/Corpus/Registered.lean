import ScriptCheck.Corpus.Registration

namespace ScriptCheck

-- The first member of a list that is there before.
def FirstRepeat (names : List String) (name : String) : Prop :=
  ∃ before after, names = before ++ name :: after ∧ before.Nodup ∧ name ∈ before

-- The members of a list without those that are there before.
def firstOccurrences (names : List String) : List String :=
  (names.zipIdx.filter fun entry => entry.1 ∉ names.take entry.2).map Prod.fst

namespace Registration

variable {ρ : Type}

def nodeName? : Registration ρ → Option String
  | node name _ _ => some name
  | arg ..        => none

def argName? : Registration ρ → Option String
  | node ..      => none
  | arg name _ _ => some name

end Registration

namespace Corpus

variable {ρ : Type}

def nodeNames (rs : List (Registration ρ)) : List String :=
  rs.filterMap Registration.nodeName?

def argNames (rs : List (Registration ρ)) : List String :=
  rs.filterMap Registration.argName?

-- The corpus has the registered entries and no others, and lists their names in order.
structure Holds (rs : List (Registration ρ)) (c : Corpus ρ) : Prop where
  node             : ∀ name spec, c.node name = .ok spec ↔
                     ∃ args body, .node name args body ∈ rs ∧ spec = ⟨firstOccurrences args, firstOccurrences body⟩
  arg              : ∀ name spec, c.arg name = .ok spec ↔ .arg name spec.types spec.rule ∈ rs
  nodeKinds_sorted : c.nodeKinds.Pairwise (· < ·)
  argKinds_sorted  : c.argKinds.Pairwise (· < ·)
  mem_nodeKinds    : ∀ name, name ∈ c.nodeKinds ↔ name ∈ nodeNames rs
  mem_argKinds     : ∀ name, name ∈ c.argKinds ↔ name ∈ argNames rs

-- The corpora have the same entries and list the same names.
structure Same (c c' : Corpus ρ) : Prop where
  node      : ∀ name, c'.node name = c.node name
  arg       : ∀ name, c'.arg name = c.arg name
  nodeKinds : c'.nodeKinds = c.nodeKinds
  argKinds  : c'.argKinds = c.argKinds

end Corpus
end ScriptCheck
