import ScriptCheck.Tree.Lookup
import ScriptCheck.Tree.Text

namespace ScriptCheck

-- The nodes still to be visited, the next one first.
structure Walk where
  stack : List Node
  deriving DecidableEq

namespace Walk

def start (n : Node) : Walk where
  stack := [n]

-- Visits the next node and puts its children in front of the others.
def next? (t : Tree) (w : Walk) : Option (Node × Walk) :=
  match w.stack with
  | []        => none
  | n :: rest => some (n, ⟨t.children n ++ rest⟩)

-- The nodes that at most `k` steps visit.
def visited (t : Tree) : Nat → Walk → List Node
  | 0,     _ => []
  | k + 1, w =>
    match w.next? t with
    | none         => []
    | some (n, w') => n :: visited t k w'

-- Calls `visit` on the nodes that at most `k` steps visit, unless a call fails.
@[specialize]
def travel {m : Type → Type} [Monad m] (t : Tree) (visit : Node → m Unit) : Nat → Walk → m Unit
  | 0,     _ => pure ()
  | k + 1, w =>
    match w.next? t with
    | none         => pure ()
    | some (n, w') => do
      visit n
      travel t visit k w'

-- The stack with the next node last.
def describe (w : Walk) : String :=
  "Preorder \x7b stack: " ++ Text.bracketed (w.stack.reverse.map Node.describe) ++ " \x7d"

end Walk

namespace Tree

variable (t : Tree)

-- On a tree of the right shape no node is visited twice, so there are enough steps for any walk.
def preorder (n : Node) : List Node :=
  Walk.visited t t.size (.start n)

-- Visits the nodes from `n` on in order and stops at the first one at which `visit` fails.
@[specialize]
def travel {m : Type → Type} [Monad m] (visit : Node → m Unit) (n : Node) : m Unit :=
  Walk.travel t visit t.size (.start n)

end Tree
end ScriptCheck
