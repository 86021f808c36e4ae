import ClauseWeave.Clause.Piece
import ClauseWeave.Filter.Basic

namespace ClauseWeave

inductive Tree where
  | leaf (key text : String)
  | join (connective : Connective) (children : List Tree)
  | paren (inner : Tree)
  deriving Repr

namespace Tree

mutual

def render : Tree → String
  | leaf _ text => text
  | join c children => c.separator.intercalate (renderAll children)
  | paren inner => "(" ++ inner.render ++ ")"

def renderAll : List Tree → List String
  | [] => []
  | t :: rest => t.render :: renderAll rest

end

mutual

def leaves : Tree → List (String × String)
  | leaf key text => [(key, text)]
  | join _ children => leavesAll children
  | paren inner => inner.leaves

def leavesAll : List Tree → List (String × String)
  | [] => []
  | t :: rest => t.leaves ++ leavesAll rest

end

mutual

def rename (renames : Dict String) : Tree → Tree
  | leaf key text => leaf key (relabel renames text)
  | join c children => join c (renameAll renames children)
  | paren inner => paren (rename renames inner)

def renameAll (renames : Dict String) : List Tree → List Tree
  | [] => []
  | t :: rest => rename renames t :: renameAll renames rest

end

mutual

/-- The tree of the leaves whose key is kept; what is left without leaves disappears together with
its parentheses. -/
def retain (keep : String → Bool) : Tree → Option Tree
  | leaf key text => if keep key then some (leaf key text) else none
  | join c children =>
    match retainAll keep children with
    | [] => none
    | kept => some (join c kept)
  | paren inner => (retain keep inner).map paren

def retainAll (keep : String → Bool) : List Tree → List Tree
  | [] => []
  | t :: rest =>
    match retain keep t with
    | some kept => kept :: retainAll keep rest
    | none => retainAll keep rest

end

end Tree

end ClauseWeave
