import ClauseWeave.Clause.Statement
import ClauseWeave.Name

namespace ClauseWeave

structure Merge where
  arguments : Dict Value
  fragments : Dict String
  bodies : List Body

namespace Merge

def empty : Merge := ⟨∅, ∅, []⟩

/-- The arguments of the next statement under free names, beside those already there, and the new
name of each that could not keep its own. -/
def addArguments (taken : Dict Value) (renames : Dict String) :
    List (String × Value) → Dict Value × Dict String
  | [] => (taken, renames)
  | (name, v) :: rest =>
    let fresh := Name.fresh name taken.keys
    let renames := if fresh = name then renames else renames.insert name fresh
    addArguments (taken.insert fresh v) renames rest

def addFragment (c : Connective) (fragments : Dict String) (key text : String) : Dict String :=
  match fragments.get? key with
  | some before => fragments.insert key (before ++ c.separator ++ text)
  | none => fragments.insert key text

def addFragments (c : Connective) (renames : Dict String) (fragments : Dict String)
    (added : Dict String) : Dict String :=
  added.entries.foldl (fun fs e => addFragment c fs e.1 (relabel renames e.2)) fragments

end Merge

def Body.rename (renames : Dict String) : Body → Body
  | .raw clause => .raw (relabel renames clause)
  | .built tree => .built (tree.rename renames)

def Body.tree? : Body → Option Tree
  | .raw _ => none
  | .built tree => some tree

/-- A join of trees is a tree; where one body is only text, the whole is text. -/
def Body.join (c : Connective) (bodies : List Body) : Body :=
  match bodies.mapM Body.tree? with
  | some trees => .ofTrees c (trees.map .paren)
  | none => .raw (c.separator.intercalate (bodies.map fun b => "(" ++ b.clause ++ ")"))

def Merge.add (c : Connective) (m : Merge) (s : Statement) : Merge :=
  let (arguments, renames) := addArguments m.arguments ∅ s.arguments.entries
  ⟨arguments, addFragments c renames m.fragments s.fragments, m.bodies ++ [s.body.rename renames]⟩

/-- Empty statements contribute nothing; every other one stands in parentheses. -/
def merge (c : Connective) (statements : List Statement) : Statement :=
  let m := (statements.filter (!·.isEmpty)).foldl (Merge.add c) .empty
  ⟨.join c m.bodies, m.arguments, m.fragments⟩

end ClauseWeave
