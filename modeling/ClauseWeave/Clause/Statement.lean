import ClauseWeave.Clause.Tree

namespace ClauseWeave

/-- A clause is given as text, or built as a tree that determines its text. -/
inductive Body where
  | raw (clause : String)
  | built (tree : Tree)

def Body.clause : Body → String
  | raw clause => clause
  | built tree => tree.render

def Body.ofTrees (c : Connective) : List Tree → Body
  | [] => .raw ""
  | trees => .built (.join c trees)

structure Statement where
  body : Body
  arguments : Dict Value
  fragments : Dict String

namespace Statement

def ofParts (clause : String) (arguments : Dict Value) (fragments : Dict String) : Statement :=
  ⟨.raw clause, arguments, fragments⟩

def clause (s : Statement) : String := s.body.clause

def isEmpty (s : Statement) : Bool := s.clause.isEmpty

def empty : Statement := ofParts "" ∅ ∅

instance : Inhabited Statement := ⟨empty⟩

def fragment? (s : Statement) (key : String) : Option String := s.fragments.get? key

def flat (s : Statement) : Statement := ofParts s.clause s.arguments s.fragments

end Statement

end ClauseWeave
