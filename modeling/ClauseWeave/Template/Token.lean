import ClauseWeave.Clause.Projection
import ClauseWeave.Dict
import ClauseWeave.Text.Shown

namespace ClauseWeave

inductive Token where
  | text (s : String)
  | replace (rendered : String)
  | projected (rendered : String) (withParams : (params name : String) → String)

abbrev Tokens := Dict Token

namespace Token

def kind : Token → String
  | text _ => "text"
  | replace _ => "replace"
  | projected _ _ => "parameterized"

def describe : Token → String
  | text s => "Text(" ++ Text.shown s ++ ")"
  | replace _ => "Replace(..)"
  | projected _ _ => "Parameterized(..)"

end Token

def Statement.token (s : Statement) : Token := .projected s.renderWhere s.renderFor

structure Page where
  offset : Nat
  size : Nat
  deriving DecidableEq, Repr

namespace Page

def defaultSize : Nat := 10

def first : Page := ⟨0, defaultSize⟩

def render (p : Page) : String := "LIMIT " ++ toString p.offset ++ ", " ++ toString p.size

end Page

def OrderTerm.render (t : OrderTerm) : String := t.name ++ " " ++ t.direction.word

def renderOrder (terms : List OrderTerm) : String :=
  if terms.isEmpty then "" else "ORDER BY " ++ ", ".intercalate (terms.map OrderTerm.render)

structure Column where
  name : String
  expr : String
  type : Option String
  deriving DecidableEq, Repr

def Column.render (c : Column) : String := c.expr ++ " AS " ++ c.name

def renderColumns (columns : List Column) : String := ", ".intercalate (columns.map Column.render)

end ClauseWeave
