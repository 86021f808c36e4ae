import ClauseWeave.Binding
import ClauseWeave.Clause.Statement
import ClauseWeave.Routing
import ClauseWeave.Template.Token

namespace ClauseWeave

def Value.ofDict (d : Dict Value) : Value := .object d.entries

def Value.ofTexts (texts : List String) : Value := .list (texts.map .text)

def Filter.written (f : Filter) : Value :=
  .object [("attr", .text f.path), ("op", .text f.operator.tag), ("val", f.value)]

def Statement.written (s : Statement) : Value :=
  .object [
    ("clause", .text s.clause),
    ("arguments", .ofDict s.arguments),
    ("clauseFragments", .ofDict (s.fragments.map .text))]

def Column.written (c : Column) : Value :=
  .object ([("name", .text c.name), ("expr", .text c.expr)]
    ++ (c.type.map fun t => ("type", Value.text t)).toList)

def BoundQuery.written (q : BoundQuery) : Value :=
  .object [("sql", .text q.sql), ("args", .list q.args)]

def OrderTerm.written (t : OrderTerm) : Value :=
  .object [("name", .text t.name), ("direction", .text t.direction.word)]

def Page.written (p : Page) : Value :=
  .object [("offset", .nat p.offset), ("size", .nat p.size)]

end ClauseWeave
