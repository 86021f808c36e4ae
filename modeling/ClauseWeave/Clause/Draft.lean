import ClauseWeave.Clause.Statement
import ClauseWeave.Failure
import ClauseWeave.Name

namespace ClauseWeave

structure Draft where
  arguments : Dict Value
  fragments : Dict String
  leaves : List Tree

namespace Draft

def empty : Draft := ⟨∅, ∅, []⟩

def taken (d : Draft) : List String := d.arguments.keys ++ d.fragments.keys

def setArgument (d : Draft) (name : String) (v : Value) : Draft :=
  { d with arguments := d.arguments.insert name v }

def addFragment (d : Draft) (key text : String) : Draft :=
  { d with
    fragments := d.fragments.insert key text
    leaves := d.leaves ++ [.leaf key text] }

end Draft

def TextMatch.pattern (m : TextMatch) (s : String) : String :=
  match m with
  | .atStart => s ++ "%"
  | .anywhere => "%" ++ s ++ "%"
  | .atEnd => "%" ++ s

def Value.isBound : Value → Bool
  | .number _ => true
  | .text _ => true
  | _ => false

/-- The ends of a range; the lower one is examined first. -/
def Value.range? (v : Value) : Except ValueFault (Value × Value) :=
  match v with
  | .list [low, high] =>
    if !low.isBound then .error (.badBound low)
    else if !high.isBound then .error (.badBound high)
    else .ok (low, high)
  | .list items => .error (.pairLength items.length)
  | _ => .error .notPair

def Draft.addRange (d : Draft) (key path : String) (negated : Bool) (low high : Value) : Draft :=
  let lowName := Name.fresh (key ++ "_1") (key :: d.taken)
  let d := d.setArgument lowName low
  let highName := Name.fresh (key ++ "_2") (key :: d.taken)
  let d := d.setArgument highName high
  let (first, second) := if negated then (" <= :", " >= :") else (" >= :", " <= :")
  d.addFragment key (path ++ first ++ lowName ++ " AND " ++ path ++ second ++ highName)

def Draft.add (d : Draft) (f : Filter) : Except Failure Draft :=
  let key := Name.fresh (Name.ofPath f.path) d.taken
  match f.operator with
  | .compare c =>
    .ok ((d.setArgument key f.value).addFragment key (f.path ++ " " ++ c.sign ++ " :" ++ key))
  | .like m =>
    match f.value with
    | .text s =>
      .ok ((d.setArgument key (.text (m.pattern s))).addFragment key (f.path ++ " LIKE :" ++ key))
    | _ => .error (.badValue f.path f.operator .notText)
  | .among negated =>
    if f.value.isList then
      let opening := if negated then " NOT IN(:" else " IN(:"
      .ok ((d.setArgument key f.value).addFragment key (f.path ++ opening ++ key ++ ")"))
    else .error (.badValue f.path f.operator .notList)
  | .between negated =>
    match f.value.range? with
    | .ok (low, high) => .ok (d.addRange key f.path negated low high)
    | .error fault => .error (.badValue f.path f.operator fault)
  | .null negated =>
    .ok (d.addFragment key (f.path ++ if negated then " IS NOT NULL" else " IS NULL"))

def Draft.addAll (d : Draft) : List Filter → Except Failure Draft
  | [] => .ok d
  | f :: rest =>
    match d.add f with
    | .ok d => d.addAll rest
    | .error e => .error e

def Draft.finish (d : Draft) (c : Connective) : Statement :=
  ⟨.ofTrees c d.leaves, d.arguments, d.fragments⟩

/-- All filters, joined by one connective. The first filter with a value that does not suit its
operator decides the failure. -/
def Statement.ofFilters (c : Connective) (filters : List Filter) : Except Failure Statement :=
  (Draft.empty.addAll filters).map (·.finish c)

end ClauseWeave
