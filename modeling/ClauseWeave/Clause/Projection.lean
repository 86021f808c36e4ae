import ClauseWeave.Clause.Removal
import ClauseWeave.Clause.Statement

namespace ClauseWeave

inductive Projection where
  | all
  | only (keys : List String)
  | except (keys : List String)
  deriving DecidableEq, Repr

namespace Projection

def keyList (s : List Char) : List String :=
  (((s.splitOn ',').map Text.trim).filter (!·.isEmpty)).map String.ofList

/-- `*` shows everything, `!a,b` hides the listed keys, `a,b` shows only them. -/
def parse (params : String) : Projection :=
  match params.toList with
  | '!' :: rest => .except (keyList rest)
  | s => if Text.trim s = ['*'] then .all else .only (keyList s)

def ascending (names : List String) : List String :=
  (Dict.ofList (names.map fun k => (k, ()))).keys

/-- The keys to leave out, ascending. A list without keys shows everything. -/
def dropped (p : Projection) (fragmentKeys : List String) : List String :=
  match p with
  | .all => []
  | .only [] => []
  | .except keys => ascending keys
  | .only keys => ascending (fragmentKeys.filter (· ∉ keys))

end Projection

namespace Statement

def project (s : Statement) (p : Projection) : String :=
  let dropped := p.dropped s.fragments.keys
  if dropped.isEmpty then s.clause
  else
    match s.body with
    | .built tree => ((tree.retain (· ∉ dropped)).map Tree.render).getD ""
    | .raw clause =>
      let texts := (dropped.filterMap s.fragment?).map String.toList
      String.ofList (Removal.removeAll clause.toList texts)

/-- The token `having` writes its own keyword, in any letter case; every other one `WHERE`. -/
def keyword (token : String) : String :=
  if token.toList.map Char.toLower = ['h', 'a', 'v', 'i', 'n', 'g'] then "HAVING" else "WHERE"

def withKeyword (keyword clause : String) : String :=
  if clause.isEmpty then "" else keyword ++ " " ++ clause

def renderFor (s : Statement) (params token : String) : String :=
  if s.isEmpty then "" else withKeyword (keyword token) (s.project (.parse params))

def renderWhere (s : Statement) : String := withKeyword "WHERE" s.clause

end Statement

end ClauseWeave
