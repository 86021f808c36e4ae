import ClauseWeave.Template.Token
import ClauseWeave.Text.LetterCase

namespace ClauseWeave

inductive Dialect where
  | sqlite | mysql | postgres | duckdb
  deriving DecidableEq, Repr, Inhabited

namespace Dialect

def all : List Dialect := [sqlite, mysql, postgres, duckdb]

def name : Dialect → String
  | sqlite => "sqlite"
  | mysql => "mysql"
  | postgres => "postgres"
  | duckdb => "duckdb"

def ofName? (s : String) : Option Dialect := all.find? (·.name = s)

/-- Typed by hand, a name may be in any letter case, and `postgresql` is understood. -/
def parse (s : String) : Except String Dialect :=
  let small := Text.lowercase s
  match ofName? (if small = "postgresql" then "postgres" else small) with
  | some d => .ok d
  | none =>
    .error ("unknown dialect '" ++ small ++ "', expected sqlite, mysql, postgres or duckdb")

/-- The slot of the argument at `index`, which counts from one. -/
def slot (d : Dialect) (index : Nat) : String :=
  match d with
  | postgres => "$" ++ toString index
  | _ => "?"

def page (d : Dialect) (p : Page) : String :=
  match d with
  | sqlite | mysql => "LIMIT " ++ toString p.offset ++ ", " ++ toString p.size
  | postgres | duckdb => "LIMIT " ++ toString p.size ++ " OFFSET " ++ toString p.offset

end Dialect

end ClauseWeave
