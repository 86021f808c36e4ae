import ClauseWeave.Clause.Piece
import ClauseWeave.Dialect
import ClauseWeave.Failure

namespace ClauseWeave

structure BoundQuery where
  sql : String
  args : List Value

namespace BoundQuery

def slots (d : Dialect) (bound : Nat) (count : Nat) : String :=
  ", ".intercalate ((List.range count).map fun i => d.slot (bound + i + 1))

/-- The values that a marker binds: a list one for each of its items, any other value itself. -/
def valuesOf (arguments : Dict Value) (name : String) : Except BindFault (List Value) :=
  match arguments.get? name with
  | none => .error (.missing name)
  | some (.list []) => .error (.emptyList name)
  | some (.list items) => .ok items
  | some v => .ok [v]

def fill (d : Dialect) (arguments : Dict Value) (bound : Nat) :
    List Piece → Except BindFault (List Char × List Value)
  | [] => .ok ([], [])
  | .marker name :: rest =>
    match valuesOf arguments (String.ofList name) with
    | .error e => .error e
    | .ok vs =>
      (fill d arguments (bound + vs.length) rest).map fun (sql, args) =>
        ((slots d bound vs.length).toList ++ sql, vs ++ args)
  | p :: rest => (fill d arguments bound rest).map fun (sql, args) => (p.chars ++ sql, args)

end BoundQuery

/-- The first marker that cannot be bound decides the failure. -/
def bind (d : Dialect) (sql : String) (arguments : Dict Value) : Except BindFault BoundQuery :=
  (BoundQuery.fill d arguments 0 (Piece.pieces .narrow sql.toList)).map fun (sql, args) =>
    ⟨String.ofList sql, args⟩

end ClauseWeave
