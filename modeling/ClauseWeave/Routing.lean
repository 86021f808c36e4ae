import ClauseWeave.Clause.Draft
import ClauseWeave.Clause.Merge
import ClauseWeave.Text.Shown

namespace ClauseWeave

abbrev Expander := Filter → Except Failure Statement

/-- Any of the columns may satisfy the filter. -/
def fanOut (columns : List String) : Expander := fun f =>
  if columns.isEmpty then .error (.expansion f.path "no target fields configured")
  else Statement.ofFilters .or (columns.map f.withPath)

/-- Filters on `path` go through `expander`, and the result is joined under `connective`. -/
structure Route where
  path : String
  connective : Connective
  expander : Expander

namespace Route

def find? (routes : List Route) (f : Filter) : Option Route := routes.find? (·.path = f.path)

/-- Expands the filters that have a route, in order, each in front of what there is so far. -/
def expandAll (routes : List Route) (sofar : Statement) : List Filter → Except Failure Statement
  | [] => .ok sofar
  | f :: rest =>
    match find? routes f with
    | none => expandAll routes sofar rest
    | some route =>
      match route.expander f with
      | .error e => .error e
      | .ok sub => expandAll routes (merge route.connective [sub, sofar]) rest

end Route

/-- Filters without a route form one statement; the others join it one by one. -/
def Statement.ofRouted (c : Connective) (routes : List Route) (filters : List Filter) :
    Except Failure Statement :=
  match Statement.ofFilters c (filters.filter fun f => (Route.find? routes f).isNone) with
  | .error e => .error e
  | .ok rest => Route.expandAll routes rest filters

structure Param where
  name : String
  value : Value
  deriving DecidableEq

def Param.get? (params : List Param) (name : String) : Option Value :=
  (params.find? (·.name = name)).map (·.value)

structure RouteDefinition where
  type : String
  connective : Connective
  params : List Param
  deriving DecidableEq

abbrev Factory := List Param → Except Failure Expander

def fulltext : String := "fulltext"

def Value.text? : Value → Option String
  | .text s => some s
  | _ => none

def Factory.spread : Factory := fun params =>
  match Param.get? params "fields" with
  | some (.list items) =>
    match items.mapM Value.text? with
    | some columns => .ok (fanOut columns)
    | none => .error (.badParams fulltext .columnNotText)
  | _ => .error (.badParams fulltext .columnsNotList)

abbrev Registry := Dict Factory

namespace Registry

def builtin : Registry := (∅ : Dict Factory).insert fulltext Factory.spread

def register (r : Registry) (type : String) (factory : Factory) : Except Failure Registry :=
  if r.contains type then .error (.typeTaken type) else .ok (r.insert type factory)

def route (r : Registry) (path : String) (d : RouteDefinition) : Except Failure Route :=
  match r.get? d.type with
  | none => .error (.unknownType d.type)
  | some factory => (factory d.params).map fun expander => ⟨path, d.connective, expander⟩

def describe (r : Registry) : String :=
  "ExpanderRegistry \x7b types: [" ++ ", ".intercalate (r.keys.map Text.shown) ++ "] \x7d"

end Registry

end ClauseWeave
