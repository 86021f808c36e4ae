import ClauseWeave.Binding
import ClauseWeave.Document

namespace ClauseWeave

structure Session where
  document : Document
  config : Config
  conditions : Statement
  page : Page
  order : Option (List OrderTerm)
  tokens : Dict Token
  registry : Registry

namespace Session

/-- A session starts with the document's default conditions, all of which hold. -/
def start (document : Document) (config : Config) : Except DocumentFault Session :=
  match Statement.ofFilters .and document.defaultConditions with
  | .error e => .error (.conditions e)
  | .ok conditions => .ok ⟨document, config, conditions, config.page, none, ∅, .builtin⟩

/-- Binds a declared token, built from its declared parameters; `none` if it is not declared. -/
def setToken (s : Session) (name : String) (make : List TokenParam → Token) :
    Option Session :=
  (s.document.tokens.get? name).map fun params =>
    { s with tokens := s.tokens.insert name (make params) }

def addType (s : Session) (type : String) (factory : Factory) : Except Failure Session :=
  (s.registry.register type factory).map fun registry => { s with registry }

def joinConditions (s : Session) (c : Connective) (added : Statement) : Session :=
  { s with conditions := merge c [s.conditions, added] }

def setConditions (s : Session) (conditions : Statement) : Session := { s with conditions }

def routesFor (s : Session) (filters : List Filter) : Except Failure (List Route) :=
  (s.document.routes.entries.filter fun e => filters.any (·.path = e.1)).mapM fun e =>
    s.registry.route e.1 e.2

/-- The filters, through their routes, joined to the conditions with `AND`. -/
def narrow (s : Session) (c : Connective) (filters : List Filter) : Except Failure Session :=
  match s.routesFor filters with
  | .error e => .error e
  | .ok routes =>
    match Statement.ofRouted c routes filters with
    | .error e => .error e
    | .ok added => .ok (s.joinConditions .and added)

def setPage (s : Session) (page : Page) : Session := { s with page }

def setOrder (s : Session) (terms : List OrderTerm) : Session := { s with order := some terms }

/-- The built-in tokens, then those registered, which may take the name of a built-in one. -/
def context (s : Session) : Tokens :=
  let builtin : Tokens := (((∅ : Dict Token).insert "where" s.conditions.token).insert "having"
    s.conditions.token).insert "limit" (.text (s.config.dialect.page s.page))
  let ordered :=
    match s.order with
    | some terms => builtin.insert "order_by" (.replace (renderOrder terms))
    | none => builtin
  let columned := s.document.columns.entries.foldl
    (fun ts e => ts.insert ("fields." ++ e.1) (.replace (renderColumns e.2))) ordered
  s.tokens.entries.foldl (fun ts e => ts.insert e.1 e.2) columned

def query (s : Session) (key : String) : Except Failure String :=
  match s.document.subjects.get? key with
  | none => .error (.unknownSubject key)
  | some template => render s.context s.config.passes template

def boundQuery (s : Session) (key : String) : Except Failure BoundQuery :=
  match s.query key with
  | .error e => .error e
  | .ok sql => (bind s.config.dialect sql s.conditions.arguments).mapError .bind

end Session

end ClauseWeave
