import ClauseWeave.Command.Dotenv
import ClauseWeave.Command.Options
import ClauseWeave.Command.Verbosity
import ClauseWeave.Filter.Input
import ClauseWeave.Session

namespace ClauseWeave.Command

structure Surroundings where
  environment : List (String × String)
  read : String → Except String String

inductive Outcome where
  | printed (text : String) (warnings : List Warning)
  | misused (fault : UsageFault)
  | failed (message : String) (warnings : List Warning)

def chain (causes : List String) : String := ": ".intercalate causes

/-- A failed binding repeats its cause, which its own message already tells. -/
def Failure.causes (e : Failure) : List String :=
  match e with
  | .bind fault => [e.message, fault.message]
  | _ => [e.message]

def DocumentFault.causes (e : DocumentFault) : List String :=
  match e with
  | .conditions inner => e.message :: Failure.causes inner
  | _ => [e.message]

/-- What follows the last dot of a file's name, unless the name begins with that dot. -/
def extension? (path : String) : Option String :=
  let name := ((path.toList.splitOn '/').filter fun s => !s.isEmpty && s != ['.']).getLast?
  match name.bind (Text.cutAtLast '.') with
  | some (stem, ext) =>
    if stem.isEmpty || name = some ['.', '.'] then none else some (String.ofList ext)
  | none => none

def isYamlPath (path : String) : Bool :=
  ((extension? path).map fun ext =>
    let small := String.ofList (ext.toList.map Char.toLower)
    small == "yaml" || small == "yml").getD false

abbrev Step (α : Type) := ExceptT String (StateM (List Warning)) α

def warn (warnings : List Warning) : Step Unit := modify (· ++ warnings)

def orFail (context : List String) (causes : ε → List String) : Except ε α → Step α
  | .ok v => pure v
  | .error e => throw (chain (context ++ causes e))

def load (files : String → Except String String) (o : Overrides) (path : String) :
    Step Session := do
  let text ← orFail [] (fun reason =>
    ["Failed to read composition document " ++ path ++ ": " ++ reason, reason]) (files path)
  let document ← orFail [] DocumentFault.causes
    (if isYamlPath path then Document.ofYaml text else Document.ofJson text)
  warn ((document.settings.map Settings.warnings).getD [])
  let config ← orFail [] (fun e => [e]) (Config.resolve document.settings o)
  orFail ["Failed to prepare composer for " ++ path] DocumentFault.causes
    (Session.start document config)

def setToken (s : Session) (name text : String) : Step Session :=
  match s.setToken name fun _ => .text text with
  | some s => pure s
  | none => do
    warn [.undeclaredToken name]
    return s

def render (s : Session) (r : RenderRequest) : Step Value := do
  let s ← match r.filters with
    | none => pure s
    | some json =>
      let filters ← orFail ["Failed to parse --filters"] (fun e => [InputFault.message e])
        (Filter.parseAll json)
      orFail ["Failed to apply filters"] Failure.causes (s.narrow r.connective filters)
  let s := if r.order.isEmpty then s else s.setOrder r.order
  let s ← r.tokens.foldlM (fun s (name, text) => setToken s name text) s
  if r.named then
    let sql ← orFail ["Failed to compose subject '" ++ r.subject ++ "'"] Failure.causes
      (s.query r.subject)
    return .object [("sql", .text sql), ("arguments", .ofDict s.conditions.arguments)]
  else
    let bound ← orFail ["Failed to build subject '" ++ r.subject ++ "'"] Failure.causes
      (s.boundQuery r.subject)
    return bound.written

def inspect (s : Session) : Value :=
  let d := s.document
  .object [
    ("name", .text d.name),
    ("version", .text d.version),
    ("subjects", .ofTexts d.subjects.keys),
    ("fields", .ofTexts d.columns.keys),
    ("tokens", .ofTexts d.tokens.keys),
    ("filterPipelines", .ofDict (d.routes.map fun r =>
      .object [("type", .text r.type), ("combine", .text r.connective.word)])),
    ("defaultConditions", .text s.conditions.clause),
    ("settings", s.config.written)]

def perform (files : String → Except String String) (i : Invocation) : Step Value := do
  let s ← load files i.overrides i.doc
  match i.action with
  | .render r => render s r
  | .inspect => return inspect s

def defaultFilter : String := "warn,sqlcomposer=info"

def part : Warning → String
  | .undeclaredToken _ => "sqlcomposer::app"
  | _ => "sqlcomposer::core::config"

def filterOf (env : String → Option String) : String :=
  match env "SQLCOMPOSER_LOG" with
  | some f => f
  | none => (env "RUST_LOG").getD defaultFilter

def environment (around : Surroundings) : String → Option String :=
  let set (name : String) : Option String := around.environment.lookup name
  let defaults :=
    match around.read ".env" with
    | .ok text => Dotenv.entries set text
    | .error _ => []
  fun name =>
    match set name with
    | some v => some v
    | none => defaults.lookup name

def run (around : Surroundings) (words : List String) : Outcome :=
  let env := environment around
  match parse env words with
  | .error fault => .misused fault
  | .ok i =>
    let (result, warnings) := ((perform around.read i).run).run []
    let shown := warnings.filter fun w => Verbosity.shows (filterOf env) (part w) .warn
    match result with
    | .ok v => .printed (v.pretty ++ "\n") shown
    | .error message => .failed message shown

end ClauseWeave.Command
