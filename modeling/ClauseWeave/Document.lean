import ClauseWeave.Settings
import ClauseWeave.Source.Yaml.Meaning

namespace ClauseWeave

structure TokenParam where
  name : String
  value : String
  deriving DecidableEq, Repr

structure Document where
  name : String
  version : String
  columns : Dict (List Column)
  tokens : Dict (List TokenParam)
  routes : Dict RouteDefinition
  defaultConditions : List Filter
  subjects : Dict String
  settings : Option Settings

inductive DocumentFault where
  | notJson
  | notYaml
  | conditions (e : Failure)
  deriving DecidableEq

def DocumentFault.message : DocumentFault → String
  | notJson => "Failed to parse composition document"
  | notYaml => "Failed to parse YAML composition document"
  | conditions e => "Invalid default conditions: " ++ e.message

open Format

variable {N : Type} [Format N]

def TokenParam.read? (n : N) : Option TokenParam := do
  let fields ← fields? ["name", "value"] n
  let name ← required fields "name" text?
  let value ← defaulted fields "value" "" text?
  return ⟨name, value⟩

namespace Document

def readToken? (n : N) : Option (List TokenParam) := do
  let fields ← fields? ["params"] n
  defaulted fields "params" [] (listOf TokenParam.read?)

def readInfo? (n : N) : Option (String × String) := do
  let fields ← fields? ["name", "version"] n
  let name ← defaulted fields "name" "" text?
  let version ← defaulted fields "version" "" text?
  return (name, version)

def readComposition? (n : N) : Option Document := do
  let fields ← fields? ["fields", "tokens", "filterPipelines", "defaultConditions", "subject"] n
  let columns ← defaulted fields "fields" ∅ (dictOf (listOf Column.read?))
  let tokens ← defaulted fields "tokens" ∅ (dictOf readToken?)
  let routes ← defaulted fields "filterPipelines" ∅ (dictOf RouteDefinition.read?)
  let defaultConditions ← defaulted fields "defaultConditions" [] (listOf Filter.read?)
  let subjects ← defaulted fields "subject" ∅ (dictOf text?)
  return { name := "", version := "", columns, tokens, routes, defaultConditions, subjects,
           settings := none }

def read? (n : N) : Option Document := do
  let fields ← fields? ["info", "composition", "settings"] n
  let (name, version) ← defaulted fields "info" ("", "") readInfo?
  let body ← required fields "composition" readComposition?
  let settings ← optional fields "settings" Settings.read?
  return { body with name, version, settings }

def ofJson (s : String) : Except DocumentFault Document :=
  match (Json.parse s).bind read? with
  | some d => .ok d
  | none => .error .notJson

def ofYaml (s : String) : Except DocumentFault Document :=
  match (Yaml.parse s).bind read? with
  | some d => .ok d
  | none => .error .notYaml

end Document

end ClauseWeave
