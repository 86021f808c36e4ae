import ClauseWeave.Clause.Statement
import ClauseWeave.Dialect
import ClauseWeave.Routing
import ClauseWeave.Source.Json

namespace ClauseWeave

open Format

variable {N : Type} [Format N]

def Filter.read? (n : N) : Option Filter := do
  let fields ← fields? ["attr", "op", "val"] n
  let path ← required fields "attr" text?
  let operator ← required fields "op" (tagOf Operator.ofTag?)
  let value ← defaulted fields "val" .null value?
  return ⟨path, operator, value⟩

def OrderTerm.read? (n : N) : Option OrderTerm := do
  let fields ← fields? ["name", "direction"] n
  let name ← required fields "name" text?
  let direction ← defaulted fields "direction" .ascending (tagOf Direction.ofTag?)
  return ⟨name, direction⟩

def Page.read? (n : N) : Option Page := do
  let fields ← fields? ["offset", "size"] n
  let offset ← defaulted fields "offset" 0 nat?
  let size ← defaulted fields "size" Page.defaultSize nat?
  return ⟨offset, size⟩

def Column.read? (n : N) : Option Column := do
  let fields ← fields? ["name", "expr", "type"] n
  let name ← required fields "name" text?
  let expr ← required fields "expr" text?
  let type ← optional fields "type" text?
  return ⟨name, expr, type⟩

def Param.read? (n : N) : Option Param := do
  let fields ← fields? ["name", "value"] n
  let name ← required fields "name" text?
  let value ← defaulted fields "value" .null value?
  return ⟨name, value⟩

def RouteDefinition.read? (n : N) : Option RouteDefinition := do
  let fields ← fields? ["type", "combine", "params"] n
  let type ← required fields "type" text?
  let connective ← defaulted fields "combine" .and (tagOf Connective.ofTag?)
  let params ← defaulted fields "params" [] (listOf Param.read?)
  return ⟨type, connective, params⟩

/-- A stored statement has no tree. -/
def Statement.read? (n : N) : Option Statement := do
  let fields ← fields? ["clause", "arguments", "clauseFragments"] n
  let clause ← required fields "clause" text?
  let arguments ← defaulted fields "arguments" ∅ (dictOf value?)
  let fragments ← defaulted fields "clauseFragments" ∅ (dictOf text?)
  return .ofParts clause arguments fragments

end ClauseWeave
