import ClauseWeave.Source.Reading

namespace ClauseWeave

inductive InputFault where
  | tooLarge
  | notFilters
  | tooMany
  | badPath (path : String)
  deriving DecidableEq, Repr

namespace InputFault

def greatestSize : Nat := 65536

def greatestCount : Nat := 50

def message : InputFault → String
  | tooLarge => "Filter JSON exceeds maximum size of " ++ toString greatestSize ++ " bytes"
  | notFilters => "Invalid filter JSON"
  | tooMany => "Maximum " ++ toString greatestCount ++ " filters allowed"
  | badPath path => "Invalid filter attribute `" ++ path ++ "`"

end InputFault

/-- Names of word characters, separated by dots. -/
def isPath (s : String) : Bool :=
  (s.toList.splitOn '.').all fun part => !part.isEmpty && part.all Text.isWord

/-- The size is looked at first, then the form, the number of filters, and their paths in order. -/
def Filter.parseAll (json : String) : Except InputFault (List Filter) :=
  if InputFault.greatestSize < json.utf8ByteSize then .error .tooLarge
  else
    match (Json.parse json).bind (Format.listOf Filter.read?) with
    | none => .error .notFilters
    | some filters =>
      if InputFault.greatestCount < filters.length then .error .tooMany
      else
        match filters.find? fun f => !isPath f.path with
        | some f => .error (.badPath f.path)
        | none => .ok filters

end ClauseWeave
