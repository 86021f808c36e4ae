import ClauseWeave.Filter.Basic
import ClauseWeave.Value.Printer

namespace ClauseWeave

inductive ValueFault where
  | notText
  | notList
  | notPair
  | pairLength (n : Nat)
  | badBound (v : Value)
  deriving DecidableEq

def ValueFault.message : ValueFault → String
  | notText => "like operator value must be text"
  | notList => "set membership value must be a collection"
  | notPair => "between operator value must be a pair"
  | pairLength n => "between operator requires two values, got " ++ toString n
  | badBound v => "between bound must be integer, float or text, got " ++ v.compact

inductive ParamFault where
  | columnsNotList
  | columnNotText
  deriving DecidableEq

def ParamFault.message : ParamFault → String
  | columnsNotList => "`fields` must be a list of column names"
  | columnNotText => "`fields` entries must be text"

inductive BindFault where
  | missing (name : String)
  | emptyList (name : String)
  deriving DecidableEq

def BindFault.message : BindFault → String
  | missing name => "Argument `" ++ name ++ "` referenced in query is not bound"
  | emptyList name => "Argument `" ++ name ++ "` is an empty collection"

inductive Failure where
  | badValue (path : String) (operator : Operator) (fault : ValueFault)
  | undefinedToken (name : String)
  | paramsNotSupported (placeholder : String)
  | unknownType (type : String)
  | typeTaken (type : String)
  | badParams (type : String) (fault : ParamFault)
  | expansion (path : String) (reason : String)
  | passLimit (limit : Nat)
  | unknownSubject (key : String)
  | bind (fault : BindFault)
  deriving DecidableEq

def Failure.message : Failure → String
  | badValue path op fault =>
    "Invalid value for `" ++ path ++ "` (" ++ op.tag ++ "): " ++ fault.message
  | undefinedToken name => "Placeholder " ++ name ++ " not defined in context"
  | paramsNotSupported placeholder =>
    "Placeholder " ++ placeholder ++ " in context must support parameterized replace"
  | unknownType type => "Pipeline type `" ++ type ++ "` is not registered"
  | typeTaken type => "Pipeline type `" ++ type ++ "` is already registered"
  | badParams type fault => "Invalid params for pipeline type `" ++ type ++ "`: " ++ fault.message
  | expansion path reason => "Expansion of `" ++ path ++ "` failed: " ++ reason
  | passLimit limit => "Template expansion exceeded " ++ toString limit ++ " passes"
  | unknownSubject key => "Subject `" ++ key ++ "` does not exist in composition document"
  | bind fault => "Parameter binding failed: " ++ fault.message

end ClauseWeave
