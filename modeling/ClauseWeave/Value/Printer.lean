import ClauseWeave.Decimal.Shortest
import ClauseWeave.Value.Basic

namespace ClauseWeave

def Number.print : Number → String
  | .whole n => toString n
  | .float x => x.text

namespace Value

def hexDigit (n : Nat) : Char := if n < 10 then Char.ofNat (48 + n) else Char.ofNat (87 + n)

/-- Only quotes, backslashes and control characters are escaped. -/
def escapeChar (c : Char) : List Char :=
  match c with
  | '"' => ['\\', '"']
  | '\\' => ['\\', '\\']
  | '\n' => ['\\', 'n']
  | '\r' => ['\\', 'r']
  | '\t' => ['\\', 't']
  | '\x08' => ['\\', 'b']
  | '\x0C' => ['\\', 'f']
  | c =>
    if c.toNat < 32 then ['\\', 'u', '0', '0', hexDigit (c.toNat / 16), hexDigit (c.toNat % 16)]
    else [c]

def quote (s : String) : String :=
  "\"" ++ String.ofList (s.toList.flatMap escapeChar) ++ "\""

def commaSeparated (parts : List String) : String := ",".intercalate parts

mutual

def compact : Value → String
  | .null => "null"
  | .bool b => if b then "true" else "false"
  | .number n => n.print
  | .text s => quote s
  | .list items => "[" ++ commaSeparated (compactItems items) ++ "]"
  | .object members => "\x7b" ++ commaSeparated (compactMembers members) ++ "\x7d"

def compactItems : List Value → List String
  | [] => []
  | v :: rest => compact v :: compactItems rest

def compactMembers : List (String × Value) → List String
  | [] => []
  | (k, v) :: rest => (quote k ++ ":" ++ compact v) :: compactMembers rest

end

def newline (indent : Nat) : String := "\n" ++ String.ofList (List.replicate (2 * indent) ' ')

def bracketed (indent : Nat) (left right : String) (parts : List String) : String :=
  if parts.isEmpty then left ++ right
  else
    left ++ newline (indent + 1) ++ ("," ++ newline (indent + 1)).intercalate parts
      ++ newline indent ++ right

mutual

def spread (indent : Nat) : Value → String
  | .list items => bracketed indent "[" "]" (spreadItems (indent + 1) items)
  | .object members => bracketed indent "\x7b" "\x7d" (spreadMembers (indent + 1) members)
  | .null => "null"
  | .bool b => if b then "true" else "false"
  | .number n => n.print
  | .text s => quote s

def spreadItems (indent : Nat) : List Value → List String
  | [] => []
  | v :: rest => spread indent v :: spreadItems indent rest

def spreadMembers (indent : Nat) : List (String × Value) → List String
  | [] => []
  | (k, v) :: rest => (quote k ++ ": " ++ spread indent v) :: spreadMembers indent rest

end

def pretty (v : Value) : String := spread 0 v

end Value

end ClauseWeave
