import ClauseWeave.Text.Cut
import ClauseWeave.Text.Word

namespace ClauseWeave.Dotenv

inductive Quoting where
  | plain | escape | strong | strongEscape | weak | weakEscape | blank
  deriving DecidableEq

def Quoting.next (q : Quoting) (c : Char) : Quoting :=
  let opened : Quoting :=
    if c == '\\' then .escape
    else if c == '"' then .weak
    else if c == '\'' then .strong
    else .plain
  match q with
  | blank => opened
  | escape => .plain
  | plain => if Text.isBlank c && c != '\n' && c != '\r' then .blank else opened
  | weak => if c == '\\' then .weakEscape else if c == '"' then .plain else .weak
  | weakEscape => .weak
  | strong => if c == '\\' then .strongEscape else if c == '\'' then .plain else .strong
  | strongEscape => .strong

def Quoting.across (q : Quoting) : List Char → Quoting ⊕ List Char
  | [] => .inl q
  | c :: rest =>
    if q = .blank && c == '#' then .inr []
    else
      match (q.next c).across rest with
      | .inl q => .inl q
      | .inr front => .inr (c :: front)

def physicalLines (s : List Char) : List (List Char) :=
  match s with
  | [] => []
  | c :: rest =>
    match physicalLines rest with
    | [] => [[c]]
    | line :: lines => if c = '\n' then [c] :: line :: lines else (c :: line) :: lines

def withoutEnd (line : List Char) : List Char :=
  match line.reverse with
  | '\n' :: '\r' :: rest => rest.reverse
  | '\n' :: rest => rest.reverse
  | _ => line

/-- A line goes on while a quote is open; `none` ends the lines where one is never closed. -/
def logicalLines (sofar : List Char) (q : Quoting) : List (List Char) → List (Option (List Char))
  | [] => if q = .plain then [] else [none]
  | line :: lines =>
    let text := sofar ++ line
    if (Text.trimStart text).head? = some '#' then some [] :: logicalLines [] .plain lines
    else
      match q.across line with
      | .inr front => some (sofar ++ front) :: logicalLines [] .plain lines
      | .inl .plain => some (withoutEnd text) :: logicalLines [] .plain lines
      | .inl q => logicalLines text q lines

inductive Reference where
  | none
  | bare (name : List Char)
  | braced (name : List Char)

structure Reader where
  output : List Char
  quote : Option Char
  escaped : Bool
  reference : Reference
  ended : Bool

def Reader.start : Reader := ⟨[], .none, false, .none, false⟩

def Reader.push (r : Reader) (c : Char) : Reader := { r with output := r.output ++ [c] }

def Reader.refer (r : Reader) (look : String → String) (name : List Char) : Reader :=
  { r with
    output := r.output ++ (look (String.ofList name)).toList
    reference := .none }

def isAlphanumeric (c : Char) : Bool := Text.isAlphabetic c || Text.isNumeric c

def Reader.step? (look : String → String) (r : Reader) (c : Char) : Option Reader :=
  if r.ended then if c == ' ' || c == '\t' then some r else none
  else if r.escaped then
    let r := { r with escaped := false }
    if c == 'n' then some (r.push '\n')
    else if c == '\\' || c == '\'' || c == '"' || c == '$' || c == ' ' then some (r.push c)
    else none
  else if r.quote = some '\'' then
    if c == '\'' then some { r with quote := .none } else some (r.push c)
  else
    match r.reference with
    | .bare name =>
      if isAlphanumeric c then some { r with reference := .bare (name ++ [c]) }
      else if c == '\x7b' && name.isEmpty then some { r with reference := .braced [] }
      else
        let r := r.refer look name
        if c == '$' then some { r with reference := .bare [] } else some (r.push c)
    | .braced name =>
      if c == '\x7d' then some (r.refer look name)
      else some { r with reference := .braced (name ++ [c]) }
    | .none =>
      if c == '$' then some { r with reference := .bare [] }
      else if c == '\\' then some { r with escaped := true }
      else if r.quote = some '"' then
        if c == '"' then some { r with quote := .none } else some (r.push c)
      else if c == '\'' || c == '"' then some { r with quote := some c }
      else if c == ' ' || c == '\t' then some { r with ended := true }
      else some (r.push c)

def Reader.finish? (look : String → String) (r : Reader) : Option (List Char) :=
  match r.quote, r.reference with
  | some _, _ => none
  | .none, .braced _ => none
  | .none, .bare name => some (r.refer look name).output
  | .none, .none => some r.output

def Reader.run? (look : String → String) (r : Reader) : List Char → Option (List Char)
  | [] => r.finish? look
  | c :: rest =>
    if r.ended && c == '#' then r.finish? look
    else
      match r.step? look c with
      | some r => r.run? look rest
      | none => none

def isKeyChar (c : Char) : Bool := Text.isAsciiWord c || c == '.'

def key? (s : List Char) : Option (String × List Char) :=
  match s with
  | c :: _ =>
    if c.isAlpha || c == '_' then
      some (String.ofList (s.takeWhile isKeyChar), Text.trimStart (s.dropWhile isKeyChar))
    else none
  | [] => none

def entry? (line : List Char) : Option (Option (String × List Char)) :=
  let line := Text.trimStart line
  if line.isEmpty || line.head? = some '#' then some none
  else do
    let (key, rest) ← key? line
    match rest with
    | '=' :: value => return some (key, Text.trimStart value)
    | _ =>
      if key = "export" then
        let (key, rest) ← key? rest
        match rest with
        | '=' :: value => return some (key, Text.trimStart value)
        | _ => none
      else none

/-- References see the variables that are set, then those that the file gave. Reading ends at the
first line that is not understood; what came before it counts. -/
def readLines (env : String → Option String) (found : List (String × String)) :
    List (Option (List Char)) → List (String × String)
  | [] => found
  | none :: _ => found
  | some line :: lines =>
    match entry? line with
    | none => found
    | some none => readLines env found lines
    | some (some (key, value)) =>
      let look (name : String) : String :=
        match env name with
        | some v => v
        | none => (found.lookup name).getD ""
      let value? :=
        if value.isEmpty || value.head? = some '#' then some []
        else Reader.start.run? look value
      match value? with
      | none => found
      | some v =>
        let v := String.ofList v
        readLines env (found ++ [(key, v)]) lines

/-- The variables that a file sets, in its order; of two of one name the first counts. -/
def entries (env : String → Option String) (text : String) : List (String × String) :=
  let s :=
    match text.toList with
    | '\uFEFF' :: rest => rest
    | s => s
  readLines env [] (logicalLines [] .plain (physicalLines s))

end ClauseWeave.Dotenv
