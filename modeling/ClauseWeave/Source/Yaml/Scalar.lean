import ClauseWeave.Source.Yaml.Cursor

namespace ClauseWeave.Yaml

inductive Style where
  | plain | quoted | literal | folded
  deriving DecidableEq, Repr

structure Gap where
  blanks : List Char
  first : List Char
  later : List Char
  broken : Bool

namespace Gap

def empty : Gap := ⟨[], [], [], false⟩

/-- Within a line blanks stay; a line end is a space, or as many line ends as there are more. -/
def fold (g : Gap) : List Char :=
  if !g.broken then g.blanks
  else if g.first == ['\n'] then (if g.later.isEmpty then [' '] else g.later)
  else g.first ++ g.later

/-- Tabs do not indent: in front of column `indent` they are refused on a new line. -/
def take? (indent : Nat) : Nat → Gap → Cursor → Option (Gap × Cursor)
  | 0, g, c => some (g, c)
  | fuel + 1, g, c =>
    match c.head? with
    | none => some (g, c)
    | some ch =>
      if isBlank ch then
        if g.broken then
          if ch == '\t' && c.column < indent then none else take? indent fuel g (c.skip 1)
        else take? indent fuel { g with blanks := g.blanks ++ [ch] } (c.skip 1)
      else if isBreak ch then
        let (b, c) := c.takeBreak
        if g.broken then take? indent fuel { g with later := g.later ++ b } c
        else take? indent fuel { g with blanks := [], first := b, broken := true } c
      else some (g, c)

end Gap

def isFlowMark (c : Char) : Bool := c == ',' || c == '[' || c == ']' || c == '\x7b' || c == '\x7d'

def plainRun? (flow : Bool) : List Char → Option (List Char × List Char)
  | [] => some ([], [])
  | c :: rest =>
    if isGap c then some ([], c :: rest)
    else if flow && c == ':' && (rest.head?.map fun d => isFlowMark d || d == '?').getD false then
      none
    else if c == ':' && gapBefore rest then some ([], c :: rest)
    else if flow && isFlowMark c then some ([], c :: rest)
    else (plainRun? flow rest).map fun (run, after) => (c :: run, after)

/-- A plain scalar, and whether a line end follows it. Outside brackets, lines that go on with it
are indented by at least `indent`. -/
def plainScalar? (flow : Bool) (indent : Nat) :
    Nat → List Char → Gap → Cursor → Option (List Char × Bool × Cursor)
  | 0, text, g, c => some (text, g.broken, c)
  | fuel + 1, text, g, c =>
    if c.atDocumentMark || c.head? == some '#' then some (text, g.broken, c)
    else
      match plainRun? flow c.rest with
      | none => none
      | some (run, after) =>
        let text := if run.isEmpty then text else text ++ g.fold ++ run
        let g := if run.isEmpty then g else .empty
        let c := c.moveTo after
        if !c.startsWith isGap then some (text, g.broken, c)
        else
          match Gap.take? indent (c.rest.length + 1) g c with
          | none => none
          | some (g, c) =>
            if !flow && c.column < indent then some (text, g.broken, c)
            else plainScalar? flow indent fuel text g c

def hexDigit? (c : Char) : Option Nat :=
  if '0' ≤ c ∧ c ≤ '9' then some (c.toNat - 48)
  else if 'a' ≤ c ∧ c ≤ 'f' then some (c.toNat - 87)
  else if 'A' ≤ c ∧ c ≤ 'F' then some (c.toNat - 55)
  else none

def hexValue? (digits : List Char) : Option Nat :=
  (digits.mapM hexDigit?).map (·.foldl (fun n d => n * 16 + d) 0)

def codePoint? (count : Nat) (digits : List Char) : Option Char :=
  if digits.length = count then
    (hexValue? digits).bind fun n =>
      if (0xD800 ≤ n && n ≤ 0xDFFF) || 0x10FFFF < n then none else some (Char.ofNat n)
  else none

def simpleEscape? : Char → Option Char
  | '0' => some '\x00'
  | 'a' => some '\x07'
  | 'b' => some '\x08'
  | 't' => some '\t'
  | '\t' => some '\t'
  | 'n' => some '\n'
  | 'v' => some '\x0B'
  | 'f' => some '\x0C'
  | 'r' => some '\r'
  | 'e' => some '\x1B'
  | ' ' => some ' '
  | '"' => some '"'
  | '/' => some '/'
  | '\\' => some '\\'
  | 'N' => some '\x85'
  | '_' => some '\xA0'
  | 'L' => some '\u2028'
  | 'P' => some '\u2029'
  | _ => none

def escapeLength : Char → Nat
  | 'x' => 2
  | 'u' => 4
  | 'U' => 8
  | _ => 0

def quotedRun? (double : Bool) :
    Nat → List Char → Option (List Char × Bool × List Char)
  | 0, s => some ([], false, s)
  | _, [] => some ([], false, [])
  | fuel + 1, c :: rest =>
    let push (d : Char) (s : List Char) : Option (List Char × Bool × List Char) :=
      (quotedRun? double fuel s).map fun (run, more) => (d :: run, more)
    if isGap c then some ([], false, c :: rest)
    else if double then
      if c == '"' then some ([], false, c :: rest)
      else if c == '\\' then
        match rest with
        | [] => none
        | e :: rest =>
          if isBreak e then some ([], true, e :: rest)
          else if escapeLength e ≠ 0 then
            match codePoint? (escapeLength e) (rest.take (escapeLength e)) with
            | some d => push d (rest.drop (escapeLength e))
            | none => none
          else
            match simpleEscape? e with
            | some d => push d rest
            | none => none
      else push c rest
    else if c == '\'' then
      match rest with
      | '\'' :: rest => push '\'' rest
      | rest => some ([], false, c :: rest)
    else push c rest

def quotedScalar? (double : Bool) : Nat → List Char → Cursor → Option (List Char × Cursor)
  | 0, _, _ => none
  | fuel + 1, text, c =>
    if c.atDocumentMark || c.atEnd then none
    else
      match quotedRun? double (c.rest.length + 1) c.rest with
      | none => none
      | some (run, escaped, after) =>
        let text := text ++ run
        let c := c.moveTo after
        if c.head? == some (if double then '"' else '\'') then some (text, c.skip 1)
        else
          let c := if escaped then c.skipBreak else c
          match Gap.take? 0 (c.rest.length + 1) { Gap.empty with broken := escaped } c with
          | none => none
          | some (g, c) => quotedScalar? double fuel (text ++ g.fold) c

inductive Chomp where
  | strip | clip | keep
  deriving DecidableEq

def blockBreaks? (least : Nat) (indent : Nat) :
    Nat → Nat → List Char → Cursor → Option (Nat × List Char × Cursor)
  | 0, _, _, _ => none
  | fuel + 1, deepest, breaks, c =>
    let spaces := (c.rest.takeWhile (· == ' ')).length
    let c := c.skip (if indent = 0 then spaces else min spaces (indent - c.column))
    let deepest := max deepest c.column
    if (indent = 0 || c.column < indent) && c.head? == some '\t' then none
    else if c.startsWith isBreak then
      let (b, c) := c.takeBreak
      blockBreaks? least indent fuel deepest (breaks ++ b) c
    else some (if indent = 0 then max (max deepest least) 1 else indent, breaks, c)

/-- The lines of a block. `first` is the line end before the place, `later` are the empty lines
that follow it, and `blank` says whether the line before began with a blank. -/
def blockLines? (literal : Bool) (indent : Nat) :
    Nat → List Char → List Char → List Char → Bool → Cursor →
      Option (List Char × List Char × List Char × Cursor)
  | 0, _, _, _, _, _ => none
  | fuel + 1, text, first, later, blank, c =>
    if c.column ≠ indent || c.atEnd then some (text, first, later, c)
    else
      let startsBlank := c.startsWith isBlank
      let joined :=
        if !literal && first == ['\n'] && !blank && !startsBlank then
          (if later.isEmpty then [' '] else [])
        else first
      let line := c.rest.takeWhile fun ch => !isBreak ch
      let (b, c) := (c.skipWhile fun ch => !isBreak ch).takeBreak
      match blockBreaks? 0 indent (c.rest.length + 1) 0 [] c with
      | none => none
      | some (_, later', c) =>
        blockLines? literal indent fuel (text ++ joined ++ later ++ line) b later' startsBlank c

def blockHeader? (c : Cursor) : Option (Chomp × Nat × Cursor) :=
  let chomp? (s : List Char) : Option (Chomp × List Char) :=
    match s with
    | '+' :: rest => some (.keep, rest)
    | '-' :: rest => some (.strip, rest)
    | _ => none
  let digit? (s : List Char) : Option (Nat × List Char) :=
    match s with
    | d :: rest => if d.isDigit then some (d.toNat - 48, rest) else none
    | [] => none
  let header :=
    match chomp? c.rest with
    | some (chomp, s) =>
      match digit? s with
      | some (0, _) => none
      | some (n, s) => some (chomp, n, s)
      | none => some (chomp, 0, s)
    | none =>
      match digit? c.rest with
      | some (0, _) => none
      | some (n, s) =>
        match chomp? s with
        | some (chomp, s) => some (chomp, n, s)
        | none => some (.clip, n, s)
      | none => some (.clip, 0, c.rest)
  header.bind fun (chomp, n, s) =>
    let c := (c.moveTo s).skipWhile isBlank
    let c := if c.head? == some '#' then c.skipWhile fun ch => !isBreak ch else c
    if c.atEnd || c.startsWith isBreak then some (chomp, n, c.skipBreak) else none

def blockScalar? (literal : Bool) (parent : Int) (c : Cursor) : Option (List Char × Cursor) := do
  let (chomp, increment, c) ← blockHeader? c
  let outer := parent.toNat
  let given := if increment = 0 then 0 else outer + increment
  let (indent, breaks, c) ←
    blockBreaks? (parent + 1).toNat given (c.rest.length + 1) 0 [] c
  let (text, first, later, c) ←
    blockLines? literal indent (c.rest.length + 1) [] [] breaks false c
  let tail :=
    match chomp with
    | .strip => []
    | .clip => first
    | .keep => first ++ later
  return (text ++ tail, c)

end ClauseWeave.Yaml
