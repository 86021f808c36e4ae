import ClauseWeave.Source.Yaml.Scalar

namespace ClauseWeave.Yaml

inductive Lexeme where
  | version (major minor : Nat)
  | tagPrefix (handle start : List Char)
  | documentStart
  | documentEnd
  | blockSequenceStart
  | blockMappingStart
  | blockEnd
  | flowSequenceStart
  | flowSequenceEnd
  | flowMappingStart
  | flowMappingEnd
  | blockEntry
  | flowEntry
  | key
  | value
  | alias (name : List Char)
  | anchor (name : List Char)
  | tag (handle suffix : List Char)
  | scalar (style : Style) (text : List Char)
  deriving DecidableEq, Repr

structure KeyStart where
  required : Bool
  position : Nat
  line : Nat
  index : Nat
  column : Nat

/-- `lexemes` holds what was found, last first; `keys` has one entry for each open bracket and one
for the block around them. A `:` turns what is in front of it into a key after the fact. -/
structure Scan where
  cursor : Cursor
  lexemes : List Lexeme
  count : Nat
  indent : Int
  outer : List Int
  keys : List (Option KeyStart)
  keyAllowed : Bool

namespace Scan

def start (s : String) : Scan := ⟨.start s, [], 0, -1, [], [none], true⟩

def inFlow (s : Scan) : Bool := 1 < s.keys.length

def push (s : Scan) (l : Lexeme) : Scan :=
  { s with lexemes := l :: s.lexemes, count := s.count + 1 }

def insertAt (s : Scan) (position : Nat) (l : Lexeme) : Scan :=
  let later := s.count - position
  { s with
    lexemes := s.lexemes.take later ++ l :: s.lexemes.drop later
    count := s.count + 1 }

def allow (s : Scan) (keyAllowed : Bool) : Scan := { s with keyAllowed }

def move (s : Scan) (cursor : Cursor) : Scan := { s with cursor }

def setKey (s : Scan) (key : Option KeyStart) : Scan := { s with keys := key :: s.keys.drop 1 }

def key? (s : Scan) : Option KeyStart := (s.keys.head?).bind id

def dropKey? (s : Scan) : Option Scan :=
  match s.key? with
  | some k => if k.required then none else some (s.setKey none)
  | none => some s

/-- A key has to be on one line and within 1024 characters. -/
def dropStale? (s : Scan) : Option Scan :=
  let stale (k : KeyStart) : Bool := k.line < s.cursor.line || k.index + 1024 < s.cursor.index
  if s.keys.any fun k => (k.map fun k => stale k && k.required).getD false then none
  else some { s with keys := s.keys.map fun k => k.filter fun k => !stale k }

def saveKey? (s : Scan) : Option Scan :=
  if s.keyAllowed then
    s.dropKey?.map fun s =>
      s.setKey (some {
        required := !s.inFlow && s.indent == s.cursor.column
        position := s.count
        line := s.cursor.line
        index := s.cursor.index
        column := s.cursor.column })
  else some s

def roll (s : Scan) (column : Nat) (position : Nat) (l : Lexeme) : Scan :=
  if !s.inFlow && s.indent < column then
    { s with indent := column, outer := s.indent :: s.outer }.insertAt position l
  else s

def unrollWithin : Nat → Int → Scan → Scan
  | 0, _, s => s
  | fuel + 1, column, s =>
    if s.indent ≤ column then s
    else
      unrollWithin fuel column
        ({ s with indent := s.outer.headD (-1), outer := s.outer.drop 1 }.push .blockEnd)

def unroll (s : Scan) (column : Int) : Scan :=
  if s.inFlow then s else unrollWithin (s.outer.length + 1) column s

def skipGap (s : Scan) : Nat → Cursor → Bool → Cursor × Bool
  | 0, c, keyAllowed => (c, keyAllowed)
  | fuel + 1, c, keyAllowed =>
    let c := if c.column = 0 && c.head? == some byteOrderMark then c.skip 1 else c
    let c := c.skipWhile fun ch => ch == ' ' || ((s.inFlow || !keyAllowed) && ch == '\t')
    let c := if c.head? == some '#' then c.skipWhile fun ch => !isBreak ch else c
    if c.startsWith isBreak then skipGap s fuel c.skipBreak (keyAllowed || !s.inFlow)
    else (c, keyAllowed)

/-- The next lexeme is a scalar, an anchor or a tag, which may turn out to be a key. -/
def fresh? (s : Scan) : Option Scan := (s.saveKey?).map (·.allow false)

def documentMark? (s : Scan) (l : Lexeme) : Option Scan :=
  ((s.unroll (-1)).dropKey?).map fun s => ((s.allow false).move (s.cursor.skip 3)).push l

def openFlow? (s : Scan) (l : Lexeme) : Option Scan :=
  s.saveKey?.map fun s =>
    (({ s with keys := none :: s.keys }.allow true).move (s.cursor.skip 1)).push l

def closeFlow? (s : Scan) (l : Lexeme) : Option Scan :=
  s.dropKey?.map fun s =>
    let keys := if s.inFlow then s.keys.drop 1 else s.keys
    (({ s with keys }.allow false).move (s.cursor.skip 1)).push l

def flowEntry? (s : Scan) : Option Scan :=
  s.dropKey?.map fun s => ((s.allow true).move (s.cursor.skip 1)).push .flowEntry

def blockIndicator? (s : Scan) (l : Lexeme) : Option Scan :=
  if s.inFlow then some s
  else if s.keyAllowed then some (s.roll s.cursor.column s.count l)
  else none

def blockEntry? (s : Scan) : Option Scan := do
  let s ← s.blockIndicator? .blockSequenceStart
  let s ← s.dropKey?
  return ((s.allow true).move (s.cursor.skip 1)).push .blockEntry

def explicitKey? (s : Scan) : Option Scan := do
  let s ← s.blockIndicator? .blockMappingStart
  let s ← s.dropKey?
  return ((s.allow (!s.inFlow)).move (s.cursor.skip 1)).push .key

def value? (s : Scan) : Option Scan :=
  match s.key? with
  | some k =>
    let s := (s.insertAt k.position .key).roll k.column k.position .blockMappingStart
    some ((((s.setKey none).allow false).move (s.cursor.skip 1)).push .value)
  | none =>
    (s.blockIndicator? .blockMappingStart).map fun s =>
      ((s.allow (!s.inFlow)).move (s.cursor.skip 1)).push .value

def anchor? (s : Scan) (make : List Char → Lexeme) : Option Scan := do
  let s ← s.fresh?
  let c := s.cursor.skip 1
  let name := c.rest.takeWhile isAnchorChar
  let c := c.skipWhile isAnchorChar
  let ended (ch : Char) : Bool :=
    isGap ch || ch == '?' || ch == ':' || ch == ',' || ch == ']' || ch == '\x7d' || ch == '%'
      || ch == '@' || ch == '\x60'
  if name.isEmpty || !((c.head?.map ended).getD true) then none
  else return (s.move c).push (make name)

def isTagChar (inBrackets : Bool) (c : Char) : Bool :=
  isAnchorChar c || ";/?:@&=+$.%!~*'()".toList.contains c
    || (inBrackets && (c == ',' || c == '[' || c == ']'))

def unescape? : Nat → List Char → Option (List Char)
  | 0, _ => none
  | _, [] => some []
  | fuel + 1, '%' :: rest =>
    let bytes := escapedBytes (rest.length + 1) ('%' :: rest)
    match String.fromUTF8? (ByteArray.mk (bytes.map (·.toUInt8)).toArray) with
    | some s =>
      if bytes.isEmpty then none
      else (unescape? fuel (('%' :: rest).drop (3 * bytes.length))).map (s.toList ++ ·)
    | none => none
  | fuel + 1, c :: rest => (unescape? fuel rest).map (c :: ·)
where
  escapedBytes : Nat → List Char → List Nat
    | 0, _ => []
    | fuel + 1, s =>
      match s with
      | '%' :: a :: b :: rest =>
        match hexValue? [a, b] with
        | some n => n :: escapedBytes fuel rest
        | none => []
      | _ => []

def tagText? (inBrackets : Bool) (c : Cursor) : Option (List Char × Cursor) :=
  let raw := c.rest.takeWhile (isTagChar inBrackets)
  (unescape? (raw.length + 1) raw).map fun s => (s, c.skip raw.length)

def handle? (c : Cursor) : Option (List Char × Cursor) :=
  match c.rest with
  | '!' :: rest =>
    let name := rest.takeWhile isAnchorChar
    match rest.dropWhile isAnchorChar with
    | '!' :: after => some ('!' :: name ++ ['!'], c.moveTo after)
    | after => some ('!' :: name, c.moveTo after)
  | _ => none

def tagParts? (c : Cursor) : Option (List Char × List Char × Cursor) :=
  match c.rest with
  | '!' :: '<' :: rest => do
    let (suffix, c) ← tagText? true (c.moveTo rest)
    if suffix.isEmpty || c.head? != some '>' then none else return ([], suffix, c.skip 1)
  | _ => do
    let (handle, c) ← handle? c
    let (more, c) ← tagText? false c
    if 1 < handle.length && handle.getLast? == some '!' then
      if more.isEmpty then none else return (handle, more, c)
    else
      let suffix := handle.drop 1 ++ more
      if suffix.isEmpty then return ([], ['!'], c) else return (['!'], suffix, c)

def tag? (s : Scan) : Option Scan := do
  let s ← s.fresh?
  let (handle, suffix, c) ← tagParts? s.cursor
  if gapBefore c.rest || (s.inFlow && c.head? == some ',') then
    return (s.move c).push (.tag handle suffix)
  else none

def block? (s : Scan) (literal : Bool) : Option Scan := do
  let s ← s.dropKey?
  let (text, c) ← blockScalar? literal s.indent (s.cursor.skip 1)
  return ((s.allow true).move c).push (.scalar (if literal then .literal else .folded) text)

def quoted? (s : Scan) (double : Bool) : Option Scan := do
  let s ← s.fresh?
  let c := s.cursor.skip 1
  let (text, c) ← quotedScalar? double (c.rest.length + 2) [] c
  return (s.move c).push (.scalar .quoted text)

def plain? (s : Scan) : Option Scan := do
  let s ← s.fresh?
  let (text, broken, c) ←
    plainScalar? s.inFlow (s.indent + 1).toNat (s.cursor.rest.length + 1) [] .empty s.cursor
  return ((s.allow broken).move c).push (.scalar .plain text)

def number? (c : Cursor) : Option (Nat × Cursor) :=
  let digits := c.rest.takeWhile Char.isDigit
  if digits.isEmpty || 9 < digits.length then none
  else some (digits.foldl (fun n d => n * 10 + (d.toNat - 48)) 0, c.skipWhile Char.isDigit)

def directiveBody? (name : List Char) (c : Cursor) : Option (Lexeme × Cursor) :=
  if name = "YAML".toList then do
    let (major, c) ← number? (c.skipWhile isBlank)
    if c.head? != some '.' then none
    else
      let (minor, c) ← number? (c.skip 1)
      return (.version major minor, c)
  else if name = "TAG".toList then do
    let (handle, c) ← handle? (c.skipWhile isBlank)
    if handle != ['!'] && (handle.length < 2 || handle.getLast? != some '!') then none
    else if !c.startsWith isBlank then none
    else
      let (start, c) ← tagText? true (c.skipWhile isBlank)
      if start.isEmpty || !gapBefore c.rest then none else return (.tagPrefix handle start, c)
  else none

def directive? (s : Scan) : Option Scan := do
  let s ← (s.unroll (-1)).dropKey?
  let c := s.cursor.skip 1
  let name := c.rest.takeWhile isAnchorChar
  let c := c.skipWhile isAnchorChar
  if name.isEmpty || !gapBefore c.rest then none
  else
    let (l, c) ← directiveBody? name c
    let c := c.skipWhile isBlank
    let c := if c.head? == some '#' then c.skipWhile fun ch => !isBreak ch else c
    if c.atEnd || c.startsWith isBreak then
      return ((s.allow false).move c.skipBreak).push l
    else none

def startsPlain (s : Scan) (c : Char) (rest : List Char) : Bool :=
  (!isGap c && !("-?:,[]#&*!|>'\"%@".toList.contains c) && c != '\x7b' && c != '\x7d'
      && c != '\x60')
    || (c == '-' && !((rest.head?.map isBlank).getD false))
    || (!s.inFlow && (c == '?' || c == ':') && !gapBefore rest)

def lexeme? (s : Scan) : Option Scan :=
  let s := s.unroll s.cursor.column
  match s.cursor.rest with
  | [] => none
  | c :: rest =>
    if s.cursor.column = 0 && c == '%' then s.directive?
    else if s.cursor.atDocumentMark then
      s.documentMark? (if c == '-' then .documentStart else .documentEnd)
    else if c == '[' then s.openFlow? .flowSequenceStart
    else if c == '\x7b' then s.openFlow? .flowMappingStart
    else if c == ']' then s.closeFlow? .flowSequenceEnd
    else if c == '\x7d' then s.closeFlow? .flowMappingEnd
    else if c == ',' then s.flowEntry?
    else if c == '-' && gapBefore rest then s.blockEntry?
    else if c == '?' && (s.inFlow || gapBefore rest) then s.explicitKey?
    else if c == ':' && (s.inFlow || gapBefore rest) then s.value?
    else if c == '*' then s.anchor? .alias
    else if c == '&' then s.anchor? .anchor
    else if c == '!' then s.tag?
    else if c == '|' && !s.inFlow then s.block? true
    else if c == '>' && !s.inFlow then s.block? false
    else if c == '\'' then s.quoted? false
    else if c == '"' then s.quoted? true
    else if s.startsPlain c rest then s.plain?
    else none

/-- Every lexeme takes up a character, so `fuel` of them are enough. -/
def run? : Nat → Scan → Option Scan
  | 0, _ => none
  | fuel + 1, s =>
    let (c, keyAllowed) := s.skipGap (s.cursor.rest.length + 1) s.cursor s.keyAllowed
    match ((s.move c).allow keyAllowed).dropStale? with
    | none => none
    | some s =>
      if s.cursor.atEnd then (s.unroll (-1)).dropKey?
      else
        match s.lexeme? with
        | some s => run? fuel s
        | none => none

end Scan

def lexemes? (s : String) : Option (List Lexeme) :=
  if s.toList.all isAllowed then
    (Scan.run? (s.length + 2) (.start s)).map (·.lexemes.reverse)
  else none

end ClauseWeave.Yaml
