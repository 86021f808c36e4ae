import ClauseWeave.Decimal.Numeral
import ClauseWeave.Source.Format
import ClauseWeave.Text.Cut

namespace ClauseWeave

/-- Numbers are kept as written, since one that nobody looks at may be out of range. What is well
formed but cannot be read is broken: a text with an escape for half of a pair, or what is nested too
deep. -/
inductive Json where
  | null
  | bool (b : Bool)
  | number (n : Numeral)
  | text (s : String)
  | broken
  | list (items : List Json)
  | record (members : List (Option String × Json))
  deriving Inhabited

namespace Json

inductive Lexeme where
  | leftBracket | rightBracket | leftBrace | rightBrace | comma | colon
  | text (s : Option String)
  | scalar (value : Json)

def isSpace (c : Char) : Bool := c == ' ' || c == '\t' || c == '\n' || c == '\r'

def hexValue? (c : Char) : Option Nat :=
  if '0' ≤ c ∧ c ≤ '9' then some (c.toNat - 48)
  else if 'a' ≤ c ∧ c ≤ 'f' then some (c.toNat - 87)
  else if 'A' ≤ c ∧ c ≤ 'F' then some (c.toNat - 55)
  else none

def hexFour? (a b c d : Char) : Option Nat := do
  let a ← hexValue? a
  let b ← hexValue? b
  let c ← hexValue? c
  let d ← hexValue? d
  return ((a * 16 + b) * 16 + c) * 16 + d

def isLead (n : Nat) : Bool := 0xD800 ≤ n && n < 0xDC00

def isTrail (n : Nat) : Bool := 0xDC00 ≤ n && n < 0xE000

def simpleEscape? : Char → Option Char
  | '"' => some '"'
  | '\\' => some '\\'
  | '/' => some '/'
  | 'b' => some '\x08'
  | 'f' => some '\x0C'
  | 'n' => some '\n'
  | 'r' => some '\r'
  | 't' => some '\t'
  | _ => none

/-- The characters of a text, and what follows its closing quote. -/
abbrev Quoted := Option (List Char) × List Char

def Quoted.push (c : Char) (q : Quoted) : Quoted := (q.1.map (c :: ·), q.2)

def Quoted.spoil (q : Quoted) : Quoted := (none, q.2)

def quotedRest : List Char → Option Quoted
  | [] => none
  | '"' :: rest => some (some [], rest)
  | '\\' :: 'u' :: a :: b :: c :: d :: rest =>
    match hexFour? a b c d with
    | none => none
    | some n =>
      if isLead n then
        match rest with
        | '\\' :: 'u' :: e :: f :: g :: h :: after =>
          match hexFour? e f g h with
          | none => none
          | some m =>
            if isTrail m then
              (quotedRest after).map
                (.push (Char.ofNat (0x10000 + (n - 0xD800) * 0x400 + (m - 0xDC00))))
            else (quotedRest ('\\' :: 'u' :: e :: f :: g :: h :: after)).map .spoil
        | rest => (quotedRest rest).map .spoil
      else if isTrail n then (quotedRest rest).map .spoil
      else (quotedRest rest).map (.push (Char.ofNat n))
  | '\\' :: c :: rest =>
    match simpleEscape? c with
    | some e => (quotedRest rest).map (.push e)
    | none => none
  | c :: rest => if c.toNat < 32 || c == '\\' then none else (quotedRest rest).map (.push c)

def exponent? (s : List Char) : Option (Option (Bool × List Char) × List Char) :=
  match s with
  | c :: rest =>
    if c == 'e' || c == 'E' then
      let (negative, rest) :=
        match rest with
        | '-' :: rest => (true, rest)
        | '+' :: rest => (false, rest)
        | rest => (false, rest)
      let digits := rest.takeWhile Char.isDigit
      if digits.isEmpty then none else some (some (negative, digits), rest.dropWhile Char.isDigit)
    else some (none, s)
  | [] => some (none, [])

def numeral? (negative : Bool) (s : List Char) : Option (Numeral × List Char) :=
  let whole := s.takeWhile Char.isDigit
  let rest := s.dropWhile Char.isDigit
  if whole.isEmpty || (whole.head? == some '0' && whole.length != 1) then none
  else
    match rest with
    | '.' :: rest =>
      let fraction := rest.takeWhile Char.isDigit
      if fraction.isEmpty then none
      else
        (exponent? (rest.dropWhile Char.isDigit)).map fun (e, rest) =>
          (⟨negative, whole, fraction, e⟩, rest)
    | rest => (exponent? rest).map fun (e, rest) => (⟨negative, whole, [], e⟩, rest)

def word? (s : List Char) : Option (Json × List Char) :=
  match Text.after? "null".toList s with
  | some rest => some (.null, rest)
  | none =>
    match Text.after? "true".toList s with
    | some rest => some (.bool true, rest)
    | none => (Text.after? "false".toList s).map fun rest => (.bool false, rest)

def lexeme? (s : List Char) : Option (Lexeme × List Char) :=
  match s with
  | [] => none
  | '[' :: rest => some (.leftBracket, rest)
  | ']' :: rest => some (.rightBracket, rest)
  | '\x7b' :: rest => some (.leftBrace, rest)
  | '\x7d' :: rest => some (.rightBrace, rest)
  | ',' :: rest => some (.comma, rest)
  | ':' :: rest => some (.colon, rest)
  | '"' :: rest => (quotedRest rest).map fun (s, rest) => (.text (s.map String.ofList), rest)
  | '-' :: rest => (numeral? true rest).map fun (n, rest) => (.scalar (.number n), rest)
  | c :: _ =>
    if c.isDigit then (numeral? false s).map fun (n, rest) => (.scalar (.number n), rest)
    else (word? s).map fun (v, rest) => (.scalar v, rest)

/-- Every lexeme takes up a character, so there are at most `fuel` of them. -/
def lexemesWithin : Nat → List Char → Option (List Lexeme)
  | 0, _ => none
  | fuel + 1, s =>
    match s.dropWhile isSpace with
    | [] => some []
    | s =>
      match lexeme? s with
      | some (l, rest) => (lexemesWithin fuel rest).map (l :: ·)
      | none => none

def lexemes (s : List Char) : Option (List Lexeme) := lexemesWithin (s.length + 1) s

/-- Lists and records that are nested deeper than this can be passed over but not read. -/
def greatestDepth : Nat := 127

def atDepth (depth : Nat) (v : Json) : Json := if depth = 0 then .broken else v

mutual

def node? : Nat → Nat → List Lexeme → Option (Json × List Lexeme)
  | 0, _, _ => none
  | fuel + 1, depth, lexemes =>
    match lexemes with
    | .scalar v :: rest => some (v, rest)
    | .text (some s) :: rest => some (.text s, rest)
    | .text none :: rest => some (.broken, rest)
    | .leftBracket :: .rightBracket :: rest => some (atDepth depth (.list []), rest)
    | .leftBrace :: .rightBrace :: rest => some (atDepth depth (.record []), rest)
    | .leftBracket :: rest =>
      (items? fuel (depth - 1) rest).map fun (items, rest) => (atDepth depth (.list items), rest)
    | .leftBrace :: rest =>
      (members? fuel (depth - 1) rest).map fun (members, rest) =>
        (atDepth depth (.record members), rest)
    | _ => none

def items? : Nat → Nat → List Lexeme → Option (List Json × List Lexeme)
  | 0, _, _ => none
  | fuel + 1, depth, lexemes =>
    match node? fuel depth lexemes with
    | some (v, .comma :: rest) => (items? fuel depth rest).map fun (vs, rest) => (v :: vs, rest)
    | some (v, .rightBracket :: rest) => some ([v], rest)
    | _ => none

def members? : Nat → Nat → List Lexeme → Option (List (Option String × Json) × List Lexeme)
  | 0, _, _ => none
  | fuel + 1, depth, lexemes =>
    match lexemes with
    | .text k :: .colon :: rest =>
      match node? fuel depth rest with
      | some (v, .comma :: rest) =>
        (members? fuel depth rest).map fun (ms, rest) => ((k, v) :: ms, rest)
      | some (v, .rightBrace :: rest) => some ([(k, v)], rest)
      | _ => none
    | _ => none

end

def parse (s : String) : Option Json :=
  (lexemes s.toList).bind fun ls =>
    match node? (2 * ls.length + 2) greatestDepth ls with
    | some (v, []) => some v
    | _ => none

mutual

def toValue? : Json → Option Value
  | null => some .null
  | bool b => some (.bool b)
  | number n => n.value?.map .number
  | text s => some (.text s)
  | broken => none
  | list items => (toValues? items).map .list
  | record members => (toMembers? members).map Value.objectOf

def toValues? : List Json → Option (List Value)
  | [] => some []
  | j :: rest =>
    match toValue? j, toValues? rest with
    | some v, some vs => some (v :: vs)
    | _, _ => none

def toMembers? : List (Option String × Json) → Option (List (String × Value))
  | [] => some []
  | (k, j) :: rest =>
    match k, toValue? j, toMembers? rest with
    | some k, some v, some vs => some ((k, v) :: vs)
    | _, _, _ => none

end

def text? : Json → Option String
  | text s => some s
  | _ => none

def nat? : Json → Option Nat
  | number n =>
    match n.value? with
    | some (.whole i) => if i < 0 then none else some i.toNat
    | _ => none
  | _ => none

def isNull : Json → Bool
  | null => true
  | _ => false

def list? : Json → Option (List Json)
  | list items => some items
  | _ => none

def record? : Json → Option (List (String × Json))
  | record members => members.mapM fun (k, v) => k.map fun k => (k, v)
  | _ => none

/-- A case is named by a text, or by the only key of a record that holds nothing. -/
def tag? : Json → Option String
  | text s => some s
  | record [(k, null)] => k
  | _ => none

instance : Format Json where
  text? := text?
  nat? := nat?
  value? := toValue?
  isNull := isNull
  list? := list?
  record? := record?
  fields? names j :=
    match j with
    | list items => Format.positional names items
    | j => (record? j).bind (Format.known names)
  tag? := tag?
  extra? := toValue?

end Json

end ClauseWeave
