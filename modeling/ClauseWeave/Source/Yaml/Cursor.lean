namespace ClauseWeave.Yaml

structure Cursor where
  rest : List Char
  index : Nat
  line : Nat
  column : Nat

def isBlank (c : Char) : Bool := c == ' ' || c == '\t'

def isBreak (c : Char) : Bool :=
  c == '\n' || c == '\r' || c == '\x85' || c == '\u2028' || c == '\u2029'

def isGap (c : Char) : Bool := isBlank c || isBreak c

def isAnchorChar (c : Char) : Bool := c.isAlphanum || c == '_' || c == '-'

def byteOrderMark : Char := '\uFEFF'

def isAllowed (c : Char) : Bool :=
  let n := c.toNat
  n == 0x09 || n == 0x0A || n == 0x0D || (0x20 ≤ n && n ≤ 0x7E) || n == 0x85 ||
    (0xA0 ≤ n && n ≤ 0xFFFD) || 0x10000 ≤ n

def gapBefore (s : List Char) : Bool := (s.head?.map isGap).getD true

def isDocumentMark (s : List Char) : Bool :=
  match s with
  | '-' :: '-' :: '-' :: rest => gapBefore rest
  | '.' :: '.' :: '.' :: rest => gapBefore rest
  | _ => false

namespace Cursor

def start (s : String) : Cursor := ⟨s.toList, 0, 0, 0⟩

def moveTo (c : Cursor) (rest : List Char) : Cursor :=
  let n := c.rest.length - rest.length
  ⟨rest, c.index + n, c.line, c.column + n⟩

def skip (c : Cursor) (n : Nat) : Cursor := c.moveTo (c.rest.drop n)

def skipWhile (c : Cursor) (p : Char → Bool) : Cursor := c.moveTo (c.rest.dropWhile p)

def head? (c : Cursor) : Option Char := c.rest.head?

def startsWith (c : Cursor) (p : Char → Bool) : Bool := (c.rest.head?.map p).getD false

def atEnd (c : Cursor) : Bool := c.rest.isEmpty

def takeBreak (c : Cursor) : List Char × Cursor :=
  match c.rest with
  | '\r' :: '\n' :: rest => (['\n'], ⟨rest, c.index + 2, c.line + 1, 0⟩)
  | b :: rest =>
    if isBreak b then
      (if b == '\u2028' || b == '\u2029' then [b] else ['\n'], ⟨rest, c.index + 1, c.line + 1, 0⟩)
    else ([], c)
  | [] => ([], c)

def skipBreak (c : Cursor) : Cursor := c.takeBreak.2

def atDocumentMark (c : Cursor) : Bool := c.column == 0 && isDocumentMark c.rest

end Cursor

end ClauseWeave.Yaml
