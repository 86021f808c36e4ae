import ClauseWeave.Text.Cut
import ClauseWeave.Text.Word

namespace ClauseWeave.Tidy

open Text

def connective? (s : List Char) : Option (List Char × List Char) :=
  match s with
  | 'A' :: 'N' :: 'D' :: rest => some (['A', 'N', 'D'], rest)
  | 'O' :: 'R' :: rest => some (['O', 'R'], rest)
  | _ => none

def endsWord (s : List Char) : Bool := !(s.head?.map isWord).getD false

/-- A rule sees the character before a place and the text from there on. Where it applies it
answers what to write and what remains. -/
abbrev Rule := Option Char → List Char → Option (List Char × List Char)

def emptyGroup : Rule := fun _ s =>
  match s with
  | '(' :: s =>
    match trimStart s with
    | ')' :: rest => some ([], rest)
    | _ => none
  | _ => none

def loneConnective : Rule := fun _ s =>
  match s with
  | '(' :: s =>
    match connective? (trimStart s) with
    | some (_, s) =>
      match trimStart s with
      | ')' :: rest => some ([], rest)
      | _ => none
    | none => none
  | _ => none

/-- `( AND x` -/
def leadingConnective : Rule := fun _ s =>
  match s with
  | '(' :: s =>
    match connective? (trimStart s) with
    | some (_, c :: rest) => if isBlank c then some (['('], trimStart rest) else none
    | _ => none
  | _ => none

/-- `x AND )` -/
def trailingConnective : Rule := fun _ s =>
  match s with
  | c :: s =>
    if isBlank c then
      match connective? (trimStart s) with
      | some (_, s) =>
        match trimStart s with
        | ')' :: rest => some ([')'], rest)
        | _ => none
      | none => none
    else none
  | [] => none

/-- `AND OR`: the first one stays. -/
def doubledConnective : Rule := fun before s =>
  if (before.map isWord).getD false then none
  else
    match connective? s with
    | some (first, c :: rest) =>
      if isBlank c then
        match connective? (trimStart rest) with
        | some (_, rest) => if endsWord rest then some (first, rest) else none
        | none => none
      else none
    | _ => none

/-- `AND x` at the start of the text. -/
def openingConnective : Rule := fun before s =>
  match before with
  | some _ => none
  | none =>
    match connective? (trimStart s) with
    | some (_, rest) => if endsWord rest then some ([], trimStart rest) else none
    | none => none

/-- `x AND` at the end of the text. -/
def closingConnective : Rule := fun before s =>
  let blanks := s.takeWhile isBlank
  if blanks.isEmpty && (before.map isWord).getD false then none
  else
    match connective? (trimStart s) with
    | some (_, rest) => if (trimStart rest).isEmpty then some ([], []) else none
    | none => none

def rules : List Rule := [
  emptyGroup, loneConnective, leadingConnective, trailingConnective, doubledConnective,
  openingConnective, closingConnective]

/-- Applies a rule at every place from left to right; text that was written is not seen again. -/
def applyRule (rule : Rule) (before : Option Char) : List Char → List Char
  | [] => []
  | c :: s =>
    match rule before (c :: s) with
    | some (written, rest) =>
      if _h : rest.length < (c :: s).length then
        let last := ((c :: s).take ((c :: s).length - rest.length)).getLast?
        written ++ applyRule rule last rest
      else c :: applyRule rule (some c) s
    | none => c :: applyRule rule (some c) s
termination_by s => s.length
decreasing_by
  · exact _h
  · exact Nat.lt_succ_self _
  · exact Nat.lt_succ_self _

def round (s : List Char) : List Char :=
  collapse (rules.foldl (fun s rule => applyRule rule none s) s)

/-- Rounds are repeated as long as they shorten the text; one that changes it always does. -/
def settle (s : List Char) : List Char :=
  if _h : (round s).length < s.length then settle (round s) else round s
termination_by s.length
decreasing_by exact _h

def tidy (s : List Char) : List Char := settle (collapse s)

end ClauseWeave.Tidy
