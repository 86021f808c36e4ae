import ClauseWeave.Source.Format
import ClauseWeave.Source.Yaml.Tree
import ClauseWeave.Text.Cut

namespace ClauseWeave.Yaml

def isNullText (s : String) : Bool := s ∈ ["null", "Null", "NULL", "~"]

def bool? (s : String) : Option Bool :=
  if s ∈ ["true", "True", "TRUE"] then some true
  else if s ∈ ["false", "False", "FALSE"] then some false
  else none

def digitIn? (radix : Nat) (c : Char) : Option Nat :=
  (hexDigit? c).bind fun d => if d < radix then some d else none

def naturalIn? (radix : Nat) (s : List Char) : Option Nat :=
  if s.isEmpty then none
  else (s.mapM (digitIn? radix)).map (·.foldl (fun n d => n * radix + d) 0)

def isSign (c : Char) : Bool := c == '+' || c == '-'

def withoutSign (s : List Char) : List Char :=
  match s with
  | c :: rest => if isSign c then rest else s
  | [] => []

/-- Digits with a leading zero are text. -/
def isZeroPadded (s : List Char) : Bool :=
  match withoutSign s with
  | '0' :: d :: rest => (d :: rest).all Char.isDigit
  | _ => false

def radixes : List (List Char × Nat) := [(['0', 'x'], 16), (['0', 'o'], 8), (['0', 'b'], 2)]

def marked? (s : List Char) : Option Nat :=
  radixes.findSome? fun (mark, radix) => (Text.after? mark s).bind (naturalIn? radix)

def integer? (s : List Char) : Option Int :=
  match s with
  | '-' :: rest =>
    match marked? rest with
    | some n => some (-(n : Int))
    | none => if isZeroPadded s then none else (naturalIn? 10 rest).map fun n => -(n : Int)
  | s =>
    let digits := match s with
      | '+' :: rest => rest
      | s => s
    match marked? digits with
    | some n => some n
    | none => if isZeroPadded s then none else (naturalIn? 10 digits).map Int.ofNat

/-- Whole numbers up to 128 bits are told apart from floats even where they fit nothing. -/
inductive Size where
  | fits | tooLarge | float

def sizeOf (n : Int) : Size :=
  if -(Nat.pow 2 63 : Int) ≤ n ∧ n < Nat.pow 2 64 then .fits
  else if -(Nat.pow 2 127 : Int) ≤ n ∧ n < Nat.pow 2 128 then .tooLarge
  else .float

def exponent? (s : List Char) : Option Int :=
  match s with
  | [] => some 0
  | c :: rest =>
    if c == 'e' || c == 'E' then
      (naturalIn? 10 (withoutSign rest)).map fun n =>
        if rest.head? == some '-' then -(n : Int) else n
    else none

def decimal? (s : List Char) : Option Binary64 :=
  let whole := s.takeWhile Char.isDigit
  let rest := s.dropWhile Char.isDigit
  let (fraction, rest) :=
    match rest with
    | '.' :: rest => (rest.takeWhile Char.isDigit, rest.dropWhile Char.isDigit)
    | rest => ([], rest)
  if whole.isEmpty && fraction.isEmpty then none
  else
    (exponent? rest).bind fun e =>
      (naturalIn? 10 (whole ++ fraction)).bind fun n =>
        Binary64.ofDecimal? n (e - fraction.length)

def isInfinite (s : String) : Bool :=
  s ∈ [".inf", ".Inf", ".INF", "+.inf", "+.Inf", "+.INF", "-.inf", "-.Inf", "-.INF"]

def isNotNumber (s : String) : Bool := s ∈ [".nan", ".NaN", ".NAN"]

def float? (s : List Char) : Option Binary64 :=
  match s with
  | '+' :: c :: rest => if isSign c then none else decimal? (c :: rest)
  | '-' :: rest => (decimal? rest).map Binary64.neg
  | s => decimal? s

/-- Infinity and what is not a number have no value of their own and read as null. -/
def floatValue? (s : String) : Option Value :=
  if isInfinite s || isNotNumber s then some .null
  else (float? s.toList).map fun x => .number (.float x)

def floatOrText (s : String) : Value :=
  if isZeroPadded s.toList then .text s else (floatValue? s).getD (.text s)

def plainValue? (s : String) : Option Value :=
  if s.isEmpty || isNullText s then some .null
  else
    match bool? s with
    | some b => some (.bool b)
    | none =>
      match integer? s.toList with
      | some n =>
        match sizeOf n with
        | .fits => some (.number (.whole n))
        | .tooLarge => none
        | .float => some (floatOrText s)
      | none => some (floatOrText s)

def isOwnTag (tag : String) : Bool :=
  match tag.toList with
  | '!' :: _ => true
  | _ => false

def nullTag : String := "tag:yaml.org,2002:null"

def integerTag : String := "tag:yaml.org,2002:int"

/-- A tag of the core schema demands its kind of scalar; any other one leaves text. -/
def taggedValue? (tag s : String) : Option Value :=
  if tag = "tag:yaml.org,2002:bool" then (bool? s).map .bool
  else if tag = integerTag then
    (integer? s.toList).bind fun n =>
      match sizeOf n with
      | .fits => some (.number (.whole n))
      | _ => none
  else if tag = "tag:yaml.org,2002:float" then floatValue? s
  else if tag = nullTag then if isNullText s then some .null else none
  else some (.text s)

def scalarValue? (tag : Option String) (style : Style) (s : String) : Option Value :=
  match tag with
  | some tag => if isOwnTag tag then none else taggedValue? tag s
  | none => if style = .plain then plainValue? s else some (.text s)

def text? : Yaml → Option String
  | scalar _ _ s => some s
  | _ => none

/-- A key inside a value that is kept for its own sake has to be text by itself. -/
def key? (strict : Bool) (n : Yaml) : Option String :=
  match n with
  | scalar tag style s =>
    if strict then
      match scalarValue? tag style s with
      | some (.text s) => some s
      | _ => none
    else some s
  | _ => none

def hasOwnTag (tag : Option String) : Bool := (tag.map isOwnTag).getD false

mutual

def value? (strict : Bool) : Yaml → Option Value
  | scalar tag style s => scalarValue? tag style s
  | list tag items => if hasOwnTag tag then none else (values? strict items).map .list
  | record tag entries =>
    if hasOwnTag tag then none else (members? strict entries).map Value.objectOf
  | broken => none

def values? (strict : Bool) : List Yaml → Option (List Value)
  | [] => some []
  | n :: rest =>
    match value? strict n, values? strict rest with
    | some v, some vs => some (v :: vs)
    | _, _ => none

def members? (strict : Bool) : List (Yaml × Yaml) → Option (List (String × Value))
  | [] => some []
  | (k, n) :: rest =>
    match key? strict k, value? strict n, members? strict rest with
    | some k, some v, some vs => some ((k, v) :: vs)
    | _, _, _ => none

end

def nat? : Yaml → Option Nat
  | scalar tag style s =>
    if style = .plain || (style = .literal && tag = some integerTag) then
      match s.toList with
      | '-' :: _ => none
      | cs =>
        (integer? cs).bind fun n =>
          match sizeOf n with
          | .fits => some n.toNat
          | _ => none
    else none
  | _ => none

def isEmptyPlain : Yaml → Bool
  | scalar _ .plain s => s.isEmpty
  | _ => false

def list? (n : Yaml) : Option (List Yaml) :=
  match n with
  | list _ items => some items
  | n => if isEmptyPlain n then some [] else none

def record? (n : Yaml) : Option (List (String × Yaml)) :=
  match n with
  | record _ entries => entries.mapM fun (k, v) => (text? k).map fun k => (k, v)
  | n => if isEmptyPlain n then some [] else none

def isNull : Yaml → Bool
  | scalar none .plain s => s.isEmpty || isNullText s
  | scalar (some tag) .plain s => tag = nullTag && isNullText s
  | _ => false

def tag? : Yaml → Option String
  | scalar (some tag) style s =>
    match tag.toList with
    | '!' :: name =>
      if style = .plain && (s.isEmpty || isNullText s) then
        some (if name.isEmpty then "!" else String.ofList name)
      else none
    | _ => some s
  | scalar none _ s => some s
  | _ => none

instance : Format Yaml where
  text? := text?
  nat? := nat?
  value? := value? false
  isNull := isNull
  list? := list?
  record? := record?
  fields? names n := (record? n).bind (Format.known names)
  tag? := tag?
  extra? := value? true

end ClauseWeave.Yaml
