import ClauseWeave.Settings
import ClauseWeave.Text.LetterCase

namespace ClauseWeave.Command

inductive UsageFault where
  | refusedValue
  | missingValue
  | unexpectedValue
  | unknownArgument
  | repeatedOption
  | unknownCommand
  | missingCommand
  | missingOption
  | nothingGiven
  | help
  | version
  deriving DecidableEq, Repr

inductive OptionName where
  | dialect | maxPasses | limit | offset
  | doc | subject | filters | connective | orderBy | token | named
  | help | version
  deriving DecidableEq, Repr

inductive Setting where
  | dialect (d : Dialect)
  | maxPasses (n : Nat)
  | limit (n : Nat)
  | offset (n : Nat)
  | doc (path : String)
  | subject (key : String)
  | filters (json : String)
  | connective (c : Connective)
  | orderBy (t : OrderTerm)
  | token (name text : String)
  | named

namespace OptionName

def long : OptionName → String
  | dialect => "dialect"
  | maxPasses => "max-passes"
  | limit => "limit"
  | offset => "offset"
  | doc => "doc"
  | subject => "subject"
  | filters => "filters"
  | connective => "connective"
  | orderBy => "order-by"
  | token => "token"
  | named => "named"
  | help => "help"
  | version => "version"

def short? : OptionName → Option Char
  | dialect => some 'd'
  | subject => some 's'
  | filters => some 'f'
  | token => some 't'
  | help => some 'h'
  | version => some 'V'
  | _ => none

def takesValue : OptionName → Bool
  | named => false
  | help => false
  | version => false
  | _ => true

def isRepeatable : OptionName → Bool
  | orderBy => true
  | token => true
  | _ => false

def environmentName? : OptionName → Option String
  | dialect => some "SQLCOMPOSER_DIALECT"
  | maxPasses => some "SQLCOMPOSER_MAX_PASSES"
  | doc => some "SQLCOMPOSER_DOC"
  | _ => none

end OptionName

def Setting.name : Setting → OptionName
  | dialect _ => .dialect
  | maxPasses _ => .maxPasses
  | limit _ => .limit
  | offset _ => .offset
  | doc _ => .doc
  | subject _ => .subject
  | filters _ => .filters
  | connective _ => .connective
  | orderBy _ => .orderBy
  | token _ _ => .token
  | named => .named

/-- A whole number that fits 64 bits; a plus sign may stand in front. -/
def number? (s : String) : Option Nat :=
  let digits :=
    match s.toList with
    | '+' :: rest => rest
    | cs => cs
  if digits.isEmpty || !digits.all Char.isDigit then none
  else
    let n := digits.foldl (fun n c => 10 * n + (c.toNat - 48)) 0
    if n < UInt64.size then some n else none

def orderTerm? (s : String) : Option OrderTerm :=
  let named (name : List Char) (d : Direction) : Option OrderTerm :=
    if name.isEmpty then none else some ⟨String.ofList name, d⟩
  match Text.cutAt ':' s.toList with
  | none => named s.toList .ascending
  | some (name, direction) =>
    let direction := Text.lowercase (String.ofList direction)
    if direction = "asc" then named name .ascending
    else if direction = "desc" then named name .descending
    else none

def OptionName.read (o : OptionName) (s : String) : Except UsageFault Setting :=
  let accepted (v : Option Setting) : Except UsageFault Setting :=
    match v with
    | some v => .ok v
    | none => .error .refusedValue
  match o with
  | dialect => accepted ((Dialect.parse s).toOption.map .dialect)
  | maxPasses => accepted ((number? s).map .maxPasses)
  | limit => accepted ((number? s).map .limit)
  | offset => accepted ((number? s).map .offset)
  | doc => if s.isEmpty then .error .missingValue else .ok (.doc s)
  | subject => .ok (.subject s)
  | filters => .ok (.filters s)
  | connective => accepted ((Connective.parse s).toOption.map .connective)
  | orderBy => accepted ((orderTerm? s).map .orderBy)
  | token => accepted ((Text.keyValue s).map fun (k, v) => .token k v)
  | named => .ok .named
  | help => .error .help
  | version => .error .version

structure Grammar where
  options : List OptionName
  commands : List String
  required : List OptionName

def sharedOptions : List OptionName := [.dialect, .maxPasses, .limit, .offset]

def Grammar.top : Grammar :=
  ⟨sharedOptions ++ [.help, .version], ["render", "inspect"], []⟩

def Grammar.render : Grammar :=
  { options := [.doc, .subject, .filters, .connective, .orderBy, .token, .named]
      ++ sharedOptions ++ [.help]
    commands := []
    required := [.doc, .subject] }

def Grammar.inspect : Grammar := ⟨.doc :: sharedOptions ++ [.help], [], [.doc]⟩

/-- Settings read so far, and the option whose value has not been looked at yet. -/
structure Level where
  given : List Setting
  pending : Option (OptionName × Option String)

namespace Level

def start : Level := ⟨[], none⟩

def isGiven (l : Level) (o : OptionName) : Bool := l.given.any fun s => s.name = o

def take (l : Level) (o : OptionName) (value : String) : Except UsageFault Level :=
  if !o.isRepeatable && l.isGiven o then .error .repeatedOption
  else (o.read value).map fun s => { l with given := l.given ++ [s] }

def resolve (l : Level) : Except UsageFault Level :=
  match l.pending with
  | none => .ok l
  | some (_, none) => .error .missingValue
  | some (o, some value) => { l with pending := none }.take o value

def awaits (l : Level) : Bool :=
  match l.pending with
  | some (_, none) => true
  | _ => false

def takeOption (l : Level) (o : OptionName) (value : Option String) : Except UsageFault Level :=
  if o.takesValue then
    l.resolve.bind fun l =>
      match value with
      | some v => l.take o v
      | none => .ok { l with pending := some (o, none) }
  else if value.isSome then .error .unexpectedValue
  else l.resolve.bind fun l => l.take o ""

def takeLong (g : Grammar) (l : Level) (s : List Char) : Except UsageFault Level :=
  let (name, value) :=
    match Text.cutAt '=' s with
    | some (name, value) => (name, some (String.ofList value))
    | none => (s, none)
  match g.options.find? fun o => o.long = String.ofList name with
  | some o => l.takeOption o value
  | none => .error .unknownArgument

def takeShort (g : Grammar) (l : Level) : List Char → Except UsageFault Level
  | [] => .ok l
  | c :: rest =>
    match g.options.find? fun o => o.short? = some c with
    | none => .error .unknownArgument
    | some o =>
      if o.takesValue then
        match rest with
        | [] => l.takeOption o none
        | '=' :: value => l.takeOption o (some (String.ofList value))
        | value => l.takeOption o (some (String.ofList value))
      else
        match l.takeOption o none with
        | .ok l => takeShort g l rest
        | .error e => .error e

end Level

def helpFault : List String → UsageFault
  | [] => .help
  | [c] => if c ∈ "help" :: Grammar.top.commands then .help else .unknownCommand
  | _ => .unknownCommand

def strayWord (g : Grammar) (afterDashes : Bool) (word : String) : UsageFault :=
  if g.commands.isEmpty then .unknownArgument
  else if afterDashes && word ∈ "help" :: g.commands then .unknownArgument
  else .unknownCommand

def readLevel (g : Grammar) (l : Level) :
    List String → Except UsageFault (Level × Option (String × List String))
  | [] => .ok (l, none)
  | word :: rest =>
    let onward (l : Except UsageFault Level) :
        Except UsageFault (Level × Option (String × List String)) :=
      match l with
      | .ok l => readLevel g l rest
      | .error e => .error e
    if !l.awaits && word ∈ g.commands then .ok (l, some (word, rest))
    else if !l.awaits && !g.commands.isEmpty && word = "help" then .error (helpFault rest)
    else
      match word.toList with
      | ['-', '-'] =>
        match rest with
        | [] => .ok (l, none)
        | stray :: _ => .error (strayWord g true stray)
      | '-' :: '-' :: s => onward (l.takeLong g s)
      | '-' :: c :: s => onward (l.takeShort g (c :: s))
      | _ =>
        match l.pending with
        | some (o, none) => onward (.ok { l with pending := some (o, some word) })
        | _ => .error (strayWord g false word)

structure Settled where
  given : List Setting
  fallback : List Setting

def settle (g : Grammar) (env : String → Option String) (l : Level) : Except UsageFault Settled :=
  l.resolve.bind fun l =>
    let missing := g.options.filter fun o => !l.isGiven o
    let found := missing.filterMap fun o => (o.environmentName?.bind env).map fun v => o.read v
    (found.mapM id).map fun fallback => ⟨l.given, fallback⟩

def Settled.has (s : Settled) (o : OptionName) : Bool :=
  (s.given ++ s.fallback).any fun v => v.name = o

structure RenderRequest where
  subject : String
  filters : Option String
  connective : Connective
  order : List OrderTerm
  tokens : List (String × String)
  named : Bool

inductive Action where
  | render (r : RenderRequest)
  | inspect

structure Invocation where
  overrides : Overrides
  doc : String
  action : Action

def Overrides.ofSettings (settings : List Setting) : Overrides :=
  { dialect := settings.findSome? fun
      | .dialect d => some d
      | _ => none
    passes := settings.findSome? fun
      | .maxPasses n => some n
      | _ => none
    size := settings.findSome? fun
      | .limit n => some n
      | _ => none
    offset := settings.findSome? fun
      | .offset n => some n
      | _ => none }

def RenderRequest.ofSettings (settings : List Setting) : RenderRequest :=
  { subject := (settings.findSome? fun
      | .subject key => some key
      | _ => none).getD ""
    filters := settings.findSome? fun
      | .filters json => some json
      | _ => none
    connective := (settings.findSome? fun
      | .connective c => some c
      | _ => none).getD .and
    order := settings.filterMap fun
      | .orderBy t => some t
      | _ => none
    tokens := settings.filterMap fun
      | .token name text => some (name, text)
      | _ => none
    named := settings.any fun s => s.name = .named }

def Invocation.ofSettings (command : String) (settings : List Setting) : Invocation :=
  { overrides := Overrides.ofSettings settings
    doc := (settings.findSome? fun
      | .doc path => some path
      | _ => none).getD ""
    action :=
      if command = "inspect" then .inspect else .render (RenderRequest.ofSettings settings) }

/-- A setting behind the command's name is preferred to one in front of it, and both to the
environment. -/
def parse (env : String → Option String) (words : List String) : Except UsageFault Invocation := do
  let (top, command) ← readLevel .top .start words
  match command with
  | none =>
    let s ← settle .top env top
    .error (if s.given.isEmpty && s.fallback.isEmpty then .nothingGiven else .missingCommand)
  | some (name, rest) =>
    let g := if name = "inspect" then Grammar.inspect else Grammar.render
    let (inner, _) ← readLevel g .start rest
    let inner ← settle g env inner
    if g.required.any fun o => !inner.has o then .error .missingOption
    else
      let outer ← settle .top env top
      let all := inner.given ++ outer.given ++ inner.fallback ++ outer.fallback
      return Invocation.ofSettings name all

end ClauseWeave.Command
