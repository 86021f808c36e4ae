import ClauseWeave.Source.Yaml.Lexeme

namespace ClauseWeave

/-- What cannot be read is broken: an alias inside its own anchor, or one that would let the tree
grow beyond measure. -/
inductive Yaml where
  | scalar (tag : Option String) (style : Yaml.Style) (text : String)
  | list (tag : Option String) (items : List Yaml)
  | record (tag : Option String) (entries : List (Yaml × Yaml))
  | broken
  deriving Inhabited

namespace Yaml

structure Sized where
  node : Yaml
  size : Nat
  height : Nat

def greatestSize : Nat := 100000

def greatestDepth : Nat := 128

mutual

def upTo : Nat → Yaml → Yaml
  | _, scalar tag style text => scalar tag style text
  | 0, _ => broken
  | depth + 1, list tag items => list tag (upToItems depth items)
  | depth + 1, record tag entries => record tag (upToEntries depth entries)
  | _ + 1, broken => broken

def upToItems (depth : Nat) : List Yaml → List Yaml
  | [] => []
  | n :: rest => upTo depth n :: upToItems depth rest

def upToEntries (depth : Nat) : List (Yaml × Yaml) → List (Yaml × Yaml)
  | [] => []
  | (k, n) :: rest => (upTo depth k, upTo depth n) :: upToEntries depth rest

end

/-- Handles and anchors in force; an anchor whose node is not complete yet marks nothing. -/
structure Scope where
  prefixes : List (List Char × List Char)
  anchors : List (List Char × Option Sized)

def Scope.standard : List (List Char × List Char) :=
  [(['!'], ['!']), (['!', '!'], "tag:yaml.org,2002:".toList)]

def Scope.mark (sc : Scope) (name : Option (List Char)) (n : Option Sized) : Scope :=
  match name with
  | some name => { sc with anchors := (name, n) :: sc.anchors }
  | none => sc

def Scope.alias? (sc : Scope) (name : List Char) : Option Sized :=
  (sc.anchors.lookup name).map fun n =>
    match n with
    | some n => if greatestSize < n.size then ⟨broken, 1, 1⟩ else n
    | none => ⟨broken, 1, 1⟩

def Scope.tag? (sc : Scope) : Option (List Char × List Char) → Option (Option String)
  | none => some none
  | some ([], suffix) => some (if suffix = ['!'] then none else some (String.ofList suffix))
  | some (handle, suffix) =>
    (sc.prefixes.lookup handle).map fun start => some (String.ofList (start ++ suffix))

def emptyScalar (tag : Option String) : Yaml := .scalar tag .plain ""

def properties (ls : List Lexeme) :
    Option (List Char) × Option (List Char × List Char) × List Lexeme :=
  match ls with
  | .anchor a :: .tag h s :: rest => (some a, some (h, s), rest)
  | .tag h s :: .anchor a :: rest => (some a, some (h, s), rest)
  | .anchor a :: rest => (some a, none, rest)
  | .tag h s :: rest => (none, some (h, s), rest)
  | rest => (none, none, rest)

def closesBlockValue : List Lexeme → Bool
  | .key :: _ => true
  | .value :: _ => true
  | .blockEnd :: _ => true
  | _ => false

def closesBlockItem : List Lexeme → Bool
  | .blockEntry :: _ => true
  | .blockEnd :: _ => true
  | _ => false

def closesPlainItem (ls : List Lexeme) : Bool := closesBlockItem ls || closesBlockValue ls

def closesFlowValue : List Lexeme → Bool
  | .flowEntry :: _ => true
  | .flowMappingEnd :: _ => true
  | _ => false

def closesFlowKey (ls : List Lexeme) : Bool :=
  closesFlowValue ls || (match ls with | .value :: _ => true | _ => false)

def closesPairValue : List Lexeme → Bool
  | .flowEntry :: _ => true
  | .flowSequenceEnd :: _ => true
  | _ => false

def closesPairKey (ls : List Lexeme) : Bool :=
  closesPairValue ls || (match ls with | .value :: _ => true | _ => false)

abbrev Read (α : Type) := Option (α × Scope × List Lexeme)

def Sized.empty : Sized := ⟨emptyScalar none, 1, 0⟩

def highest (nodes : List Sized) : Nat := nodes.foldl (fun h n => max h n.height) 0

def total (sizes : List Nat) : Nat := sizes.foldl (· + ·) 0

def ofItems (tag : Option String) (items : List Sized) : Sized :=
  ⟨.list tag (items.map (·.node)), total (items.map (·.size)) + 1, highest items + 1⟩

def ofEntries (tag : Option String) (entries : List (Sized × Sized)) : Sized :=
  ⟨.record tag (entries.map fun e => (e.1.node, e.2.node)),
    total (entries.map fun e => e.1.size + e.2.size) + 1,
    highest (entries.flatMap fun e => [e.1, e.2]) + 1⟩

mutual

/-- A node. Block collections are allowed if `block`, and a list of entries at the indent of the
mapping around it if `indentless`. -/
def node? (block indentless : Bool) : Nat → Scope → List Lexeme → Read Sized
  | 0, _, _ => none
  | fuel + 1, sc, ls =>
    match ls with
    | .alias name :: rest => (sc.alias? name).map fun n => (n, sc, rest)
    | ls =>
      let (anchor, tag, rest) := properties ls
      match sc.tag? tag with
      | none => none
      | some tag =>
        let open_ := sc.mark anchor none
        let found : Read Sized :=
          match rest with
          | .scalar style text :: rest =>
            some (⟨.scalar tag style (String.ofList text), 1, 0⟩, open_, rest)
          | .blockEntry :: _ =>
            if indentless then (plainItems? fuel open_ rest).map fun (items, more) =>
              (ofItems tag items, more)
            else if anchor.isSome || tag.isSome then some (⟨emptyScalar tag, 1, 0⟩, open_, rest)
            else none
          | .flowSequenceStart :: rest =>
            (flowItems? true fuel open_ rest).map fun (items, more) => (ofItems tag items, more)
          | .flowMappingStart :: rest =>
            (flowEntries? true fuel open_ rest).map fun (es, more) => (ofEntries tag es, more)
          | .blockSequenceStart :: rest =>
            if block then (blockItems? fuel open_ rest).map fun (items, more) =>
              (ofItems tag items, more)
            else none
          | .blockMappingStart :: rest =>
            if block then (blockEntries? fuel open_ rest).map fun (es, more) =>
              (ofEntries tag es, more)
            else none
          | rest =>
            if anchor.isSome || tag.isSome then some (⟨emptyScalar tag, 1, 0⟩, open_, rest)
            else none
        found.map fun (n, sc, rest) => (n, sc.mark anchor (some n), rest)

def blockItems? : Nat → Scope → List Lexeme → Read (List Sized)
  | 0, _, _ => none
  | fuel + 1, sc, ls =>
    match ls with
    | .blockEntry :: rest =>
      if closesBlockItem rest then
        (blockItems? fuel sc rest).map fun (items, more) => (.empty :: items, more)
      else
        match node? true false fuel sc rest with
        | some (n, sc, rest) =>
          (blockItems? fuel sc rest).map fun (items, more) => (n :: items, more)
        | none => none
    | .blockEnd :: rest => some ([], sc, rest)
    | _ => none

def plainItems? : Nat → Scope → List Lexeme → Read (List Sized)
  | 0, _, _ => none
  | fuel + 1, sc, ls =>
    match ls with
    | .blockEntry :: rest =>
      if closesPlainItem rest then
        (plainItems? fuel sc rest).map fun (items, more) => (.empty :: items, more)
      else
        match node? true false fuel sc rest with
        | some (n, sc, rest) =>
          (plainItems? fuel sc rest).map fun (items, more) => (n :: items, more)
        | none => none
    | rest => some ([], sc, rest)

def blockEntries? : Nat → Scope → List Lexeme → Read (List (Sized × Sized))
  | 0, _, _ => none
  | fuel + 1, sc, ls =>
    match ls with
    | .key :: rest =>
      let key : Read Sized :=
        if closesBlockValue rest then some (.empty, sc, rest) else node? true true fuel sc rest
      match key with
      | none => none
      | some (k, sc, rest) =>
        match blockValue? fuel sc rest with
        | none => none
        | some (v, sc, rest) =>
          (blockEntries? fuel sc rest).map fun (es, more) => ((k, v) :: es, more)
    | .blockEnd :: rest => some ([], sc, rest)
    | _ => none

def blockValue? : Nat → Scope → List Lexeme → Read Sized
  | 0, _, _ => none
  | fuel + 1, sc, ls =>
    match ls with
    | .value :: rest =>
      if closesBlockValue rest then some (.empty, sc, rest) else node? true true fuel sc rest
    | rest => some (.empty, sc, rest)

def flowItems? (first : Bool) : Nat → Scope → List Lexeme → Read (List Sized)
  | 0, _, _ => none
  | fuel + 1, sc, ls =>
    let item (ls : List Lexeme) : Read (List Sized) :=
      match ls with
      | .flowSequenceEnd :: rest => some ([], sc, rest)
      | .key :: rest =>
        match pair? fuel sc rest with
        | some (n, sc, rest) =>
          (flowItems? false fuel sc rest).map fun (items, more) => (n :: items, more)
        | none => none
      | ls =>
        match node? false false fuel sc ls with
        | some (n, sc, rest) =>
          (flowItems? false fuel sc rest).map fun (items, more) => (n :: items, more)
        | none => none
    match ls with
    | .flowSequenceEnd :: rest => some ([], sc, rest)
    | ls =>
      if first then item ls
      else
        match ls with
        | .flowEntry :: rest => item rest
        | _ => none

def pair? : Nat → Scope → List Lexeme → Read Sized
  | 0, _, _ => none
  | fuel + 1, sc, ls =>
    let key : Read Sized :=
      if closesPairKey ls then some (.empty, sc, ls.drop 1) else node? false false fuel sc ls
    match key with
    | none => none
    | some (k, sc, rest) =>
      match rest with
      | .value :: rest =>
        if closesPairValue rest then some (ofEntries none [(k, .empty)], sc, rest)
        else
          (node? false false fuel sc rest).map fun (v, more) => (ofEntries none [(k, v)], more)
      | rest => some (ofEntries none [(k, .empty)], sc, rest)

def flowEntries? (first : Bool) : Nat → Scope → List Lexeme → Read (List (Sized × Sized))
  | 0, _, _ => none
  | fuel + 1, sc, ls =>
    let entry (ls : List Lexeme) : Read (List (Sized × Sized)) :=
      match ls with
      | .flowMappingEnd :: rest => some ([], sc, rest)
      | .key :: rest =>
        let key : Read Sized :=
          if closesFlowKey rest then some (.empty, sc, rest) else node? false false fuel sc rest
        match key with
        | none => none
        | some (k, sc, rest) =>
          match flowValue? fuel sc rest with
          | none => none
          | some (v, sc, rest) =>
            (flowEntries? false fuel sc rest).map fun (es, more) => ((k, v) :: es, more)
      | ls =>
        match node? false false fuel sc ls with
        | some (k, sc, rest) =>
          (flowEntries? false fuel sc rest).map fun (es, more) => ((k, .empty) :: es, more)
        | none => none
    match ls with
    | .flowMappingEnd :: rest => some ([], sc, rest)
    | ls =>
      if first then entry ls
      else
        match ls with
        | .flowEntry :: rest => entry rest
        | _ => none

def flowValue? : Nat → Scope → List Lexeme → Read Sized
  | 0, _, _ => none
  | fuel + 1, sc, ls =>
    match ls with
    | .value :: rest =>
      if closesFlowValue rest then some (.empty, sc, rest) else node? false false fuel sc rest
    | rest => some (.empty, sc, rest)

end

/-- The directives in front of a document: one version at most, and no handle twice. -/
def directives? (versioned : Bool) (own : List (List Char × List Char)) :
    List Lexeme → Option (List (List Char × List Char) × List Lexeme)
  | .version major minor :: rest =>
    if versioned || major ≠ 1 || (minor ≠ 1 && minor ≠ 2) then none
    else directives? true own rest
  | .tagPrefix handle start :: rest =>
    if (own.lookup handle).isSome then none
    else directives? versioned ((handle, start) :: own) rest
  | rest => some (own ++ Scope.standard, rest)

def endsDocument : List Lexeme → Bool
  | [] => true
  | .documentStart :: _ => true
  | .documentEnd :: _ => true
  | .version _ _ :: _ => true
  | .tagPrefix _ _ :: _ => true
  | _ => false

/-- A text holds one document. Only a document without a `---` in front may come unannounced. -/
def document? (ls : List Lexeme) : Option Yaml :=
  match directives? false [] ls with
  | none => none
  | some (prefixes, rest) =>
    let announced := endsDocument ls
    let body? : Option (List Lexeme) :=
      match rest with
      | .documentStart :: rest => some rest
      | rest => if announced then none else some rest
    match body? with
    | none => none
    | some body =>
      let sc : Scope := ⟨prefixes, []⟩
      let content : Read Sized :=
        if announced && endsDocument body then some (.empty, sc, body)
        else node? true false (4 * body.length + 4) sc body
      match content with
      | some (n, _, rest) =>
        if !(rest.dropWhile (· == .documentEnd)).isEmpty then none
        else some (if n.height ≤ greatestDepth then n.node else upTo greatestDepth n.node)
      | none => none

def parse (s : String) : Option Yaml := (lexemes? s).bind document?

end Yaml

end ClauseWeave
