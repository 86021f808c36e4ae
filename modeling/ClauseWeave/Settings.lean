import ClauseWeave.Source.Reading
import ClauseWeave.Source.Written
import ClauseWeave.Template.Expansion

namespace ClauseWeave

/-- The settings block of a document; members that it does not know are kept for a warning. -/
structure Settings where
  dialect : Option Dialect
  passes : Option Nat
  page : Option Page
  extra : List (String × Value)

namespace Settings

def fieldNames : List String := ["dialect", "maxTemplatePasses", "limit"]

open Format

def read? {N : Type} [Format N] (n : N) : Option Settings := do
  let entries ← record? n
  let fields ← known fieldNames entries
  let dialect ← optional fields "dialect" (tagOf Dialect.ofName?)
  let passes ← optional fields "maxTemplatePasses" nat?
  let page ← optional fields "limit" Page.read?
  let others ← (entries.filter (·.1 ∉ fieldNames)).mapM fun e => (extra? e.2).map fun v => (e.1, v)
  return ⟨dialect, passes, page, others.foldl (fun ms e => Value.setMember e.1 e.2 ms) []⟩

end Settings

inductive Warning where
  | unknownSettings (names : List String)
  | zeroPasses
  | undeclaredToken (name : String)
  deriving DecidableEq, Repr

def Warning.message : Warning → String
  | unknownSettings names =>
    "Unknown fields in settings (possible typos) fields=" ++ ", ".intercalate names
  | zeroPasses =>
    "maxTemplatePasses must be at least 1, using default default=" ++ toString defaultPasses
  | undeclaredToken name => "Token is not declared in the document, ignoring token=" ++ name

def Settings.warnings (s : Settings) : List Warning :=
  (if s.extra.isEmpty then [] else [.unknownSettings (s.extra.map Prod.fst)])
    ++ (if s.passes = some 0 then [.zeroPasses] else [])

structure Config where
  dialect : Dialect
  passes : Nat
  page : Page
  deriving DecidableEq, Repr

structure Overrides where
  dialect : Option Dialect
  passes : Option Nat
  size : Option Nat
  offset : Option Nat
  deriving DecidableEq, Repr

namespace Config

def default : Config := ⟨.sqlite, defaultPasses, .first⟩

/-- A block that allows no pass at all is read as if it had not said so. -/
def ofSettings : Option Settings → Config
  | none => default
  | some s =>
    { dialect := s.dialect.getD default.dialect
      passes := if s.passes = some 0 then default.passes else s.passes.getD default.passes
      page := s.page.getD default.page }

def noPasses : String := "Template pass limit must be at least 1"

def resolve (settings : Option Settings) (o : Overrides) : Except String Config :=
  let base := ofSettings settings
  let config : Config :=
    { dialect := o.dialect.getD base.dialect
      passes := o.passes.getD base.passes
      page := ⟨o.offset.getD base.page.offset, o.size.getD base.page.size⟩ }
  if config.passes = 0 then .error noPasses else .ok config

def written (c : Config) : Value :=
  .object [
    ("dialect", .text c.dialect.name),
    ("max_template_passes", .nat c.passes),
    ("limit", c.page.written)]

end Config

end ClauseWeave
