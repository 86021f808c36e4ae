import ClauseWeave.Proofs.Entries
import ClauseWeave.Proofs.Rendering

namespace ClauseWeave

inductive Part where
  | piece (p : Piece)
  | value (v : Value)
  deriving DecidableEq

/-- A marker to which nothing is bound stays a marker. -/
def Piece.resolve (arguments : Dict Value) : Piece → Part
  | marker name =>
    ((arguments.get? (String.ofList name)).map Part.value).getD (.piece (marker name))
  | p => .piece p

def resolve (arguments : Dict Value) (s : String) : List Part :=
  (scan s).map (Piece.resolve arguments)

def Bound (arguments : Dict Value) (s : String) : Prop :=
  ∀ name ∈ markersIn s, name ∈ arguments.keys

instance (arguments : Dict Value) (s : String) : Decidable (Bound arguments s) :=
  inferInstanceAs (Decidable (∀ name ∈ markersIn s, name ∈ arguments.keys))

def Part.char (c : Char) : Part := .piece (.other c)

@[simp]
theorem Piece.resolve_other (arguments : Dict Value) (c : Char) :
    (other c).resolve arguments = .char c := rfl

theorem Piece.resolve_marker {arguments : Dict Value} {name : List Char} {v : Value}
    (h : arguments.get? (String.ofList name) = some v) :
    (marker name).resolve arguments = .value v := by
  simp [resolve, h]

theorem resolve_extends {arguments all : Dict Value} {s : String} (hall : arguments.Extends all)
    (h : Bound arguments s) : resolve all s = resolve arguments s := by
  apply List.map_congr_left
  intro p hp
  cases p with
  | marker name =>
      obtain ⟨v, hv⟩ := Dict.mem_keys_iff.1 (h (String.ofList name) (mem_markersIn.2 (by simpa)))
      rw [Piece.resolve_marker hv, Piece.resolve_marker (hall _ _ hv)]
  | other c | cast | literal text => rfl

/-- The renaming leads each name of `own` to a name under which `all` holds the same value. -/
structure Carries (own all : Dict Value) (renames : Dict String) : Prop where
  value : ∀ name v, own.get? name = some v → all.get? (renamed renames name) = some v
  isName : ∀ name ∈ own.keys, IsName name → IsName (renamed renames name)
  inj : ∀ name ∈ own.keys, ∀ other ∈ own.keys,
    renamed renames name = renamed renames other → name = other

theorem Carries.extends {own all more : Dict Value} {renames : Dict String}
    (h : Carries own all renames) (hall : all.Extends more) : Carries own more renames :=
  ⟨fun name v hv => hall _ _ (h.value name v hv), h.isName, h.inj⟩

section Renaming

variable {own all : Dict Value} {renames : Dict String} {s : String}

theorem Carries.isName_renamed (h : Carries own all renames) (hs : Bound own s) :
    ∀ name ∈ markersIn s, IsName (renamed renames name) :=
  fun name hname => h.isName name (hs name hname) (isName_of_mem_markersIn hname)

theorem Carries.markersIn_relabel (h : Carries own all renames) (hs : Bound own s) :
    markersIn (relabel renames s) = (markersIn s).map (renamed renames) :=
  ClauseWeave.markersIn_relabel (h.isName_renamed hs)

theorem Carries.bound_relabel (h : Carries own all renames) (hs : Bound own s) :
    Bound all (relabel renames s) := by
  intro name hname
  rw [h.markersIn_relabel hs] at hname
  obtain ⟨old, hold, rfl⟩ := List.mem_map.1 hname
  obtain ⟨v, hv⟩ := Dict.mem_keys_iff.1 (hs old hold)
  exact Dict.mem_keys_of_get? (h.value old v hv)

theorem Carries.map_resolve_rename (h : Carries own all renames) {ps : List Piece}
    (hps : ∀ name, .marker name ∈ ps → String.ofList name ∈ own.keys) :
    (ps.map (Piece.rename renames)).map (Piece.resolve all) = ps.map (Piece.resolve own) := by
  rw [List.map_map]
  apply List.map_congr_left
  intro p hp
  cases p with
  | marker name =>
      obtain ⟨v, hv⟩ := Dict.mem_keys_iff.1 (hps name hp)
      rw [Piece.resolve_marker hv, Function.comp_apply, Piece.rename_marker]
      apply Piece.resolve_marker
      rw [String.ofList_toList]
      exact h.value _ v hv
  | other c | cast | literal text => rfl

theorem Carries.resolve_relabel (h : Carries own all renames) (hs : Bound own s) :
    resolve all (relabel renames s) = resolve own s := by
  rw [resolve, scan_relabel (h.isName_renamed hs)]
  exact h.map_resolve_rename fun name hname => hs _ (mem_markersIn.2 (by simpa))

end Renaming

def Connective.parts (c : Connective) : List Part := c.separator.toList.map Part.char

def inParens (ps : List Part) : List Part := .char '(' :: (ps ++ [.char ')'])

theorem resolve_paren (arguments : Dict Value) (s : String) :
    resolve arguments ("(" ++ s ++ ")") = inParens (resolve arguments s) := by
  simp [resolve, scan_paren, inParens]

theorem map_intercalate {α β : Type} (f : α → β) (sep : List α) (lists : List (List α)) :
    (sep.intercalate lists).map f = (sep.map f).intercalate (lists.map (List.map f)) := by
  induction lists with
  | nil => rfl
  | cons l rest ih =>
      cases rest with
      | nil => simp
      | cons m rest => simpa using ih

theorem flatMap_intercalate {α β : Type} (f : α → List β) (sep : List α) (lists : List (List α)) :
    (sep.intercalate lists).flatMap f = (sep.flatMap f).intercalate (lists.map (List.flatMap f)) := by
  induction lists with
  | nil => rfl
  | cons l rest ih =>
      cases rest with
      | nil => simp
      | cons m rest => simpa using ih

theorem nil_intercalate {α : Type} (lists : List (List α)) :
    ([] : List α).intercalate lists = lists.flatten := by
  induction lists with
  | nil => rfl
  | cons l rest ih => cases rest <;> simp_all

theorem resolve_intercalate (arguments : Dict Value) (c : Connective) (texts : List String) :
    resolve arguments (c.separator.intercalate texts) =
      c.parts.intercalate (texts.map (resolve arguments)) := by
  rw [resolve, scan_intercalate, map_intercalate, scan_separator, List.map_map, List.map_map]
  rfl

end ClauseWeave
