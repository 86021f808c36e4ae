import ClauseWeave.Proofs.Binding
import ClauseWeave.Proofs.Spacing
import ClauseWeave.Session

namespace ClauseWeave

open Piece (Reading)

theorem suffix_append_cases {α : Type} {a : α} {tail s t : List α} (h : (a :: tail) <:+ s ++ t) :
    (a :: tail) <:+ t ∨ ∃ inside, (a :: inside) <:+ s ∧ tail = inside ++ t := by
  obtain ⟨front, hfront⟩ := h
  rcases List.append_eq_append_iff.1 hfront with ⟨inside, hs, hrest⟩ | ⟨before, -, ht⟩
  · cases inside with
    | nil => exact .inl (hrest ▸ List.suffix_refl _)
    | cons b inside =>
        obtain ⟨rfl, htail⟩ := List.cons.inj hrest
        exact .inr ⟨inside, ⟨front, hs.symm⟩, htail⟩
  · exact .inl ⟨before, ht.symm⟩

/-- Whatever marker begins in the text has one of these names. A quote in an attribute hides what
follows from a reader of literals, so the pieces of a clause need not be those of its leaves, but
every marker begins at a colon and ends in the same leaf. -/
def Announces (r : Reading) (names : List String) (s : String) : Prop :=
  ∀ tail, (':' :: tail) <:+ s.toList → tail.takeWhile r.isName ≠ [] →
    String.ofList (tail.takeWhile r.isName) ∈ names

namespace Announces

variable {r : Reading} {names : List String} {s t : String}

theorem mem_of_marker (h : Announces r names s) {name : List Char}
    (hname : .marker name ∈ r.scan s) : String.ofList name ∈ names := by
  obtain ⟨tail, htail, he⟩ := Piece.suffix_of_marker_mem hname
  have hne : name ≠ [] := by simpa using (Piece.isName_of_marker_mem hname).1
  rw [he] at hne ⊢
  exact h tail htail hne

theorem mono (h : Announces r names s) {more : List String} (hsub : names ⊆ more) :
    Announces r more s :=
  fun tail htail hne => hsub (h tail htail hne)

theorem of_plain (h : Plain s) : Announces r names s :=
  fun _ htail _ => absurd rfl (h ':' (htail.subset (by simp)))

theorem append (hs : Announces r names s) (ht : Announces r names t)
    (hhead : ∀ c ∈ t.toList.head?, r.isName c = false) : Announces r names (s ++ t) := by
  intro tail htail hne
  rw [String.toList_append] at htail
  rcases suffix_append_cases htail with hin | ⟨inside, hin, rfl⟩
  · exact ht tail hin hne
  · have htake : (inside ++ t.toList).takeWhile r.isName = inside.takeWhile r.isName := by
      cases hlist : t.toList with
      | nil => rw [List.append_nil]
      | cons d rest => exact (takeWhile_append_cons (hhead d (by simp [hlist])) inside rest).1
    rw [htake] at hne ⊢
    exact hs inside hin hne

theorem prepend (hs : Plain s) (ht : Announces r names t) : Announces r names (s ++ t) := by
  intro tail htail hne
  rw [String.toList_append] at htail
  rcases suffix_append_cases htail with hin | ⟨inside, hin, -⟩
  · exact ht tail hin hne
  · exact absurd rfl (hs ':' (hin.subset (by simp)))

theorem marker (hr : r.Sound) {name : String} (hname : ∀ c ∈ name.toList, r.isName c = true)
    (hmem : name ∈ names) : Announces r names (":" ++ name) := by
  intro tail htail hne
  have htail : ':' :: tail <:+ ':' :: name.toList := by simpa using htail
  rcases List.suffix_cons_iff.1 htail with he | hinside
  · obtain ⟨-, rfl⟩ := List.cons.inj he
    rw [List.takeWhile_eq_self_iff.2 hname, String.ofList_toList]
    exact hmem
  · have hcolon := hname ':' (hinside.subset (by simp))
    simp [hr.apart ':' (by simp)] at hcolon

theorem intercalate (hr : r.Sound) (c : Connective) {texts : List String}
    (h : ∀ s ∈ texts, Announces r names s) : Announces r names (c.separator.intercalate texts) := by
  induction texts with
  | nil => exact of_plain (by simp [Plain])
  | cons s rest ih =>
      cases rest with
      | nil => simpa using h s (by simp)
      | cons t rest =>
          have hsep : Plain c.separator := by cases c <;> decide
          have hrest := ih fun u hu => h u (by simp [hu])
          rw [String.intercalate_cons_cons, String.append_assoc]
          refine (h s (by simp)).append (prepend hsep hrest) ?_
          simpa [Connective.separator] using hr.apart ' ' (by simp)

end Announces

/-- The attribute can give names to markers: behind its colon a reader finds the whole name. Without
markers, it only must not bring one itself. Nothing checks this of default conditions. -/
def Filter.Nameable (r : Reading) (f : Filter) : Prop :=
  if f.operator.arity = 0 then Plain f.path
  else ∀ c ∈ f.path.toList, c = '.' ∨ r.isName c = true

instance (r : Reading) (f : Filter) : Decidable (f.Nameable r) :=
  decidable_of_iff ((if f.operator.arity = 0 then f.path.toList.all (· != ':')
      else f.path.toList.all fun c => c == '.' || r.isName c) = true) <| by
    unfold Filter.Nameable
    split <;> simp [Plain]

namespace Phrase

variable {r : Reading}

theorem announces_single (hr : r.Sound) {path name : String} {op : Operator} (h : op.arity = 1)
    (hpath : Plain path) (hname : ∀ c ∈ name.toList, r.isName c = true) {names : List String}
    (hmem : name ∈ names) : Announces r names (text ⟨path, op, [name]⟩) := by
  have hfront : Plain (path ++ op.opening) := hpath.append op.plain_opening
  have hmarker := Announces.prepend hfront (.marker hr hname hmem)
  rw [← String.append_assoc] at hmarker
  rw [text_single path h]
  rcases op.closing_eq with he | he
  · rwa [he, String.append_empty]
  · rw [he]
    exact hmarker.append (.of_plain (by decide)) (by simpa using hr.apart ')' (by simp))

variable {p : Phrase}

theorem announces_text (hr : r.Sound) (hcount : p.names.length = p.operator.arity)
    (hpath : Plain p.path) (hnames : ∀ name ∈ p.names, ∀ c ∈ name.toList, r.isName c = true) :
    Announces r p.names p.text := by
  cases shape_of_count hcount with
  | single path h name => exact announces_single hr h hpath (hnames name (by simp)) (by simp)
  | range path negated low high =>
      have hlow : Announces r [low, high] (text ⟨path, .compare (.low negated), [low]⟩) :=
        announces_single hr rfl hpath (hnames low (by simp)) (by simp)
      have hhigh : Announces r [low, high] (text ⟨path, .compare (.high negated), [high]⟩) :=
        announces_single hr rfl hpath (hnames high (by simp)) (by simp)
      rw [text_range, String.append_assoc]
      refine hlow.append (.prepend (by decide) hhigh) ?_
      simpa [Connective.separator] using hr.apart ' ' (by simp)
  | null path negated =>
      rw [text_null]
      exact .of_plain (hpath.append (Operator.plain_opening _))

end Phrase

namespace Filter.Nameable

variable {r : Reading} {f : Filter}

theorem plain (hr : r.Sound) (h : f.Nameable r) : Plain f.path := by
  unfold Filter.Nameable at h
  split at h
  · exact h
  · rintro c hc rfl
    rcases h ':' hc with hdot | hname
    · exact absurd hdot (by decide)
    · simp [hr.apart ':' (by simp)] at hname

theorem isName (hr : r.Sound) (h : f.Nameable r) (harity : f.operator.arity ≠ 0) {name : String}
    (hname : Name.From f.path name) : ∀ c ∈ name.toList, r.isName c = true := by
  rw [Filter.Nameable, if_neg harity] at h
  intro c hc
  rcases hname.mem_toList hc with ⟨hpath, hdot⟩ | rfl | hdigit
  · exact (h c hpath).resolve_left hdot
  · exact hr.underscore
  · exact hr.digit c hdigit

end Filter.Nameable

section Filters

variable {r : Reading}

def Draft.Announced (r : Reading) (d : Draft) : Prop :=
  ∀ t ∈ d.leaves, Announces r d.arguments.keys t.render

theorem Draft.Announced.add (hr : r.Sound) {d d' : Draft} {f : Filter} (hd : d.Announced r)
    (hf : f.Nameable r) (h : d.add f = .ok d') : d'.Announced r := by
  obtain ⟨p, hvalid, hpath, hop, hleaves, hkeys⟩ :=
    @Draft.leaves_add (fun _ => True) d d' f trivial h
  have hnames : ∀ name ∈ p.names, ∀ c ∈ name.toList, r.isName c = true := by
    intro name hname
    refine hf.isName hr ?_ (hpath ▸ hvalid.names name hname)
    rw [← hop, ← hvalid.count]
    exact (List.length_pos_of_mem hname).ne'
  intro t ht
  rw [hleaves, List.mem_append] at ht
  rcases ht with ht | ht
  · exact (hd t ht).mono fun name hname => (hkeys name).2 (.inr hname)
  · obtain rfl := List.mem_singleton.1 ht
    have htext := p.announces_text hr hvalid.count (hpath ▸ hf.plain hr) hnames
    exact htext.mono fun name hname => (hkeys name).2 (.inl hname)

theorem announces_ofFilters (hr : r.Sound) {c : Connective} {fs : List Filter} {s : Statement}
    (hf : ∀ f ∈ fs, f.Nameable r) (h : Statement.ofFilters c fs = .ok s) :
    Announces r s.arguments.keys s.clause := by
  obtain ⟨d, hd, rfl⟩ := ofFilters_eq_ok h
  have hempty : Draft.empty.Announced r := by simp [Draft.Announced, Draft.empty]
  have hleaves := Draft.addAll_induction (fun f hfs _ _ hd => hd.add hr (hf f hfs)) hempty hd
  change Announces r d.arguments.keys (Body.ofTrees c d.leaves).clause
  rw [Body.clause_ofTrees]
  refine .intercalate hr c fun text htext => ?_
  obtain ⟨t, ht, rfl⟩ := List.mem_map.1 htext
  exact hleaves t ht

end Filters

theorem bind_eq_error {d : Dialect} {sql : String} {arguments : Dict Value} {e : BindFault}
    (h : bind d sql arguments = .error e) : ∃ name, .marker name ∈ Reading.narrow.scan sql ∧
      BoundQuery.valuesOf arguments (String.ofList name) = .error e := by
  obtain ⟨before, name, after, hscan, -, hrefuses⟩ := bind_eq_error_iff.1 h
  exact ⟨name, by simp [hscan], BoundQuery.refuses_iff.1 hrefuses⟩

theorem valuesOf_eq_error {arguments : Dict Value} {name : String} {e : BindFault}
    (h : BoundQuery.valuesOf arguments name = .error e) (hname : name ∈ arguments.keys) :
    arguments.get? name = some (.list []) ∧ e = .emptyList name := by
  cases BoundQuery.refuses_iff.2 h with
  | missing hnone => exact absurd hname (Dict.get?_eq_none_iff.1 hnone)
  | emptyList hempty => exact ⟨hempty, rfl⟩

theorem exists_start_iff {document : Document} (config : Config) {s : Statement} :
    (∃ session, Session.start document config = .ok session ∧ session.conditions = s) ↔
      Statement.ofFilters .and document.defaultConditions = .ok s := by
  unfold Session.start
  cases Statement.ofFilters .and document.defaultConditions <;> simp

/-- Where the attributes of all default conditions make good names, each marker in the conditions of
a new session has a value, and only an empty list keeps the conditions from being bound. -/
theorem start_bindable {document : Document} {config : Config} {session : Session}
    (h : Session.start document config = .ok session) :
    ((∀ f ∈ document.defaultConditions, f.Nameable .wide) →
        Bound session.conditions.arguments session.conditions.clause) ∧
      ((∀ f ∈ document.defaultConditions, f.Nameable .narrow) → ∀ d e,
        bind d session.conditions.clause session.conditions.arguments = .error e →
          ∃ name, e = .emptyList name ∧
            session.conditions.arguments.get? name = some (.list [])) := by
  have hs := (exists_start_iff config).1 ⟨session, h, rfl⟩
  constructor
  · intro hf name hname
    have hmarker := (announces_ofFilters .wide hf hs).mem_of_marker (mem_markersIn.1 hname)
    rwa [String.ofList_toList] at hmarker
  · intro hf d e he
    obtain ⟨name, hmarker, hvalues⟩ := bind_eq_error he
    have hkey := (announces_ofFilters .narrow hf hs).mem_of_marker hmarker
    obtain ⟨hget, rfl⟩ := valuesOf_eq_error hvalues hkey
    exact ⟨_, rfl, hget⟩

def Document.ofConditions (fs : List Filter) : Document := ⟨"", "", ∅, ∅, ∅, fs, ∅, none⟩

def members : Document := .ofConditions [
  ⟨"team.name", .compare .equal, .text "wolves"⟩, ⟨"born", .between true, .list [.nat 1, .nat 9]⟩,
  ⟨"tags", .among false, .list []⟩, ⟨"lower(nick)", .null false, .null⟩]

theorem start_bindable_members : ∃ session, Session.start members .default = .ok session ∧
    (∀ f ∈ members.defaultConditions, f.Nameable .wide) ∧
    (∀ f ∈ members.defaultConditions, f.Nameable .narrow) ∧
    Bound session.conditions.arguments session.conditions.clause ∧
    bind .postgres session.conditions.clause session.conditions.arguments =
      .error (.emptyList "tags") ∧
    session.conditions.arguments.get? "tags" = some (.list []) := by
  have hwide : ∀ f ∈ members.defaultConditions, f.Nameable .wide := by decide +kernel
  have hnarrow : ∀ f ∈ members.defaultConditions, f.Nameable .narrow := by decide +kernel
  have hfits : ∀ f ∈ members.defaultConditions, f.fits = true := by decide
  obtain ⟨s, hs⟩ := (exists_ofFilters_iff (c := .and)).2 hfits
  obtain ⟨session, hstart, rfl⟩ := (exists_start_iff .default).2 hs
  have hbind : ((Statement.ofFilters .and members.defaultConditions).toOption.map fun s =>
      bind .postgres s.clause s.arguments) = some (.error (.emptyList "tags")) := by
    decide +kernel
  rw [hs] at hbind
  replace hbind := Option.some.inj hbind
  obtain ⟨name, he, hget⟩ := (start_bindable hstart).2 hnarrow .postgres _ hbind
  obtain rfl := BindFault.emptyList.inj he
  exact ⟨session, hstart, hwide, hnarrow, (start_bindable hstart).1 hwide, hbind, hget⟩

def nicknames : Document := .ofConditions [⟨"lower(nick)", .compare .equal, .text "wang"⟩]

/-- The document is taken, but the marker of its condition is cut short and has no value. -/
theorem start_bindable_nicknames : ∃ session, Session.start nicknames .default = .ok session ∧
    ¬ Bound session.conditions.arguments session.conditions.clause ∧
    bind .sqlite session.conditions.clause session.conditions.arguments =
      .error (.missing "lower") := by
  have hfits : ∀ f ∈ nicknames.defaultConditions, f.fits = true := by decide
  obtain ⟨s, hs⟩ := (exists_ofFilters_iff (c := .and)).2 hfits
  have hbound : ((Statement.ofFilters .and nicknames.defaultConditions).toOption.map fun s =>
      decide (Bound s.arguments s.clause)) = some false := by decide +kernel
  have hbind : ((Statement.ofFilters .and nicknames.defaultConditions).toOption.map fun s =>
      bind .sqlite s.clause s.arguments) = some (.error (.missing "lower")) := by decide +kernel
  rw [hs] at hbound hbind
  obtain ⟨session, hstart, rfl⟩ := (exists_start_iff .default).2 hs
  exact ⟨session, hstart, of_decide_eq_false (Option.some.inj hbound), Option.some.inj hbind⟩

end ClauseWeave
