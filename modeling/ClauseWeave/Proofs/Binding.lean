import ClauseWeave.Binding
import ClauseWeave.Proofs.Phrasing

namespace ClauseWeave

/-- The character is the same to both readings of a text. -/
def Text.Agreed (c : Char) : Prop :=
  Piece.isQuote c = false ∧ Text.isNameChar c = Text.isWord c

instance (c : Char) : Decidable (Text.Agreed c) := instDecidableAnd

theorem takeWhile_congr {α : Type} {p q : α → Bool} {l : List α} (h : ∀ a ∈ l, p a = q a) :
    l.takeWhile p = l.takeWhile q ∧ l.dropWhile p = l.dropWhile q := by
  induction l with
  | nil => simp
  | cons a rest ih =>
      obtain ⟨htake, hdrop⟩ := ih fun b hb => h b (by simp [hb])
      simp [List.takeWhile_cons, List.dropWhile_cons, h a (by simp), htake, hdrop]

theorem Piece.pieces_narrow {s : List Char} (h : ∀ c ∈ s, Text.Agreed c) :
    pieces .narrow s = pieces .wide s := by
  fun_induction pieces Reading.wide s with
  | case1 => simp [pieces]
  | case2 c rest hlit => simp [Reading.wide] at hlit
  | case3 rest _ ih =>
      rw [← ih fun c hc => h c (by simp [hc]), pieces]
      simp [Reading.narrow, isQuote]
  | case4 rest hcolon name hempty _ ih =>
      have hsame := takeWhile_congr fun c hc => (h c (List.mem_cons_of_mem _ hc)).2
      have htake : rest.takeWhile Text.isWord = [] := List.isEmpty_iff.1 hempty
      rw [← ih fun c hc => h c (by simp [hc]), pieces]
      · simp [Reading.narrow, isQuote, hsame.1, htake]
      · exact hcolon
  | case5 rest hcolon name hne _ ih =>
      have hsame := takeWhile_congr fun c hc => (h c (List.mem_cons_of_mem _ hc)).2
      have htake : rest.takeWhile Text.isWord ≠ [] := mt List.isEmpty_iff.2 hne
      have hrest : ∀ c ∈ rest.dropWhile Text.isWord, Text.Agreed c :=
        fun c hc => h c (List.mem_cons_of_mem _ (List.dropWhile_subset _ hc))
      rw [← ih hrest, pieces]
      · simp [Reading.narrow, isQuote, hsame.1, hsame.2, htake, name, Reading.wide]
      · exact hcolon
  | case6 c rest _ hc ih =>
      rw [← ih fun c hc => h c (by simp [hc]), pieces.eq_def]
      simp [(h c (by simp)).1, hc]

deriving instance DecidableEq for BoundQuery

/-- A list takes up a slot for each of its items, any other value one. -/
def Value.items : Value → List Value
  | .list items => items
  | v => [v]

def Part.items : Part → List Value
  | .value v => v.items
  | .piece _ => []

namespace BoundQuery

theorem valuesOf_eq_ok_iff {arguments : Dict Value} {name : String} {vs : List Value} :
    valuesOf arguments name = .ok vs ↔
      ∃ v, arguments.get? name = some v ∧ v ≠ .list [] ∧ v.items = vs := by
  rw [valuesOf]
  cases arguments.get? name with
  | none => simp
  | some v =>
      cases v with
      | list items => cases items <;> simp [Value.items]
      | _ => simp [Value.items]

theorem valuesOf_eq_ok {arguments : Dict Value} {name : String} {v : Value}
    (h : arguments.get? name = some v) (hne : v ≠ .list []) :
    valuesOf arguments name = .ok v.items :=
  valuesOf_eq_ok_iff.2 ⟨v, h, hne, rfl⟩

theorem fill_cons (d : Dialect) (arguments : Dict Value) (bound : Nat) {p : Piece}
    (h : p.markerName? = none) (rest : List Piece) : fill d arguments bound (p :: rest) =
      (fill d arguments bound rest).map fun (sql, args) => (p.chars ++ sql, args) := by
  cases p with
  | marker name => simp at h
  | _ => rfl

def fault? (arguments : Dict Value) : Piece → Option BindFault
  | .marker name =>
    match valuesOf arguments (String.ofList name) with
    | .error e => some e
    | .ok _ => none
  | _ => none

def write (d : Dialect) (bound : Nat) : List Part → List Char
  | [] => []
  | .value v :: rest =>
    (slots d bound v.items.length).toList ++ write d (bound + v.items.length) rest
  | .piece p :: rest => p.chars ++ write d bound rest

theorem fill_eq (d : Dialect) (arguments : Dict Value) (bound : Nat) (ps : List Piece) :
    fill d arguments bound ps =
      match ps.findSome? (fault? arguments) with
      | some e => .error e
      | none => .ok (write d bound (ps.map (Piece.resolve arguments)),
          (ps.map (Piece.resolve arguments)).flatMap Part.items) := by
  induction ps generalizing bound with
  | nil => rfl
  | cons p rest ih =>
      cases p with
      | marker name =>
          cases hvs : valuesOf arguments (String.ofList name) with
          | error e => simp [fill, fault?, hvs]
          | ok vs =>
              obtain ⟨v, hv, -, rfl⟩ := valuesOf_eq_ok_iff.1 hvs
              rw [List.findSome?_cons_of_isNone (by simp [fault?, hvs]), List.map_cons,
                Piece.resolve_marker hv, fill, hvs]
              simp only [ih]
              cases rest.findSome? (fault? arguments) <;> rfl
      | other c | cast | literal text =>
          rw [List.findSome?_cons_of_isNone rfl, fill_cons d arguments bound rfl, ih]
          cases rest.findSome? (fault? arguments) <;> rfl

def Fillable (arguments : Dict Value) (ps : List Piece) : Prop :=
  ∀ name, .marker name ∈ ps → ∃ v, arguments.get? (String.ofList name) = some v ∧ v ≠ .list []

theorem fillable_iff {arguments : Dict Value} {ps : List Piece} :
    Fillable arguments ps ↔ ps.findSome? (fault? arguments) = none := by
  rw [List.findSome?_eq_none_iff]
  constructor
  · intro h p hp
    cases p with
    | marker name =>
        obtain ⟨v, hv, hne⟩ := h name hp
        rw [fault?, valuesOf_eq_ok hv hne]
    | _ => rfl
  · intro h name hname
    have hnone := h _ hname
    cases hvs : valuesOf arguments (String.ofList name) with
    | error e => simp [fault?, hvs] at hnone
    | ok vs =>
        obtain ⟨v, hv, hne, -⟩ := valuesOf_eq_ok_iff.1 hvs
        exact ⟨v, hv, hne⟩

theorem fill_eq_ok (d : Dialect) {arguments : Dict Value} {ps : List Piece}
    (h : Fillable arguments ps) (bound : Nat) : ∃ sql, fill d arguments bound ps =
      .ok (sql, (ps.map (Piece.resolve arguments)).flatMap Part.items) :=
  ⟨_, by rw [fill_eq, fillable_iff.1 h]⟩

inductive Refuses (arguments : Dict Value) (name : String) : BindFault → Prop
  | missing (h : arguments.get? name = none) : Refuses arguments name (.missing name)
  | emptyList (h : arguments.get? name = some (.list [])) :
      Refuses arguments name (.emptyList name)

theorem refuses_iff {arguments : Dict Value} {name : String} {e : BindFault} :
    Refuses arguments name e ↔ valuesOf arguments name = .error e := by
  constructor
  · rintro (h | h) <;> simp [valuesOf, h]
  · intro h
    unfold valuesOf at h
    split at h
    next hnone => exact Except.error.inj h ▸ .missing hnone
    next hempty => exact Except.error.inj h ▸ .emptyList hempty
    next => simp at h
    next => simp at h

theorem fault?_eq_some_iff {arguments : Dict Value} {p : Piece} {e : BindFault} :
    fault? arguments p = some e ↔
      ∃ name, p = .marker name ∧ Refuses arguments (String.ofList name) e := by
  cases p with
  | marker name =>
      simp only [fault?, Piece.marker.injEq, exists_eq_left', refuses_iff]
      cases valuesOf arguments (String.ofList name) <;> simp
  | _ => simp [fault?]

theorem findSome?_fault?_iff {arguments : Dict Value} {ps : List Piece} {e : BindFault} :
    ps.findSome? (fault? arguments) = some e ↔ ∃ before name after,
      ps = before ++ .marker name :: after ∧ Fillable arguments before ∧
        Refuses arguments (String.ofList name) e := by
  rw [List.findSome?_eq_some_iff]
  constructor
  · rintro ⟨before, p, after, rfl, hfault, hbefore⟩
    obtain ⟨name, rfl, hrefuses⟩ := fault?_eq_some_iff.1 hfault
    have hbefore := fillable_iff.2 (List.findSome?_eq_none_iff.2 hbefore)
    exact ⟨before, name, after, rfl, hbefore, hrefuses⟩
  · rintro ⟨before, name, after, rfl, hbefore, hrefuses⟩
    exact ⟨before, .marker name, after, rfl, fault?_eq_some_iff.2 ⟨name, rfl, hrefuses⟩,
      List.findSome?_eq_none_iff.1 (fillable_iff.1 hbefore)⟩

end BoundQuery

/-- What is bound to the markers that are filled, in their places. -/
def shown (arguments : Dict Value) (s : String) : List Part :=
  (Piece.Reading.narrow.scan s).map (Piece.resolve arguments)

theorem bind_eq (d : Dialect) (sql : String) (arguments : Dict Value) : bind d sql arguments =
    match (Piece.Reading.narrow.scan sql).findSome? (BoundQuery.fault? arguments) with
    | some e => .error e
    | none => .ok ⟨String.ofList (BoundQuery.write d 0 (shown arguments sql)),
        (shown arguments sql).flatMap Part.items⟩ := by
  change (BoundQuery.fill d arguments 0 (Piece.Reading.narrow.scan sql)).map _ = _
  rw [BoundQuery.fill_eq]
  cases (Piece.Reading.narrow.scan sql).findSome? (BoundQuery.fault? arguments) <;> rfl

theorem bind_eq_ok_iff {d : Dialect} {sql : String} {arguments : Dict Value} {q : BoundQuery} :
    bind d sql arguments = .ok q ↔
      BoundQuery.Fillable arguments (Piece.Reading.narrow.scan sql) ∧
        q = ⟨String.ofList (BoundQuery.write d 0 (shown arguments sql)),
          (shown arguments sql).flatMap Part.items⟩ := by
  rw [bind_eq, BoundQuery.fillable_iff]
  cases (Piece.Reading.narrow.scan sql).findSome? (BoundQuery.fault? arguments) with
  | some e => simp
  | none =>
      simp only [Except.ok.injEq, true_and]
      exact eq_comm

theorem bind_eq_error_iff {d : Dialect} {sql : String} {arguments : Dict Value} {e : BindFault} :
    bind d sql arguments = .error e ↔ ∃ before name after,
      Piece.Reading.narrow.scan sql = before ++ .marker name :: after ∧
        BoundQuery.Fillable arguments before ∧
        BoundQuery.Refuses arguments (String.ofList name) e := by
  rw [bind_eq, ← BoundQuery.findSome?_fault?_iff]
  cases (Piece.Reading.narrow.scan sql).findSome? (BoundQuery.fault? arguments) <;> simp

/-- What a filter binds: its value, the items of a list, a pattern, or the ends of a range. -/
def Filter.bound (f : Filter) : List Value :=
  match f.operator, f.value with
  | .compare _, v | .among _, v => v.items
  | .like m, .text s => [.text (m.pattern s)]
  | .between _, .list [low, high] => [low, high]
  | _, _ => []

theorem Value.items_of_isBound {v : Value} (h : v.isBound = true) : v.items = [v] := by
  cases v <;> simp_all [isBound, items]

theorem Part.items_text (s : String) : (Part.text s).flatMap Part.items = [] := by
  rw [Part.text, List.flatMap_map]
  simp [Part.char, Part.items]

theorem Filter.items_spelled {f : Filter} (h : f.fits = true) :
    f.spelled.flatMap Part.items = f.bound := by
  obtain ⟨path, op, v⟩ := f
  cases op with
  | compare c => simp [Filter.spelled, Filter.bound, Part.items_text, Part.items]
  | like m =>
      cases v with
      | text s => simp [Filter.spelled, Filter.bound, Part.items_text, Part.items, Value.items]
      | _ => simp [Filter.fits] at h
  | among negated => simp [Filter.spelled, Filter.bound, Part.items_text, Part.items]
  | between negated =>
      obtain ⟨low, high, rfl, hlow, hhigh⟩ := Filter.list_of_fits_between h
      simp [Filter.spelled, Filter.bound, Part.items_text, Part.items, Value.items_of_isBound hlow,
        Value.items_of_isBound hhigh]
  | null negated => simp [Filter.spelled, Filter.bound, Part.items_text]

theorem Filter.ne_nil_of_mem_spelled {f : Filter} (h : f.fits = true) (hne : f.value ≠ .list [])
    {v : Value} (hv : .value v ∈ f.spelled) : v ≠ .list [] := by
  have htext (s : String) : Part.value v ∉ Part.text s := by simp [Part.text, Part.char]
  obtain ⟨path, op, w⟩ := f
  cases op with
  | compare c =>
      obtain rfl : v = w := by simpa [Filter.spelled, htext] using hv
      exact hne
  | like m =>
      cases w with
      | text s =>
          obtain rfl : v = .text (m.pattern s) := by simpa [Filter.spelled, htext] using hv
          simp
      | _ => simp [Filter.fits] at h
  | among negated =>
      obtain rfl : v = w := by simpa [Filter.spelled, htext] using hv
      exact hne
  | between negated =>
      obtain ⟨low, high, rfl, hlow, hhigh⟩ := Filter.list_of_fits_between h
      have hends : v = low ∨ v = high := by simpa [Filter.spelled, htext] using hv
      rintro rfl
      rcases hends with rfl | rfl <;> simp_all [Value.isBound]
  | null negated => simp [Filter.spelled, htext] at hv

/-- Letters, numbers and underscores between dots: both classes of word characters know them. -/
def IsPlainPath (path : String) : Prop :=
  isPath path = true ∧ ∀ c ∈ path.toList, Text.isNameChar c = true ∨ c = '.'

theorem Text.agreed_of_mem_letters : ∀ c ∈ Operator.letters, Text.Agreed c := by
  have hall : Operator.letters.all (fun c => decide (Text.Agreed c)) = true := by decide
  simpa using hall

theorem Text.agreed_of_isNameChar {c : Char} (h : isNameChar c = true) (hword : isWord c = true) :
    Agreed c := by
  refine ⟨?_, h.trans hword.symm⟩
  cases hq : Piece.isQuote c with
  | false => rfl
  | true =>
      obtain rfl : c = '\'' := by simpa [Piece.isQuote] using hq
      exact absurd h (by decide)

theorem Text.agreed_of_isDigit {c : Char} (h : c.isDigit = true) : Agreed c :=
  agreed_of_isNameChar (Piece.Reading.Sound.narrow.digit c h) (isWord_of_isDigit h)

namespace IsPlainPath

variable {path : String} (h : IsPlainPath path)

include h

theorem agreed {c : Char} (hc : c ∈ path.toList) : Text.Agreed c := by
  rcases h.2 c hc with hn | rfl
  · rcases (chars_of_isPath h.1).2 c hc with hw | rfl
    · exact Text.agreed_of_isNameChar hn hw
    · decide
  · decide

theorem agreed_of_from {name : String} (hname : Name.From path name) {c : Char}
    (hc : c ∈ name.toList) : Text.Agreed c := by
  rcases hname.mem_toList hc with ⟨hpath, -⟩ | rfl | hdigit
  · exact h.agreed hpath
  · decide
  · exact Text.agreed_of_isDigit hdigit

end IsPlainPath

section Filters

variable {c : Connective} {fs : List Filter} {s : Statement}

theorem agreed_of_mem_clause (hp : ∀ f ∈ fs, IsPlainPath f.path)
    (hs : Statement.ofFilters c fs = .ok s) : ∀ ch ∈ s.clause.toList, Text.Agreed ch := by
  intro ch hch
  have hphrased := phrased_ofFilters hp hs
  obtain ⟨d, -, rfl⟩ := ofFilters_eq_ok hs
  rcases Body.mem_clause_ofTrees hch with ⟨leaf, hleaf, hch⟩ | hch
  · obtain ⟨p, hvalid, htext⟩ := hphrased leaf hleaf
    rw [htext] at hch
    rcases Phrase.mem_text hvalid.count hch with hch | ⟨name, hname, hch⟩ | hch
    · exact hvalid.path.agreed hch
    · exact hvalid.path.agreed_of_from (hvalid.names name hname) hch
    · exact Text.agreed_of_mem_letters ch hch
  · exact Text.agreed_of_mem_letters ch hch

theorem fillable_ofFilters (hp : ∀ f ∈ fs, isPath f.path = true)
    (hs : Statement.ofFilters c fs = .ok s) (hne : ∀ f ∈ fs, f.value ≠ .list []) :
    BoundQuery.Fillable s.arguments (scan s.clause) := by
  intro name hname
  have hmarker : String.ofList name ∈ markersIn s.clause := mem_markersIn.2 (by simpa using hname)
  obtain ⟨v, hv⟩ := Dict.mem_keys_iff.1 ((accounts_ofFilters hp hs).closed.clause _ hmarker)
  refine ⟨v, hv, ?_⟩
  -- The value shows in the resolved clause, so one of the filters spells it.
  have hshown : Part.value v ∈ resolve s.arguments s.clause :=
    List.mem_map.2 ⟨_, hname, Piece.resolve_marker hv⟩
  rw [resolve_ofFilters hp hs] at hshown
  rcases mem_of_mem_intercalate hshown with h | ⟨part, hpart, h⟩
  · simp [Connective.parts, Part.char] at h
  · obtain ⟨f, hf, rfl⟩ := List.mem_map.1 hpart
    exact Filter.ne_nil_of_mem_spelled (exists_ofFilters_iff.1 ⟨s, hs⟩ f hf) (hne f hf) h

theorem items_ofFilters (hp : ∀ f ∈ fs, isPath f.path = true)
    (hs : Statement.ofFilters c fs = .ok s) :
    (resolve s.arguments s.clause).flatMap Part.items = fs.flatMap Filter.bound := by
  have hsep : c.parts.flatMap Part.items = [] := Part.items_text c.separator
  rw [resolve_ofFilters hp hs, flatMap_intercalate, hsep, nil_intercalate, List.map_map,
    ← List.flatMap_def]
  apply List.flatMap_congr
  exact fun f hf => Filter.items_spelled (exists_ofFilters_iff.1 ⟨s, hs⟩ f hf)

end Filters

theorem Filter.isPath_of_parseAll {json : String} {fs : List Filter}
    (h : Filter.parseAll json = .ok fs) : ∀ f ∈ fs, isPath f.path = true := by
  unfold parseAll at h
  split at h
  next => simp at h
  next =>
    split at h
    next => simp at h
    next filters _ =>
      split at h
      next => simp at h
      next =>
        split at h
        next => simp at h
        next hnone =>
          obtain rfl := Except.ok.inj h
          simpa using hnone

/-- Filters that were read, and that a statement could be made of, can be bound, and the arguments
are what each filter binds, filter by filter, as long as the names of all attributes are made of
letters, numbers and underscores. -/
theorem bind_ofFilters {json : String} {fs : List Filter} {c : Connective} {s : Statement}
    (d : Dialect) (hread : Filter.parseAll json = .ok fs) (hs : Statement.ofFilters c fs = .ok s)
    (hne : ∀ f ∈ fs, f.value ≠ .list [])
    (hchars : ∀ f ∈ fs, ∀ ch ∈ f.path.toList, Text.isNameChar ch = true ∨ ch = '.') :
    ∃ q, bind d s.clause s.arguments = .ok q ∧ q.args = fs.flatMap Filter.bound := by
  have hp := Filter.isPath_of_parseAll hread
  have hpieces : Piece.pieces .narrow s.clause.toList = scan s.clause :=
    Piece.pieces_narrow (agreed_of_mem_clause (fun f hf => ⟨hp f hf, hchars f hf⟩) hs)
  obtain ⟨sql, hsql⟩ := BoundQuery.fill_eq_ok d (fillable_ofFilters hp hs hne) 0
  refine ⟨⟨String.ofList sql, fs.flatMap Filter.bound⟩, ?_, rfl⟩
  rw [bind, hpieces, hsql, ← items_ofFilters hp hs]
  rfl

def shelves : List Filter := [
  ⟨"book.title", .like .anywhere, .text "sea"⟩, ⟨"year", .between false, .list [.nat 1, .nat 9]⟩,
  ⟨"lost", .null false, .null⟩]

def shelvesText : String :=
  "[\x7b\"attr\":\"book.title\",\"op\":\"contains\",\"val\":\"sea\"\x7d," ++
    "\x7b\"attr\":\"year\",\"op\":\"between\",\"val\":[1,9]\x7d," ++
    "\x7b\"attr\":\"lost\",\"op\":\"is_null\"\x7d]"

theorem bind_ofFilters_shelves : ∃ s q, Filter.parseAll shelvesText = .ok shelves ∧
    Statement.ofFilters .or shelves = .ok s ∧ (∀ f ∈ shelves, f.value ≠ .list []) ∧
    (∀ f ∈ shelves, ∀ ch ∈ f.path.toList, Text.isNameChar ch = true ∨ ch = '.') ∧
    bind .postgres s.clause s.arguments = .ok q ∧ q.args = [.text "%sea%", .nat 1, .nat 9] := by
  have hread : Filter.parseAll shelvesText = .ok shelves := by decide +kernel
  have hne : ∀ f ∈ shelves, f.value ≠ .list [] := by decide
  have hchars : ∀ f ∈ shelves, ∀ ch ∈ f.path.toList, Text.isNameChar ch = true ∨ ch = '.' := by
    have hall : shelves.all (fun f => f.path.toList.all fun ch =>
        Text.isNameChar ch || ch == '.') = true := by decide +kernel
    simpa using hall
  obtain ⟨s, hs⟩ := (exists_ofFilters_iff (c := .or)).2 (by decide : ∀ f ∈ shelves, f.fits = true)
  obtain ⟨q, hq, hargs⟩ := bind_ofFilters .postgres hread hs hne hchars
  exact ⟨s, q, hread, hs, hne, hchars, hq, hargs.trans (by decide +kernel)⟩

def accented : List Filter := [
  ⟨"e", .compare .equal, .nat 1⟩, ⟨"e\u0301", .compare .equal, .nat 2⟩]

def accentedText : String :=
  "[\x7b\"attr\":\"e\",\"op\":\"=\",\"val\":1\x7d," ++
    "\x7b\"attr\":\"e\u0301\",\"op\":\"=\",\"val\":2\x7d]"

/-- The marker `:e` with its mark is filled as `:e`, and the second attribute is compared with the
value of the first. -/
theorem bind_ofFilters_accented : ∃ s q, Filter.parseAll accentedText = .ok accented ∧
    Statement.ofFilters .and accented = .ok s ∧ (∀ f ∈ accented, f.value ≠ .list []) ∧
    bind .sqlite s.clause s.arguments = .ok q ∧ q.args = [.nat 1, .nat 1] ∧
    accented.flatMap Filter.bound = [.nat 1, .nat 2] := by
  have hread : Filter.parseAll accentedText = .ok accented := by decide +kernel
  have hfits : ∀ f ∈ accented, f.fits = true := by decide
  obtain ⟨s, hs⟩ := (exists_ofFilters_iff (c := .and)).2 hfits
  have hbind : ((Statement.ofFilters .and accented).toOption.bind fun s =>
      (bind .sqlite s.clause s.arguments).toOption).map BoundQuery.args =
        some [.nat 1, .nat 1] := by decide +kernel
  rw [hs] at hbind
  obtain ⟨q, hq, hargs⟩ := Option.map_eq_some_iff.1 hbind
  refine ⟨s, q, hread, hs, by decide, ?_, hargs, by decide⟩
  cases hbound : bind .sqlite s.clause s.arguments <;> simp_all [Except.toOption]

end ClauseWeave
