import ClauseWeave.Proofs.Binding

namespace ClauseWeave

open Piece (Reading)

/-- Only the markers of these names, all else character by character. -/
def Piece.spell (names : List String) : Piece → List Piece
  | marker name =>
    if String.ofList name ∈ names then [marker name] else (':' :: name).map other
  | p => p.chars.map other

/-- Names give way by one reading of a text and slots are filled by another. Both find the markers
of these names at the same places. -/
def ReadAlike (names : List String) (s : String) : Prop :=
  (scan s).flatMap (Piece.spell names) = (Reading.narrow.scan s).flatMap (Piece.spell names)

instance (names : List String) (s : String) : Decidable (ReadAlike names s) :=
  inferInstanceAs (Decidable (_ = _))

theorem Piece.flatMap_spell_nil (ps : List Piece) :
    ps.flatMap (Piece.spell []) = (ps.flatMap Piece.chars).map other := by
  rw [List.map_flatMap]
  apply List.flatMap_congr
  intro p _
  cases p <;> simp [spell, chars]

/-- Where no name gives way, the readings may differ as they like. -/
theorem readAlike_nil (s : String) : ReadAlike [] s := by
  rw [ReadAlike, Piece.flatMap_spell_nil, Piece.flatMap_spell_nil, scan, Reading.scan,
    Piece.flatMap_chars_pieces, Piece.flatMap_chars_pieces]

/-- In a text of characters that both readings know, any names may give way. -/
theorem readAlike_of_agreed {s : String} (h : ∀ c ∈ s.toList, Text.Agreed c)
    (names : List String) : ReadAlike names s := by
  rw [ReadAlike, Reading.scan, Piece.pieces_narrow h]
  rfl

theorem Piece.flatMap_rename_other (renames : Dict String) (s : List Char) :
    ((s.map other).flatMap fun p => (p.rename renames).chars) = s := by
  rw [List.flatMap_map]
  exact List.flatMap_singleton' s

theorem Piece.flatMap_rename_spell (renames : Dict String) (p : Piece) :
    ((p.spell renames.keys).flatMap fun q => (q.rename renames).chars) =
      (p.rename renames).chars := by
  cases p with
  | marker name =>
      by_cases hname : String.ofList name ∈ renames.keys
      · simp [spell, hname]
      · have hnone : renames.get? (String.ofList name) = none := Dict.get?_eq_none_iff.2 hname
        rw [spell, if_neg hname, flatMap_rename_other, rename_marker, renamed, hnone]
        simp [chars]
  | other c | cast | literal text => exact flatMap_rename_other renames _

section Renaming

variable {renames : Dict String} {s : String}

theorem ReadAlike.toList_relabel (h : ReadAlike renames.keys s) : (relabel renames s).toList =
    (Reading.narrow.scan s).flatMap fun p => (p.rename renames).chars := by
  have hspell (ps : List Piece) : (ps.flatMap fun p => (p.rename renames).chars) =
      (ps.flatMap (Piece.spell renames.keys)).flatMap fun q => (q.rename renames).chars := by
    rw [List.flatMap_assoc]
    exact (List.flatMap_congr fun p _ => Piece.flatMap_rename_spell renames p).symm
  rw [relabel_eq, String.toList_ofList, hspell, h, ← hspell]

variable (hnames : ∀ name, .marker name ∈ Reading.narrow.scan s →
  Reading.narrow.IsName (renamed renames (String.ofList name)))

include hnames

theorem ReadAlike.scan_relabel (h : ReadAlike renames.keys s) :
    Reading.narrow.scan (relabel renames s) =
      (Reading.narrow.scan s).map (Piece.rename renames) := by
  rw [Reading.scan, h.toList_relabel]
  exact Piece.pieces_flatMap_rename .narrow hnames

theorem ReadAlike.countP_relabel (h : ReadAlike renames.keys s) :
    (relabel renames s).toList.countP Piece.isQuote = s.toList.countP Piece.isQuote := by
  have hname {name : String} (hn : Reading.narrow.IsName name) :
      (Piece.marker name.toList).chars.countP Piece.isQuote = 0 := by
    rw [List.countP_eq_zero]
    intro c hc
    rcases List.mem_cons.1 hc with rfl | hc
    · decide
    · simp [Reading.Sound.narrow.isQuote_eq_false (hn.2 c hc)]
  rw [h.toList_relabel]
  conv_rhs => rw [← Piece.flatMap_chars_pieces .narrow s.toList]
  rw [List.countP_flatMap, List.countP_flatMap]
  congr 1
  apply List.map_congr_left
  intro p hp
  cases p with
  | marker name =>
      have hold := hname (Piece.isName_of_marker_mem hp)
      rw [String.toList_ofList] at hold
      simp only [Function.comp_apply, Piece.rename_marker]
      rw [hname (hnames name hp), hold]
  | other c | cast | literal text => rfl

end Renaming

def Piece.quoted : Piece → List String
  | literal text => [String.ofList text]
  | _ => []

@[simp]
theorem Piece.quoted_other (c : Char) : (other c).quoted = [] := rfl

theorem Piece.quoted_rename (renames : Dict String) (p : Piece) :
    (p.rename renames).quoted = p.quoted := by
  cases p <;> rfl

def literalsIn (s : String) : List String := (Reading.narrow.scan s).flatMap Piece.quoted

/-- The clause with slots for the statement's own arguments, after `bound` other ones. -/
def Statement.boundText (s : Statement) (d : Dialect) (bound : Nat) : String :=
  String.ofList (BoundQuery.write d bound (shown s.arguments s.clause))

namespace BoundQuery

variable (d : Dialect)

theorem write_append (bound : Nat) (ps qs : List Part) : write d bound (ps ++ qs) =
    write d bound ps ++ write d (bound + (ps.flatMap Part.items).length) qs := by
  induction ps generalizing bound with
  | nil => rfl
  | cons p rest ih =>
      cases p with
      | piece p => simp [write, ih, Part.items]
      | value v => simp [write, ih, Part.items, Nat.add_assoc]

theorem write_text (bound : Nat) (s : String) : write d bound (Part.text s) = s.toList := by
  rw [Part.text]
  induction s.toList with
  | nil => rfl
  | cons c rest ih => simp [write, Part.char, ih]

theorem write_inParens (bound : Nat) (ps : List Part) :
    write d bound (inParens ps) = '(' :: (write d bound ps ++ [')']) := by
  simp [inParens, write, Part.char, write_append]

theorem write_intercalate (c : Connective) (bound : Nat) (texts : List (List Part)) :
    write d bound (c.parts.intercalate texts) = c.separator.toList.intercalate
      (texts.mapIdx fun i ps =>
        write d (bound + ((texts.take i).flatMap (List.flatMap Part.items)).length) ps) := by
  have hsep (bound : Nat) : write d bound c.parts = c.separator.toList := write_text d bound _
  have hitems : c.parts.flatMap Part.items = [] := Part.items_text c.separator
  induction texts generalizing bound with
  | nil => rfl
  | cons ps rest ih =>
      cases rest with
      | nil => simp
      | cons qs rest =>
          rw [List.intercalate_cons_cons, write_append, write_append, hsep, ih]
          simp [List.mapIdx_cons, hitems, Nat.add_assoc, List.intercalate_cons_cons]

theorem write_eq_of_ne {d : Dialect} (hd : d ≠ .postgres) (bound bound' : Nat) (ps : List Part) :
    write d bound ps = write d bound' ps := by
  have hslot (i j : Nat) : d.slot i = d.slot j := by cases d <;> simp_all [Dialect.slot]
  have hslots (n m count : Nat) : slots d n count = slots d m count :=
    congrArg (", ".intercalate ·) (List.map_congr_left fun i _ => hslot _ _)
  induction ps generalizing bound bound' with
  | nil => rfl
  | cons p rest ih =>
      cases p with
      | piece p => rw [write, write, ih bound bound']
      | value v => rw [write, write, hslots bound bound', ih]

end BoundQuery

theorem items_inParens (ps : List Part) :
    (inParens ps).flatMap Part.items = ps.flatMap Part.items := by
  simp [inParens, Part.char, Part.items]

section Merged

variable (c : Connective) {ss : List Statement}

/-- For each statement that is placed, with the names that give way: its literals are closed, both
readings find the same markers of these names, and it can be bound. -/
structure Bindable (s : Statement) (renames : Dict String) : Prop where
  closed : Reading.narrow.Closed s.clause.toList
  alike : ReadAlike renames.keys s.clause
  fillable : BoundQuery.Fillable s.arguments (Reading.narrow.scan s.clause)

variable (h : ∀ p ∈ Merge.placed ∅ (present ss), Bindable p.1 p.2)

theorem isName_renamed_of_placed {p : Statement × Dict String}
    (hp : p ∈ Merge.placed ∅ (present ss)) (name : List Char)
    (hname : .marker name ∈ Reading.narrow.scan p.1.clause) :
    Reading.narrow.IsName (renamed p.2 (String.ofList name)) := by
  obtain ⟨used, hused⟩ := Merge.renamed_eq_fresh hp (String.ofList name)
  rw [hused]
  exact (Piece.isName_of_marker_mem hname).fresh .narrow used

include h

theorem narrow_scan_merge : Reading.narrow.scan (merge c ss).clause =
    (Reading.narrow.scan c.separator).intercalate ((Merge.placed ∅ (present ss)).map fun p =>
      .other '(' :: ((Reading.narrow.scan p.1.clause).map (Piece.rename p.2) ++ [.other ')'])) := by
  have hclosed {p : Statement × Dict String} (hp : p ∈ Merge.placed ∅ (present ss)) :
      Reading.narrow.Closed (relabel p.2 p.1.clause).toList :=
    (h p hp).closed.of_countP
      ((h p hp).alike.countP_relabel (isName_renamed_of_placed hp))
  rw [merge_clause, Reading.scan_intercalate .narrow, List.map_map]
  · congr 1
    apply List.map_congr_left
    intro p hp
    rw [Function.comp_apply, Reading.scan_paren .narrow (hclosed hp),
      (h p hp).alike.scan_relabel (isName_renamed_of_placed hp)]
  · intro text htext
    obtain ⟨p, hp, rfl⟩ := List.mem_map.1 htext
    refine (hclosed hp).of_countP ?_
    simp [List.countP_append, Piece.isQuote]

theorem shown_merge : shown (merge c ss).arguments (merge c ss).clause =
    c.parts.intercalate ((present ss).map fun s => inParens (shown s.arguments s.clause)) := by
  rw [shown, narrow_scan_merge c h, map_intercalate, Reading.scan_separator, List.map_map,
    List.map_map, ← map_placed ∅]
  congr 1
  apply List.map_congr_left
  intro p hp
  have hkeys : ∀ name, .marker name ∈ Reading.narrow.scan p.1.clause →
      String.ofList name ∈ p.1.arguments.keys := by
    intro name hname
    obtain ⟨v, hv, -⟩ := (h p hp).fillable name hname
    exact Dict.mem_keys_of_get? hv
  simp [(carries_merge c ss hp).map_resolve_rename hkeys, inParens, shown]

theorem fillable_merge :
    BoundQuery.Fillable (merge c ss).arguments (Reading.narrow.scan (merge c ss).clause) := by
  intro name hname
  rw [narrow_scan_merge c h] at hname
  rcases mem_of_mem_intercalate hname with hsep | ⟨part, hpart, hname⟩
  · simp [Reading.scan_separator] at hsep
  · obtain ⟨p, hp, rfl⟩ := List.mem_map.1 hpart
    have hname : .marker name ∈ (Reading.narrow.scan p.1.clause).map (Piece.rename p.2) := by
      simpa using hname
    obtain ⟨q, hq, he⟩ := List.mem_map.1 hname
    cases q with
    | marker old =>
        obtain ⟨v, hv, hne⟩ := (h p hp).fillable old hq
        rw [Piece.rename_marker, Piece.marker.injEq] at he
        refine ⟨v, ?_, hne⟩
        rw [← he, String.ofList_toList]
        exact (carries_merge c ss hp).value _ v hv
    | _ => simp [Piece.rename] at he

theorem literalsIn_merge :
    literalsIn (merge c ss).clause = (present ss).flatMap fun s => literalsIn s.clause := by
  have hsep : (Reading.narrow.scan c.separator).flatMap Piece.quoted = [] := by
    simp [Reading.scan_separator, List.flatMap_map]
  rw [literalsIn, narrow_scan_merge c h, flatMap_intercalate, hsep, nil_intercalate, List.map_map,
    List.flatMap_def, ← map_placed ∅]
  congr 1
  apply List.map_congr_left
  intro p hp
  simp [literalsIn, List.flatMap_map, Piece.quoted_rename]

theorem items_shown_merge : (shown (merge c ss).arguments (merge c ss).clause).flatMap Part.items =
    (present ss).flatMap fun s => (shown s.arguments s.clause).flatMap Part.items := by
  have hsep : c.parts.flatMap Part.items = [] := Part.items_text c.separator
  rw [shown_merge c h, flatMap_intercalate, hsep, nil_intercalate, List.map_map, List.flatMap_def]
  congr 1
  apply List.map_congr_left
  exact fun s _ => items_inParens _

theorem boundText_merge (d : Dialect) : (merge c ss).boundText d 0 = c.separator.intercalate
    ((present ss).mapIdx fun i s => "(" ++ s.boundText d (((present ss).take i).flatMap fun s =>
      (shown s.arguments s.clause).flatMap Part.items).length ++ ")") := by
  rw [Statement.boundText, shown_merge c h, BoundQuery.write_intercalate, ← String.toList_inj,
    String.toList_ofList, String.toList_intercalate]
  congr 1
  apply List.ext_getElem?
  intro i
  rw [List.getElem?_mapIdx, List.getElem?_map, List.getElem?_map, List.getElem?_mapIdx,
    Option.map_map, Option.map_map]
  congr 1
  funext s
  simp only [Function.comp_apply, ← List.map_take, List.flatMap_map, items_inParens,
    BoundQuery.write_inParens, Nat.zero_add]
  simp [Statement.boundText]

end Merged

theorem eq_map_of_bind {d : Dialect} {ss : List Statement} {qs : List BoundQuery}
    (h : List.Forall₂ (fun s q => bind d s.clause s.arguments = .ok q) ss qs) :
    qs = ss.map (fun s =>
        ⟨s.boundText d 0, (shown s.arguments s.clause).flatMap Part.items⟩) ∧
      ∀ s ∈ ss, BoundQuery.Fillable s.arguments (Reading.narrow.scan s.clause) := by
  induction h with
  | nil => simp
  | cons hq _ ih =>
      obtain ⟨hfillable, rfl⟩ := bind_eq_ok_iff.1 hq
      exact ⟨congrArg _ ih.1, List.forall_mem_cons.2 ⟨hfillable, ih.2⟩⟩

/-- Where literals are closed, and both readings find the same markers of the names that give way,
binding distributes over merging: the arguments line up, the texts are those of the statements in
parentheses, with slots that count on from the arguments before them, and no literal changes. -/
theorem bind_merge (d : Dialect) (c : Connective) {ss : List Statement} {qs : List BoundQuery}
    (hne : ∀ s ∈ ss, s.isEmpty = false)
    (hquotes : ∀ s ∈ ss, Even (s.clause.toList.countP Piece.isQuote))
    (hbind : List.Forall₂ (fun s q => bind d s.clause s.arguments = .ok q) ss qs)
    (halike : ∀ p ∈ Merge.placed ∅ ss, ReadAlike p.2.keys p.1.clause) :
    bind d (merge c ss).clause (merge c ss).arguments = .ok
        ⟨c.separator.intercalate (ss.mapIdx fun i s =>
            "(" ++ s.boundText d ((qs.take i).flatMap BoundQuery.args).length ++ ")"),
          qs.flatMap BoundQuery.args⟩ ∧
      List.Forall₂ (fun s q => q.sql = s.boundText d 0) ss qs ∧
      (d ≠ .postgres → ∀ s ∈ ss, ∀ bound, s.boundText d bound = s.boundText d 0) ∧
      literalsIn (merge c ss).clause = ss.flatMap fun s => literalsIn s.clause := by
  have hpresent : present ss = ss := List.filter_eq_self.2 fun s hs => by simp [hne s hs]
  obtain ⟨rfl, hfillable⟩ := eq_map_of_bind hbind
  have h : ∀ p ∈ Merge.placed ∅ (present ss), Bindable p.1 p.2 := by
    intro p hp
    have hmem := mem_present_of_mem_placed hp
    exact ⟨fun _ => hquotes _ hmem, halike p (hpresent ▸ hp), hfillable _ hmem⟩
  refine ⟨?_, ?_, ?_, ?_⟩
  · have htext := boundText_merge c h d
    have hitems := items_shown_merge c h
    rw [hpresent] at htext hitems
    refine bind_eq_ok_iff.2 ⟨fillable_merge c h, ?_⟩
    rw [← Statement.boundText, htext, hitems]
    simp [List.flatMap_map, ← List.map_take]
  · rw [List.forall₂_map_right_iff, List.forall₂_same]
    exact fun s _ => rfl
  · exact fun hd s _ bound => congrArg String.ofList (BoundQuery.write_eq_of_ne hd bound 0 _)
  · rw [literalsIn_merge c h, hpresent]

def meetings : List Statement := [
  .ofParts "room = :room AND hour <> '12:30'" (.ofList [("room", .nat 1)]) ∅,
  .ofParts "room IN(:room) AND day::date = :day AND note = 'see :minutes'"
    (.ofList [("room", .list [.nat 2, .nat 3]), ("day", .text "friday")]) ∅]

theorem bind_merge_meetings :
    (∀ s ∈ meetings, s.isEmpty = false) ∧
      (∀ s ∈ meetings, Even (s.clause.toList.countP Piece.isQuote)) ∧
      (∀ p ∈ Merge.placed ∅ meetings, ReadAlike p.2.keys p.1.clause) ∧
      bind .postgres (merge .and meetings).clause (merge .and meetings).arguments = .ok
        ⟨"(room = $1 AND hour <> '12:30') AND " ++
            "(room IN($2, $3) AND day::date = $4 AND note = 'see :minutes')",
          [.nat 1, .nat 2, .nat 3, .text "friday"]⟩ := by
  have hne : ∀ s ∈ meetings, s.isEmpty = false := by decide +kernel
  have hquotes : ∀ s ∈ meetings, Even (s.clause.toList.countP Piece.isQuote) := by decide +kernel
  have halike : ∀ p ∈ Merge.placed ∅ meetings, ReadAlike p.2.keys p.1.clause := by decide +kernel
  have hbind : List.Forall₂ (fun s q => bind .postgres s.clause s.arguments = .ok q) meetings
      [⟨"room = $1 AND hour <> '12:30'", [.nat 1]⟩,
        ⟨"room IN($1, $2) AND day::date = $3 AND note = 'see :minutes'",
          [.nat 2, .nat 3, .text "friday"]⟩] := by
    decide +kernel
  refine ⟨hne, hquotes, halike, (bind_merge .postgres .and hne hquotes hbind halike).1.trans ?_⟩
  decide +kernel

def remarks : List Statement := [
  .ofParts "age = :age" (.ofList [("age", .nat 1)]) ∅,
  .ofParts "age = :age AND note = ':age'" (.ofList [("age", .nat 2)]) ∅]

/-- Each of the statements can be bound, but the new name is also written into the literal. -/
theorem bind_merge_remarks :
    (∀ s ∈ remarks, s.isEmpty = false ∧ Even (s.clause.toList.countP Piece.isQuote)) ∧
      List.Forall₂ (fun s q => bind .sqlite s.clause s.arguments = .ok q) remarks
        [⟨"age = ?", [.nat 1]⟩, ⟨"age = ? AND note = ':age'", [.nat 2]⟩] ∧
      bind .sqlite (merge .and remarks).clause (merge .and remarks).arguments =
        .ok ⟨"(age = ?) AND (age = ? AND note = ':age_1')", [.nat 1, .nat 2]⟩ ∧
      literalsIn (merge .and remarks).clause = ["':age_1'"] ∧
      (remarks.flatMap fun s => literalsIn s.clause) = ["':age'"] := by
  decide +kernel

end ClauseWeave
