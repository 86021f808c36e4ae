import ClauseWeave.Clause.Draft
import ClauseWeave.Proofs.Resolution
import Mathlib.Algebra.GroupWithZero.Nat

namespace ClauseWeave

def Part.text (s : String) : List Part := s.toList.map Part.char

def Comparison.low (negated : Bool) : Comparison := if negated then .atMost else .atLeast

def Comparison.high (negated : Bool) : Comparison := if negated then .atLeast else .atMost

def Filter.spelled (f : Filter) : List Part :=
  match f.operator, f.value with
  | .compare c, v => Part.text (f.path ++ " " ++ c.sign ++ " ") ++ [.value v]
  | .like m, .text s => Part.text (f.path ++ " LIKE ") ++ [.value (.text (m.pattern s))]
  | .among negated, v =>
    Part.text (f.path ++ if negated then " NOT IN(" else " IN(") ++ .value v :: Part.text ")"
  | .between negated, .list [low, high] =>
    Part.text (f.path ++ " " ++ (Comparison.low negated).sign ++ " ") ++ .value low ::
      (Part.text (" AND " ++ f.path ++ " " ++ (Comparison.high negated).sign ++ " ") ++
        [.value high])
  | .null negated, _ => Part.text (f.path ++ if negated then " IS NOT NULL" else " IS NULL")
  | _, _ => []

def Filter.fits (f : Filter) : Bool :=
  match f.operator, f.value with
  | .like _, .text _ => true
  | .like _, _ => false
  | .among _, v => v.isList
  | .between _, .list [low, high] => low.isBound && high.isBound
  | .between _, _ => false
  | _, _ => true

theorem Filter.list_of_fits_between {path : String} {negated : Bool} {v : Value}
    (h : (Filter.mk path (.between negated) v).fits = true) :
    ∃ low high, v = .list [low, high] ∧ low.isBound = true ∧ high.isBound = true := by
  match v with
  | .list [low, high] => exact ⟨low, high, rfl, by simpa [Filter.fits] using h⟩
  | .list [] | .list [_] | .list (_ :: _ :: _ :: _) => simp [Filter.fits] at h
  | .null | .bool _ | .number _ | .text _ | .object _ => simp [Filter.fits] at h

def Plain (s : String) : Prop := ∀ c ∈ s.toList, c ≠ ':'

instance (s : String) : Decidable (Plain s) := List.decidableBAll (· ≠ ':') s.toList

theorem Plain.append {s t : String} (hs : Plain s) (ht : Plain t) : Plain (s ++ t) := by
  intro c hc
  rw [String.toList_append, List.mem_append] at hc
  exact hc.elim (hs c) (ht c)

theorem plain_of_isPath {path : String} (h : isPath path = true) : Plain path := by
  rintro c hc rfl
  rcases (chars_of_isPath h).2 ':' hc with hw | hw
  · simp [Piece.isWord_colon] at hw
  · exact absurd hw (by decide)

namespace Piece.Reading

variable {r : Reading}

theorem scan_plain {s : String} (h : ∀ c ∈ s.toList, r.Plain c) : r.scan s = s.toList.map other := by
  simpa [scan, pieces] using pieces_append_plain h []

theorem scan_marked (hr : r.Sound) {front name rest : String}
    (hfront : ∀ c ∈ front.toList, r.Plain c) (hname : r.IsName name)
    (hrest : ∀ c ∈ rest.toList.head?, r.isName c = false) :
    r.scan (front ++ ":" ++ name ++ rest) =
      front.toList.map other ++ marker name.toList :: r.scan rest := by
  have hne : name.toList ≠ [] := by simpa using hname.1
  have hlist : (front ++ ":" ++ name ++ rest).toList =
      front.toList ++ ':' :: (name.toList ++ rest.toList) := by simp
  rw [scan, hlist, pieces_append_plain hfront, pieces_marker hr hne hname.2 hrest]
  rfl

end Piece.Reading

theorem scan_plain {s : String} (h : Plain s) : scan s = s.toList.map .other :=
  Piece.Reading.scan_plain fun c hc => Piece.Reading.plain_wide (h c hc)

theorem scan_marked {front name rest : String} (hfront : Plain front) (hname : IsName name)
    (hrest : ∀ c ∈ rest.toList.head?, Text.isWord c = false) :
    scan (front ++ ":" ++ name ++ rest) =
      front.toList.map .other ++ .marker name.toList :: scan rest :=
  Piece.Reading.scan_marked .wide (fun c hc => Piece.Reading.plain_wide (hfront c hc)) hname hrest

theorem markersIn_plain {s : String} (h : Plain s) : markersIn s = [] := by
  simp [markersIn_eq, scan_plain h, List.filterMap_map, Function.comp_def]

theorem resolve_plain {s : String} (h : Plain s) (all : Dict Value) :
    resolve all s = Part.text s := by
  rw [resolve, scan_plain h, List.map_map]
  rfl

theorem markersIn_empty : markersIn "" = [] := markersIn_plain (by decide)

theorem resolve_empty (all : Dict Value) : resolve all "" = [] := resolve_plain (by decide) all

section Marked

variable {front name rest : String} (hfront : Plain front) (hname : IsName name)
  (hrest : ∀ c ∈ rest.toList.head?, Text.isWord c = false)

include hfront hname hrest

theorem markersIn_marked : markersIn (front ++ ":" ++ name ++ rest) = name :: markersIn rest := by
  rw [markersIn_eq, scan_marked hfront hname hrest, List.filterMap_append]
  simp [List.filterMap_map, Function.comp_def, markersIn_eq]

theorem resolve_marked {all : Dict Value} {v : Value} (hv : all.get? name = some v) :
    resolve all (front ++ ":" ++ name ++ rest) =
      Part.text front ++ .value v :: resolve all rest := by
  rw [resolve, scan_marked hfront hname hrest, List.map_append, List.map_cons, List.map_map,
    Piece.resolve_marker (by rwa [String.ofList_toList])]
  rfl

end Marked

/-- The text shows the filter once its markers, which are those in `added`, give way to their
values. -/
structure Filter.WrittenAs (f : Filter) (text : String) (added : List (String × Value)) :
    Prop where
  markers : markersIn text = added.map Prod.fst
  resolves : ∀ all : Dict Value, (∀ e ∈ added, all.get? e.1 = some e.2) →
    resolve all text = f.spelled

theorem Filter.writtenAs_single {f : Filter} {front name rest : String} {v : Value}
    (hfront : Plain front) (hname : IsName name) (hrest : rest = "" ∨ rest = ")")
    (hspelled : f.spelled = Part.text front ++ .value v :: Part.text rest) :
    f.WrittenAs (front ++ ":" ++ name ++ rest) [(name, v)] := by
  have hhead : ∀ c ∈ rest.toList.head?, Text.isWord c = false := by
    rcases hrest with rfl | rfl
    · simp
    · simpa using Piece.Separates.closeParen.2
  have hplain : Plain rest := by rcases hrest with rfl | rfl <;> decide
  refine ⟨?_, ?_⟩
  · rw [markersIn_marked hfront hname hhead, markersIn_plain hplain]
    rfl
  · intro all hall
    rw [resolve_marked hfront hname hhead (hall (name, v) (by simp)), resolve_plain hplain,
      hspelled]

theorem Filter.writtenAs_pair {f : Filter} {text front low middle high : String} {v w : Value}
    (htext : text = front ++ ":" ++ low ++ (" " ++ middle ++ ":" ++ high ++ ""))
    (hfront : Plain front) (hmiddle : Plain middle) (hlow : IsName low) (hhigh : IsName high)
    (hspelled : f.spelled =
      Part.text front ++ .value v :: (Part.text (" " ++ middle) ++ [.value w])) :
    f.WrittenAs text [(low, v), (high, w)] := by
  have hspace : Plain (" " ++ middle) := Plain.append (by decide) hmiddle
  have hnil : ∀ c ∈ ("" : String).toList.head?, Text.isWord c = false := by simp
  have hhead : ∀ c ∈ (" " ++ middle ++ ":" ++ high ++ "").toList.head?, Text.isWord c = false := by
    intro c hc
    obtain rfl : ' ' = c := by simpa using hc
    decide
  subst htext
  refine ⟨?_, ?_⟩
  · rw [markersIn_marked hfront hlow hhead, markersIn_marked hspace hhigh hnil, markersIn_empty]
    rfl
  · intro all hall
    rw [resolve_marked hfront hlow hhead (hall (low, v) (by simp)),
      resolve_marked hspace hhigh hnil (hall (high, w) (by simp)), resolve_empty, hspelled]

def rangeText (path : String) (negated : Bool) (low high : String) : String :=
  path ++ (if negated then " <= :" else " >= :") ++ low ++ " AND " ++ path ++
    (if negated then " >= :" else " <= :") ++ high

theorem Filter.writtenAs_range {path : String} (hplain : Plain path) (negated : Bool)
    {low high : String} (hlow : IsName low) (hhigh : IsName high) {v w : Value} :
    (Filter.mk path (.between negated) (.list [v, w])).WrittenAs (rangeText path negated low high)
      [(low, v), (high, w)] := by
  have hfront : Plain (path ++ " " ++ (Comparison.low negated).sign ++ " ") :=
    ((hplain.append (by decide)).append (by cases negated <;> decide)).append (by decide)
  have hmiddle : Plain ("AND " ++ path ++ " " ++ (Comparison.high negated).sign ++ " ") :=
    (((Plain.append (by decide) hplain).append (by decide)).append
      (by cases negated <;> decide)).append (by decide)
  have htext : rangeText path negated low high =
      (path ++ " " ++ (Comparison.low negated).sign ++ " ") ++ ":" ++ low ++
        (" " ++ ("AND " ++ path ++ " " ++ (Comparison.high negated).sign ++ " ") ++ ":" ++
          high ++ "") := by
    cases negated <;> exact String.toList_inj.1
      (by simp [rangeText, Comparison.low, Comparison.high, Comparison.sign])
  refine Filter.writtenAs_pair htext hfront hmiddle hlow hhigh ?_
  have hspace : " " ++ ("AND " ++ path ++ " " ++ (Comparison.high negated).sign ++ " ") =
      " AND " ++ path ++ " " ++ (Comparison.high negated).sign ++ " " :=
    String.toList_inj.1 (by simp)
  rw [hspace]
  rfl

namespace Draft

def keyFor (d : Draft) (f : Filter) : String := Name.fresh (Name.ofPath f.path) d.taken

theorem isName_keyFor (d : Draft) {f : Filter} (hp : isPath f.path = true) : IsName (d.keyFor f) :=
  (IsName.ofPath hp).fresh .wide d.taken

theorem keyFor_not_mem (d : Draft) (f : Filter) : d.keyFor f ∉ d.taken :=
  Name.fresh_not_mem _ _

def setArguments (d : Draft) (added : List (String × Value)) : Draft :=
  added.foldl (fun d e => d.setArgument e.1 e.2) d

theorem isName_append {key : String} (h : IsName key) {suffix : String}
    (hs : suffix.toList.all Text.isWord = true) : IsName (key ++ suffix) := by
  refine ⟨by simp [h.1], fun c hc => ?_⟩
  rw [String.toList_append, List.mem_append] at hc
  exact hc.elim (h.2 c) (List.all_eq_true.1 hs c)

theorem mem_taken_setArgument {d : Draft} {name other : String} {v : Value} :
    other ∈ (d.setArgument name v).taken ↔ other = name ∨ other ∈ d.taken := by
  simp only [taken, setArgument, List.mem_append, Dict.mem_keys_insert, or_assoc]

theorem range_names_free (d : Draft) (key : String) (low : Value) {lowName highName : String}
    (hlow : lowName = Name.fresh (key ++ "_1") (key :: d.taken))
    (hhigh : highName = Name.fresh (key ++ "_2") (key :: (d.setArgument lowName low).taken)) :
    lowName ∉ d.taken ∧ highName ≠ lowName ∧ highName ∉ d.taken := by
  have hfree (d : Draft) (candidate : String) : Name.fresh candidate (key :: d.taken) ∉ d.taken :=
    fun hmem => Name.fresh_not_mem _ _ (List.mem_cons_of_mem key hmem)
  refine ⟨hlow ▸ hfree d _, ?_⟩
  rw [← not_or, ← mem_taken_setArgument, hhigh]
  exact hfree _ _

/-- The text shows the filter, with as many arguments as it binds and under names that nothing in
the draft has. -/
structure Adds (d : Draft) (f : Filter) (text : String) (added : List (String × Value)) :
    Prop where
  written : f.WrittenAs text added
  count : added.length = f.operator.arity
  nodup : (added.map Prod.fst).Nodup
  free : ∀ e ∈ added, e.1 ∉ d.taken

section Written

variable (d : Draft) {path : String} (hp : isPath path = true)

include hp

theorem adds_single {op : Operator} {v bound : Value} {front rest : String} (hfront : Plain front)
    (hrest : rest = "" ∨ rest = ")") (hcount : op.arity = 1)
    (hspelled : (Filter.mk path op v).spelled = Part.text front ++ .value bound :: Part.text rest) :
    d.Adds ⟨path, op, v⟩ (front ++ ":" ++ d.keyFor ⟨path, op, v⟩ ++ rest)
      [(d.keyFor ⟨path, op, v⟩, bound)] where
  written := Filter.writtenAs_single hfront (d.isName_keyFor hp) hrest hspelled
  count := hcount.symm
  nodup := by simp
  free := by simpa using d.keyFor_not_mem ⟨path, op, v⟩

theorem adds_compare (c : Comparison) (v : Value) : d.Adds ⟨path, .compare c, v⟩
    (path ++ " " ++ c.sign ++ " :" ++ d.keyFor ⟨path, .compare c, v⟩)
    [(d.keyFor ⟨path, .compare c, v⟩, v)] := by
  have hsign : Plain c.sign := by cases c <;> decide
  have hfront : Plain (path ++ " " ++ c.sign ++ " ") :=
    (((plain_of_isPath hp).append (by decide)).append hsign).append (by decide)
  have htext (key : String) : path ++ " " ++ c.sign ++ " :" ++ key =
      path ++ " " ++ c.sign ++ " " ++ ":" ++ key ++ "" := String.toList_inj.1 (by simp)
  rw [htext]
  exact d.adds_single hp hfront (.inl rfl) rfl rfl

theorem adds_like (m : TextMatch) (s : String) : d.Adds ⟨path, .like m, .text s⟩
    (path ++ " LIKE :" ++ d.keyFor ⟨path, .like m, .text s⟩)
    [(d.keyFor ⟨path, .like m, .text s⟩, .text (m.pattern s))] := by
  have hfront : Plain (path ++ " LIKE ") := (plain_of_isPath hp).append (by decide)
  have htext (key : String) : path ++ " LIKE :" ++ key = path ++ " LIKE " ++ ":" ++ key ++ "" :=
    String.toList_inj.1 (by simp)
  rw [htext]
  exact d.adds_single hp hfront (.inl rfl) rfl rfl

theorem adds_among (negated : Bool) (v : Value) : d.Adds ⟨path, .among negated, v⟩
    (path ++ (if negated then " NOT IN(:" else " IN(:") ++ d.keyFor ⟨path, .among negated, v⟩ ++
      ")") [(d.keyFor ⟨path, .among negated, v⟩, v)] := by
  have hfront : Plain (path ++ if negated then " NOT IN(" else " IN(") :=
    (plain_of_isPath hp).append (by cases negated <;> decide)
  have htext (key : String) : path ++ (if negated then " NOT IN(:" else " IN(:") ++ key ++ ")" =
      (path ++ if negated then " NOT IN(" else " IN(") ++ ":" ++ key ++ ")" := by
    cases negated <;> exact String.toList_inj.1 (by simp)
  rw [htext]
  exact d.adds_single hp hfront (.inr rfl) rfl rfl

theorem adds_null (negated : Bool) (v : Value) : d.Adds ⟨path, .null negated, v⟩
    (path ++ if negated then " IS NOT NULL" else " IS NULL") [] := by
  have hplain : Plain (path ++ if negated then " IS NOT NULL" else " IS NULL") :=
    (plain_of_isPath hp).append (by cases negated <;> decide)
  exact ⟨⟨markersIn_plain hplain, fun all _ => resolve_plain hplain all⟩, rfl, by simp, by simp⟩

theorem adds_range {key : String} (hkey : IsName key) (negated : Bool) (low high : Value) :
    ∃ text added, d.Adds ⟨path, .between negated, .list [low, high]⟩ text added ∧
      d.addRange key path negated low high = (d.setArguments added).addFragment key text := by
  let lowName := Name.fresh (key ++ "_1") (key :: d.taken)
  let highName := Name.fresh (key ++ "_2") (key :: (d.setArgument lowName low).taken)
  have hlow : IsName lowName := (isName_append hkey (by decide)).fresh .wide _
  have hhigh : IsName highName := (isName_append hkey (by decide)).fresh .wide _
  have hfree : lowName ∉ d.taken ∧ highName ≠ lowName ∧ highName ∉ d.taken :=
    d.range_names_free key low rfl rfl
  refine ⟨rangeText path negated lowName highName, [(lowName, low), (highName, high)], ?_, ?_⟩
  · refine ⟨Filter.writtenAs_range (plain_of_isPath hp) negated hlow hhigh, rfl, ?_, ?_⟩
    · simpa using Ne.symm hfree.2.1
    · simpa using ⟨hfree.1, hfree.2.2⟩
  · cases negated <;> rfl

end Written

theorem range?_eq_ok_iff {v low high : Value} : v.range? = .ok (low, high) ↔
    v = .list [low, high] ∧ low.isBound = true ∧ high.isBound = true := by
  constructor
  · intro h
    unfold Value.range? at h
    split at h
    next l u =>
      split at h
      next => simp at h
      next hl =>
        split at h
        next => simp at h
        next hu =>
          obtain ⟨rfl, rfl⟩ := Prod.mk.inj (Except.ok.inj h)
          exact ⟨rfl, by simpa using hl, by simpa using hu⟩
    next => simp at h
    next => simp at h
  · rintro ⟨rfl, hlow, hhigh⟩
    simp [Value.range?, hlow, hhigh]

/-- All that a step can do: it writes one fragment under its key, and arguments under names that
nothing has. -/
theorem add_spec {d d' : Draft} {f : Filter} (hp : isPath f.path = true) (h : d.add f = .ok d') :
    ∃ text added, d.Adds f text added ∧
      d' = (d.setArguments added).addFragment (d.keyFor f) text := by
  have hkey := d.isName_keyFor hp
  obtain ⟨path, op, v⟩ := f
  cases op with
  | compare c =>
      obtain rfl := Except.ok.inj h
      exact ⟨_, _, d.adds_compare hp c v, rfl⟩
  | like m =>
      cases v with
      | text s =>
          obtain rfl := Except.ok.inj h
          exact ⟨_, _, d.adds_like hp m s, rfl⟩
      | _ => simp [add] at h
  | among negated =>
      cases hv : v.isList with
      | false => simp [add, hv] at h
      | true =>
          simp only [add, hv, if_true] at h
          obtain rfl := Except.ok.inj h
          exact ⟨_, _, d.adds_among hp negated v, rfl⟩
  | between negated =>
      simp only [add] at h
      split at h
      next low high hv =>
        obtain rfl := Except.ok.inj h
        obtain ⟨rfl, -⟩ := range?_eq_ok_iff.1 hv
        exact d.adds_range hp hkey negated low high
      next => simp at h
  | null negated =>
      obtain rfl := Except.ok.inj h
      exact ⟨_, _, d.adds_null hp negated v, rfl⟩

theorem setArguments_spec (d : Draft) {added : List (String × Value)}
    (hnodup : (added.map Prod.fst).Nodup) (hfree : ∀ e ∈ added, e.1 ∉ d.taken) :
    d.arguments.Extends (d.setArguments added).arguments ∧
      (∀ e ∈ added, (d.setArguments added).arguments.get? e.1 = some e.2) ∧
      (d.setArguments added).arguments.keys.Perm (added.map Prod.fst ++ d.arguments.keys) ∧
      (d.setArguments added).fragments = d.fragments ∧
      (d.setArguments added).leaves = d.leaves := by
  induction added generalizing d with
  | nil => exact ⟨.refl _, by simp, .refl _, rfl, rfl⟩
  | cons e rest ih =>
      obtain ⟨name, v⟩ := e
      rw [List.map_cons, List.nodup_cons] at hnodup
      have hname : name ∉ d.arguments.keys :=
        fun h => hfree (name, v) (by simp) (List.mem_append_left _ h)
      have hrest : ∀ e ∈ rest, e.1 ∉ (d.setArgument name v).taken := by
        intro e he
        rw [mem_taken_setArgument, not_or]
        exact ⟨fun h => hnodup.1 (List.mem_map.2 ⟨e, he, h⟩), hfree e (by simp [he])⟩
      obtain ⟨hext, hvalue, hkeys, hfragments, hleaves⟩ := ih (d.setArgument name v) hnodup.2 hrest
      refine ⟨(Dict.extends_insert v hname).trans hext, ?_, ?_, hfragments, hleaves⟩
      · intro e he
        rcases List.mem_cons.1 he with rfl | he
        · exact hext _ _ (by simp [setArgument])
        · exact hvalue e he
      · refine hkeys.trans ?_
        exact ((Dict.perm_keys_insert hname).append_left _).trans List.perm_middle

/-- The draft stands for the filters: `written` has a key and a text for each of them, the text
spells the filter, and every argument is one marker of one text. -/
structure Sound (d : Draft) (fs : List Filter) (written : List (String × String)) : Prop where
  leaves : d.leaves = written.map fun e => .leaf e.1 e.2
  fragments : d.fragments.entries.Perm written
  names : d.arguments.keys.Perm (written.flatMap fun e => markersIn e.2)
  size : d.arguments.size = (fs.map fun f => f.operator.arity).sum
  spells : List.Forall₂ (fun e f => resolve d.arguments e.2 = f.spelled) written fs

theorem Sound.bound {d : Draft} {fs : List Filter} {written : List (String × String)}
    (h : d.Sound fs written) {e : String × String} (he : e ∈ written) : Bound d.arguments e.2 :=
  fun _ hname => h.names.mem_iff.2 (List.mem_flatMap.2 ⟨e, he, hname⟩)

theorem Sound.empty : empty.Sound [] [] := ⟨rfl, .refl _, .refl _, rfl, .nil⟩

theorem Sound.add {d d' : Draft} {fs : List Filter} {written : List (String × String)}
    (hd : d.Sound fs written) {f : Filter} (hp : isPath f.path = true) (h : d.add f = .ok d') :
    ∃ text, d'.Sound (fs ++ [f]) (written ++ [(d.keyFor f, text)]) := by
  obtain ⟨text, added, hadds, rfl⟩ := add_spec hp h
  obtain ⟨hext, hvalue, hkeys, hfragments, hleaves⟩ := d.setArguments_spec hadds.nodup hadds.free
  have hkey : d.keyFor f ∉ d.fragments.keys :=
    fun hmem => d.keyFor_not_mem f (List.mem_append_right _ hmem)
  refine ⟨text, ?_, ?_, ?_, ?_, ?_⟩
  · change (d.setArguments added).leaves ++ _ = _
    rw [hleaves, hd.leaves, List.map_append]
    rfl
  · change ((d.setArguments added).fragments.insert (d.keyFor f) text).entries.Perm _
    rw [hfragments]
    refine (Dict.perm_insert hkey).trans ((hd.fragments.cons _).trans ?_)
    exact (List.perm_append_singleton _ _).symm
  · rw [List.flatMap_append, List.flatMap_singleton, hadds.written.markers]
    exact hkeys.trans (List.perm_append_comm.trans (hd.names.append_right _))
  · have hlength := hkeys.length_eq
    rw [List.length_append, List.length_map, hadds.count, ← Dict.size_eq_length_keys,
      ← Dict.size_eq_length_keys, hd.size, Nat.add_comm] at hlength
    rw [List.map_append, List.sum_append]
    exact hlength
  · refine List.rel_append ?_ (.cons (hadds.written.resolves _ hvalue) .nil)
    -- A step only adds arguments, so the earlier texts still show what they did.
    have hboth := (List.forall₂_and_left _ _).2 ⟨fun e he => hd.bound (e := e) he, hd.spells⟩
    exact hboth.imp fun e f he => (resolve_extends hext he.1).trans he.2

theorem addAll_induction {P : Draft → Prop} {fs : List Filter}
    (hstep : ∀ f ∈ fs, ∀ d d', P d → d.add f = .ok d' → P d') {d d' : Draft} (hd : P d)
    (h : d.addAll fs = .ok d') : P d' := by
  induction fs generalizing d with
  | nil =>
      obtain rfl := Except.ok.inj h
      exact hd
  | cons f rest ih =>
      rw [Draft.addAll] at h
      split at h
      next next hadd =>
        exact ih (fun g hg => hstep g (by simp [hg])) (hstep f (by simp) d next hd hadd) h
      next => simp at h

theorem Sound.addAll {d d' : Draft} {fs gs : List Filter} {written : List (String × String)}
    (hd : d.Sound fs written) (hp : ∀ f ∈ gs, isPath f.path = true) (h : d.addAll gs = .ok d') :
    ∃ more, d'.Sound (fs ++ gs) (written ++ more) := by
  induction gs generalizing d fs written with
  | nil =>
      obtain rfl := Except.ok.inj h
      exact ⟨[], by simpa using hd⟩
  | cons f rest ih =>
      rw [Draft.addAll] at h
      split at h
      next next hadd =>
        obtain ⟨text, hnext⟩ := hd.add (hp f (by simp)) hadd
        obtain ⟨more, hmore⟩ := ih hnext (fun g hg => hp g (by simp [hg])) h
        exact ⟨(d.keyFor f, text) :: more, by simpa using hmore⟩
      next => simp at h

theorem exists_add_iff {d : Draft} {f : Filter} :
    (∃ d', d.add f = .ok d') ↔ f.fits = true := by
  obtain ⟨path, op, v⟩ := f
  cases op with
  | compare c => simp [Draft.add, Filter.fits]
  | like m => cases v <;> simp [Draft.add, Filter.fits]
  | among negated => cases hv : v.isList <;> simp [Draft.add, Filter.fits, hv]
  | between negated =>
      constructor
      · rintro ⟨d', h⟩
        simp only [Draft.add] at h
        split at h
        next low high hv =>
          obtain ⟨rfl, hlow, hhigh⟩ := range?_eq_ok_iff.1 hv
          simp [Filter.fits, hlow, hhigh]
        next => simp at h
      · intro h
        obtain ⟨low, high, rfl, hlow, hhigh⟩ := Filter.list_of_fits_between h
        simp [Draft.add, range?_eq_ok_iff.2 ⟨rfl, hlow, hhigh⟩]
  | null negated => simp [Draft.add, Filter.fits]

theorem exists_addAll_iff {d : Draft} {fs : List Filter} :
    (∃ d', d.addAll fs = .ok d') ↔ ∀ f ∈ fs, f.fits = true := by
  induction fs generalizing d with
  | nil => simp [addAll]
  | cons f rest ih =>
      rw [List.forall_mem_cons, ← exists_add_iff (d := d)]
      cases hadd : d.add f with
      | ok next => simp [addAll, hadd, ih]
      | error e => simp [addAll, hadd]

theorem Sound.clause_finish {d : Draft} {fs : List Filter} {written : List (String × String)}
    (hd : d.Sound fs written) (c : Connective) :
    (d.finish c).clause = c.separator.intercalate (written.map Prod.snd) := by
  change (Body.ofTrees c d.leaves).clause = _
  rw [hd.leaves, Body.clause_ofTrees, List.map_map]
  rfl

end Draft

section Filters

variable {c : Connective} {fs : List Filter} {s : Statement}

theorem ofFilters_eq_ok (h : Statement.ofFilters c fs = .ok s) :
    ∃ d, Draft.empty.addAll fs = .ok d ∧ s = d.finish c := by
  unfold Statement.ofFilters at h
  cases hd : Draft.empty.addAll fs with
  | error e => simp [hd, Except.map] at h
  | ok d =>
      rw [hd] at h
      exact ⟨d, rfl, (Except.ok.inj h).symm⟩

theorem exists_ofFilters_iff :
    (∃ s, Statement.ofFilters c fs = .ok s) ↔ ∀ f ∈ fs, f.fits = true := by
  rw [← Draft.exists_addAll_iff (d := .empty)]
  constructor
  · rintro ⟨s, h⟩
    obtain ⟨d, hd, -⟩ := ofFilters_eq_ok h
    exact ⟨d, hd⟩
  · rintro ⟨d, hd⟩
    exact ⟨d.finish c, by rw [Statement.ofFilters, hd]; rfl⟩

variable (hp : ∀ f ∈ fs, isPath f.path = true) (h : Statement.ofFilters c fs = .ok s)

include hp h

theorem ofFilters_spec : ∃ d written, Draft.Sound d fs written ∧ s = d.finish c := by
  obtain ⟨d, hd, rfl⟩ := ofFilters_eq_ok h
  obtain ⟨written, hsound⟩ := Draft.Sound.empty.addAll hp hd
  exact ⟨d, written, hsound, rfl⟩

theorem resolve_ofFilters : resolve s.arguments s.clause =
    c.parts.intercalate (fs.map Filter.spelled) := by
  obtain ⟨d, written, hd, rfl⟩ := ofFilters_spec hp h
  rw [hd.clause_finish, resolve_intercalate, List.map_map]
  congr 1
  rw [← List.forall₂_eq_eq_eq, List.forall₂_map_left_iff, List.forall₂_map_right_iff]
  exact hd.spells

end Filters

end ClauseWeave
