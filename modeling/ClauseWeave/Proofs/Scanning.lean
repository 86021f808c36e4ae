import ClauseWeave.Clause.Tree
import ClauseWeave.Proofs.FreshName
import Mathlib.Algebra.Group.Nat.Even
import Mathlib.Data.List.TakeWhile

namespace ClauseWeave

namespace Piece

@[simp]
theorem rename_other (renames : Dict String) (c : Char) : (other c).rename renames = other c := rfl

@[simp]
theorem chars_other (c : Char) : (other c).chars = [c] := rfl

@[simp]
theorem markerName?_other (c : Char) : (other c).markerName? = none := rfl

@[simp]
theorem markerName?_marker (name : List Char) :
    (marker name).markerName? = some (String.ofList name) := rfl

def Separates (c : Char) : Prop := c ≠ ':' ∧ Text.isWord c = false

theorem isWord_colon : Text.isWord ':' = false := by decide

theorem Separates.space : Separates ' ' := ⟨by decide, by decide⟩

theorem Separates.closeParen : Separates ')' := ⟨by decide, by decide⟩

namespace Reading

theorem Sound.isQuote_eq_false {r : Reading} (hr : r.Sound) {c : Char} (h : r.isName c = true) :
    isQuote c = false := by
  cases hq : isQuote c with
  | false => rfl
  | true =>
      obtain rfl : c = '\'' := by simpa [isQuote] using hq
      simp [hr.apart '\'' (by simp)] at h

def Plain (r : Reading) (c : Char) : Prop := c ≠ ':' ∧ (r.literals && isQuote c) = false

theorem plain_wide {c : Char} (h : c ≠ ':') : wide.Plain c := ⟨h, rfl⟩

theorem plain_of_ne {r : Reading} {c : Char} (hcolon : c ≠ ':') (hquote : isQuote c = false) :
    r.Plain c := ⟨hcolon, by simp [hquote]⟩

def Closed (r : Reading) (s : List Char) : Prop := r.literals = true → Even (s.countP isQuote)

theorem closed_wide (s : List Char) : wide.Closed s := by simp [Closed, wide]

theorem Closed.of_countP {r : Reading} {s t : List Char} (h : r.Closed s)
    (hcount : t.countP isQuote = s.countP isQuote) : r.Closed t := fun hr => hcount ▸ h hr

end Reading

theorem literalRest_append_eq_self {s t : List Char} (h : (literalRest s).2 = [] → t = []) :
    literalRest ((literalRest s).1 ++ t) = ((literalRest s).1, t) := by
  induction s with
  | nil => simp [h rfl, literalRest]
  | cons c rest ih =>
      by_cases hc : isQuote c = true
      · simp [literalRest, hc]
      · simp only [literalRest, hc, Bool.false_eq_true, if_false] at h ⊢
        simp [literalRest, hc, ih h]

theorem literalRest_append_of_countP {s : List Char} (h : s.countP isQuote ≠ 0) (t : List Char) :
    literalRest (s ++ t) = ((literalRest s).1, (literalRest s).2 ++ t) := by
  induction s with
  | nil => simp at h
  | cons c rest ih =>
      by_cases hc : isQuote c = true
      · simp [literalRest, hc]
      · have hrest : rest.countP isQuote ≠ 0 := by simpa [List.countP_cons, hc] using h
        simp [literalRest, hc, ih hrest]

theorem countP_literalRest {s : List Char} (h : s.countP isQuote ≠ 0) :
    (literalRest s).2.countP isQuote + 1 = s.countP isQuote := by
  induction s with
  | nil => simp at h
  | cons c rest ih =>
      by_cases hc : isQuote c = true
      · simp [literalRest, hc]
      · have hrest : rest.countP isQuote ≠ 0 := by simpa [List.countP_cons, hc] using h
        simp [literalRest, hc, ih hrest]

section Reading

variable {r : Reading}

theorem pieces_cons_plain {c : Char} (h : r.Plain c) (s : List Char) :
    pieces r (c :: s) = other c :: pieces r s := by
  rw [pieces.eq_def]
  simp [h.1, h.2]

theorem pieces_cast (s : List Char) : pieces r (':' :: ':' :: s) = cast :: pieces r s := by
  rw [pieces.eq_def]
  simp [isQuote]

theorem pieces_colon {s : List Char} (hcolon : ∀ rest, s ≠ ':' :: rest)
    (hword : ∀ c ∈ s.head?, r.isName c = false) :
    pieces r (':' :: s) = other ':' :: pieces r s := by
  have htake : s.takeWhile r.isName = [] := by
    cases s with
    | nil => rfl
    | cons c s => simp [hword c rfl]
  rw [pieces]
  · simp [isQuote, htake]
  · exact hcolon

theorem pieces_marker (hr : r.Sound) {name rest : List Char} (hne : name ≠ [])
    (hname : ∀ c ∈ name, r.isName c = true) (hrest : ∀ c ∈ rest.head?, r.isName c = false) :
    pieces r (':' :: (name ++ rest)) = marker name :: pieces r rest := by
  have htake : (name ++ rest).takeWhile r.isName = name := by
    rw [List.takeWhile_append_of_pos hname]
    cases rest with
    | nil => simp
    | cons c rest => simp [hrest c rfl]
  have hdrop : (name ++ rest).dropWhile r.isName = rest := by
    rw [List.dropWhile_append_of_pos hname]
    cases rest with
    | nil => simp
    | cons c rest => simp [hrest c rfl]
  rw [pieces]
  · simp [isQuote, htake, hdrop, hne]
  · intro tail he
    obtain ⟨d, name, rfl⟩ := List.exists_cons_of_ne_nil hne
    obtain ⟨rfl, -⟩ := List.cons.inj he
    simpa [hr.apart ':' (by simp)] using hname ':' (by simp)

theorem pieces_literal {c : Char} (hc : (r.literals && isQuote c) = true) (s : List Char) :
    pieces r (c :: s) = literal (c :: (literalRest s).1) :: pieces r (literalRest s).2 := by
  rw [pieces.eq_def]
  simp [hc]

theorem pieces_append_plain {s : List Char} (h : ∀ c ∈ s, r.Plain c) (t : List Char) :
    pieces r (s ++ t) = s.map other ++ pieces r t := by
  induction s with
  | nil => rfl
  | cons c s ih =>
      rw [List.cons_append, pieces_cons_plain (h c (by simp)), ih fun d hd => h d (by simp [hd])]
      rfl

theorem head?_dropWhile_isName (r : Reading) (s : List Char) :
    ∀ c ∈ (s.dropWhile r.isName).head?, r.isName c = false := by
  intro c hc
  have h := List.head?_dropWhile_not r.isName s
  rw [Option.mem_def] at hc
  simpa [hc] using h

theorem head_not_name_of_takeWhile {s : List Char} (h : s.takeWhile r.isName = []) :
    ∀ c ∈ s.head?, r.isName c = false := by
  cases s with
  | nil => simp
  | cons c s =>
      cases hc : r.isName c with
      | false => simpa using hc
      | true => simp [hc] at h

theorem countP_dropWhile_isName (hr : r.Sound) (s : List Char) :
    (s.dropWhile r.isName).countP isQuote = s.countP isQuote := by
  have hname : (s.takeWhile r.isName).countP isQuote = 0 := by
    rw [List.countP_eq_zero]
    intro c hc
    simp [hr.isQuote_eq_false (List.mem_takeWhile_imp hc)]
  conv_rhs => rw [← List.takeWhile_append_dropWhile (p := r.isName) (l := s)]
  rw [List.countP_append, hname, Nat.zero_add]

/-- A text without an open literal is read by itself, if a character follows that separates. -/
theorem pieces_append_cons (hr : r.Sound) {c : Char} (hplain : r.Plain c)
    (hc : r.isName c = false) {s : List Char} (hs : r.Closed s) (t : List Char) :
    pieces r (s ++ c :: t) = pieces r s ++ other c :: pieces r t := by
  have hhead (s : List Char) (hs : ∀ d ∈ s.head?, r.isName d = false) :
      ∀ d ∈ (s ++ c :: t).head?, r.isName d = false := by
    cases s with
    | nil => simpa using hc
    | cons d s => simpa using hs
  fun_induction pieces r s with
  | case1 => exact pieces_cons_plain hplain t
  | case2 d rest hlit ih =>
      -- Behind the opening quote an odd number of them is left; the first one closes the literal.
      obtain ⟨hliterals, hquote⟩ := Bool.and_eq_true_iff.1 hlit
      have hodd : ¬ Even (rest.countP isQuote) := by
        simpa [List.countP_cons, hquote, Nat.even_add_one] using hs hliterals
      have hne : rest.countP isQuote ≠ 0 := fun h => hodd (h ▸ Even.zero)
      have hrest : r.Closed (literalRest rest).2 := by
        intro _
        rw [← countP_literalRest hne, Nat.even_add_one] at hodd
        exact not_not.1 hodd
      rw [List.cons_append, pieces_literal hlit, literalRest_append_of_countP hne, ih hrest]
      rfl
  | case3 rest _ ih =>
      rw [List.cons_append, List.cons_append, pieces_cast, ih (hs.of_countP rfl)]
      rfl
  | case4 rest hcolon name hempty _ ih =>
      have hword : ∀ d ∈ rest.head?, r.isName d = false :=
        head_not_name_of_takeWhile (List.isEmpty_iff.1 hempty)
      rw [List.cons_append, pieces_colon _ (hhead rest hword), ih (hs.of_countP rfl)]
      · rfl
      · intro tail he
        cases rest with
        | nil => exact hplain.1 (List.cons.inj he).1
        | cons d rest =>
            obtain ⟨rfl, -⟩ := List.cons.inj he
            exact hcolon rest rfl
  | case5 rest _ name hne _ ih =>
      have hsplit : rest ++ c :: t = name ++ (rest.dropWhile r.isName ++ c :: t) := by
        rw [← List.append_assoc]
        exact congrArg (· ++ c :: t) List.takeWhile_append_dropWhile.symm
      have hname : ∀ d ∈ name, r.isName d = true := fun d hd => List.mem_takeWhile_imp hd
      rw [List.cons_append, hsplit, pieces_marker hr (mt List.isEmpty_iff.2 hne) hname
        (hhead _ (head?_dropWhile_isName r rest)),
        ih (hs.of_countP (countP_dropWhile_isName hr rest))]
      rfl
  | case6 d rest hlit hd ih =>
      have hd : r.Plain d := ⟨hd, by simpa using hlit⟩
      have hrest : r.Closed rest := by
        intro hliterals
        have hquote : isQuote d = false := by simpa [hliterals] using hlit
        simpa [List.countP_cons, hquote] using hs hliterals
      rw [List.cons_append, pieces_cons_plain hd, ih hrest]
      rfl

theorem head?_flatMap_rename (renames : Dict String) (s : List Char) :
    ((pieces r s).flatMap fun p => (p.rename renames).chars).head? = s.head? := by
  fun_induction pieces r s with
  | case1 | case2 | case3 | case4 | case5 | case6 => rfl

theorem isName_of_marker_mem {s name : List Char} (h : marker name ∈ pieces r s) :
    r.IsName (String.ofList name) := by
  fun_induction pieces r s with
  | case1 => simp at h
  | case2 c rest _ ih => exact ih (by simpa using h)
  | case3 rest _ ih => exact ih (by simpa using h)
  | case4 rest _ _ _ _ ih => exact ih (by simpa using h)
  | case5 rest _ found hne _ ih =>
      rcases List.mem_cons.1 h with he | h
      · obtain rfl : name = found := by simpa using he
        refine ⟨by simpa using hne, fun c hc => ?_⟩
        exact List.mem_takeWhile_imp (String.toList_ofList ▸ hc)
      · exact ih h
  | case6 c rest _ _ ih => exact ih (by simpa using h)

theorem suffix_of_marker_mem {s name : List Char} (h : marker name ∈ pieces r s) :
    ∃ rest, (':' :: rest) <:+ s ∧ name = rest.takeWhile r.isName := by
  fun_induction pieces r s with
  | case1 => simp at h
  | case2 c rest _ ih =>
      obtain ⟨tail, htail, hname⟩ := ih (by simpa using h)
      have hafter : (literalRest rest).2 <:+ rest := ⟨_, literalRest_append rest⟩
      exact ⟨tail, htail.trans (hafter.trans (List.suffix_cons c rest)), hname⟩
  | case3 rest _ ih =>
      obtain ⟨tail, htail, hname⟩ := ih (by simpa using h)
      exact ⟨tail, htail.trans ((List.suffix_cons _ rest).trans (List.suffix_cons _ _)), hname⟩
  | case4 rest _ _ _ _ ih | case6 _ rest _ _ ih =>
      obtain ⟨tail, htail, hname⟩ := ih (by simpa using h)
      exact ⟨tail, htail.trans (List.suffix_cons _ rest), hname⟩
  | case5 rest _ found _ _ ih =>
      rcases List.mem_cons.1 h with he | h
      · exact ⟨rest, List.suffix_refl _, Piece.marker.inj he⟩
      · obtain ⟨tail, htail, hname⟩ := ih h
        have hafter := List.dropWhile_suffix (l := rest) r.isName
        exact ⟨tail, htail.trans (hafter.trans (List.suffix_cons _ rest)), hname⟩

end Reading

end Piece

/-- The name that a marker has afterwards. -/
def renamed (renames : Dict String) (name : String) : String := (renames.get? name).getD name

theorem Piece.rename_marker (renames : Dict String) (name : List Char) :
    (marker name).rename renames = marker (renamed renames (String.ofList name)).toList := by
  cases h : renames.get? (String.ofList name) <;> simp [Piece.rename, renamed, h]

/-- Renaming in place neither makes a marker nor joins two: the pieces of the new text are the old
ones under their new names. -/
theorem Piece.pieces_flatMap_rename {r : Reading} (hr : r.Sound) {renames : Dict String}
    {s : List Char}
    (h : ∀ name, marker name ∈ pieces r s → r.IsName (renamed renames (String.ofList name))) :
    pieces r ((pieces r s).flatMap fun p => (p.rename renames).chars) =
      (pieces r s).map (Piece.rename renames) := by
  fun_induction pieces r s with
  | case1 => simp [pieces]
  | case2 c rest hlit ih =>
      have hclosed : (literalRest rest).2 = [] →
          ((pieces r (literalRest rest).2).flatMap fun p => (p.rename renames).chars) = [] := by
        intro he
        simp [he, pieces]
      rw [List.flatMap_cons, List.map_cons, ← ih fun name hn => h name (by simp [hn])]
      change pieces r (c :: ((literalRest rest).1 ++ _)) = _
      rw [pieces_literal hlit, literalRest_append_eq_self hclosed]
      rfl
  | case3 rest _ ih =>
      rw [List.flatMap_cons, List.map_cons, ← ih fun name hn => h name (by simp [hn])]
      exact pieces_cast _
  | case4 rest hcolon name hempty _ ih =>
      have hhead := head?_flatMap_rename (r := r) renames rest
      rw [List.flatMap_cons, List.map_cons, ← ih fun name hn => h name (by simp [hn])]
      refine pieces_colon ?_ ?_
      · intro tail he
        replace he : ((pieces r rest).flatMap fun p => (p.rename renames).chars) = ':' :: tail := he
        rw [he] at hhead
        cases rest with
        | nil => simp at hhead
        | cons d rest =>
            obtain rfl : ':' = d := by simpa using hhead
            exact hcolon rest rfl
      · change ∀ c ∈ ((pieces r rest).flatMap fun p => (p.rename renames).chars).head?, _
        rw [hhead]
        exact head_not_name_of_takeWhile (List.isEmpty_iff.1 hempty)
  | case5 rest _ name hne _ ih =>
      have hname := h name (by simp)
      rw [List.flatMap_cons, List.map_cons, ← ih fun name hn => h name (by simp [hn]),
        rename_marker]
      refine pieces_marker hr (by simpa using hname.1) hname.2 ?_
      rw [head?_flatMap_rename]
      exact head?_dropWhile_isName r rest
  | case6 c rest hlit hc ih =>
      rw [List.flatMap_cons, List.map_cons, ← ih fun name hn => h name (by simp [hn])]
      exact pieces_cons_plain ⟨hc, by simpa using hlit⟩ _

def scan (s : String) : List Piece := Piece.pieces .wide s.toList

theorem markersIn_eq (s : String) : markersIn s = (scan s).filterMap Piece.markerName? := rfl

theorem mem_markersIn {s name : String} : name ∈ markersIn s ↔ .marker name.toList ∈ scan s := by
  rw [markersIn_eq, List.mem_filterMap]
  constructor
  · rintro ⟨p, hp, he⟩
    cases p with
    | marker n =>
        obtain rfl : String.ofList n = name := by simpa [Piece.markerName?] using he
        simpa using hp
    | _ => simp [Piece.markerName?] at he
  · exact fun h => ⟨_, h, by simp [Piece.markerName?]⟩

theorem isName_of_mem_markersIn {s name : String} (h : name ∈ markersIn s) : IsName name := by
  have hname := Piece.isName_of_marker_mem (mem_markersIn.1 h)
  rwa [String.ofList_toList] at hname

theorem relabel_eq (renames : Dict String) (s : String) :
    relabel renames s = String.ofList ((scan s).flatMap fun p => (p.rename renames).chars) := rfl

theorem scan_relabel {renames : Dict String} {s : String}
    (h : ∀ name ∈ markersIn s, IsName (renamed renames name)) :
    scan (relabel renames s) = (scan s).map (Piece.rename renames) := by
  rw [relabel_eq, scan, String.toList_ofList]
  apply Piece.pieces_flatMap_rename .wide
  intro name hn
  rw [← String.toList_ofList (l := name)] at hn
  exact h _ (mem_markersIn.2 hn)

theorem markerName?_rename (renames : Dict String) (p : Piece) :
    (p.rename renames).markerName? = p.markerName?.map (renamed renames) := by
  cases p with
  | marker n => simp [Piece.rename_marker, Piece.markerName?]
  | _ => rfl

theorem markersIn_relabel {renames : Dict String} {s : String}
    (h : ∀ name ∈ markersIn s, IsName (renamed renames name)) :
    markersIn (relabel renames s) = (markersIn s).map (renamed renames) := by
  rw [markersIn_eq, scan_relabel h, List.filterMap_map, markersIn_eq, List.map_filterMap]
  exact List.filterMap_congr fun p _ => markerName?_rename renames p

namespace Piece.Reading

def scan (r : Reading) (s : String) : List Piece := pieces r s.toList

variable {r : Reading}

theorem scan_empty : r.scan "" = [] := by simp [scan, pieces]

section Sound

variable (hr : r.Sound)

include hr

theorem scan_append_space {s : String} (hs : r.Closed s.toList) (t : String) :
    r.scan (s ++ " " ++ t) = r.scan s ++ .other ' ' :: r.scan t := by
  have hspace : r.Plain ' ' := plain_of_ne (by decide) (by decide)
  simpa [scan] using pieces_append_cons hr hspace (hr.apart ' ' (by simp)) hs t.toList

theorem scan_paren {s : String} (hs : r.Closed s.toList) :
    r.scan ("(" ++ s ++ ")") = .other '(' :: (r.scan s ++ [.other ')']) := by
  have hopen : r.Plain '(' := plain_of_ne (by decide) (by decide)
  have hclose : r.Plain ')' := plain_of_ne (by decide) (by decide)
  have hpieces := pieces_append_cons hr hclose (hr.apart ')' (by simp)) hs []
  simpa [scan, pieces_cons_plain hopen, pieces] using congrArg (other '(' :: ·) hpieces

omit hr in
theorem scan_separator (c : Connective) : r.scan c.separator = c.separator.toList.map .other := by
  have hall : ∀ d ∈ c.separator.toList, d ≠ ':' ∧ isQuote d = false := by
    cases c <;> simp [Connective.separator, Connective.word, isQuote]
  have hplain : ∀ d ∈ c.separator.toList, r.Plain d :=
    fun d hd => plain_of_ne (hall d hd).1 (hall d hd).2
  simpa [scan, pieces] using pieces_append_plain hplain []

theorem scan_append_separator (c : Connective) {s : String} (hs : r.Closed s.toList) (t : String) :
    r.scan (s ++ c.separator ++ t) = r.scan s ++ r.scan c.separator ++ r.scan t := by
  have hsep : s ++ c.separator ++ t = s ++ " " ++ (c.word ++ " " ++ t) := by
    simp [Connective.separator, String.append_assoc]
  have hword : c.separator = "" ++ " " ++ (c.word ++ " " ++ "") := by
    simp [Connective.separator, String.append_assoc]
  have hnil : r.Closed "".toList := fun _ => by simp
  have hclosed : r.Closed c.word.toList := fun _ => by cases c <;> decide
  rw [hsep, hword, scan_append_space hr hs, scan_append_space hr hclosed,
    scan_append_space hr hnil, scan_append_space hr hclosed]
  simp [scan_empty]

theorem scan_intercalate (c : Connective) {texts : List String}
    (h : ∀ s ∈ texts, r.Closed s.toList) :
    r.scan (c.separator.intercalate texts) =
      (r.scan c.separator).intercalate (texts.map r.scan) := by
  induction texts with
  | nil => simpa using scan_empty
  | cons s rest ih =>
      cases rest with
      | nil => simp
      | cons t rest =>
          rw [String.intercalate_cons_cons, scan_append_separator hr c (h s (by simp)),
            ih fun u hu => h u (by simp [hu])]
          simp

end Sound

end Piece.Reading

open Piece.Reading (closed_wide)

theorem scan_empty : scan "" = [] := Piece.Reading.scan_empty

theorem scan_append_space (s t : String) :
    scan (s ++ " " ++ t) = scan s ++ .other ' ' :: scan t :=
  Piece.Reading.scan_append_space .wide (closed_wide _) t

theorem scan_paren (s : String) :
    scan ("(" ++ s ++ ")") = .other '(' :: (scan s ++ [.other ')']) :=
  Piece.Reading.scan_paren .wide (closed_wide _)

theorem scan_separator (c : Connective) : scan c.separator = c.separator.toList.map .other :=
  Piece.Reading.scan_separator c

theorem scan_append_separator (c : Connective) (s t : String) :
    scan (s ++ c.separator ++ t) = scan s ++ scan c.separator ++ scan t :=
  Piece.Reading.scan_append_separator .wide c (closed_wide _) t

theorem scan_intercalate (c : Connective) (texts : List String) :
    scan (c.separator.intercalate texts) = (scan c.separator).intercalate (texts.map scan) :=
  Piece.Reading.scan_intercalate .wide c fun s _ => closed_wide s.toList

end ClauseWeave
