import ClauseWeave.Proofs.Steadiness
import Mathlib.Data.List.Infix

namespace ClauseWeave

section Cuts

variable {α : Type} {c : α} {l r s t : List α}

theorem exists_of_append_eq_of_left (hc : c ∉ l) (h : l ++ t = r ++ c :: s) :
    ∃ a, r = l ++ a ∧ t = a ++ c :: s := by
  rcases List.append_eq_append_iff.1 h with ⟨a, rfl, ht⟩ | ⟨a, rfl, hs⟩
  · exact ⟨a, rfl, ht⟩
  · cases a with
    | nil => exact ⟨[], by simp, hs.symm⟩
    | cons d a =>
        obtain ⟨rfl, -⟩ := List.cons.inj hs
        simp at hc

theorem exists_of_append_eq_of_right (hc : c ∉ t) (h : l ++ t = r ++ c :: s) :
    ∃ a, l = r ++ c :: a ∧ s = a ++ t := by
  rcases List.append_eq_append_iff.1 h with ⟨a, rfl, rfl⟩ | ⟨a, rfl, hs⟩
  · simp at hc
  · cases a with
    | nil =>
        rw [List.nil_append] at hs
        simp [← hs] at hc
    | cons d a =>
        obtain ⟨rfl, rfl⟩ := List.cons.inj hs
        exact ⟨a, rfl, rfl⟩

theorem append_cons_inj (hl : c ∉ l) (hr : c ∉ r) (h : l ++ c :: s = r ++ c :: t) :
    l = r ∧ s = t := by
  obtain ⟨a, rfl, ht⟩ := exists_of_append_eq_of_left hl h
  cases a with
  | nil => exact ⟨by simp, (List.cons.inj ht).2⟩
  | cons d a =>
      obtain ⟨rfl, -⟩ := List.cons.inj ht
      simp at hr

end Cuts

theorem space_not_mem_of_isPath {path : String} (h : isPath path = true) : ' ' ∉ path.toList := by
  intro hc
  rcases (chars_of_isPath h).2 ' ' hc with hword | hdot
  · exact absurd hword (by decide)
  · exact absurd hdot (by decide)

theorem space_not_mem_of_isName {name : String} (h : IsName name) : ' ' ∉ name.toList :=
  fun hc => absurd (h.2 ' ' hc) (by decide)

def Quiet (s : List Char) : Prop := ∃ c rest, s = c :: rest ∧ c ≠ 'A' ∧ c ≠ 'O'

theorem Operator.quiet_opening {op : Operator} {a b : List Char}
    (h : op.opening.toList = a ++ ' ' :: b) : b = [] ∨ Quiet b := by
  have hall : (op.opening.toList.tails.all fun s =>
      s.take 2 != [' ', 'A'] && s.take 2 != [' ', 'O']) = true := by
    rcases op with c | m | n | n | n
    · cases c <;> decide
    · cases m <;> decide
    all_goals cases n <;> decide
  cases b with
  | nil => exact .inl rfl
  | cons d b =>
      have hmem : ' ' :: d :: b ∈ op.opening.toList.tails := (List.mem_tails _ _).2 ⟨a, h.symm⟩
      have hd := List.all_eq_true.1 hall _ hmem
      exact .inr ⟨d, b, rfl, by simpa using hd⟩

namespace Operator

theorem opening_append_ne (op : Operator) {s : String} (hs : s ∈ [":", "NULL", "NOT NULL"])
    (front back : List Char) : op.opening.toList ++ front ≠ ' ' :: (s.toList ++ back) := by
  simp only [List.mem_cons, List.not_mem_nil, or_false] at hs
  rcases hs with rfl | rfl | rfl <;> rcases op with c | m | n | n | n
  all_goals first | cases c | cases m | cases n
  all_goals simp [opening, Comparison.sign, Comparison.low]

theorem exists_sign (c : Comparison) : ∃ d rest, c.sign.toList = d :: rest ∧
    d ≠ ' ' ∧ Text.isWord d = false ∧ d ≠ '.' := by
  cases c <;> exact ⟨_, _, rfl, by decide⟩

theorem eq_among_of_opening {op : Operator} {front back : List Char}
    (h : op.opening.toList ++ front = ' ' :: ("IN(".toList ++ back)) :
    op = .among false ∧ front = back := by
  rcases op with c | m | n | n | n
  all_goals first | cases c | cases m | cases n
  all_goals simp_all [opening, Comparison.sign, Comparison.low]

end Operator

theorem path_append_ne {path : String} (hp : isPath path = true) {s : List Char} {c : Char}
    (hs : ' ' ∉ s) (hc : c ≠ ' ' ∧ Text.isWord c = false ∧ c ≠ '.') (back rest : List Char) :
    s ++ c :: back ≠ path.toList ++ ' ' :: rest := by
  intro h
  have hpath : c ∉ path.toList := by
    intro hmem
    rcases (chars_of_isPath hp).2 c hmem with hword | hdot
    · simp [hc.2.1] at hword
    · exact hc.2.2 hdot
  obtain ⟨a, rfl, ha⟩ := exists_of_append_eq_of_left hpath h.symm
  cases a with
  | nil => exact hc.1 (List.cons.inj ha).1.symm
  | cons d a =>
      obtain ⟨rfl, -⟩ := List.cons.inj ha
      simp at hs

namespace Phrase

theorem quiet_single {path name : String} (hp : isPath path = true) {op : Operator}
    (h : op.arity = 1) (hname : IsName name) {r z : List Char}
    (htext : (text ⟨path, op, [name]⟩).toList = r ++ ' ' :: z) : Quiet z := by
  have htail : ' ' ∉ ':' :: (name.toList ++ op.closing.toList) := by
    have hclosing : ' ' ∉ op.closing.toList := by rcases op.closing_eq with he | he <;> simp [he]
    simpa using ⟨space_not_mem_of_isName hname, hclosing⟩
  have hlist : (text ⟨path, op, [name]⟩).toList =
      path.toList ++ (op.opening.toList ++ ':' :: (name.toList ++ op.closing.toList)) := by
    simp [text_single path h]
  rw [hlist] at htext
  obtain ⟨a, -, hrest⟩ := exists_of_append_eq_of_left (space_not_mem_of_isPath hp) htext
  obtain ⟨b, hopening, rfl⟩ := exists_of_append_eq_of_right htail hrest
  rcases Operator.quiet_opening hopening with rfl | ⟨c, rest, rfl, hc⟩
  · exact ⟨':', _, rfl, by decide, by decide⟩
  · exact ⟨c, _, rfl, hc⟩

theorem quiet_null {path : String} (hp : isPath path = true) {negated : Bool} {r z : List Char}
    (htext : (text ⟨path, .null negated, []⟩).toList = r ++ ' ' :: z) : Quiet z := by
  rw [text_null, String.toList_append] at htext
  obtain ⟨a, -, hrest⟩ := exists_of_append_eq_of_left (space_not_mem_of_isPath hp) htext
  rcases Operator.quiet_opening hrest with rfl | hquiet
  · have hlast := congrArg List.getLast? hrest
    cases negated <;> simp [Operator.opening] at hlast
  · exact hquiet

theorem markersIn_range {path low high : String} (hp : isPath path = true) (negated : Bool)
    (hlow : IsName low) (hhigh : IsName high) :
    markersIn (text ⟨path, .between negated, [low, high]⟩) = [low, high] :=
  (Filter.writtenAs_range (plain_of_isPath hp) negated hlow hhigh (v := .null) (w := .null)).markers

/-- A connective may begin only in the middle of a range, behind its first marker. -/
theorem quiet_or_range {p : Phrase} (hp : p.Valid (isPath · = true)) {r z : List Char}
    (htext : p.text.toList = r ++ ' ' :: z) : Quiet z ∨
      ∃ front back low high, r = (front ++ " " ++ back).toList ∧ markersIn back = [low] ∧
        markersIn p.text = [low, high] := by
  cases shape_of_count hp.count with
  | single path h name =>
      exact .inl (quiet_single hp.path h ((hp.names name (by simp)).isName hp.path) htext)
  | null path negated => exact .inl (quiet_null hp.path htext)
  | range path negated low high =>
      have hlow := (hp.names low (by simp)).isName hp.path
      have hhigh := (hp.names high (by simp)).isName hp.path
      have hfirst (t : String) : (text ⟨path, .compare (.low negated), [low]⟩).toList ++ t.toList =
          (path ++ " " ++ (Comparison.low negated).sign ++ " " ++
            ("" ++ ":" ++ low ++ t)).toList := by
        have harity : (Operator.compare (.low negated)).arity = 1 := rfl
        simp [text_single path harity, Operator.opening, Operator.closing]
      have hplace (t : String) (ht : ∀ c ∈ t.toList.head?, Text.isWord c = false)
          (hplain : Plain t) : ∃ front back low' high',
            (text ⟨path, .compare (.low negated), [low]⟩).toList ++ t.toList =
              (front ++ " " ++ back).toList ∧ markersIn back = [low'] ∧
              markersIn (text ⟨path, .between negated, [low, high]⟩) = [low', high'] := by
        refine ⟨_, _, low, high, hfirst t, ?_, markersIn_range hp.path negated hlow hhigh⟩
        rw [markersIn_marked (by decide) hlow ht, markersIn_plain hplain]
      have hquietLow {r z : List Char} := quiet_single (r := r) (z := z) hp.path
        (rfl : (Operator.compare (.low negated)).arity = 1) hlow
      have hquietHigh {r z : List Char} := quiet_single (r := r) (z := z) hp.path
        (rfl : (Operator.compare (.high negated)).arity = 1) hhigh
      have hsep : Connective.and.separator.toList = ' ' :: (['A', 'N', 'D'] ++ [' ']) := by decide
      rw [text_range, String.toList_append, String.toList_append, hsep, List.append_assoc] at htext
      rcases List.append_eq_append_iff.1 htext with ⟨a, rfl, hrest⟩ | ⟨a, hlowText, hrest⟩
      · cases a with
        | nil => exact .inr (by simpa using hplace "" (by simp) (by decide))
        | cons c a =>
            obtain ⟨rfl, hword⟩ := List.cons.inj hrest
            rw [List.append_eq, List.append_assoc] at hword
            obtain ⟨b, rfl, htail⟩ := exists_of_append_eq_of_left (by decide) hword
            cases b with
            | nil =>
                refine .inr ?_
                simpa using hplace " AND" (by simpa using Piece.Separates.space.2) (by decide)
            | cons d b =>
                obtain ⟨rfl, hhighText⟩ := List.cons.inj htail
                exact .inl (hquietHigh hhighText)
      · cases a with
        | nil => exact .inr (by simpa [hlowText] using hplace "" (by simp) (by decide))
        | cons c a =>
            obtain ⟨rfl, rfl⟩ := List.cons.inj hrest
            obtain ⟨d, rest, rfl, hd⟩ := hquietLow hlowText
            exact .inl ⟨d, _, rfl, hd⟩

section Across

variable {x y : Phrase} (hx : x.Valid (isPath · = true)) (hy : y.Valid (isPath · = true))
  {u r z : List Char} (hytext : y.text.toList = u ++ r)

include hx hytext

theorem not_across_join (hxtext : x.text.toList = r ++ ' ' :: z)
    (hnodup : (markersIn x.text).Nodup)
    (hshared : ∀ name ∈ markersIn y.text, name ∈ markersIn x.text → y.text = x.text)
    (c : Connective) {v rest : List Char} : z ++ v ≠ c.word.toList ++ rest := by
  intro hnext
  rcases quiet_or_range hx hxtext with
    ⟨d, tail, rfl, hand, hor⟩ | ⟨front, back, low, high, rfl, hback, hmarkers⟩
  · cases c with
    | and => exact hand (List.cons.inj hnext).1
    | or => exact hor (List.cons.inj hnext).1
  · have hwhole : y.text = String.ofList u ++ front ++ " " ++ back :=
      String.toList_inj.1 (by simpa using hytext)
    have hsplit : markersIn y.text = markersIn (String.ofList u ++ front) ++ [low] := by
      rw [hwhole, markersIn_eq, scan_append_space, List.filterMap_append, ← hback]
      rfl
    have hsame := hshared low (by simp [hsplit]) (by simp [hmarkers])
    rw [hsame, hmarkers] at hsplit
    obtain rfl : high = low := by simpa using congrArg List.getLast? hsplit
    simp [hmarkers] at hnodup

include hy

theorem not_across_closing : x.text.toList ≠ r ++ ')' :: z := by
  intro hxtext
  have hbalanced {p : Phrase} (hp : p.Valid (isPath · = true)) : Balanced p.text.toList :=
    balanced_text hp.path hp.count fun name hname => (hp.names name hname).isName hp.path
  have hleft := (hbalanced hy).1 u.length
  have hright := (hbalanced hx).1 (r.length + 1)
  have hall := (hbalanced hy).2
  have htake : (r ++ ')' :: z).take (r.length + 1) = r ++ [')'] := by
    simp [List.take_append]
  rw [hytext, List.take_left'  rfl] at hleft
  rw [hytext, List.count_append, List.count_append] at hall
  rw [hxtext, htake, List.count_append, List.count_append] at hright
  simp at hright
  omega

end Across

theorem markersIn_among {path name : String} (hp : isPath path = true) (negated : Bool)
    (hname : IsName name) : markersIn (text ⟨path, .among negated, [name]⟩) = [name] := by
  have hplain : Plain (path ++ (Operator.among negated).opening) :=
    (plain_of_isPath hp).append (Operator.plain_opening _)
  have hhead : ∀ c ∈ (")" : String).toList.head?, Text.isWord c = false := by
    simpa using Piece.Separates.closeParen.2
  rw [text_single path rfl, Operator.closing, markersIn_marked hplain hname hhead,
    markersIn_plain (by decide)]

theorem markersIn_of_among {y : Phrase} (hy : y.Valid (isPath · = true))
    (hop : y.operator = .among false) {tail : List Char}
    (htail : y.text.toList = y.path.toList ++ (y.operator.opening.toList ++ tail)) {name : String}
    (hname : IsName name) {rest v : List Char}
    (hmarker : tail ++ rest = ':' :: (name.toList ++ ')' :: v)) : markersIn y.text = [name] := by
  obtain ⟨path, op, names⟩ := y
  obtain rfl : op = .among false := hop
  obtain ⟨own, rfl⟩ := List.length_eq_one_iff.1 hy.count
  have hown := (hy.names own (by simp)).isName hy.path
  have hclosing {name : String} (h : IsName name) : ')' ∉ name.toList :=
    fun hmem => (Clear.of_isName h ')' hmem).2 rfl
  have harity : (Operator.among false).arity = 1 := rfl
  obtain rfl : tail = ':' :: (own.toList ++ [')']) := by
    simpa [text_single path harity, Operator.closing, eq_comm] using htail
  obtain ⟨he, -⟩ := append_cons_inj (hclosing hown) (hclosing hname) (by simpa using hmarker)
  rw [markersIn_among hy.path false hown, String.toList_inj.1 he]

section Words

variable {y : Phrase} (hy : y.Valid (isPath · = true)) {rest : List Char}

include hy

theorem text_append_ne_sign (c : Comparison) (t : List Char) :
    y.text.toList ++ rest ≠ c.sign.toList ++ t := by
  obtain ⟨tail, htail⟩ := exists_tail hy.count
  obtain ⟨o, os, hopening, -⟩ := y.operator.exists_opening
  obtain ⟨d, sign, hd, hplain⟩ := Operator.exists_sign c
  rw [hd, htail, hopening]
  intro h
  exact path_append_ne hy.path (s := []) (by simp) hplain _ _ (by simpa using h.symm)

theorem eq_of_text_append {w : String} (hw : ' ' ∉ w.toList) {s : List Char}
    (h : y.text.toList ++ rest = w.toList ++ ' ' :: s) : y.path = w ∧
      ∃ tail, y.text.toList = y.path.toList ++ (y.operator.opening.toList ++ tail) ∧
        y.operator.opening.toList ++ (tail ++ rest) = ' ' :: s := by
  obtain ⟨tail, htail⟩ := exists_tail hy.count
  obtain ⟨c, o, hopening, -⟩ := y.operator.exists_opening
  have hbegins : y.path.toList ++ ' ' :: (c :: o ++ (tail ++ rest)) = w.toList ++ ' ' :: s := by
    rw [← h, htail, hopening]
    simp
  obtain ⟨hpath, hrest⟩ := append_cons_inj (space_not_mem_of_isPath hy.path) hw hbegins
  refine ⟨String.toList_inj.1 hpath, tail, htail, ?_⟩
  rw [← hrest, hopening]
  simp

theorem text_append_ne_words {w s : String} (hw : ' ' ∉ w.toList)
    (hs : s ∈ [":", "NULL", "NOT NULL"]) (t : List Char) :
    y.text.toList ++ rest ≠ w.toList ++ ' ' :: (s.toList ++ t) := by
  intro h
  obtain ⟨-, tail, -, hoperator⟩ := eq_of_text_append hy hw h
  exact y.operator.opening_append_ne hs _ _ hoperator

theorem text_append_ne_among (t : List Char) : y.text.toList ++ rest ≠ "IN(".toList ++ t := by
  obtain ⟨tail, htail⟩ := exists_tail hy.count
  obtain ⟨c, o, hopening, -⟩ := y.operator.exists_opening
  rw [htail, hopening]
  intro h
  exact path_append_ne hy.path (s := ['I', 'N']) (c := '(') (by decide) (by decide) t _
    (by simpa using h.symm)

end Words

section Join

variable {x y : Phrase} (hx : x.Valid (isPath · = true)) (hy : y.Valid (isPath · = true))
  (hshared : ∀ name ∈ markersIn y.text, name ∈ markersIn x.text → y.text = x.text)
  (hpath : 'T' ∉ x.path.toList) (v rest : List Char)

include hx hy hshared hpath

/-- `NOT` could be a path before a list. With the marker of this list it would be that of `x`. -/
theorem not_from_absent {name : String} (hop : x.operator = .among true)
    (hnames : x.names = [name]) : y.text.toList ++ rest ≠
      "NOT".toList ++ ' ' :: ("IN(:".toList ++ (name.toList ++ ')' :: v)) := by
  intro h
  obtain ⟨path, op, names⟩ := x
  obtain rfl : op = .among true := hop
  obtain rfl : names = [name] := hnames
  have hname := (hx.names name (by simp)).isName hx.path
  obtain ⟨hword, tail, htail, hoperator⟩ := eq_of_text_append hy (w := "NOT") (by decide) h
  have hopening : y.operator.opening.toList ++ (tail ++ rest) =
      ' ' :: ("IN(".toList ++ ':' :: (name.toList ++ ')' :: v)) := by simpa using hoperator
  obtain ⟨hlist, hmarker⟩ := Operator.eq_among_of_opening hopening
  have hown := hshared name (by simp [markersIn_of_among hy hlist htail hname hmarker])
    (by simp [markersIn_among hx.path true hname])
  have hsame : y.text.toList ++ [] =
      path.toList ++ ' ' :: ("NOT IN(:".toList ++ (name.toList ++ [')'])) := by
    rw [List.append_nil, hown, text_single path rfl]
    simp [Operator.opening, Operator.closing]
  obtain ⟨hxpath, -⟩ := eq_of_text_append hy (space_not_mem_of_isPath hx.path) hsame
  rw [← hxpath, hword] at hpath
  exact hpath (by decide)

theorem not_from_join {body : List Char} (hbody : x.text.toList = x.path.toList ++ ' ' :: body) :
    body ++ v ≠ y.text.toList ++ rest := by
  intro h
  replace h := h.symm
  obtain ⟨path, op, names⟩ := x
  cases shape_of_count hx.count with
  | @single path op harity name =>
      rw [text_single path harity] at hbody
      rcases op with c | m | n | n | n
      · obtain rfl : body = c.sign.toList ++ " :".toList ++ name.toList := by
          simpa [Operator.opening, Operator.closing, eq_comm] using hbody
        exact text_append_ne_sign hy c _ (by simpa using h)
      · obtain rfl : body = "LIKE :".toList ++ name.toList := by
          simpa [Operator.opening, Operator.closing, eq_comm] using hbody
        exact text_append_ne_words hy (w := "LIKE") (s := ":") (by decide) (by simp) _
          (by simpa using h)
      · cases n with
        | false =>
            obtain rfl : body = "IN(:".toList ++ (name.toList ++ [')']) := by
              simpa [Operator.opening, Operator.closing, eq_comm] using hbody
            exact text_append_ne_among hy (':' :: (name.toList ++ [')'] ++ v)) (by simpa using h)
        | true =>
            obtain rfl : body = "NOT IN(:".toList ++ (name.toList ++ [')']) := by
              simpa [Operator.opening, Operator.closing, eq_comm] using hbody
            exact not_from_absent hx hy hshared hpath v rest rfl rfl (by simpa using h)
      · simp [Operator.arity] at harity
      · simp [Operator.arity] at harity
  | range path negated low high =>
      obtain ⟨tail, htail⟩ := exists_tail hx.count
      obtain rfl : body = (Comparison.low negated).sign.toList ++ ' ' :: tail := by
        simpa [Operator.opening, eq_comm] using htail.symm.trans hbody
      exact text_append_ne_sign hy (.low negated) _ (by simpa using h)
  | null path negated =>
      rw [text_null] at hbody
      cases negated with
      | false =>
          obtain rfl : body = "IS NULL".toList := by
            simpa [Operator.opening, eq_comm] using hbody
          exact text_append_ne_words hy (w := "IS") (s := "NULL") (by decide) (by simp) v
            (by simpa using h)
      | true =>
          obtain rfl : body = "IS NOT NULL".toList := by
            simpa [Operator.opening, eq_comm] using hbody
          exact text_append_ne_words hy (w := "IS") (s := "NOT NULL") (by decide) (by simp) v
            (by simpa using h)

end Join

end Phrase

def LiesWithin (ms : List Mark) (needle u v : List Char) : Prop :=
  ∃ front text back u' v', ms = front ++ .fragment text :: back ∧ u = spell front ++ u' ∧
    v = v' ++ spell back ∧ text.toList = u' ++ needle ++ v'

theorem LiesWithin.cons {ms : List Mark} {needle u v : List Char} (h : LiesWithin ms needle u v)
    (m : Mark) : LiesWithin (m :: ms) needle (m.text.toList ++ u) v := by
  obtain ⟨front, text, back, u', v', rfl, rfl, rfl, htext⟩ := h
  exact ⟨m :: front, text, back, u', v', rfl, by simp, rfl, htext⟩

/-- The fragments are phrases, and only the own text of `x` has markers of `x`. -/
structure Surrounds (x : Phrase) (ms : List Mark) : Prop where
  phrased : ∀ text, .fragment text ∈ ms → ∃ y : Phrase, y.Valid (isPath · = true) ∧ text = y.text
  shared : ∀ text, .fragment text ∈ ms →
    ∀ name ∈ markersIn text, name ∈ markersIn x.text → text = x.text

theorem Surrounds.tail {x : Phrase} {m : Mark} {ms : List Mark} (h : Surrounds x (m :: ms)) :
    Surrounds x ms :=
  ⟨fun text htext => h.phrased text (by simp [htext]),
    fun text htext => h.shared text (by simp [htext])⟩

theorem Connective.word_letters (c : Connective) : ∀ d ∈ c.word.toList, d ≠ ' ' ∧ d ≠ 'T' := by
  cases c <;> simp [word]

theorem Connective.separator_eq (c : Connective) :
    c.separator.toList = ' ' :: (c.word.toList ++ [' ']) := by
  simp [separator]

section Places

variable {x : Phrase} (hx : x.Valid (isPath · = true)) {m : Mark} {rest : List Mark}
  (hchain : (m :: rest).IsChain Mark.Precedes) {b v : List Char}

include hx

theorem Phrase.exists_text : ∃ c tail, x.text.toList = c :: tail ∧ Tidy.Inner c := by
  obtain ⟨tail, htail⟩ := Phrase.exists_tail hx.count
  obtain ⟨hne, hchars⟩ := chars_of_isPath hx.path
  obtain ⟨c, path, hpath⟩ := List.exists_cons_of_ne_nil (mt String.toList_eq_nil_iff.1 hne)
  refine ⟨c, _, by rw [htail, hpath, List.cons_append], ?_⟩
  rcases hchars c (by simp [hpath]) with hword | rfl
  · exact .of_isWord hword
  · exact .dot

include hchain

theorem liesWithin_fragment {y : Phrase} (hy : y.Valid (isPath · = true))
    (hnodup : (markersIn x.text).Nodup)
    (hshared : ∀ name ∈ markersIn y.text, name ∈ markersIn x.text → y.text = x.text)
    (hm : m = .fragment y.text) {u : List Char} (hytext : y.text.toList = u ++ b)
    (h : x.text.toList ++ v = b ++ spell rest) :
    LiesWithin (m :: rest) x.text.toList u v := by
  subst hm
  rcases List.append_eq_append_iff.1 h with ⟨a, rfl, rfl⟩ | ⟨a, hxtext, hrest⟩
  · exact ⟨[], y.text, rest, u, a, rfl, rfl, rfl, by simpa using hytext⟩
  · cases a with
    | nil =>
        exact ⟨[], y.text, rest, u, [], rfl, rfl, by simpa using hrest.symm,
          by simpa [hxtext] using hytext⟩
    | cons d a =>
        cases rest with
        | nil => simp at hrest
        | cons n rest =>
            have hbegins : n.begins = false := (List.isChain_cons_cons.1 hchain).1
            cases n with
            | closing =>
                obtain ⟨rfl, -⟩ := List.cons.inj hrest
                exact absurd hxtext (Phrase.not_across_closing hx hy hytext)
            | join c =>
                have hsep : spell (.join c :: rest) =
                    ' ' :: (c.word.toList ++ ' ' :: spell rest) := by
                  simp [Mark.text, Connective.separator]
                obtain ⟨rfl, hnext⟩ := List.cons.inj (hsep.symm.trans hrest)
                exact absurd hnext.symm (Phrase.not_across_join hx hytext hxtext hnodup hshared c)
            | fragment text | opening => simp [Mark.begins] at hbegins

theorem not_from_word (h : Surrounds x rest) {c : Connective} (hm : m = .join c) {u w : List Char}
    (hword : c.word.toList = u ++ w) : x.text.toList ++ v ≠ w ++ ' ' :: spell rest := by
  subst hm
  intro he
  obtain ⟨xtail, hxtail⟩ := Phrase.exists_tail hx.count
  obtain ⟨e, o, hopening, hhead⟩ := x.operator.exists_opening
  have hbody : x.text.toList = x.path.toList ++ ' ' :: (e :: o ++ xtail) := by
    rw [hxtail, hopening]
    rfl
  have hletters : ∀ d ∈ w, d ≠ ' ' ∧ d ≠ 'T' :=
    fun d hd => c.word_letters d (by simp [hword, hd])
  rw [hbody, List.append_assoc] at he
  obtain ⟨hpath, hrest⟩ := append_cons_inj (space_not_mem_of_isPath hx.path)
    (fun hd => (hletters ' ' hd).1 rfl) he
  have hplain : 'T' ∉ x.path.toList := fun hd => (hletters 'T' (hpath ▸ hd)).2 rfl
  cases rest with
  | nil => simp at hrest
  | cons n rest =>
      have hbegins : n.begins = true := (List.isChain_cons_cons.1 hchain).1
      cases n with
      | fragment text =>
          obtain ⟨y, hy, rfl⟩ := h.phrased text (by simp)
          exact Phrase.not_from_join hx hy (h.shared y.text (by simp)) hplain v (spell rest) hbody
            hrest
      | opening =>
          obtain ⟨rfl, -⟩ := List.cons.inj hrest
          exact absurd hhead (by decide)
      | closing | join c => simp [Mark.begins] at hbegins

theorem not_from_separator (h : Surrounds x rest) {c : Connective} (hm : m = .join c)
    (hb : b ≠ []) {u : List Char} (hseparator : c.separator.toList = u ++ b) :
    x.text.toList ++ v ≠ b ++ spell rest := by
  intro he
  have hspace (s : List Char) : x.text.toList ++ v ≠ ' ' :: s := by
    obtain ⟨d, tail, hxtext, hd⟩ := x.exists_text hx
    rw [hxtext]
    intro he
    obtain ⟨rfl, -⟩ := List.cons.inj he
    exact absurd hd.notBlank (by decide)
  rw [c.separator_eq] at hseparator
  cases u with
  | nil =>
      rw [← hseparator.trans (List.nil_append b)] at he
      exact hspace _ he
  | cons e u =>
      obtain ⟨rfl, hword⟩ := List.cons.inj hseparator
      rcases List.append_eq_append_iff.1 hword with ⟨a, rfl, ha⟩ | ⟨w, hw, rfl⟩
      · cases a with
        | nil =>
            rw [← ha.trans (List.nil_append b)] at he
            exact hspace _ he
        | cons e a => exact hb (List.append_eq_nil_iff.1 (List.cons.inj ha).2.symm).2
      · exact not_from_word hx hchain h hm hw (by simpa using he)

end Places

/-- The text of a fragment stands nowhere in a condition but within the fragments. -/
theorem liesWithin {x : Phrase} (hx : x.Valid (isPath · = true))
    (hnodup : (markersIn x.text).Nodup) {ms : List Mark} (hchain : ms.IsChain Mark.Precedes)
    (h : Surrounds x ms) {u v : List Char} (he : spell ms = u ++ x.text.toList ++ v) :
    LiesWithin ms x.text.toList u v := by
  induction ms generalizing u with
  | nil =>
      obtain ⟨c, tail, hxtext, -⟩ := x.exists_text hx
      simp [hxtext] at he
  | cons m rest ih =>
      rw [spell_cons, List.append_assoc] at he
      rcases List.append_eq_append_iff.1 he with ⟨a, rfl, hrest⟩ | ⟨b, hm, hrest⟩
      · exact (ih hchain.tail h.tail (by simpa using hrest)).cons m
      · by_cases hb : b = []
        · subst hb
          have hwithin := (ih hchain.tail h.tail (u := []) (by simpa using hrest.symm)).cons m
          simpa [hm] using hwithin
        · have hletter {d : Char} (hd : m.text.toList = [d]) : Tidy.Inner d := by
            obtain ⟨c, tail, hxtext, hc⟩ := x.exists_text hx
            rw [hd] at hm
            rcases List.append_eq_cons_iff.1 hm.symm with ⟨-, rfl⟩ | ⟨a, -, hnil⟩
            · rw [hxtext] at hrest
              exact (List.cons.inj hrest).1 ▸ hc
            · exact absurd (List.append_eq_nil_iff.1 hnil.symm).2 hb
          cases hmark : m with
          | fragment text =>
              obtain ⟨y, hy, rfl⟩ := h.phrased text (by simp [hmark])
              rw [hmark] at hm
              rw [← hmark]
              exact liesWithin_fragment hx hchain hy hnodup (h.shared y.text (by simp [hmark]))
                hmark hm hrest
          | join c =>
              rw [hmark] at hm
              exact absurd hrest (not_from_separator hx hchain h.tail hmark hb hm)
          | opening => exact absurd rfl (hletter (d := '(') (by rw [hmark]; rfl)).notOpening
          | closing => exact absurd rfl (hletter (d := ')') (by rw [hmark]; rfl)).notClosing

end ClauseWeave
