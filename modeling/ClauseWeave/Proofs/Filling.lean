import ClauseWeave.Proofs.Binding

namespace ClauseWeave

namespace Piece

/-- The pieces of a text from left to right. A literal ends with the next quote, or with the text;
a name takes in all that names are made of; a colon by itself has neither behind it. -/
inductive Splits : List Char → List Piece → Prop
  | nil : Splits [] []
  | literal {inside rest : List Char} {ps : List Piece} (hinside : '\'' ∉ inside)
      (h : Splits rest ps) :
      Splits ('\'' :: (inside ++ '\'' :: rest)) (literal ('\'' :: (inside ++ ['\''])) :: ps)
  | unclosed {inside : List Char} (hinside : '\'' ∉ inside) :
      Splits ('\'' :: inside) [literal ('\'' :: inside)]
  | cast {rest : List Char} {ps : List Piece} (h : Splits rest ps) :
      Splits (':' :: ':' :: rest) (cast :: ps)
  | marker {name rest : List Char} {ps : List Piece} (hne : name ≠ [])
      (hname : ∀ c ∈ name, Text.isNameChar c = true)
      (hend : ∀ c ∈ rest.head?, Text.isNameChar c = false) (h : Splits rest ps) :
      Splits (':' :: (name ++ rest)) (marker name :: ps)
  | other {c : Char} {rest : List Char} {ps : List Piece} (hquote : c ≠ '\'')
      (hcolon : c = ':' → ∀ d ∈ rest.head?, d ≠ ':' ∧ Text.isNameChar d = false)
      (h : Splits rest ps) : Splits (c :: rest) (other c :: ps)

theorem isQuote_eq_false {c : Char} (h : c ≠ '\'') : isQuote c = false := by simpa [isQuote] using h

theorem literalRest_closed {inside : List Char} (h : '\'' ∉ inside) (rest : List Char) :
    literalRest (inside ++ '\'' :: rest) = (inside ++ ['\''], rest) := by
  induction inside with
  | nil => rfl
  | cons c inside ih =>
      simp only [List.mem_cons, not_or] at h
      simp [literalRest, isQuote_eq_false (Ne.symm h.1), ih h.2]

theorem literalRest_unclosed {inside : List Char} (h : '\'' ∉ inside) :
    literalRest inside = (inside, []) := by
  induction inside with
  | nil => rfl
  | cons c inside ih =>
      simp only [List.mem_cons, not_or] at h
      simp [literalRest, isQuote_eq_false (Ne.symm h.1), ih h.2]

theorem splits_pieces (s : List Char) : Splits s (pieces .narrow s) := by
  fun_induction pieces Reading.narrow s with
  | case1 => exact .nil
  | case2 c rest hquote ih =>
      obtain rfl : c = '\'' := by simpa [Reading.narrow, isQuote] using hquote
      by_cases hclosed : '\'' ∈ rest
      · obtain ⟨inside, after, rfl, hinside⟩ := List.eq_append_cons_of_mem hclosed
        rw [literalRest_closed hinside] at ih ⊢
        exact .literal hinside ih
      · rw [literalRest_unclosed hclosed, pieces]
        exact .unclosed hclosed
  | case3 rest _ ih => exact .cast ih
  | case4 rest hcolon name hempty _ ih =>
      have hname := head_not_name_of_takeWhile (List.isEmpty_iff.1 hempty)
      refine .other (by decide) (fun _ d hd => ⟨?_, hname d hd⟩) ih
      rintro rfl
      cases rest with
      | nil => simp at hd
      | cons d rest =>
          obtain rfl : d = ':' := by simpa using hd
          exact hcolon rest rfl
  | case5 rest _ name hne _ ih =>
      have hsplit : rest = name ++ rest.dropWhile Text.isNameChar :=
        List.takeWhile_append_dropWhile.symm
      conv in ':' :: rest => rw [hsplit]
      exact .marker (mt List.isEmpty_iff.2 hne) (fun c hc => List.mem_takeWhile_imp hc)
        (head?_dropWhile_isName .narrow rest) ih
  | case6 c rest hquote hc ih =>
      have hquote : c ≠ '\'' := by simpa [Reading.narrow, isQuote] using hquote
      exact .other hquote (fun he => absurd he hc) ih

theorem splits_iff {s : List Char} {ps : List Piece} : Splits s ps ↔ ps = pieces .narrow s := by
  refine ⟨fun h => ?_, fun h => h ▸ splits_pieces s⟩
  have hquote : (Reading.narrow.literals && isQuote '\'') = true := rfl
  induction h with
  | nil => simp [pieces]
  | literal hinside _ ih => rw [pieces_literal hquote, literalRest_closed hinside, ih]
  | unclosed hinside => rw [pieces_literal hquote, literalRest_unclosed hinside, pieces]
  | cast _ ih => rw [pieces_cast, ih]
  | marker hne hname hend _ ih => rw [pieces_marker .narrow hne hname hend, ih]
  | @other c rest ps hquote hcolon _ ih =>
      by_cases hc : c = ':'
      · subst hc
        rw [pieces_colon ?_ fun d hd => (hcolon rfl d hd).2, ih]
        rintro tail rfl
        exact (hcolon rfl ':' rfl).1 rfl
      · rw [pieces_cons_plain (Reading.plain_of_ne hc (isQuote_eq_false hquote)), ih]

example : pieces .narrow ":::a'b''c:d':e:f_1: ".toList =
    [cast, marker ['a'], literal "'b'".toList, literal "'c:d'".toList, marker ['e'],
      marker ['f', '_', '1'], other ':', other ' '] := by decide +kernel

end Piece

/-- A text in which `none` is a slot. -/
abbrev Form := List (Option Char)

namespace Form

def text (s : String) : Form := s.toList.map some

def slots (count : Nat) : Form := (text ", ").intercalate (List.replicate count [none])

def fill (d : Dialect) (bound : Nat) : Form → List Char
  | [] => []
  | some c :: rest => c :: fill d bound rest
  | none :: rest => (d.slot (bound + 1)).toList ++ fill d (bound + 1) rest

variable (d : Dialect) (bound : Nat)

theorem fill_append (f g : Form) :
    fill d bound (f ++ g) = fill d bound f ++ fill d (bound + f.count none) g := by
  induction f generalizing bound with
  | nil => rfl
  | cons a f ih =>
      cases a with
      | none => simp [fill, ih, Nat.add_assoc, Nat.add_comm 1]
      | some c => simp [fill, ih]

theorem fill_slot (before after : Form) : fill d bound (before ++ none :: after) =
    fill d bound before ++ (d.slot (bound + before.count none + 1)).toList ++
      fill d (bound + before.count none + 1) after := by
  rw [fill_append, fill, List.append_assoc]

theorem fill_map_some (s : List Char) : fill d bound (s.map some) = s := by
  induction s with
  | nil => rfl
  | cons c s ih => rw [List.map_cons, fill, ih]

theorem count_map_some (s : List Char) : (s.map some : Form).count none = 0 := by
  rw [List.count_eq_zero]
  simp

theorem slots_succ (count : Nat) :
    slots (count + 2) = none :: (text ", " ++ slots (count + 1)) := by
  simp [slots, List.replicate_succ]

theorem count_slots (count : Nat) : (slots count).count none = count := by
  match count with
  | 0 | 1 => rfl
  | count + 2 =>
      rw [slots_succ, List.count_cons_self, List.count_append, count_slots (count + 1), text,
        count_map_some]
      omega

theorem fill_slots (before count : Nat) :
    fill d before (slots count) = (BoundQuery.slots d before count).toList := by
  match count with
  | 0 => rfl
  | 1 => simp [slots, fill, BoundQuery.slots, List.range_succ_eq_map]
  | count + 2 =>
      have hslots : BoundQuery.slots d before (count + 2) =
          d.slot (before + 1) ++ ", " ++ BoundQuery.slots d (before + 1) (count + 1) := by
        rw [BoundQuery.slots, BoundQuery.slots, List.range_succ_eq_map, List.range_succ_eq_map]
        simp [Function.comp_def, Nat.add_assoc, Nat.add_comm, Nat.add_left_comm]
      rw [slots_succ, fill, fill_append, text, fill_map_some, count_map_some, Nat.add_zero,
        fill_slots (before + 1) (count + 1), hslots]
      simp

end Form

def Part.form : Part → Form
  | .piece p => p.chars.map some
  | .value v => .slots v.items.length

theorem Part.count_form (p : Part) : p.form.count none = p.items.length := by
  cases p with
  | piece p => exact Form.count_map_some p.chars
  | value v => exact Form.count_slots v.items.length

theorem Part.count_flatMap_form (ps : List Part) :
    (ps.flatMap Part.form).count none = (ps.flatMap Part.items).length := by
  induction ps with
  | nil => rfl
  | cons p rest ih =>
      rw [List.flatMap_cons, List.flatMap_cons, List.count_append, List.length_append, ih,
        p.count_form]

namespace BoundQuery

theorem write_eq_fill (d : Dialect) (bound : Nat) (ps : List Part) :
    write d bound ps = Form.fill d bound (ps.flatMap Part.form) := by
  induction ps generalizing bound with
  | nil => rfl
  | cons p rest ih =>
      rw [List.flatMap_cons, Form.fill_append, p.count_form, ← ih]
      cases p with
      | piece p => rw [write, Part.form, Form.fill_map_some]; rfl
      | value v => rw [write, Part.form, Form.fill_slots]; rfl

end BoundQuery

def Piece.form (arguments : Dict Value) (ps : List Piece) : Form :=
  ps.flatMap fun p => (p.resolve arguments).form

/-- Binding goes by the pieces of a text, which splits in one way. It succeeds when every marker has
a value other than an empty list, and otherwise the first marker that has none is to blame. A marker
gives way to one slot for each of its values and all else stays; the slots are those of the dialect
in their order, and the arguments are the values in the same order, one for each slot. -/
theorem bind_piecewise (d : Dialect) (sql : String) (arguments : Dict Value) :
    ∃ ps, (∀ qs, Piece.Splits sql.toList qs ↔ qs = ps) ∧
      ((∃ q, bind d sql arguments = .ok q) ↔ BoundQuery.Fillable arguments ps) ∧
      (∀ e, bind d sql arguments = .error e ↔ ∃ before name after,
        ps = before ++ .marker name :: after ∧ BoundQuery.Fillable arguments before ∧
          BoundQuery.Refuses arguments (String.ofList name) e) ∧
      ∀ q, bind d sql arguments = .ok q →
        q.args = ps.flatMap (fun p => (p.resolve arguments).items) ∧
        q.args.length = (Piece.form arguments ps).count none ∧
        q.sql = String.ofList (Form.fill d 0 (Piece.form arguments ps)) ∧
        ∀ before after, Piece.form arguments ps = before ++ none :: after →
          q.sql.toList = Form.fill d 0 before ++ (d.slot (before.count none + 1)).toList ++
            Form.fill d (before.count none + 1) after := by
  refine ⟨Piece.Reading.narrow.scan sql, fun qs => Piece.splits_iff, ?_, fun e => bind_eq_error_iff,
    fun q hq => ?_⟩
  · simp only [bind_eq_ok_iff, exists_and_left, exists_eq, and_true]
  · obtain ⟨-, rfl⟩ := bind_eq_ok_iff.1 hq
    have hform : (shown arguments sql).flatMap Part.form =
        Piece.form arguments (Piece.Reading.narrow.scan sql) := List.flatMap_map ..
    have hsql := BoundQuery.write_eq_fill d 0 (shown arguments sql)
    rw [hform] at hsql
    refine ⟨List.flatMap_map .., ?_, congrArg String.ofList hsql, fun before after hslot => ?_⟩
    · rw [← hform, Part.count_flatMap_form]
    · rw [String.toList_ofList, hsql, hslot, Form.fill_slot, Nat.zero_add]

end ClauseWeave
