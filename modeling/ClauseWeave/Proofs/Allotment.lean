import ClauseWeave.Proofs.Filling
import ClauseWeave.Proofs.Starting
import Mathlib.Algebra.Order.BigOperators.Group.List
import Mathlib.Algebra.Order.Group.Nat

namespace ClauseWeave

/-- There is no quote in the text, and both readings find the same pieces. -/
structure Concordant (s : String) : Prop where
  unquoted : ∀ c ∈ s.toList, Piece.isQuote c = false
  alike : Piece.Reading.narrow.scan s = scan s

namespace Concordant

variable {s : String}

theorem closed (h : Concordant s) : Piece.Reading.narrow.Closed s.toList := by
  intro _
  have hnone : s.toList.countP Piece.isQuote = 0 :=
    List.countP_eq_zero.2 fun c hc => by simp [h.unquoted c hc]
  rw [hnone]
  exact Even.zero

theorem of_plain (h : Plain s) (hquote : ∀ c ∈ s.toList, Piece.isQuote c = false) :
    Concordant s := by
  refine ⟨hquote, ?_⟩
  rw [scan_plain h]
  exact Piece.Reading.scan_plain fun c hc => Piece.Reading.plain_of_ne (h c hc) (hquote c hc)

theorem marked {front name rest : String} (hplain : Plain front)
    (hfront : ∀ c ∈ front.toList, Piece.isQuote c = false) (hname : IsName name)
    (hnarrow : Piece.Reading.narrow.IsName name) (hrest : rest = "" ∨ rest = ")") :
    Concordant (front ++ ":" ++ name ++ rest) := by
  have hconcordant : Concordant rest := by
    rcases hrest with rfl | rfl <;> exact of_plain (by decide) (by simp [Piece.isQuote])
  have hhead {r : Piece.Reading} (hr : r.Sound) :
      ∀ c ∈ rest.toList.head?, r.isName c = false := by
    rcases hrest with rfl | rfl
    · simp
    · simpa using hr.apart ')' (by simp)
  constructor
  · intro c hc
    simp only [String.toList_append, List.mem_append] at hc
    rcases hc with ((hc | hc) | hc) | hc
    · exact hfront c hc
    · obtain rfl : c = ':' := by simpa using hc
      decide
    · exact Piece.Reading.Sound.narrow.isQuote_eq_false (hnarrow.2 c hc)
    · exact hconcordant.unquoted c hc
  · have hplain' : ∀ c ∈ front.toList, Piece.Reading.narrow.Plain c :=
      fun c hc => Piece.Reading.plain_of_ne (hplain c hc) (hfront c hc)
    rw [Piece.Reading.scan_marked .narrow hplain' hnarrow (hhead .narrow), hconcordant.alike,
      scan_marked hplain hname (hhead .wide)]

theorem intercalate (c : Connective) {texts : List String} (h : ∀ s ∈ texts, Concordant s) :
    Concordant (c.separator.intercalate texts) := by
  constructor
  · intro ch hch
    rw [String.toList_intercalate] at hch
    rcases mem_of_mem_intercalate hch with hch | ⟨part, hpart, hch⟩
    · exact (Text.agreed_of_mem_letters ch (Tree.separator_subset c hch)).1
    · obtain ⟨s, hs, rfl⟩ := List.mem_map.1 hpart
      exact (h s hs).unquoted ch hch
  · rw [Piece.Reading.scan_intercalate .narrow c fun s hs => (h s hs).closed, scan_intercalate,
      Piece.Reading.scan_separator, scan_separator]
    congr 1
    exact List.map_congr_left fun s hs => (h s hs).alike

end Concordant

theorem isQuote_of_isPath {path : String} (h : isPath path = true) :
    ∀ c ∈ path.toList, Piece.isQuote c = false := by
  intro c hc
  rcases (chars_of_isPath h).2 c hc with hword | rfl
  · exact Piece.Reading.Sound.wide.isQuote_eq_false hword
  · decide

theorem Operator.isQuote_opening (op : Operator) :
    ∀ c ∈ op.opening.toList, Piece.isQuote c = false :=
  fun c hc => (Text.agreed_of_mem_letters c (op.opening_subset hc)).1

namespace Phrase

theorem isQuote_front {path : String} (hp : isPath path = true) (op : Operator) :
    ∀ c ∈ (path ++ op.opening).toList, Piece.isQuote c = false := by
  intro c hc
  rw [String.toList_append, List.mem_append] at hc
  exact hc.elim (isQuote_of_isPath hp c) (op.isQuote_opening c)

theorem concordant_single {path name : String} {op : Operator} (hp : isPath path = true)
    (h : op.arity = 1) (hname : IsName name) (hnarrow : Piece.Reading.narrow.IsName name) :
    Concordant (text ⟨path, op, [name]⟩) := by
  rw [text_single path h]
  exact .marked ((plain_of_isPath hp).append op.plain_opening) (isQuote_front hp op) hname hnarrow
    op.closing_eq

theorem concordant_text {p : Phrase} (hp : isPath p.path = true)
    (hcount : p.names.length = p.operator.arity) (hnames : ∀ name ∈ p.names, IsName name)
    (hnarrow : ∀ name ∈ p.names, Piece.Reading.narrow.IsName name) : Concordant p.text := by
  cases shape_of_count hcount with
  | single path h name =>
      exact concordant_single hp h (hnames name (by simp)) (hnarrow name (by simp))
  | range path negated low high =>
      have hlow : Concordant (text ⟨path, .compare (.low negated), [low]⟩) :=
        concordant_single hp rfl (hnames low (by simp)) (hnarrow low (by simp))
      have hhigh : Concordant (text ⟨path, .compare (.high negated), [high]⟩) :=
        concordant_single hp rfl (hnames high (by simp)) (hnarrow high (by simp))
      have hboth : ∀ s ∈ [text ⟨path, .compare (.low negated), [low]⟩,
          text ⟨path, .compare (.high negated), [high]⟩], Concordant s := by
        simpa using ⟨hlow, hhigh⟩
      rw [text_range]
      simpa using Concordant.intercalate .and hboth
  | null path negated =>
      rw [text_null]
      exact .of_plain ((plain_of_isPath hp).append (Operator.plain_opening _)) (isQuote_front hp _)

end Phrase

section Filters

variable {fs : List Filter} (hp : ∀ f ∈ fs, isPath f.path = true)
  (hnames : ∀ f ∈ fs, f.Nameable .narrow)

include hp hnames

theorem Draft.concordant_leaves {d : Draft} (h : Draft.empty.addAll fs = .ok d) :
    ∀ t ∈ d.leaves, Concordant t.render := by
  refine addAll_induction (P := fun d => ∀ t ∈ d.leaves, Concordant t.render)
    (fun f hf d d' hd hadd => ?_) (by simp [Draft.empty]) h
  obtain ⟨p, hvalid, hpath, hop, hleaves, -⟩ :=
    @leaves_add (fun path => isPath path = true) d d' f (hp f hf) hadd
  have hname : ∀ name ∈ p.names, IsName name :=
    fun name hname => (hvalid.names name hname).isName hvalid.path
  have hnarrow : ∀ name ∈ p.names, Piece.Reading.narrow.IsName name := by
    intro name hmem
    have harity : f.operator.arity ≠ 0 := by
      rw [← hop, ← hvalid.count]
      exact (List.length_pos_of_mem hmem).ne'
    exact ⟨(hname name hmem).1,
      (hnames f hf).isName .narrow harity (hpath ▸ hvalid.names name hmem)⟩
  intro t ht
  rw [hleaves, List.mem_append] at ht
  rcases ht with ht | ht
  · exact hd t ht
  · obtain rfl := List.mem_singleton.1 ht
    exact Phrase.concordant_text hvalid.path hvalid.count hname hnarrow

theorem shown_ofFilters {c : Connective} {s : Statement} (hs : Statement.ofFilters c fs = .ok s) :
    shown s.arguments s.clause = c.parts.intercalate (fs.map Filter.spelled) := by
  rw [← resolve_ofFilters hp hs]
  obtain ⟨d, hd, rfl⟩ := ofFilters_eq_ok hs
  have hconcordant : Concordant (d.finish c).clause := by
    change Concordant (Body.ofTrees c d.leaves).clause
    rw [Body.clause_ofTrees]
    refine .intercalate c fun text htext => ?_
    obtain ⟨t, ht, rfl⟩ := List.mem_map.1 htext
    exact Draft.concordant_leaves hp hnames hd t ht
  rw [shown, resolve, hconcordant.alike]

end Filters

theorem Form.count_text (s : String) : (text s).count none = 0 := count_map_some s.toList

theorem Part.form_text (s : String) : (Part.text s).flatMap Part.form = Form.text s := by
  rw [Part.text, List.flatMap_map, Form.text, List.map_eq_flatMap]
  rfl

theorem Part.form_value {v : Value} (h : v.items.length = 1) : (Part.value v).form = [none] := by
  rw [Part.form, h]
  rfl

namespace Filter

/-- The text of a filter, with a slot for each value that its operator binds and, between the
parentheses of a list, one for each item. -/
def form (f : Filter) : Form :=
  match f.operator with
  | .compare c => Form.text (f.path ++ " " ++ c.sign ++ " ") ++ [none]
  | .like _ => Form.text (f.path ++ " LIKE ") ++ [none]
  | .among negated =>
    Form.text (f.path ++ if negated then " NOT IN(" else " IN(") ++
      Form.slots f.value.items.length ++ Form.text ")"
  | .between negated =>
    Form.text (f.path ++ " " ++ (Comparison.low negated).sign ++ " ") ++ none ::
      (Form.text (" AND " ++ f.path ++ " " ++ (Comparison.high negated).sign ++ " ") ++ [none])
  | .null negated => Form.text (f.path ++ if negated then " IS NOT NULL" else " IS NULL")

def slotCount (f : Filter) : Nat :=
  match f.operator with
  | .among _ => f.value.items.length
  | op => op.arity

theorem count_form (f : Filter) : f.form.count none = f.slotCount := by
  obtain ⟨path, op, v⟩ := f
  cases op <;> simp [form, slotCount, Operator.arity, Form.count_text, Form.count_slots]

/-- A comparison is made with one value, which a list of one item is too. -/
def Single (f : Filter) : Prop := f.operator.isComparison = true → f.value.items.length = 1

instance (f : Filter) : Decidable f.Single :=
  inferInstanceAs (Decidable (f.operator.isComparison = true → f.value.items.length = 1))

variable {f : Filter} (h : f.fits = true)

include h

theorem form_spelled (hsingle : f.Single) : f.spelled.flatMap Part.form = f.form := by
  obtain ⟨path, op, v⟩ := f
  cases op with
  | compare c => simp [spelled, form, Part.form_text, Part.form_value (hsingle rfl)]
  | like m =>
      cases v with
      | text s => simp [spelled, form, Part.form_text, Part.form_value, Value.items]
      | _ => simp [fits] at h
  | among negated => simp [spelled, form, Part.form_text, Part.form]
  | between negated =>
      obtain ⟨low, high, rfl, hlow, hhigh⟩ := list_of_fits_between h
      have hone {v : Value} (hv : v.isBound = true) : v.items.length = 1 := by
        rw [Value.items_of_isBound hv]
        rfl
      simp [spelled, form, Part.form_text, Part.form_value (hone hlow),
        Part.form_value (hone hhigh)]
  | null negated => simp [spelled, form, Part.form_text]

theorem length_bound (hsingle : f.Single) : f.bound.length = f.slotCount := by
  rw [← items_spelled h, ← Part.count_flatMap_form, form_spelled h hsingle, count_form]

theorem slotCount_lt_length_bound (hne : .value (.list []) ∉ f.spelled) (hsingle : ¬ f.Single) :
    f.slotCount < f.bound.length := by
  obtain ⟨path, op, v⟩ := f
  cases op with
  | compare c =>
      have hmany : v.items.length ≠ 1 := by simpa [Single, Operator.isComparison] using hsingle
      have hsome : v.items.length ≠ 0 := by
        intro hzero
        cases v <;> simp_all [Value.items, spelled]
      change 1 < v.items.length
      omega
  | _ => exact absurd (fun hcompare => by simp [Operator.isComparison] at hcompare) hsingle

theorem slotCount_le_length_bound (hne : .value (.list []) ∉ f.spelled) :
    f.slotCount ≤ f.bound.length := by
  by_cases hsingle : f.Single
  · exact (length_bound h hsingle).ge
  · exact (slotCount_lt_length_bound h hne hsingle).le

end Filter

theorem BoundQuery.Fillable.ne_of_mem_shown {arguments : Dict Value} {s : String} {v : Value}
    (h : Fillable arguments (Piece.Reading.narrow.scan s)) (hv : .value v ∈ shown arguments s) :
    v ≠ .list [] := by
  obtain ⟨p, hp, he⟩ := List.mem_map.1 hv
  cases p with
  | marker name =>
      obtain ⟨w, hget, hne⟩ := h name hp
      rw [Piece.resolve_marker hget] at he
      exact Part.value.inj he ▸ hne
  | _ => cases he

/-- Each filter takes up the slots that its operator calls for, those of a list between parentheses,
and the arguments are as many, exactly if every comparison is with one value. Nothing keeps a list
from being compared, so this has to be asked for. Then the bound clause has the forms of the
filters side by side, with their slots filled in. -/
theorem one_slot_each {json : String} {fs : List Filter} {c : Connective} {s : Statement}
    {d : Dialect} {q : BoundQuery} (hread : Filter.parseAll json = .ok fs)
    (hs : Statement.ofFilters c fs = .ok s) (hq : bind d s.clause s.arguments = .ok q)
    (hnames : ∀ f ∈ fs, f.Nameable .narrow) :
    (q.args.length = (fs.map Filter.slotCount).sum ↔ ∀ f ∈ fs, f.Single) ∧
      ((∀ f ∈ fs, f.Single) → q.sql = String.ofList
        (Form.fill d 0 ((Form.text c.separator).intercalate (fs.map Filter.form)))) := by
  have hp := Filter.isPath_of_parseAll hread
  have hfits : ∀ f ∈ fs, f.fits = true := exists_ofFilters_iff.1 ⟨s, hs⟩
  obtain ⟨hfillable, rfl⟩ := bind_eq_ok_iff.1 hq
  have hshown := shown_ofFilters hp hnames hs
  have hlength : ((shown s.arguments s.clause).flatMap Part.items).length =
      (fs.map fun f => f.bound.length).sum := by
    rw [hshown, ← resolve_ofFilters hp hs, items_ofFilters hp hs, List.length_flatMap]
  have hne : ∀ f ∈ fs, .value (.list []) ∉ f.spelled := fun f hf hmem => hfillable.ne_of_mem_shown
    (hshown ▸ mem_intercalate_of_mem (List.mem_map_of_mem hf) hmem) rfl
  refine ⟨hlength ▸ ⟨fun hsum f hf => ?_, fun hsingle => ?_⟩, fun hsingle => ?_⟩
  · by_contra hmany
    have hlt := List.sum_lt_sum Filter.slotCount (fun f => f.bound.length)
      (fun f hf => Filter.slotCount_le_length_bound (hfits f hf) (hne f hf))
      ⟨f, hf, Filter.slotCount_lt_length_bound (hfits f hf) (hne f hf) hmany⟩
    omega
  · exact congrArg List.sum
      (List.map_congr_left fun f hf => f.length_bound (hfits f hf) (hsingle f hf))
  · have hforms : fs.map (fun f => f.spelled.flatMap Part.form) = fs.map Filter.form :=
      List.map_congr_left fun f hf => f.form_spelled (hfits f hf) (hsingle f hf)
    have hsep : c.parts.flatMap Part.form = Form.text c.separator := Part.form_text c.separator
    rw [BoundQuery.write_eq_fill, hshown, flatMap_intercalate, hsep, List.map_map]
    exact congrArg (fun forms => String.ofList (Form.fill d 0
      ((Form.text c.separator).intercalate forms))) hforms

def loans : List Filter := [
  ⟨"shelf", .among true, .list [.nat 3, .nat 4]⟩, ⟨"due", .compare .notEqual, .list [.nat 7]⟩,
  ⟨"lost", .null false, .null⟩]

def loansText : String :=
  "[\x7b\"attr\":\"shelf\",\"op\":\"not_in\",\"val\":[3,4]\x7d," ++
    "\x7b\"attr\":\"due\",\"op\":\"<>\",\"val\":[7]\x7d," ++
    "\x7b\"attr\":\"lost\",\"op\":\"is_null\"\x7d]"

theorem one_slot_each_loans : ∃ s q, Filter.parseAll loansText = .ok loans ∧
    Statement.ofFilters .and loans = .ok s ∧ bind .postgres s.clause s.arguments = .ok q ∧
    (∀ f ∈ loans, f.Nameable .narrow) ∧ q.args.length = 3 ∧
    q.sql = "shelf NOT IN($1, $2) AND due <> $3 AND lost IS NULL" := by
  have hread : Filter.parseAll loansText = .ok loans := by decide +kernel
  have hnames : ∀ f ∈ loans, f.Nameable .narrow := by decide +kernel
  have hsingle : ∀ f ∈ loans, f.Single := by decide
  obtain ⟨s, hs⟩ := (exists_ofFilters_iff (c := .and)).2 (by decide : ∀ f ∈ loans, f.fits = true)
  have hbind : ((Statement.ofFilters .and loans).toOption.bind fun s =>
      (bind .postgres s.clause s.arguments).toOption).isSome = true := by decide +kernel
  rw [hs] at hbind
  obtain ⟨q, hq⟩ : ∃ q, bind .postgres s.clause s.arguments = .ok q := by
    cases hbound : bind .postgres s.clause s.arguments with
    | ok q => exact ⟨q, rfl⟩
    | error e => simp [Except.toOption, hbound] at hbind
  obtain ⟨hlength, hsql⟩ := one_slot_each hread hs hq hnames
  exact ⟨s, q, hread, hs, hq, hnames, (hlength.2 hsingle).trans (by decide),
    (hsql hsingle).trans (by decide +kernel)⟩

def grownUps : List Filter := [⟨"age", .compare .equal, .list [.nat 18, .nat 21]⟩]

def grownUpsText : String := "[\x7b\"attr\":\"age\",\"op\":\"=\",\"val\":[18,21]\x7d]"

/-- A comparison with a list of two items takes up two slots, where only one may stand. -/
theorem one_slot_each_grownUps : ∃ s q, Filter.parseAll grownUpsText = .ok grownUps ∧
    Statement.ofFilters .and grownUps = .ok s ∧ bind .sqlite s.clause s.arguments = .ok q ∧
    (∀ f ∈ grownUps, f.Nameable .narrow) ∧ q.sql = "age = ?, ?" ∧ q.args = [.nat 18, .nat 21] ∧
    (grownUps.map Filter.slotCount).sum = 1 := by
  have hread : Filter.parseAll grownUpsText = .ok grownUps := by decide +kernel
  have hfits : ∀ f ∈ grownUps, f.fits = true := by decide
  obtain ⟨s, hs⟩ := (exists_ofFilters_iff (c := .and)).2 hfits
  have hbind : ((Statement.ofFilters .and grownUps).toOption.map fun s =>
      bind .sqlite s.clause s.arguments) = some (.ok ⟨"age = ?, ?", [.nat 18, .nat 21]⟩) := by
    decide +kernel
  rw [hs] at hbind
  exact ⟨s, _, hread, hs, Option.some.inj hbind, by decide +kernel, rfl, rfl, by decide⟩

end ClauseWeave
