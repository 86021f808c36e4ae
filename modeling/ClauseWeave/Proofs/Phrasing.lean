import ClauseWeave.Proofs.Accounting

namespace ClauseWeave

/-- The names that a path leads to: its own, those that give way to names in use, and those for
the ends of a range. -/
inductive Name.From (path : String) : String → Prop
  | path : From path (Name.ofPath path)
  | fresh {name : String} (used : List String) (h : From path name) :
      From path (Name.fresh name used)
  | low {name : String} (h : From path name) : From path (name ++ "_1")
  | high {name : String} (h : From path name) : From path (name ++ "_2")

namespace Name.From

variable {path name : String}

theorem mem_toList (h : From path name) {c : Char} (hc : c ∈ name.toList) :
    c ∈ path.toList ∧ c ≠ '.' ∨ c = '_' ∨ c.isDigit = true := by
  induction h with
  | path =>
      simp only [Name.ofPath, String.toList_ofList, List.mem_map] at hc
      obtain ⟨d, hd, rfl⟩ := hc
      split
      next => exact .inr (.inl rfl)
      next hdot => exact .inl ⟨hd, hdot⟩
  | fresh used _ ih =>
      rcases Name.mem_toList_fresh hc with hc | hc
      · exact ih hc
      · exact .inr hc
  | low _ ih | high _ ih =>
      rw [String.toList_append, List.mem_append] at hc
      rcases hc with hc | hc
      · exact ih hc
      · rcases List.mem_cons.1 hc with rfl | hc
        · exact .inr (.inl rfl)
        · obtain rfl := List.mem_singleton.1 hc
          exact .inr (.inr (by decide))

theorem isName (h : From path name) (hp : isPath path = true) : IsName name := by
  induction h with
  | path => exact .ofPath hp
  | fresh used _ ih => exact ih.fresh .wide used
  | low _ ih | high _ ih => exact Draft.isName_append ih (by decide)

end Name.From

theorem relabel_plain {s : String} (h : Plain s) (renames : Dict String) :
    relabel renames s = s := by
  rw [relabel_eq, scan_plain h, List.flatMap_map]
  simp

theorem relabel_marked {front name rest : String} (hfront : Plain front) (hname : IsName name)
    (hrest : ∀ c ∈ rest.toList.head?, Text.isWord c = false) (renames : Dict String) :
    relabel renames (front ++ ":" ++ name ++ rest) =
      front ++ ":" ++ renamed renames name ++ relabel renames rest := by
  apply String.toList_inj.1
  rw [relabel_eq, scan_marked hfront hname hrest, relabel_eq, List.flatMap_append,
    List.flatMap_cons, List.flatMap_map, Piece.rename_marker]
  simp [Piece.chars]

namespace Operator

/-- What stands between an attribute and its first marker, or behind it if there is none. -/
def opening : Operator → String
  | compare c => " " ++ c.sign ++ " "
  | like _ => " LIKE "
  | among negated => if negated then " NOT IN(" else " IN("
  | between negated => " " ++ (Comparison.low negated).sign ++ " "
  | null negated => if negated then " IS NOT NULL" else " IS NULL"

def closing : Operator → String
  | among _ => ")"
  | _ => ""

theorem plain_opening (op : Operator) : Plain op.opening := by
  rcases op with c | m | n | n | n
  · cases c <;> decide
  · cases m <;> decide
  all_goals cases n <;> decide

/-- The characters of all words and signs that are put into a clause. -/
def letters : List Char := " :()=<>ADEIKLNORSTU".toList

theorem opening_subset (op : Operator) : op.opening.toList ⊆ letters := by
  rcases op with c | m | n | n | n
  · cases c <;> decide
  · cases m <;> decide
  all_goals cases n <;> decide

theorem closing_eq (op : Operator) : op.closing = "" ∨ op.closing = ")" := by
  cases op <;> simp [closing]

end Operator

/-- What an operator says about an attribute, with a marker for each value that it binds. -/
structure Phrase where
  path : String
  operator : Operator
  names : List String

namespace Phrase

def text (p : Phrase) : String :=
  match p.operator, p.names with
  | .compare c, [name] => p.path ++ " " ++ c.sign ++ " :" ++ name
  | .like _, [name] => p.path ++ " LIKE :" ++ name
  | .among negated, [name] =>
    p.path ++ (if negated then " NOT IN(:" else " IN(:") ++ name ++ ")"
  | .between negated, [low, high] => rangeText p.path negated low high
  | .null negated, _ => p.path ++ if negated then " IS NOT NULL" else " IS NULL"
  | _, _ => ""

def rename (renames : Dict String) (p : Phrase) : Phrase :=
  { p with names := p.names.map (renamed renames) }

structure Valid (ok : String → Prop) (p : Phrase) : Prop where
  path : ok p.path
  count : p.names.length = p.operator.arity
  names : ∀ name ∈ p.names, Name.From p.path name

inductive Shape : Phrase → Prop
  | single (path : String) {op : Operator} (h : op.arity = 1) (name : String) :
      Shape ⟨path, op, [name]⟩
  | range (path : String) (negated : Bool) (low high : String) :
      Shape ⟨path, .between negated, [low, high]⟩
  | null (path : String) (negated : Bool) : Shape ⟨path, .null negated, []⟩

theorem shape_of_count {p : Phrase} (h : p.names.length = p.operator.arity) : p.Shape := by
  obtain ⟨path, op, names⟩ := p
  cases op with
  | compare _ | like _ | among _ =>
      obtain ⟨name, rfl⟩ := List.length_eq_one_iff.1 h
      exact .single path rfl name
  | between negated =>
      obtain ⟨low, high, rfl⟩ := List.length_eq_two.1 h
      exact .range path negated low high
  | null negated =>
      obtain rfl := List.length_eq_zero_iff.1 h
      exact .null path negated

theorem text_single (path : String) {op : Operator} (h : op.arity = 1) (name : String) :
    text ⟨path, op, [name]⟩ = path ++ op.opening ++ ":" ++ name ++ op.closing := by
  apply String.toList_inj.1
  rcases op with c | m | n | n | n
  · simp [text, Operator.opening, Operator.closing]
  · simp [text, Operator.opening, Operator.closing]
  · cases n <;> simp [text, Operator.opening, Operator.closing]
  · simp [Operator.arity] at h
  · simp [Operator.arity] at h

theorem text_range (path : String) (negated : Bool) (low high : String) :
    text ⟨path, .between negated, [low, high]⟩ =
      text ⟨path, .compare (.low negated), [low]⟩ ++ Connective.and.separator ++
        text ⟨path, .compare (.high negated), [high]⟩ := by
  apply String.toList_inj.1
  cases negated <;> simp [text, rangeText, Comparison.low, Comparison.high, Comparison.sign,
    Connective.separator, Connective.word]

theorem text_null (path : String) (negated : Bool) :
    text ⟨path, .null negated, []⟩ = path ++ (Operator.null negated).opening := rfl

variable {ok : String → Prop} {p : Phrase}

theorem mem_text_single {path name : String} {op : Operator} (h : op.arity = 1) {c : Char}
    (hc : c ∈ (text ⟨path, op, [name]⟩).toList) :
    c ∈ path.toList ∨ c ∈ name.toList ∨ c ∈ Operator.letters := by
  have hclosing : op.closing.toList ⊆ Operator.letters := by
    rcases op.closing_eq with he | he <;> rw [he] <;> decide
  rw [text_single path h] at hc
  simp only [String.toList_append, List.mem_append, or_assoc] at hc
  rcases hc with hc | hc | hc | hc | hc
  · exact .inl hc
  · exact .inr (.inr (op.opening_subset hc))
  · exact .inr (.inr ((by decide : (":" : String).toList ⊆ Operator.letters) hc))
  · exact .inr (.inl hc)
  · exact .inr (.inr (hclosing hc))

theorem mem_text (hcount : p.names.length = p.operator.arity) {c : Char}
    (h : c ∈ p.text.toList) :
    c ∈ p.path.toList ∨ (∃ name ∈ p.names, c ∈ name.toList) ∨ c ∈ Operator.letters := by
  cases shape_of_count hcount with
  | single path h1 name =>
      rcases mem_text_single h1 h with h | h | h
      · exact .inl h
      · exact .inr (.inl ⟨name, by simp, h⟩)
      · exact .inr (.inr h)
  | range path negated low high =>
      rw [text_range, String.toList_append, String.toList_append, List.mem_append,
        List.mem_append] at h
      rcases h with (h | h) | h
      · rcases mem_text_single rfl h with h | h | h
        · exact .inl h
        · exact .inr (.inl ⟨low, by simp, h⟩)
        · exact .inr (.inr h)
      · exact .inr (.inr ((by decide : Connective.and.separator.toList ⊆ Operator.letters) h))
      · rcases mem_text_single rfl h with h | h | h
        · exact .inl h
        · exact .inr (.inl ⟨high, by simp, h⟩)
        · exact .inr (.inr h)
  | null path negated =>
      rw [text_null, String.toList_append, List.mem_append] at h
      rcases h with h | h
      · exact .inl h
      · exact .inr (.inr (Operator.opening_subset _ h))

theorem relabel_text_single {path name : String} {op : Operator} (hp : isPath path = true)
    (h : op.arity = 1) (hname : IsName name) (renames : Dict String) :
    relabel renames (text ⟨path, op, [name]⟩) = text ⟨path, op, [renamed renames name]⟩ := by
  have hrest : ∀ c ∈ op.closing.toList.head?, Text.isWord c = false := by
    rcases op.closing_eq with he | he
    · simp [he]
    · simpa [he] using Piece.Separates.closeParen.2
  have hclosing : Plain op.closing := by
    rcases op.closing_eq with he | he <;> rw [he] <;> decide
  rw [text_single path h, text_single path h,
    relabel_marked ((plain_of_isPath hp).append op.plain_opening) hname hrest,
    relabel_plain hclosing]

theorem relabel_text (hp : isPath p.path = true) (hcount : p.names.length = p.operator.arity)
    (hnames : ∀ name ∈ p.names, IsName name) (renames : Dict String) :
    relabel renames p.text = (p.rename renames).text := by
  cases shape_of_count hcount with
  | single path h name => exact relabel_text_single hp h (hnames name (by simp)) renames
  | range path negated low high =>
      rw [text_range, relabel_append_separator,
        relabel_text_single hp rfl (hnames low (by simp)),
        relabel_text_single hp rfl (hnames high (by simp))]
      exact (text_range _ _ _ _).symm
  | null path negated =>
      rw [text_null, relabel_plain ((plain_of_isPath hp).append (Operator.plain_opening _))]
      rfl

theorem Valid.rename (h : p.Valid ok) {renames : Dict String}
    (hfresh : ∀ name, ∃ used, renamed renames name = Name.fresh name used) :
    (p.rename renames).Valid ok := by
  refine ⟨h.path, ?_, ?_⟩
  · rw [Phrase.rename, List.length_map, h.count]
  · intro name hname
    obtain ⟨old, hold, rfl⟩ := List.mem_map.1 hname
    obtain ⟨used, hused⟩ := hfresh old
    rw [hused]
    exact (h.names old hold).fresh used

end Phrase

theorem Name.from_keyFor (d : Draft) (f : Filter) : Name.From f.path (d.keyFor f) :=
  .fresh d.taken .path

/-- All that a step can do, whatever the path: names that are made from it and new to the draft are
bound, and the words of the operator are written with them under the filter's key. -/
theorem Draft.add_cases {d d' : Draft} {f : Filter} (h : d.add f = .ok d') :
    ∃ added : List (String × Value), added.length = f.operator.arity ∧
      (added.map Prod.fst).Nodup ∧ (∀ e ∈ added, Name.From f.path e.1 ∧ e.1 ∉ d.taken) ∧
      d' = (d.setArguments added).addFragment (d.keyFor f)
        (Phrase.text ⟨f.path, f.operator, added.map Prod.fst⟩) := by
  have hkey := Name.from_keyFor d f
  have hone (v : Value) : ∀ e ∈ [(d.keyFor f, v)], Name.From f.path e.1 ∧ e.1 ∉ d.taken := by
    simpa using ⟨hkey, d.keyFor_not_mem f⟩
  obtain ⟨path, op, v⟩ := f
  cases op with
  | compare c =>
      obtain rfl := Except.ok.inj h
      exact ⟨[(_, v)], rfl, by simp, hone v, rfl⟩
  | like m =>
      cases v with
      | text s =>
          obtain rfl := Except.ok.inj h
          exact ⟨[(_, .text (m.pattern s))], rfl, by simp, hone _, rfl⟩
      | _ => simp [add] at h
  | among negated =>
      cases hv : v.isList with
      | false => simp [add, hv] at h
      | true =>
          simp only [add, hv, if_true] at h
          obtain rfl := Except.ok.inj h
          exact ⟨[(_, v)], rfl, by simp, hone v, rfl⟩
  | between negated =>
      simp only [add] at h
      split at h
      next low high _ =>
        obtain rfl := Except.ok.inj h
        let key := d.keyFor ⟨path, .between negated, v⟩
        let lowName := Name.fresh (key ++ "_1") (key :: d.taken)
        let highName := Name.fresh (key ++ "_2") (key :: (d.setArgument lowName low).taken)
        obtain ⟨hlow, hne, hhigh⟩ : lowName ∉ d.taken ∧ highName ≠ lowName ∧ highName ∉ d.taken :=
          d.range_names_free key low rfl rfl
        refine ⟨[(lowName, low), (highName, high)], rfl, ?_, ?_, by cases negated <;> rfl⟩
        · simpa using hne.symm
        · simpa using ⟨⟨hkey.low.fresh _, hlow⟩, hkey.high.fresh _, hhigh⟩
      next => simp at h
  | null negated =>
      obtain rfl := Except.ok.inj h
      exact ⟨[], rfl, by simp, by simp, rfl⟩

theorem Draft.leaves_add {ok : String → Prop} {d d' : Draft} {f : Filter} (hp : ok f.path)
    (h : d.add f = .ok d') :
    ∃ p : Phrase, p.Valid ok ∧ p.path = f.path ∧ p.operator = f.operator ∧
      d'.leaves = d.leaves ++ [.leaf (d.keyFor f) p.text] ∧
      ∀ name, name ∈ d'.arguments.keys ↔ name ∈ p.names ∨ name ∈ d.arguments.keys := by
  obtain ⟨added, hcount, hnodup, hnames, rfl⟩ := add_cases h
  obtain ⟨-, -, hkeys, -, hleaves⟩ :=
    d.setArguments_spec hnodup fun e he => (hnames e he).2
  refine ⟨⟨f.path, f.operator, added.map Prod.fst⟩, ⟨hp, by simp [hcount], ?_⟩, rfl, rfl, ?_, ?_⟩
  · rintro name hname
    obtain ⟨e, he, rfl⟩ := List.mem_map.1 hname
    exact (hnames e he).1
  · rw [← hleaves]
    rfl
  · intro name
    rw [← List.mem_append, ← hkeys.mem_iff]
    rfl

theorem Draft.extends_add {d d' : Draft} {f : Filter} (h : d.add f = .ok d') :
    d.arguments.Extends d'.arguments := by
  obtain ⟨added, -, hnodup, hnames, rfl⟩ := add_cases h
  exact (d.setArguments_spec hnodup fun e he => (hnames e he).2).1

namespace Tree

theorem separator_subset (c : Connective) : c.separator.toList ⊆ Operator.letters := by
  cases c <;> decide

mutual

theorem mem_render {c : Char} (t : Tree) (h : c ∈ t.render.toList) :
    (∃ leaf ∈ t.leaves, c ∈ leaf.2.toList) ∨ c ∈ Operator.letters := by
  cases t with
  | leaf key text => exact .inl ⟨(key, text), by simp [leaves], h⟩
  | join d children =>
      rw [render, String.toList_intercalate] at h
      rcases mem_of_mem_intercalate h with h | ⟨part, hpart, h⟩
      · exact .inr (separator_subset d h)
      · obtain ⟨text, htext, rfl⟩ := List.mem_map.1 hpart
        exact mem_renderAll children htext h
  | paren inner =>
      rw [render, String.toList_append, String.toList_append, List.mem_append,
        List.mem_append] at h
      rcases h with (h | h) | h
      · exact .inr ((by decide : ("(" : String).toList ⊆ Operator.letters) h)
      · exact mem_render inner h
      · exact .inr ((by decide : (")" : String).toList ⊆ Operator.letters) h)

theorem mem_renderAll {c : Char} {text : String} (ts : List Tree) (htext : text ∈ renderAll ts)
    (h : c ∈ text.toList) : (∃ leaf ∈ leavesAll ts, c ∈ leaf.2.toList) ∨ c ∈ Operator.letters := by
  cases ts with
  | nil => simp [renderAll] at htext
  | cons t rest =>
      rw [renderAll] at htext
      rw [leavesAll]
      rcases List.mem_cons.1 htext with rfl | htext
      · refine (mem_render t h).imp_left ?_
        rintro ⟨leaf, hleaf, hc⟩
        exact ⟨leaf, List.mem_append_left _ hleaf, hc⟩
      · refine (mem_renderAll rest htext h).imp_left ?_
        rintro ⟨leaf, hleaf, hc⟩
        exact ⟨leaf, List.mem_append_right _ hleaf, hc⟩

end

end Tree

theorem Body.mem_clause_ofTrees {d : Connective} {trees : List Tree} {c : Char}
    (h : c ∈ (Body.ofTrees d trees).clause.toList) :
    (∃ leaf ∈ (Body.ofTrees d trees).leaves, c ∈ leaf.2.toList) ∨ c ∈ Operator.letters := by
  cases trees with
  | nil => simp [Body.ofTrees, Body.clause] at h
  | cons t rest => exact Tree.mem_render (.join d (t :: rest)) h

def Body.Phrased (ok : String → Prop) (b : Body) : Prop :=
  ∀ leaf ∈ b.leaves, ∃ p : Phrase, p.Valid ok ∧ leaf.2 = p.text

section Reached

variable {ok : String → Prop}

theorem Draft.phrased_addAll {d d' : Draft} {fs : List Filter} (hp : ∀ f ∈ fs, ok f.path)
    (hd : ∀ t ∈ d.leaves, ∃ key p, Phrase.Valid ok p ∧ t = .leaf key p.text)
    (h : d.addAll fs = .ok d') :
    ∀ t ∈ d'.leaves, ∃ key p, Phrase.Valid ok p ∧ t = .leaf key p.text := by
  refine addAll_induction (P := fun d => ∀ t ∈ d.leaves, ∃ key p, Phrase.Valid ok p ∧
    t = .leaf key p.text) (fun f hf d d' hd hadd => ?_) hd h
  obtain ⟨p, hvalid, -, -, hleaves, -⟩ := leaves_add (hp f hf) hadd
  intro t ht
  rw [hleaves, List.mem_append] at ht
  rcases ht with ht | ht
  · exact hd t ht
  · exact ⟨_, p, hvalid, List.mem_singleton.1 ht⟩

theorem phrased_ofFilters {c : Connective} {fs : List Filter} {s : Statement}
    (hp : ∀ f ∈ fs, ok f.path) (h : Statement.ofFilters c fs = .ok s) : s.body.Phrased ok := by
  obtain ⟨d, hd, rfl⟩ := ofFilters_eq_ok h
  have hleaves := Draft.phrased_addAll hp (by simp [Draft.empty]) hd
  intro leaf hleaf
  change leaf ∈ (Body.ofTrees c d.leaves).leaves at hleaf
  rw [Body.leaves_ofTrees, List.mem_flatMap] at hleaf
  obtain ⟨t, ht, hleaf⟩ := hleaf
  obtain ⟨key, p, hvalid, rfl⟩ := hleaves t ht
  obtain rfl := List.mem_singleton.1 hleaf
  exact ⟨p, hvalid, rfl⟩

theorem phrased_merge (hok : ∀ path, ok path → isPath path = true) (c : Connective)
    {ss : List Statement} (htree : ∀ s ∈ present ss, s.body.IsTree)
    (h : ∀ s ∈ ss, s.body.Phrased ok) : (merge c ss).body.Phrased ok := by
  intro leaf hleaf
  rw [leaves_merge c htree, List.mem_flatMap] at hleaf
  obtain ⟨q, hq, hleaf⟩ := hleaf
  obtain ⟨own, hown, rfl⟩ := List.mem_map.1 hleaf
  obtain ⟨p, hvalid, htext⟩ := h _ (mem_present_of_mem_placed hq) own hown
  have hnames : ∀ name ∈ p.names, IsName name :=
    fun name hname => (hvalid.names name hname).isName (hok _ hvalid.path)
  refine ⟨p.rename q.2, hvalid.rename (Merge.renamed_eq_fresh hq), ?_⟩
  rw [htext]
  exact Phrase.relabel_text (hok _ hvalid.path) hvalid.count hnames q.2

theorem Reached.phrased (hok : ∀ path, ok path → isPath path = true) {s : Statement}
    {fs : List Filter} (h : Reached ok s fs) : s.body.Phrased ok := by
  refine (h.induction (P := fun s fs => s.Accounts fs ∧ s.body.Phrased ok) ?_ ?_).2
  · intro c fs s hp hs
    exact ⟨accounts_ofFilters (fun f hf => hok _ (hp f hf)) hs, phrased_ofFilters hp hs⟩
  · intro c parts hparts
    have haccounts : ∀ p ∈ parts, p.1.Accounts p.2 := fun p hp => (hparts p hp).1
    refine ⟨accounts_merge c haccounts, phrased_merge hok c (isTree_of_mem_present haccounts) ?_⟩
    intro s hs
    obtain ⟨p, hp, rfl⟩ := List.mem_map.1 hs
    exact (hparts p hp).2

end Reached

end ClauseWeave
