import ClauseWeave.Proofs.Flattening
import ClauseWeave.Proofs.Settling

namespace ClauseWeave

open Text Removal

/-- What keeps the search from the place of a text behind another one: that it stands in the other
one, that it reaches across the connective behind that one, or that it begins like the end of this
connective and overlaps itself. -/
inductive Hides (c : Connective) (y t : List Char) : Prop
  | inside (h : Stands t y)
  | across {head tail : List Char} (h : t = head ++ (c.separator.toList ++ tail))
      (hhead : Balanced head) (hy : head <:+ c.separator.toList ++ y)
  | behind {w : List Char} (hw : w <:+ c.word.toList) (hne : w ≠ []) (h : t <+: w ++ ' ' :: t)
      (hlt : w.length < t.length)

instance (c : Connective) : DecidableRel (Hides c) := fun y t =>
  decidable_of_iff (Stands t y ∨
    (∃ head ∈ t.inits, head ++ c.separator.toList <+: t ∧ Balanced head ∧
      head <:+ c.separator.toList ++ y) ∨
    ∃ w ∈ c.word.toList.tails, w ≠ [] ∧ t <+: w ++ ' ' :: t ∧ w.length < t.length) <| by
    constructor
    · rintro (h | ⟨head, -, ⟨tail, h⟩, hhead, hy⟩ | ⟨w, hw, hne, h, hlt⟩)
      · exact .inside h
      · exact .across (by rw [← h, List.append_assoc]) hhead hy
      · exact .behind ((List.mem_tails _ _).1 hw) hne h hlt
    · rintro (h | @⟨head, tail, h, hhead, hy⟩ | ⟨hw, hne, h, hlt⟩)
      · exact .inl h
      · have hprefix : head ++ c.separator.toList <+: t := ⟨tail, by rw [h, List.append_assoc]⟩
        exact .inr (.inl ⟨head, (List.mem_inits _ _).2 ⟨_, h.symm⟩, hprefix, hhead, hy⟩)
      · exact .inr (.inr ⟨_, (List.mem_tails _ _).2 hw, hne, h, hlt⟩)

theorem Balanced.middle {u m v : List Char} (hu : Balanced (u ++ m)) (hv : Balanced (m ++ v)) :
    Balanced m := by
  have hfront (n : Nat) : (m.take n).count ')' ≤ (m.take n).count '(' := by
    by_cases hn : n ≤ m.length
    · have h := hv.1 n
      rwa [List.take_append_of_le_length hn] at h
    · have h := hv.1 m.length
      rw [List.take_left] at h
      rwa [List.take_of_length_le (Nat.le_of_not_le hn)]
  refine ⟨hfront, Nat.le_antisymm ?_ ?_⟩
  · simpa using hfront m.length
  · have hbefore := hu.1 u.length
    have hall := hu.2
    rw [List.take_left] at hbefore
    rw [List.count_append, List.count_append] at hall
    omega

theorem append_eq_append_cases {α : Type} {s x u z : List α} (h : s ++ x = u ++ z) :
    (∃ r, r ≠ [] ∧ s = u ++ r ∧ r ++ x = z) ∨ ∃ r, u = s ++ r ∧ x = r ++ z := by
  rcases List.append_eq_append_iff.1 h with ⟨r, rfl, rfl⟩ | ⟨r, rfl, rfl⟩
  · exact .inr ⟨r, rfl, rfl⟩
  · by_cases hr : r = []
    · subst hr
      exact .inr ⟨[], by simp, by simp⟩
    · exact .inl ⟨r, hr, rfl, rfl⟩

theorem Connective.isNameChar_word (c : Connective) :
    ∀ d ∈ c.word.toList, isNameChar d = true :=
  List.all_eq_true.1 (by cases c <;> decide)

theorem Connective.connective?_word (c : Connective) (s : List Char) :
    Tidy.connective? (c.word.toList ++ s) = some (c.word.toList, s) := by
  cases c <;> rfl

namespace Settled

variable {t : List Char} (h : Settled t) (c : Connective)

include h

theorem ne_blank_append {b : Char} (hb : isBlank b = true) (s : List Char) : t ≠ b :: s := by
  rintro rfl
  obtain ⟨d, rest, he, hd⟩ := h.solid.first
  rw [(List.cons.inj he).1, hd] at hb
  simp at hb

theorem ne_word_append {s : List Char} (hs : Tidy.endsWord s = true) :
    t ≠ c.word.toList ++ s := by
  rintro rfl
  simpa [hs] using h.starts.word _ _ (c.connective?_word s)

theorem ne_append_word (s : List Char) : t ≠ s ++ ' ' :: c.word.toList := by
  rintro rfl
  have hstill {before : Option Char} (hs : Tidy.Still before (s ++ ' ' :: c.word.toList)) :
      ∃ b, Tidy.Still b (' ' :: c.word.toList) := by
    clear h
    induction s generalizing before with
    | nil => exact ⟨before, hs⟩
    | cons d s ih => exact ih hs.2
  obtain ⟨b, hb⟩ := hstill h.still
  have hclosing := hb.1 Tidy.closingConnective (by simp [Tidy.rules])
  obtain ⟨d, p, hp⟩ := List.exists_cons_of_ne_nil c.word_ne_nil
  have hd := isBlank_of_isWord (c.isWord_word d (by simp [hp]))
  have htrim : trimStart (' ' :: c.word.toList) = c.word.toList := by
    rw [trimStart_space, hp, trimStart_of_not_blank hd]
  have hword := c.connective?_word []
  rw [List.append_nil] at hword
  simp only [Tidy.closingConnective, htrim, hword, List.takeWhile_cons, isBlank_space] at hclosing
  simp [trimStart] at hclosing

end Settled

def ahead (c : Connective) (texts : List (List Char)) : List Char :=
  texts.flatMap (· ++ c.separator.toList)

def behind (c : Connective) (texts : List (List Char)) : List Char :=
  texts.flatMap (c.separator.toList ++ ·)

theorem touches_before {d : Char} (hd : isNameChar d = true) (u v : List Char) :
    (touchesWord (u ++ [d]).reverse || touchesWord v) = true := by
  simp [touchesWord, hd]

theorem touches_after {d : Char} (hd : isNameChar d = true) (u v : List Char) :
    (touchesWord u || touchesWord (d :: v)) = true := by
  simp [touchesWord, hd]

section Place

variable {c : Connective} {y t u v r x : List Char} (ht : Settled t)

include ht

theorem place_in_text (hy : Balanced y) (hhides : ¬ Hides c y t) (hsplit : y = u ++ r)
    (h : r ++ (c.separator.toList ++ x) = t ++ v) :
    u.length + t.length ≤ (y ++ c.separator.toList).length ∧
      (touchesWord u.reverse || touchesWord v) = true := by
  have hstands : ¬ Stands t y := fun hstands => hhides (.inside hstands)
  rcases append_eq_append_cases h.symm with ⟨s, hs, rfl, hx⟩ | ⟨s, rfl, rfl⟩
  · rcases append_eq_append_cases hx with ⟨z, -, rfl, rfl⟩ | ⟨z, hz, rfl⟩
    · -- it would reach across the connective
      have hr : Balanced r := Balanced.middle (hsplit ▸ hy) ht.balanced
      have hsuffix : r <:+ c.separator.toList ++ y :=
        ⟨c.separator.toList ++ u, by rw [hsplit, List.append_assoc]⟩
      exact absurd (.across rfl hr hsuffix) hhides
    · -- it ends within the connective
      have hlength := congrArg List.length hz
      rw [List.length_append] at hlength
      refine ⟨by simp only [hsplit, List.length_append]; omega, ?_⟩
      obtain ⟨b, s, rfl⟩ := List.exists_cons_of_ne_nil hs
      rw [c.separator_eq] at hz
      obtain ⟨rfl, hword⟩ := List.cons.inj hz
      rw [List.append_eq] at hword
      have hsolid : EndsSolid s := EndsSolid.of_blank isBlank_space ht.solid.last
      rcases List.eq_nil_or_concat z with rfl | ⟨z, e, rfl⟩
      · rw [List.append_nil] at hword
        rw [← hword] at hsolid
        exact absurd rfl (hsolid.of_blank isBlank_space).ne_nil
      · rw [List.concat_eq_append, ← List.append_assoc] at hword
        obtain ⟨hword, -⟩ := List.append_inj' hword rfl
        cases z with
        | nil =>
            rw [List.append_nil] at hword
            exact absurd (hword ▸ rfl) (ht.ne_append_word c r)
        | cons d z => exact touches_after (c.isNameChar_word d (by simp [hword])) _ _
  · constructor
    · simp only [hsplit, List.length_append]
      omega
    · simpa using touches_of_not_stands hstands (by rw [hsplit, List.append_assoc]) []
        (c.separator.toList ++ x)

theorem length_place_in_word {front : List (List Char)} {p w : List Char}
    (hfront : ∀ y ∈ front, Balanced y ∧ ¬ Hides c y t) (hhides : ¬ Hides c y t)
    (hword : c.word.toList = p ++ w) (hsplit : t = w ++ ' ' :: r)
    (h : ahead c front ++ (t ++ x) = r ++ v) : r.length ≤ (ahead c front).length := by
  rcases append_eq_append_cases h with ⟨z, -, hahead, -⟩ | ⟨z, rfl, hz⟩
  · simp [hahead]
  · exfalso
    cases front with
    | nil =>
        have hne : w ≠ [] := by
          rintro rfl
          exact ht.ne_blank_append isBlank_space _ hsplit
        have hlt : w.length < t.length := by simp [hsplit]
        have hprefix : z <+: t := by
          refine List.prefix_of_prefix_length_le ⟨v, hz.symm⟩ (List.prefix_append t x) ?_
          simp [hsplit, ahead]
          omega
        refine hhides (.behind ⟨p, hword.symm⟩ hne ?_ hlt)
        conv_lhs => rw [hsplit]
        exact (List.prefix_append_right_inj w).2 ((List.cons_prefix_cons).2 ⟨rfl, hprefix⟩)
    | cons u rest =>
        obtain ⟨hu, hhides⟩ := hfront u (by simp)
        have hplain : ∀ d ∈ w ++ [' '], d ≠ '(' ∧ d ≠ ')' := by
          intro d hd
          rcases List.mem_append.1 hd with hd | hd
          · have hinner := Tidy.Inner.of_isWord (c.isWord_word d (by simp [hword, hd]))
            exact ⟨hinner.notOpening, hinner.notClosing⟩
          · simp [List.mem_singleton.1 hd]
        have hhead : Balanced (w ++ [' '] ++ u) := (Flat.balanced hplain).append hu
        have hsuffix : w ++ [' '] ++ u <:+ c.separator.toList ++ u :=
          ⟨' ' :: p, by simp [c.separator_eq, hword]⟩
        have hsep : t = w ++ [' '] ++ u ++ (c.separator.toList ++ (ahead c rest ++ z)) := by
          simp [hsplit, ahead]
        exact hhides (.across hsep hhead hsuffix)

theorem place_in_joint {front : List (List Char)} {s w : List Char}
    (hfront : ∀ y ∈ front, Balanced y ∧ ¬ Hides c y t) (hhides : ¬ Hides c y t)
    (hsep : c.separator.toList = s ++ w) (hne : w ≠ [])
    (h : w ++ (ahead c front ++ (t ++ x)) = t ++ v) :
    s.length + t.length ≤ (c.separator.toList ++ ahead c front).length ∧
      (touchesWord (y ++ s).reverse || touchesWord v) = true := by
  have hlength := congrArg List.length hsep
  rw [c.separator_eq] at hsep
  cases s with
  | nil =>
      rw [List.nil_append] at hsep
      rw [← hsep] at h
      obtain ⟨d, tail, rfl⟩ := List.exists_cons_of_ne_nil ht.ne_nil
      exact absurd (by rw [(List.cons.inj h).1]) (ht.ne_blank_append isBlank_space tail)
  | cons b p =>
      obtain ⟨rfl, hword⟩ := List.cons.inj hsep
      obtain ⟨w, e, rfl⟩ := (List.eq_nil_or_concat w).resolve_left hne
      rw [List.concat_eq_append] at hword h hlength
      rw [List.append_eq, ← List.append_assoc] at hword
      obtain ⟨hsplit, he⟩ := List.append_inj' hword rfl
      obtain rfl := (List.cons.inj he).1
      rw [List.append_assoc] at h
      simp only [List.length_append, List.length_cons, List.length_nil] at hlength ⊢
      rcases append_eq_append_cases h with ⟨r, hr, rfl, rfl⟩ | ⟨r, rfl, hr⟩
      · -- it ends within the word
        obtain ⟨d, r, rfl⟩ := List.exists_cons_of_ne_nil hr
        simp only [List.length_append] at hlength
        exact ⟨by omega, touches_after (c.isNameChar_word d (by simp [hsplit])) _ _⟩
      · have hends : Tidy.endsWord r = true := by
          cases r with
          | nil => rfl
          | cons d r =>
              obtain ⟨rfl, -⟩ := List.cons.inj hr
              exact Tidy.endsWord_append_space [] r
        have hp : p ≠ [] := by
          rintro rfl
          rw [List.nil_append] at hsplit
          exact ht.ne_word_append c hends (by rw [hsplit])
        constructor
        · cases r with
          | nil =>
              rw [List.append_nil]
              omega
          | cons d r =>
              obtain ⟨rfl, hr⟩ := List.cons.inj hr
              have hle := length_place_in_word ht hfront hhides hsplit rfl hr
              simp only [List.length_append, List.length_cons]
              omega
        · obtain ⟨p, d, rfl⟩ := (List.eq_nil_or_concat p).resolve_left hp
          have hd := c.isNameChar_word d (by simp [hsplit])
          simpa using touches_before hd (y ++ ' ' :: p) v

/-- No place in front of the text itself is free, or reaches into it. -/
theorem place_ahead {front : List (List Char)}
    (hfront : ∀ y ∈ front, Balanced y ∧ ¬ Hides c y t)
    (h : ahead c front ++ (t ++ x) = u ++ (t ++ v)) (hlt : u.length < (ahead c front).length) :
    u.length + t.length ≤ (ahead c front).length ∧
      (touchesWord u.reverse || touchesWord v) = true := by
  induction front generalizing u with
  | nil => simp [ahead] at hlt
  | cons y rest ih =>
      obtain ⟨hy, hhides⟩ := hfront y (by simp)
      have hrest : ∀ y ∈ rest, Balanced y ∧ ¬ Hides c y t := fun y hy => hfront y (by simp [hy])
      have hahead : ahead c (y :: rest) = y ++ (c.separator.toList ++ ahead c rest) := by
        simp [ahead]
      rw [hahead, List.append_assoc, List.append_assoc] at h
      rw [hahead] at hlt ⊢
      simp only [List.length_append] at hlt ⊢
      rcases append_eq_append_cases h with ⟨r, -, hsplit, htail⟩ | ⟨s, rfl, htail⟩
      · obtain ⟨hlength, htouched⟩ := place_in_text ht hy hhides hsplit htail
        rw [List.length_append] at hlength
        exact ⟨by omega, htouched⟩
      · rw [List.length_append] at hlt
        rcases append_eq_append_cases htail with ⟨w, hne, hsep, hrow⟩ | ⟨u, rfl, hrow⟩
        · obtain ⟨hlength, htouched⟩ := place_in_joint (y := y) ht hrest hhides hsep hne hrow
          simp only [List.length_append] at hlength ⊢
          exact ⟨by omega, htouched⟩
        · rw [List.length_append] at hlt
          obtain ⟨hlength, htouched⟩ := ih hrest hrow (by omega)
          simp only [List.length_append]
          refine ⟨by omega, ?_⟩
          rw [Bool.or_eq_true] at htouched ⊢
          refine htouched.imp_left fun htouched => ?_
          rw [List.reverse_append, List.reverse_append, List.append_assoc]
          exact touchesWord_append htouched _

theorem find?_row {front : List (List Char)} (hfront : ∀ y ∈ front, Balanced y ∧ ¬ Hides c y t)
    (back : List (List Char)) : find? (ahead c front ++ (t ++ behind c back)) t =
      some ⟨(ahead c front).reverse, behind c back⟩ := by
  have hspace : isNameChar ' ' = false := by decide
  have hfree : touchesWord (ahead c front).reverse = false ∧ touchesWord (behind c back) = false := by
    constructor
    · rcases List.eq_nil_or_concat front with rfl | ⟨front, y, rfl⟩
      · rfl
      · simp [ahead, touchesWord, c.separator_eq, hspace]
    · cases back with
      | nil => rfl
      | cons y back => simp [behind, touchesWord, c.separator_eq, hspace]
  rw [← List.append_assoc]
  refine find?_eq_some_of_earlier ht.ne_nil hfree fun u v h hlt => ?_
  rw [List.append_assoc, List.append_assoc] at h
  exact place_ahead ht hfront h hlt

end Place

/-- Texts that are settled, none of which hides one behind it, under keys of their own. -/
structure Tellable (c : Connective) (rows : List (String × String)) : Prop where
  keys : (rows.map Prod.fst).Nodup
  settled : ∀ r ∈ rows, Settled r.2.toList
  apart : rows.Pairwise fun y r => ¬ Hides c y.2.toList r.2.toList

theorem spell_leading_row (c : Connective) (rows : List (String × String)) :
    spell (Tree.leading c (Tree.row rows)) = ahead c (rows.map fun r => r.2.toList) := by
  induction rows with
  | nil => rfl
  | cons r rest ih =>
      simp only [Tree.leading, Tree.row, ahead] at ih ⊢
      simp [ih, Mark.text]

theorem spell_trailing_row (c : Connective) (rows : List (String × String)) :
    spell (Tree.trailing c (Tree.row rows)) = behind c (rows.map fun r => r.2.toList) := by
  induction rows with
  | nil => rfl
  | cons r rest ih =>
      simp only [Tree.trailing, Tree.row, behind] at ih ⊢
      simp [ih, Mark.text]

theorem toList_clause_row (c : Connective) (rows : List (String × String)) :
    (c.separator.intercalate (rows.map Prod.snd)).toList =
      spell (Tree.join c (Tree.row rows)).marks := by
  rw [← Tree.render_join_row, Tree.toList_render]

namespace Tellable

variable {c : Connective} {rows : List (String × String)} (h : Tellable c rows)

include h

theorem filter (keep : String × String → Bool) : Tellable c (rows.filter keep) := by
  have hsub : (rows.filter keep).Sublist rows := List.filter_sublist
  exact ⟨(hsub.map Prod.fst).nodup h.keys, fun r hr => h.settled r (hsub.subset hr),
    h.apart.sublist hsub⟩

theorem tidy : Tidy.tidy (spell (Tree.join c (Tree.row rows)).marks) =
    spell (Tree.join c (Tree.row rows)).marks := by
  rw [← toList_clause_row, String.toList_intercalate]
  by_cases hne : rows = []
  · subst hne
    exact Tidy.tidy_of_steady (.nil none)
  · refine (Settled.intercalate c ?_ (by simpa using hne)).tidy_eq
    rw [List.map_map, List.forall_mem_map]
    exact h.settled

theorem remove?_eq_some {key text : String} (hmem : (key, text) ∈ rows) :
    remove? (spell (Tree.join c (Tree.row rows)).marks) text.toList =
      some (spell (Tree.join c (Tree.retainAll (· ≠ key) (Tree.row rows))).marks) := by
  obtain ⟨front, back, hrows⟩ := List.append_of_mem hmem
  have hfront : ∀ y ∈ front.map fun r => r.2.toList, Balanced y ∧ ¬ Hides c y text.toList := by
    rw [List.forall_mem_map]
    intro r hr
    have hapart := h.apart
    rw [hrows] at hapart
    exact ⟨(h.settled r (by simp [hrows, hr])).balanced,
      (List.pairwise_append.1 hapart).2.2 r hr (key, text) List.mem_cons_self⟩
  have hat : Tree.At key text c (Tree.row rows) (Tree.leading c (Tree.row front))
      (Tree.trailing c (Tree.row back)) := by
    have hrow : Tree.row rows = Tree.row front ++ .leaf key text :: Tree.row back := by
      simp [Tree.row, hrows]
    exact hrow ▸ .here c (Tree.row front) (Tree.row back)
  have hcloses := hat.closes (Tree.operand_row rows)
    (by simpa [Tree.leavesAll_row] using fun r hr => (h.settled r hr).solid)
    (by simpa [Tree.leavesAll_row] using h.keys) .outer
  have hfound := find?_row (h.settled (key, text) hmem) hfront (back.map fun r => r.2.toList)
  rw [← spell_leading_row, ← spell_trailing_row] at hfound
  rw [List.append_nil, List.append_nil] at hcloses
  rw [remove?, hat.marks, spell_append, spell_cons, Mark.text, hfound, Option.map_some,
    hcloses.close_eq]

end Tellable

theorem severable_row (c : Connective) :
    Severable c fun ts => ∃ rows, Tellable c rows ∧ ts = Tree.row rows where
  operands := by
    rintro ts ⟨rows, -, rfl⟩
    exact Tree.operand_row rows
  retainAll := by
    rintro ts ⟨rows, h, rfl⟩ keep
    exact ⟨_, h.filter _, Tree.retainAll_row keep rows⟩
  remove := by
    rintro ts ⟨rows, h, rfl⟩ key text hmem
    rw [Tree.leavesAll_row] at hmem
    exact h.remove?_eq_some hmem
  tidy := by
    rintro ts ⟨rows, h, rfl⟩
    exact h.tidy

/-- A statement given as text, whose clause is the texts of its fragments in a row, is projected to
the texts that are kept, as they are, if tidying leaves each of them alone and none in front of
another one hides it. -/
theorem project_row {c : Connective} {rows : List (String × String)} {fragments : Dict String}
    (hrows : rows.Perm fragments.entries) (hsettled : ∀ r ∈ rows, Settled r.2.toList)
    (hapart : rows.Pairwise fun y r => ¬ Hides c y.2.toList r.2.toList)
    (arguments : Dict Value) (keys : List String) :
    (Statement.ofParts (c.separator.intercalate (rows.map Prod.snd)) arguments fragments).project
        (.except keys) =
      c.separator.intercalate ((rows.filter (·.1 ∉ keys)).map Prod.snd) := by
  let s := Statement.ofParts (c.separator.intercalate (rows.map Prod.snd)) arguments fragments
  let p := Projection.except keys
  have htellable : Tellable c rows :=
    ⟨(hrows.map Prod.fst).nodup_iff.2 fragments.nodup_keys, hsettled, hapart⟩
  have hfragments : ∀ key ∈ p.dropped s.fragments.keys, ∀ text,
      s.fragment? key = some text ↔ (key, text) ∈ Tree.leavesAll (Tree.row rows) := by
    intro key _ text
    rw [Tree.leavesAll_row, hrows.mem_iff]
    exact ⟨Dict.mem_of_get?, Dict.get?_of_mem⟩
  have hremoved := (severable_row c).removeAll_eq ⟨rows, htellable, rfl⟩
    (p.nodup_dropped s.fragments.keys) hfragments
  have hproject : s.project p = String.ofList (removeAll s.clause.toList
      (((p.dropped s.fragments.keys).filterMap s.fragment?).map String.toList)) :=
    s.project_flat_eq p
  have hclause : s.clause.toList = spell (Tree.join c (Tree.row rows)).marks :=
    toList_clause_row c rows
  change s.project p = _
  rw [hproject, hclause, hremoved, ← Tree.map_render_retain, Tree.getD_render_retain_row]
  simp only [p, Projection.mem_dropped_except]

def Statement.ofRow (c : Connective) (rows : List (String × String)) : Statement :=
  ofParts (c.separator.intercalate (rows.map Prod.snd)) ∅ (.ofList rows)

def memberRows : List (String × String) := [
  ("name", "lower(name) = :name"), ("age", "(age > :age OR age IS NULL)"),
  ("note", "note = 'x AND y'"), ("age_1", "age_1 = :age_1")]

theorem project_row_members : memberRows.Perm (Dict.ofList memberRows).entries ∧
    (∀ r ∈ memberRows, Settled r.2.toList) ∧
    memberRows.Pairwise (fun y r => ¬ Hides .and y.2.toList r.2.toList) ∧
    (Statement.ofRow .and memberRows).project (.except ["note", "name"]) =
      "(age > :age OR age IS NULL) AND age_1 = :age_1" := by
  have hrows : memberRows.Perm (Dict.ofList memberRows).entries := by decide +kernel
  have hsettled : ∀ r ∈ memberRows, Settled r.2.toList := by decide +kernel
  have hapart : memberRows.Pairwise fun y r => ¬ Hides .and y.2.toList r.2.toList := by
    decide +kernel
  refine ⟨hrows, hsettled, hapart, ?_⟩
  exact (project_row hrows hsettled hapart ∅ ["note", "name"]).trans (by decide +kernel)

/-- What is kept loses an empty group and a blank that were its own, as if a removal had left them;
and a text can be cut out where it stands in another one, or across the connective between two
others, or not be found at all. -/
theorem project_row_unsettled :
    (Statement.ofRow .and [("a", "a = :a"), ("b", "b < now()")]).project (.except ["a"]) =
        "b < now" ∧
      (Statement.ofRow .and [("a", "a = :a"), ("b", "b = 'x  y'")]).project (.except ["a"]) =
        "b = 'x y'" ∧
      (Statement.ofRow .and [("a", "a = 'b = 1'"), ("b", "b = 1")]).project (.except ["b"]) =
        "a = '' AND b = 1" ∧
      (Statement.ofRow .and [("a", "a = '-'"), ("b", "'-' = b"), ("c", "' AND '")]).project
        (.except ["c"]) = "a = '--' = b AND ' AND '" ∧
      (Statement.ofRow .and [("a", "a = 1"), ("b", "D D")]).project (.except ["b"]) =
        "a = 1 AND D D" := by
  decide +kernel

end ClauseWeave
