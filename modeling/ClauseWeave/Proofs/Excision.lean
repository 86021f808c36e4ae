import ClauseWeave.Proofs.Finding
import ClauseWeave.Proofs.Places

namespace ClauseWeave

namespace Removal

open Text

/-- What a cut may stand next to: the ends of the text, or the parentheses of a group. -/
inductive Edge : List Char → List Char → Prop
  | outer : Edge [] []
  | group (before after : List Char) : Edge ('(' :: before) (')' :: after)

theorem trimStart_of_not_blank {c : Char} (h : isBlank c = false) (s : List Char) :
    trimStart (c :: s) = c :: s := by
  simp [trimStart, h]

theorem absorb_group (before after : List Char) :
    absorb ('(' :: before) (')' :: after) = absorb before after := by
  rw [absorb, trimStart_of_not_blank (by decide), trimStart_of_not_blank (by decide)]
  rfl

theorem absorb_of_before {before after : List Char} (h : ∀ b, trimStart before ≠ '(' :: b) :
    absorb before after = ⟨before, after⟩ := by
  rw [absorb]
  split
  next b a hb _ => exact absurd hb (h b)
  next => rfl

theorem absorb_of_after {before after : List Char} (h : ∀ a, trimStart after ≠ ')' :: a) :
    absorb before after = ⟨before, after⟩ := by
  rw [absorb]
  split
  next b a _ ha => exact absurd ha (h a)
  next => rfl

theorem trimStart_space (s : List Char) : trimStart (' ' :: s) = trimStart s := by
  simp [trimStart, isBlank_space]

section Separator

variable (c : Connective) (s : List Char)

theorem trimStart_separator :
    trimStart (c.separator.toList ++ s) = c.word.toList ++ ' ' :: s := by
  cases c <;> rfl

theorem trimStart_reverse_separator :
    trimStart (c.separator.toList.reverse ++ s) = c.word.toList.reverse ++ ' ' :: s := by
  cases c <;> rfl

theorem connectiveBefore?_separator :
    connectiveBefore? (c.separator.toList.reverse ++ s) = some (' ' :: s) := by
  rw [connectiveBefore?]
  cases c <;> rfl

theorem connectiveAfter?_separator :
    connectiveAfter? (c.separator.toList ++ s) = some (' ' :: s) := by
  rw [connectiveAfter?]
  cases c <;> rfl

end Separator

theorem Edge.connectiveBefore? {before after : List Char} (h : Edge before after) :
    connectiveBefore? before = none := by
  cases h <;> rfl

end Removal

def EndsSolid (s : List Char) : Prop := ∃ rest c, s = rest ++ [c] ∧ Text.isBlank c = false

theorem EndsSolid.append {t : List Char} (h : EndsSolid t) (s : List Char) :
    EndsSolid (s ++ t) := by
  obtain ⟨rest, c, rfl, hc⟩ := h
  exact ⟨s ++ rest, c, by simp, hc⟩

theorem IsName.endsSolid {name : String} (h : IsName name) : EndsSolid name.toList := by
  obtain ⟨rest, c, hname⟩ := (List.eq_nil_or_concat name.toList).resolve_left (by simpa using h.1)
  rw [List.concat_eq_append] at hname
  exact ⟨rest, c, hname, Text.isBlank_of_isWord (h.2 c (by simp [hname]))⟩

structure Solid (s : List Char) : Prop where
  first : ∃ c rest, s = c :: rest ∧ Text.isBlank c = false
  last : EndsSolid s

namespace Solid

variable {s : List Char} (h : Solid s) (t : List Char)

include h

theorem trimStart_append : Text.trimStart (s ++ t) = s ++ t := by
  obtain ⟨c, rest, rfl, hc⟩ := h.first
  exact Removal.trimStart_of_not_blank hc _

theorem trimStart_reverse_append : Text.trimStart (s.reverse ++ t) = s.reverse ++ t := by
  obtain ⟨rest, c, rfl, hc⟩ := h.last
  rw [List.reverse_append]
  exact Removal.trimStart_of_not_blank hc _

end Solid

namespace Phrase

theorem endsSolid_single (path : String) {op : Operator} (h : op.arity = 1) {name : String}
    (hname : IsName name) : EndsSolid (text ⟨path, op, [name]⟩).toList := by
  rw [text_single path h]
  rcases op.closing_eq with he | he
  · simpa [he] using hname.endsSolid.append (path ++ op.opening ++ ":").toList
  · exact ⟨(path ++ op.opening ++ ":" ++ name).toList, ')', by simp [he], by decide⟩

theorem solid_text {p : Phrase} (hp : p.Valid (isPath · = true)) : Solid p.text.toList := by
  obtain ⟨c, rest, htext, hc⟩ := p.exists_text hp
  refine ⟨⟨c, rest, htext, hc.notBlank⟩, ?_⟩
  have hname : ∀ name ∈ p.names, IsName name := fun name hmem => (hp.names name hmem).isName hp.path
  cases shape_of_count hp.count with
  | single path h name => exact endsSolid_single path h (hname name (by simp))
  | range path negated low high =>
      rw [text_range, String.toList_append]
      exact (endsSolid_single path rfl (hname high (by simp))).append _
  | null path negated =>
      have hlast : EndsSolid (Operator.null negated).opening.toList := by
        cases negated with
        | false => exact ⟨" IS NUL".toList, 'L', by decide, by decide⟩
        | true => exact ⟨" IS NOT NUL".toList, 'L', by decide, by decide⟩
      rw [text_null, String.toList_append]
      exact hlast.append path.toList

end Phrase

theorem Solid.paren (s : List Char) : Solid ('(' :: (s ++ [')'])) :=
  ⟨⟨_, _, rfl, by decide⟩, ⟨'(' :: s, ')', rfl, by decide⟩⟩

namespace Tree

def leading (c : Connective) (ts : List Tree) : List Mark :=
  ts.flatMap fun t => t.marks ++ [.join c]

def trailing (c : Connective) (ts : List Tree) : List Mark :=
  ts.flatMap fun t => .join c :: t.marks

theorem marks_join (c : Connective) (front : List Tree) (t : Tree) (back : List Tree) :
    (join c (front ++ t :: back)).marks = leading c front ++ t.marks ++ trailing c back := by
  rw [marks, marksAll_eq_map]
  induction front with
  | nil =>
      simp only [List.nil_append, leading, List.flatMap_nil]
      induction back generalizing t with
      | nil => simp [trailing]
      | cons s back ih =>
          rw [List.map_cons, List.map_cons, List.intercalate_cons_cons, ← List.map_cons, ih]
          simp [trailing]
  | cons s front ih =>
      obtain ⟨n, others, hne⟩ := List.exists_cons_of_ne_nil (by simp : front ++ t :: back ≠ [])
      rw [List.cons_append, hne, List.map_cons, List.map_cons, List.intercalate_cons_cons,
        ← List.map_cons, ← hne, ih]
      simp [leading]

end Tree

namespace Removal

open Text

section Between

variable (c : Connective) (front : List Tree) {t : Tree} (back : List Tree)
  (hsolid : Solid (spell t.marks)) (before after : List Char)

include hsolid

theorem close_behind :
    (absorb ((spell (Tree.leading c (front ++ [t]))).reverse ++ before)
        (spell (Tree.trailing c back) ++ after)).close =
      before.reverse ++ spell (Tree.join c (front ++ t :: back)).marks ++ after := by
  have hleading : (spell (Tree.leading c (front ++ [t]))).reverse ++ before =
      c.separator.toList.reverse ++
        ((spell t.marks).reverse ++ ((spell (Tree.leading c front)).reverse ++ before)) := by
    simp [Tree.leading, Mark.text]
  have hstop : ∀ b, trimStart (c.separator.toList.reverse ++
      ((spell t.marks).reverse ++ ((spell (Tree.leading c front)).reverse ++ before))) ≠
        '(' :: b := by
    intro b
    rw [trimStart_reverse_separator]
    cases c <;> simp [Connective.word]
  rw [hleading, absorb_of_before hstop, Cut.close]
  simp only [connectiveBefore?_separator]
  rw [trimStart_space, hsolid.trimStart_reverse_append, Tree.marks_join]
  simp

theorem close_ahead {before after : List Char} (hedge : Edge before after) :
    (absorb before (spell (Tree.trailing c (t :: back)) ++ after)).close =
      before.reverse ++ spell (Tree.join c (t :: back)).marks ++ after := by
  have htrailing : spell (Tree.trailing c (t :: back)) ++ after =
      c.separator.toList ++ (spell t.marks ++ (spell (Tree.trailing c back) ++ after)) := by
    simp [Tree.trailing, Mark.text]
  have hstop : ∀ a, trimStart (c.separator.toList ++
      (spell t.marks ++ (spell (Tree.trailing c back) ++ after))) ≠ ')' :: a := by
    intro a
    rw [trimStart_separator]
    cases c <;> simp [Connective.word]
  rw [htrailing, absorb_of_after hstop, Cut.close]
  simp only [hedge.connectiveBefore?, connectiveAfter?_separator]
  rw [trimStart_space, hsolid.trimStart_append, ← List.nil_append (t :: back), Tree.marks_join]
  simp [Tree.leading]

end Between

/-- The cut leaves the text of the operands that are kept between `before` and `after`; without
any it is what a cut between these two would be. -/
structure Closes (cut : Cut) (c : Connective) (kept : List Tree) (before after : List Char) :
    Prop where
  empty : kept = [] → cut = absorb before after
  text : kept ≠ [] → cut.close = before.reverse ++ spell (Tree.join c kept).marks ++ after

theorem Closes.close_eq {cut : Cut} {c : Connective} {kept : List Tree}
    (h : Closes cut c kept [] []) : cut.close = spell (Tree.join c kept).marks := by
  by_cases hnil : kept = []
  · subst hnil
    rw [h.empty rfl, absorb_of_before (by simp [trimStart])]
    rfl
  · simpa using h.text hnil

theorem closes_between {before after : List Char} (hedge : Edge before after) (c : Connective)
    {front back : List Tree} (hfront : ∀ t ∈ front, Solid (spell t.marks))
    (hback : ∀ t ∈ back, Solid (spell t.marks)) :
    Closes (absorb ((spell (Tree.leading c front)).reverse ++ before)
      (spell (Tree.trailing c back) ++ after)) c (front ++ back) before after := by
  constructor
  · intro hnil
    obtain ⟨rfl, rfl⟩ := List.append_eq_nil_iff.1 hnil
    rfl
  · intro hne
    rcases List.eq_nil_or_concat front with rfl | ⟨front, t, rfl⟩
    · obtain ⟨t, back, rfl⟩ := List.exists_cons_of_ne_nil hne
      exact close_ahead c back (hback t (by simp)) hedge
    · rw [List.concat_eq_append] at hfront ⊢
      rw [List.append_assoc front]
      exact close_behind c front back (hfront t (by simp)) before after

end Removal

namespace Tree

theorem Operand.solid {t : Tree} (h : t.Operand)
    (hleaves : ∀ leaf ∈ t.leaves, Solid leaf.2.toList) : Solid (spell t.marks) := by
  cases h with
  | leaf key text => simpa [marks, Mark.text] using hleaves (key, text) (by simp [leaves])
  | group c hne h => simpa [marks, Mark.text] using Solid.paren (spell (join c _).marks)

theorem retainAll_eq_filterMap (keep : String → Bool) (ts : List Tree) :
    retainAll keep ts = ts.filterMap (retain keep) := by
  induction ts with
  | nil => rfl
  | cons t rest ih =>
      rw [retainAll, List.filterMap_cons, ih]
      cases retain keep t <;> rfl

/-- Where the leaf stands among operands under one connective: the marks before and behind it. -/
inductive At (key text : String) : Connective → List Tree → List Mark → List Mark → Prop
  | here (c : Connective) (front back : List Tree) :
      At key text c (front ++ leaf key text :: back) (leading c front) (trailing c back)
  | inside (c : Connective) (front back : List Tree) {d : Connective} {ts : List Tree}
      {before behind : List Mark} (h : At key text d ts before behind) :
      At key text c (front ++ paren (join d ts) :: back)
        (leading c front ++ .opening :: before) (behind ++ .closing :: trailing c back)

theorem leavesAll_append (ts us : List Tree) :
    leavesAll (ts ++ us) = leavesAll ts ++ leavesAll us := by
  simp [leavesAll_eq_flatMap]

theorem retainAll_append (keep : String → Bool) (ts us : List Tree) :
    retainAll keep (ts ++ us) = retainAll keep ts ++ retainAll keep us := by
  simp [retainAll_eq_filterMap]

theorem retainAll_of_not_mem {ts : List Tree} (h : ∀ t ∈ ts, t.Operand) {key : String}
    (hkey : key ∉ (leavesAll ts).map Prod.fst) : retainAll (· ≠ key) ts = ts := by
  have hall : ∀ leaf ∈ leavesAll ts, decide (leaf.1 ≠ key) = true := by
    rintro leaf hleaf
    rw [decide_eq_true_eq]
    rintro rfl
    exact hkey (List.mem_map_of_mem hleaf)
  have hcongr : retainAll (· ≠ key) ts = retainAll (fun _ => true) ts := retainAll_congr ts hall
  rw [hcongr]
  exact retainAll_of_whole fun t ht => (h t ht).whole

theorem retainAll_around {front back : List Tree} {t : Tree} {key : String}
    (h : ∀ o ∈ front ++ t :: back, o.Operand)
    (hkeys : ((leavesAll (front ++ t :: back)).map Prod.fst).Nodup)
    (hkey : key ∈ t.leaves.map Prod.fst) : (t.leaves.map Prod.fst).Nodup ∧
      retainAll (· ≠ key) (front ++ t :: back) =
        front ++ ((retain (· ≠ key) t).toList ++ back) := by
  rw [leavesAll_append, leavesAll, List.map_append, List.map_append] at hkeys
  obtain ⟨-, hrest, hfront⟩ := List.nodup_append'.1 hkeys
  obtain ⟨hown, -, hback⟩ := List.nodup_append'.1 hrest
  have hnotFront : key ∉ (leavesAll front).map Prod.fst := by
    intro hmem
    exact hfront hmem (by simp [hkey])
  refine ⟨hown, ?_⟩
  rw [retainAll_append, retainAll_of_not_mem (fun o ho => h o (by simp [ho])) hnotFront, retainAll,
    retainAll_of_not_mem (fun o ho => h o (by simp [ho])) (hback hkey)]
  cases retain (· ≠ key) t <;> rfl

namespace At

variable {key text : String} {c : Connective} {ts : List Tree} {before behind : List Mark}

theorem marks (h : At key text c ts before behind) :
    (join c ts).marks = before ++ .fragment text :: behind := by
  induction h with
  | here c front back => simp [marks_join]
  | inside c front back _ ih => simp [marks_join, ih]

theorem mem_leaves (h : At key text c ts before behind) : (key, text) ∈ leavesAll ts := by
  induction h with
  | here c front back => simp [leavesAll_append, leavesAll, leaves]
  | inside c front back _ ih => simp [leavesAll_append, leavesAll, leaves, ih]

theorem solid_of_mem (hoperands : ∀ t ∈ ts, t.Operand)
    (hsolid : ∀ leaf ∈ leavesAll ts, Solid leaf.2.toList) : ∀ t ∈ ts, Solid (spell t.marks) := by
  intro t ht
  refine (hoperands t ht).solid fun leaf hleaf => hsolid leaf ?_
  rw [leavesAll_eq_flatMap]
  exact List.mem_flatMap.2 ⟨t, ht, hleaf⟩

/-- Cutting the leaf out of the text is leaving it out of the tree. -/
theorem closes (h : At key text c ts before behind) (hoperands : ∀ t ∈ ts, t.Operand)
    (hsolid : ∀ leaf ∈ leavesAll ts, Solid leaf.2.toList)
    (hkeys : ((leavesAll ts).map Prod.fst).Nodup) {b a : List Char} (hedge : Removal.Edge b a) :
    Removal.Closes (Removal.absorb ((spell before).reverse ++ b) (spell behind ++ a)) c
      (retainAll (· ≠ key) ts) b a := by
  induction h generalizing b a with
  | here c front back =>
      have hall := solid_of_mem hoperands hsolid
      have hkey : key ∈ (leaf key text).leaves.map Prod.fst := by simp [leaves]
      obtain ⟨-, hretain⟩ := retainAll_around hoperands hkeys hkey
      rw [hretain]
      simpa [retain] using Removal.closes_between hedge c (fun t ht => hall t (by simp [ht]))
        fun t ht => hall t (by simp [ht])
  | @inside c front back d us before behind h ih =>
      have hall := solid_of_mem hoperands hsolid
      have hgroup : (paren (join d us)).Operand := hoperands _ (by simp)
      have hus : ∀ t ∈ us, t.Operand := by
        cases hgroup with
        | group _ _ hus => exact hus
      have hkey : key ∈ (paren (join d us)).leaves.map Prod.fst :=
        List.mem_map.2 ⟨_, h.mem_leaves, rfl⟩
      obtain ⟨hown, hretain⟩ := retainAll_around hoperands hkeys hkey
      have hinner := ih hus (fun leaf hleaf => hsolid leaf (by
          simp [leavesAll_append, leavesAll, leaves, hleaf])) hown
        (Removal.Edge.group ((spell (leading c front)).reverse ++ b) (spell (trailing c back) ++ a))
      have hcut : Removal.absorb ((spell (leading c front ++ .opening :: before)).reverse ++ b)
          (spell (behind ++ .closing :: trailing c back) ++ a) =
            Removal.absorb
              ((spell before).reverse ++ '(' :: ((spell (leading c front)).reverse ++ b))
              (spell behind ++ ')' :: (spell (trailing c back) ++ a)) := by
        simp [Mark.text]
      rw [hcut, hretain, retain, retain]
      cases hkept : retainAll (· ≠ key) us with
      | nil =>
          -- the parentheses go with the last leaf between them
          rw [hinner.empty hkept, Removal.absorb_group]
          simpa using Removal.closes_between hedge c (fun t ht => hall t (by simp [ht]))
            fun t ht => hall t (by simp [ht])
      | cons t rest =>
          have htext := hinner.text (by rw [hkept]; simp)
          rw [hkept] at htext
          refine ⟨by simp, fun _ => ?_⟩
          rw [htext]
          simp [marks_join, Mark.text]

end At

theorem exists_at {key text : String} (c : Connective) {ts : List Tree}
    (h : ∀ t ∈ ts, t.Operand) (hmem : (key, text) ∈ leavesAll ts) :
    ∃ before behind, At key text c ts before behind := by
  have hoperand {t : Tree} (ht : t.Operand) (hmem : (key, text) ∈ t.leaves) (c : Connective)
      (front back : List Tree) :
      ∃ before behind, At key text c (front ++ t :: back) before behind := by
    induction ht generalizing c front back with
    | leaf own ownText =>
        obtain ⟨rfl, rfl⟩ : key = own ∧ text = ownText := by simpa [leaves] using hmem
        exact ⟨_, _, .here c front back⟩
    | @group d us _ _ ih =>
        rw [leaves, leaves, leavesAll_eq_flatMap] at hmem
        obtain ⟨t, ht, hleaf⟩ := List.mem_flatMap.1 hmem
        obtain ⟨before, behind, rfl⟩ := List.append_of_mem ht
        obtain ⟨_, _, hat⟩ := ih t ht hleaf d before behind
        exact ⟨_, _, .inside c front back hat⟩
  rw [leavesAll_eq_flatMap] at hmem
  obtain ⟨t, ht, hleaf⟩ := List.mem_flatMap.1 hmem
  obtain ⟨front, back, rfl⟩ := List.append_of_mem ht
  exact hoperand (h t ht) hleaf c front back

end Tree

end ClauseWeave
