import ClauseWeave.Proofs.Excision
import ClauseWeave.Proofs.Splitting

namespace ClauseWeave

open Removal

theorem Phrase.Valid.imp {ok ok' : String → Prop} (hok : ∀ path, ok path → ok' path) {p : Phrase}
    (h : p.Valid ok) : p.Valid ok' :=
  ⟨hok _ h.path, h.count, h.names⟩

theorem Reached.imp {ok ok' : String → Prop} (hok : ∀ path, ok path → ok' path) {s : Statement}
    {fs : List Filter} (h : Reached ok s fs) : Reached ok' s fs := by
  induction h with
  | filters hpaths h => exact .filters (fun f hf => hok _ (hpaths f hf)) h
  | merged c _ ih => exact .merged c ih
  | routed hpaths hcolumns h =>
      exact .routed (fun f hf => hok _ (hpaths f hf))
        (fun r hr column hcolumn => hok _ (hcolumns r hr column hcolumn)) h

/-- One text can be found in the other one, between characters that are not part of a word. -/
def Stands (x y : List Char) : Prop :=
  ∃ u v, y = u ++ x ++ v ∧ touchesWord u.reverse = false ∧ touchesWord v = false

instance : DecidableRel Stands := fun x y =>
  decidable_of_iff (((List.range (y.length + 1)).any fun n => (Text.after? x (y.drop n)).any fun v =>
      !touchesWord (y.take n).reverse && !touchesWord v) = true) <| by
    simp only [List.any_eq_true, Option.any_eq_true, Bool.and_eq_true, Bool.not_eq_true']
    constructor
    · rintro ⟨n, -, v, hv, hfree⟩
      refine ⟨y.take n, v, ?_, hfree⟩
      rw [List.append_assoc, ← Text.after?_eq_some_iff.1 hv, List.take_append_drop]
    · rintro ⟨u, v, rfl, hfree⟩
      have hplace : u.length ∈ List.range ((u ++ x ++ v).length + 1) := by
        rw [List.mem_range, List.length_append, List.length_append]
        omega
      exact ⟨u.length, hplace, v, Text.after?_eq_some_iff.2 (by simp), by simpa using hfree⟩

theorem Stands.refl (x : List Char) : Stands x x := ⟨[], [], by simp, rfl, rfl⟩

/-- Operands that can be told apart by their text: every key has one leaf, and no leaf can be found
in another one. -/
structure Separate (ts : List Tree) : Prop where
  operands : ∀ t ∈ ts, t.Operand
  keys : ((Tree.leavesAll ts).map Prod.fst).Nodup
  phrased : ∀ leaf ∈ Tree.leavesAll ts, ∃ p : Phrase, p.Valid IsColumn ∧ leaf.2 = p.text
  markers : ((Tree.leavesAll ts).flatMap fun leaf => markersIn leaf.2).Nodup
  apart : ∀ leaf ∈ Tree.leavesAll ts, ∀ other ∈ Tree.leavesAll ts, leaf ≠ other →
    ¬ Stands leaf.2.toList other.2.toList

namespace Tree

theorem Operand.retain {t : Tree} (h : t.Operand) {keep : String → Bool} {kept : Tree}
    (hkept : Tree.retain keep t = some kept) : kept.Operand := by
  induction h generalizing kept with
  | leaf key text =>
      rw [Tree.retain] at hkept
      split at hkept
      next => exact Option.some.inj hkept ▸ .leaf key text
      next => simp at hkept
  | @group c ts _ _ ih =>
      rw [Tree.retain, Tree.retain] at hkept
      cases hall : retainAll keep ts with
      | nil => simp [hall] at hkept
      | cons t rest =>
          simp only [hall, Option.map_some, Option.some.injEq] at hkept
          subst hkept
          refine .group c (by simp) ?_
          intro o ho
          rw [← hall, retainAll_eq_filterMap] at ho
          obtain ⟨source, hsource, hretain⟩ := List.mem_filterMap.1 ho
          exact ih source hsource hretain

theorem Operand.isCondition {t : Tree} (h : t.Operand) : IsCondition t.marks := by
  induction h with
  | leaf key text => exact .fragment text
  | group c hne _ ih =>
      refine (IsCondition.intercalate c ?_ (by simpa [marksAll_eq_map] using hne)).paren
      intro ms hms
      rw [marksAll_eq_map] at hms
      obtain ⟨t, ht, rfl⟩ := List.mem_map.1 hms
      exact ih t ht

theorem exists_leaf_of_mem_marks {c : Connective} {ts : List Tree} {text : String}
    (h : .fragment text ∈ (join c ts).marks) : ∃ leaf ∈ leavesAll ts, leaf.2 = text :=
  List.mem_map.1 (fragment_mem_marks.1 h)

theorem isCondition_join (c : Connective) {ts : List Tree} (hne : ts ≠ [])
    (h : ∀ t ∈ ts, t.Operand) : IsCondition (join c ts).marks := by
  refine IsCondition.intercalate c ?_ (by simpa [marksAll_eq_map] using hne)
  intro ms hms
  rw [marksAll_eq_map] at hms
  obtain ⟨t, ht, rfl⟩ := List.mem_map.1 hms
  exact (h t ht).isCondition

end Tree

namespace Separate

variable {ts : List Tree} (h : Separate ts)

include h

theorem retainAll (keep : String → Bool) : Separate (Tree.retainAll keep ts) := by
  have hleaves := (Tree.retainAll_spec keep ts).2
  have hsub : (Tree.leavesAll (Tree.retainAll keep ts)).Sublist (Tree.leavesAll ts) :=
    hleaves ▸ List.filter_sublist
  refine ⟨?_, (hsub.map Prod.fst).nodup h.keys, fun leaf hleaf => h.phrased leaf (hsub.subset hleaf),
    (hsub.flatMap _).nodup h.markers,
    fun leaf hleaf other hother => h.apart leaf (hsub.subset hleaf) other (hsub.subset hother)⟩
  intro t ht
  rw [Tree.retainAll_eq_filterMap] at ht
  obtain ⟨source, hsource, hretain⟩ := List.mem_filterMap.1 ht
  exact (h.operands source hsource).retain hretain

theorem tidy (c : Connective) :
    Tidy.tidy (spell (Tree.join c ts).marks) = spell (Tree.join c ts).marks := by
  by_cases hne : ts = []
  · subst hne
    exact Tidy.tidy_of_steady (.nil none)
  · refine tidy_spell ?_ (Tree.isCondition_join c hne h.operands)
    intro text htext
    obtain ⟨leaf, hleaf, rfl⟩ := Tree.exists_leaf_of_mem_marks htext
    exact h.phrased leaf hleaf

theorem surrounds {x : Phrase} {key : String} (hmem : (key, x.text) ∈ Tree.leavesAll ts)
    (c : Connective) : Surrounds x (Tree.join c ts).marks := by
  constructor
  · intro text htext
    obtain ⟨leaf, hleaf, rfl⟩ := Tree.exists_leaf_of_mem_marks htext
    obtain ⟨p, hp, hp'⟩ := h.phrased leaf hleaf
    exact ⟨p, hp.imp fun _ => IsColumn.isPath, hp'⟩
  · intro text htext name hname hown
    obtain ⟨leaf, hleaf, rfl⟩ := Tree.exists_leaf_of_mem_marks htext
    exact congrArg Prod.snd (eq_of_nodup_flatMap h.markers hleaf hmem hname hown)

theorem nodup_texts : ((Tree.leavesAll ts).map Prod.snd).Nodup := by
  refine List.Nodup.map_on ?_ (.of_map Prod.fst h.keys)
  intro leaf hleaf other hother he
  by_contra hne
  exact h.apart leaf hleaf other hother hne (he ▸ Stands.refl _)

theorem not_mem_before {c : Connective} {key text : String} {before behind : List Mark}
    (hat : Tree.At key text c ts before behind) : .fragment text ∉ before := by
  intro hmem
  have hnodup : ((Tree.join c ts).marks.flatMap Mark.fragments).Nodup := by
    rw [Tree.flatMap_fragments_marks]
    exact h.nodup_texts
  rw [hat.marks, List.flatMap_append, List.flatMap_cons] at hnodup
  obtain ⟨-, -, hdisjoint⟩ := List.nodup_append'.1 hnodup
  exact hdisjoint (List.mem_flatMap.2 ⟨_, hmem, Mark.mem_fragments.2 rfl⟩) (by simp [Mark.fragments])

end Separate

theorem free_of_chain {before behind : List Mark} {text : String}
    (h : (before ++ .fragment text :: behind).IsChain Mark.Precedes) :
    touchesWord (spell before).reverse = false ∧ touchesWord (spell behind) = false := by
  have hplain : Text.isNameChar ' ' = false ∧ Text.isNameChar '(' = false ∧
      Text.isNameChar ')' = false := by decide
  obtain ⟨-, hright, hjoint⟩ := List.isChain_append.1 h
  constructor
  · rcases List.eq_nil_or_concat before with rfl | ⟨before, m, rfl⟩
    · rfl
    · have hbegins : true = !m.ends := hjoint m (by simp) (.fragment text) (by simp)
      cases m with
      | opening => simp [touchesWord, Mark.text, hplain]
      | join c => simp [touchesWord, Mark.text, Connective.separator, hplain]
      | fragment text | closing => simp [Mark.ends] at hbegins
  · cases behind with
    | nil => rfl
    | cons m behind =>
        have hbegins : m.begins = false := (List.isChain_cons_cons.1 hright).1
        cases m with
        | closing => simp [touchesWord, Mark.text, hplain]
        | join c => simp [touchesWord, Mark.text, Connective.separator, hplain]
        | fragment text | opening => simp [Mark.begins] at hbegins

theorem touchesWord_append {s : List Char} (h : touchesWord s = true) (t : List Char) :
    touchesWord (s ++ t) = true := by
  cases s with
  | nil => simp [touchesWord] at h
  | cons c s => exact h

theorem touches_of_not_stands {needle text u v : List Char} (h : ¬ Stands needle text)
    (htext : text = u ++ needle ++ v) (front back : List Char) :
    (touchesWord (front ++ u).reverse || touchesWord (v ++ back)) = true := by
  rw [Bool.or_eq_true, List.reverse_append]
  by_contra hfree
  rw [not_or] at hfree
  refine h ⟨u, v, htext, ?_, ?_⟩
  · by_contra hu
    exact hfree.1 (touchesWord_append (by simpa using hu) _)
  · by_contra hv
    exact hfree.2 (touchesWord_append (by simpa using hv) _)

namespace Separate

variable {ts : List Tree} (h : Separate ts) {c : Connective} {key text : String}
  {before behind : List Mark}

include h

theorem find?_eq_some (hat : Tree.At key text c ts before behind) :
    find? (spell (Tree.join c ts).marks) text.toList =
      some ⟨(spell before).reverse, spell behind⟩ := by
  obtain ⟨x, hx, rfl⟩ : ∃ x : Phrase, x.Valid IsColumn ∧ text = x.text := h.phrased _ hat.mem_leaves
  have hpath := hx.imp fun _ => IsColumn.isPath
  have hts : ts ≠ [] := by
    rintro rfl
    simpa [Tree.leavesAll] using hat.mem_leaves
  have hchain := (Tree.isCondition_join c hts h.operands).chain
  have hnodup := (List.nodup_flatMap.1 h.markers).1 _ hat.mem_leaves
  have hsurrounds := h.surrounds hat.mem_leaves c
  have hspell : spell (Tree.join c ts).marks = spell before ++ x.text.toList ++ spell behind := by
    simp [hat.marks, Mark.text]
  have hne : x.text.toList ≠ [] := by
    obtain ⟨d, tail, htext, -⟩ := x.exists_text hpath
    simp [htext]
  rw [hspell]
  refine find?_eq_some_of_earlier hne (free_of_chain (hat.marks ▸ hchain)) ?_
  intro u v he hlt
  obtain ⟨front, y, back, u', v', hmarks, rfl, rfl, hy⟩ :=
    liesWithin hpath hnodup hchain hsurrounds (hspell.trans he)
  rw [List.length_append] at hlt ⊢
  rcases List.append_eq_append_iff.1 (hat.marks.symm.trans hmarks) with
    ⟨a, rfl, -⟩ | ⟨a, hbefore, hrest⟩
  · rw [spell_append, List.length_append] at hlt
    omega
  · cases a with
    | nil =>
        rw [List.append_nil] at hbefore
        rw [hbefore] at hlt
        omega
    | cons m a =>
        obtain ⟨rfl, -⟩ := List.cons.inj hrest
        have hlengths := congrArg List.length hy
        rw [List.length_append, List.length_append] at hlengths
        constructor
        · rw [hbefore]
          simp only [spell_append, spell_cons, List.length_append, Mark.text]
          omega
        · have hmem : .fragment y ∈ (Tree.join c ts).marks := by simp [hmarks]
          obtain ⟨other, hother, rfl⟩ := Tree.exists_leaf_of_mem_marks hmem
          have hdiffers : (key, x.text) ≠ other := by
            rintro rfl
            exact h.not_mem_before hat (by simp [hbefore])
          exact touches_of_not_stands (h.apart _ hat.mem_leaves other hother hdiffers) hy _ _

/-- Cutting the fragment out of the text leaves the text of the tree without the leaf. -/
theorem remove?_eq_some (c : Connective) (hmem : (key, text) ∈ Tree.leavesAll ts) :
    remove? (spell (Tree.join c ts).marks) text.toList =
      some (spell (Tree.join c (Tree.retainAll (· ≠ key) ts)).marks) := by
  obtain ⟨before, behind, hat⟩ := Tree.exists_at c h.operands hmem
  have hsolid : ∀ leaf ∈ Tree.leavesAll ts, Solid leaf.2.toList := by
    intro leaf hleaf
    obtain ⟨p, hp, hp'⟩ := h.phrased leaf hleaf
    rw [hp']
    exact p.solid_text (hp.imp fun _ => IsColumn.isPath)
  have hcloses := hat.closes h.operands hsolid h.keys .outer
  rw [List.append_nil, List.append_nil] at hcloses
  rw [remove?, h.find?_eq_some hat, Option.map_some, hcloses.close_eq]

end Separate

/-- Rows of operands from which every leaf can be cut out as text. -/
structure Severable (c : Connective) (P : List Tree → Prop) : Prop where
  operands : ∀ {ts}, P ts → ∀ t ∈ ts, t.Operand
  retainAll : ∀ {ts}, P ts → ∀ keep, P (Tree.retainAll keep ts)
  remove : ∀ {ts}, P ts → ∀ {key text}, (key, text) ∈ Tree.leavesAll ts →
    remove? (spell (Tree.join c ts).marks) text.toList =
      some (spell (Tree.join c (Tree.retainAll (· ≠ key) ts)).marks)
  tidy : ∀ {ts}, P ts → Tidy.tidy (spell (Tree.join c ts).marks) = spell (Tree.join c ts).marks

theorem Severable.removeAll_eq {c : Connective} {P : List Tree → Prop} (hP : Severable c P)
    {ts : List Tree} (h : P ts) {fragment? : String → Option String} {keys : List String}
    (hkeys : keys.Nodup)
    (hfragments : ∀ key ∈ keys, ∀ text,
      fragment? key = some text ↔ (key, text) ∈ Tree.leavesAll ts) :
    removeAll (spell (Tree.join c ts).marks) ((keys.filterMap fragment?).map String.toList) =
      spell (Tree.join c (Tree.retainAll (· ∉ keys) ts)).marks := by
  induction keys generalizing ts with
  | nil =>
      have hall : (fun k : String => decide (k ∉ ([] : List String))) = fun _ => true := by simp
      rw [hall, Tree.retainAll_of_whole fun t ht => (hP.operands h t ht).whole]
      rfl
  | cons key keys ih =>
      obtain ⟨hnot, hrest⟩ := List.nodup_cons.1 hkeys
      have htree (keep : String → Bool)
          (hkeep : ∀ leaf ∈ Tree.leavesAll ts, keep leaf.1 = decide (leaf.1 ∉ key :: keys)) :
          Tree.retainAll keep ts = Tree.retainAll (· ∉ key :: keys) ts :=
        Tree.retainAll_congr ts hkeep
      cases hkey : fragment? key with
      | none =>
          rw [List.filterMap_cons_none hkey,
            ih h hrest fun k hk => hfragments k (List.mem_cons_of_mem key hk), htree]
          intro leaf hleaf
          have hne : leaf.1 ≠ key := by
            rintro rfl
            have hsome := (hfragments leaf.1 (by simp) leaf.2).2 hleaf
            simp [hkey] at hsome
          simp [hne]
      | some text =>
          have hmem := (hfragments key (by simp) text).1 hkey
          have hleft := hP.retainAll h (· ≠ key)
          have hleaves := (Tree.retainAll_spec (· ≠ key) ts).2
          rw [List.filterMap_cons_some hkey, List.map_cons, removeAll, hP.remove h hmem]
          simp only []
          rw [hP.tidy hleft, ih hleft hrest, Tree.retainAll_retainAll, htree]
          · intro leaf _
            simp
          · intro k hk text
            have hne : k ≠ key := by
              rintro rfl
              exact hnot hk
            rw [hfragments k (List.mem_cons_of_mem key hk), hleaves, List.mem_filter]
            simp [hne]

theorem Separate.removeAll_eq {ts : List Tree} (h : Separate ts) (c : Connective)
    {fragment? : String → Option String} {keys : List String} (hkeys : keys.Nodup)
    (hfragments : ∀ key ∈ keys, ∀ text,
      fragment? key = some text ↔ (key, text) ∈ Tree.leavesAll ts) :
    removeAll (spell (Tree.join c ts).marks) ((keys.filterMap fragment?).map String.toList) =
      spell (Tree.join c (Tree.retainAll (· ∉ keys) ts)).marks := by
  have hseverable : Severable c Separate :=
    ⟨fun h => h.operands, fun h keep => h.retainAll keep, fun h => h.remove?_eq_some c,
      fun h => h.tidy c⟩
  exact hseverable.removeAll_eq h hkeys hfragments

section Lookup

theorem Connective.join?_singleton (c : Connective) (text : String) :
    c.join? [text] = some text := by
  simp [join?]

theorem filterMap_eq_singleton {α β : Type} {f : α → Option β} {front back : List α} {a : α} {b : β}
    (ha : f a = some b) (hfront : ∀ x ∈ front, f x = none) (hback : ∀ x ∈ back, f x = none) :
    (front ++ a :: back).filterMap f = [b] := by
  rw [List.filterMap_append, List.filterMap_cons_some ha, List.filterMap_eq_nil_iff.2 hfront,
    List.filterMap_eq_nil_iff.2 hback, List.nil_append]

def Statement.Lists (s : Statement) : Prop :=
  (s.body.leaves.map Prod.fst).Nodup → ∀ leaf ∈ s.body.leaves, s.fragments.get? leaf.1 = some leaf.2

theorem lists_ofFilters {c : Connective} {fs : List Filter} {s : Statement}
    (hp : ∀ f ∈ fs, isPath f.path = true) (h : Statement.ofFilters c fs = .ok s) : s.Lists := by
  obtain ⟨d, written, hd, rfl⟩ := ofFilters_spec hp h
  intro _ leaf hleaf
  rw [hd.leaves_finish] at hleaf
  exact Dict.get?_of_mem (hd.fragments.mem_iff.2 hleaf)

theorem lists_merge (c : Connective) {ss : List Statement}
    (htree : ∀ s ∈ present ss, s.body.IsTree)
    (hkeys : ∀ s ∈ ss, ∀ key, key ∈ s.fragments.keys ↔ key ∈ s.body.leaves.map Prod.fst)
    (h : ∀ s ∈ ss, s.Lists) : (merge c ss).Lists := by
  intro hnodup leaf hleaf
  rw [leaf_keys_merge c htree] at hnodup
  rw [leaves_merge c htree] at hleaf
  obtain ⟨p, hp, hleaf⟩ := List.mem_flatMap.1 hleaf
  obtain ⟨own, hown, rfl⟩ := List.mem_map.1 hleaf
  have hnone : ∀ q ∈ Merge.placed ∅ (present ss), own.1 ∉ q.1.body.leaves.map Prod.fst →
      (q.1.fragments.get? own.1).map (relabel q.2) = none := by
    intro q hq hnot
    rw [Option.map_eq_none_iff, Dict.get?_eq_none_iff, hkeys q.1 (mem_present_of_mem_placed hq)]
    exact hnot
  have hkey : own.1 ∈ p.1.body.leaves.map Prod.fst := List.mem_map_of_mem hown
  rw [← Merge.map_fst_placed ∅ (present ss), List.flatMap_map] at hnodup
  obtain ⟨front, back, hsplit⟩ := List.append_of_mem hp
  rw [hsplit, List.flatMap_append, List.flatMap_cons] at hnodup
  obtain ⟨-, hrest, hfront⟩ := List.nodup_append'.1 hnodup
  obtain ⟨hself, -, hback⟩ := List.nodup_append'.1 hrest
  have htext := h p.1 (mem_present_of_mem_placed hp) hself own hown
  rw [hsplit] at hnone
  rw [merge_fragment, hsplit, filterMap_eq_singleton (b := relabel p.2 own.2)]
  · exact c.join?_singleton _
  · rw [htext]
    rfl
  · intro q hq
    refine hnone q (by simp [hq]) fun hmem => hfront (List.mem_flatMap.2 ⟨q, hq, hmem⟩) ?_
    exact List.mem_append_left _ hkey
  · intro q hq
    exact hnone q (by simp [hq]) fun hmem => hback hkey (List.mem_flatMap.2 ⟨q, hq, hmem⟩)

theorem Reached.lists {s : Statement} {fs : List Filter}
    (h : Reached (fun path => isPath path = true) s fs) : s.Lists := by
  refine (h.induction (P := fun s fs => s.Accounts fs ∧ s.Lists) ?_ ?_).2
  · exact fun hp hs => ⟨accounts_ofFilters hp hs, lists_ofFilters hp hs⟩
  · intro c parts hparts
    have haccounts : ∀ p ∈ parts, p.1.Accounts p.2 := fun p hp => (hparts p hp).1
    refine ⟨accounts_merge c haccounts, lists_merge c (isTree_of_mem_present haccounts) ?_ ?_⟩
    · intro s hs
      obtain ⟨p, hp, rfl⟩ := List.mem_map.1 hs
      exact (haccounts p hp).keys
    · intro s hs
      obtain ⟨p, hp, rfl⟩ := List.mem_map.1 hs
      exact (hparts p hp).2

end Lookup

theorem Projection.nodup_dropped (p : Projection) (fragmentKeys : List String) :
    (p.dropped fragmentKeys).Nodup := by
  rcases p with _ | keys | keys
  · exact List.nodup_nil
  · cases keys with
    | nil => exact List.nodup_nil
    | cons k rest => exact Dict.nodup_keys _
  · exact Dict.nodup_keys _

theorem Tree.map_render_retain (keep : String → Bool) (c : Connective) (ts : List Tree) :
    (((join c ts).retain keep).map render).getD "" =
      String.ofList (spell (join c (retainAll keep ts)).marks) := by
  rw [retain]
  cases retainAll keep ts with
  | nil => rfl
  | cons t rest => simp [← toList_render]

theorem Statement.project_flat_eq (s : Statement) (p : Projection) :
    s.flat.project p = String.ofList (removeAll s.clause.toList
      (((p.dropped s.fragments.keys).filterMap s.fragment?).map String.toList)) := by
  have hraw : s.flat.project p = if (p.dropped s.fragments.keys).isEmpty then s.clause else
      String.ofList (removeAll s.clause.toList
        (((p.dropped s.fragments.keys).filterMap s.fragment?).map String.toList)) := rfl
  rw [hraw]
  cases p.dropped s.fragments.keys with
  | nil => simp [removeAll]
  | cons k rest => rfl

section Flat

variable {s : Statement} {fs : List Filter} (h : Reached IsColumn s fs)
  (hkeys : (s.body.leaves.map Prod.fst).Nodup)

include h hkeys

theorem Reached.fragment_iff (key text : String) :
    s.fragment? key = some text ↔ (key, text) ∈ s.body.leaves := by
  have hpaths := h.imp fun _ => IsColumn.isPath
  constructor
  · intro htext
    have hmem := (hpaths.accounts.keys key).1 (Dict.mem_keys_of_get? htext)
    obtain ⟨leaf, hleaf, rfl⟩ := List.mem_map.1 hmem
    obtain rfl := Option.some.inj ((hpaths.lists hkeys leaf hleaf).symm.trans htext)
    exact hleaf
  · exact hpaths.lists hkeys (key, text)

variable (hapart : ∀ leaf ∈ s.body.leaves, ∀ other ∈ s.body.leaves, leaf ≠ other →
  ¬ Stands leaf.2.toList other.2.toList)

include hapart

theorem Reached.separate {c : Connective} {ts : List Tree} (ht : s.body = .built (.join c ts))
    (hoperands : ∀ o ∈ ts, o.Operand) : Separate ts := by
  have hleaves : s.body.leaves = Tree.leavesAll ts := by rw [ht]; rfl
  have hnodup := (h.imp fun _ => IsColumn.isPath).nodup_markersIn
  rw [hleaves] at hkeys hapart
  refine ⟨hoperands, hkeys, ?_, ?_, hapart⟩
  · intro leaf hleaf
    exact h.phrased (fun _ => IsColumn.isPath) leaf (hleaves ▸ hleaf)
  · rw [Statement.clause, ht, Body.clause, Tree.markersIn_render] at hnodup
    exact hnodup

/-- A statement that is reached and has lost its tree is projected to the same text as before, if
every key has one leaf and no fragment can be found in another one. -/
theorem project_flat (p : Projection) : s.flat.project p = s.project p := by
  have hpaths := h.imp fun _ => IsColumn.isPath
  rcases hpaths.tree_or_empty with ⟨t, ht⟩ | ⟨hraw, hnone⟩
  · obtain ⟨c, ts, rfl, -, hts⟩ := h.joined ht
    have hseparate := h.separate hkeys hapart ht hts
    have hclause : s.clause.toList = spell (Tree.join c ts).marks := by
      rw [Statement.clause, ht, Body.clause, Tree.toList_render]
    have hfragments : ∀ key ∈ p.dropped s.fragments.keys, ∀ text,
        s.fragment? key = some text ↔ (key, text) ∈ Tree.leavesAll ts := by
      intro key _ text
      rw [h.fragment_iff hkeys, ht]
      rfl
    have hproject : s.project p =
        (((Tree.join c ts).retain (· ∉ p.dropped s.fragments.keys)).map Tree.render).getD "" :=
      Statement.project_built ht (h.joined ht).whole p fun _ _ => decide_eq_true_iff
    rw [hproject, Tree.map_render_retain, Statement.project_flat_eq, hclause,
      hseparate.removeAll_eq c (p.nodup_dropped _) hfragments]
  · have hflat : s.flat.body = .raw "" := by
      change Body.raw s.body.clause = _
      rw [hraw]
      rfl
    rw [Statement.project_empty hraw hnone, Statement.project_empty hflat hnone]

end Flat

def notes : List Filter := [⟨"note", .null true, .null⟩]

theorem project_flat_orders : ∃ s t, Statement.ofFilters .or orders = .ok s ∧
    Statement.ofFilters .and notes = .ok t ∧ (∀ f ∈ orders ++ notes, IsColumn f.path) ∧
    ((merge .and [s, t]).body.leaves.map Prod.fst).Nodup ∧
    (∀ leaf ∈ (merge .and [s, t]).body.leaves, ∀ other ∈ (merge .and [s, t]).body.leaves,
      leaf ≠ other → ¬ Stands leaf.2.toList other.2.toList) ∧
    (merge .and [s, t]).flat.project (.except ["total"]) =
      "(shop.id = :shop_id) AND (note IS NOT NULL)" := by
  have hpath : ∀ f ∈ orders ++ notes, IsColumn f.path := by decide +kernel
  obtain ⟨s, hs⟩ := (exists_ofFilters_iff (c := .or)).2 (by decide : ∀ f ∈ orders, f.fits = true)
  obtain ⟨t, ht⟩ := (exists_ofFilters_iff (c := .and)).2 (by decide : ∀ f ∈ notes, f.fits = true)
  have hboth : ∀ p ∈ [(s, orders), (t, notes)], Reached IsColumn p.1 p.2 := by
    simpa using ⟨.filters (fun f hf => hpath f (by simp [hf])) hs,
      .filters (fun f hf => hpath f (by simp [hf])) ht⟩
  have hreached := Reached.merged .and hboth
  have hrun : ((Statement.ofFilters .or orders).toOption.bind fun s =>
      (Statement.ofFilters .and notes).toOption.map fun t =>
        ((merge .and [s, t]).body.leaves, (merge .and [s, t]).project (.except ["total"]))) =
      some ([("shop_id", "shop.id = :shop_id"),
        ("total", "total >= :total_1 AND total <= :total_2"), ("note", "note IS NOT NULL")],
        "(shop.id = :shop_id) AND (note IS NOT NULL)") := by decide +kernel
  rw [hs, ht] at hrun
  obtain ⟨hleaves, htext⟩ := Prod.mk.inj (Option.some.inj hrun)
  have hkeys : ((merge .and [s, t]).body.leaves.map Prod.fst).Nodup := by
    rw [hleaves]
    decide
  have hapart : ∀ leaf ∈ (merge .and [s, t]).body.leaves,
      ∀ other ∈ (merge .and [s, t]).body.leaves, leaf ≠ other →
        ¬ Stands leaf.2.toList other.2.toList := by
    rw [hleaves]
    decide +kernel
  exact ⟨s, t, hs, ht, hpath, hkeys, hapart, (project_flat hreached hkeys hapart _).trans htext⟩

def bounds : List Filter × List Filter :=
  ([⟨"age", .compare .greater, .nat 1⟩], [⟨"age", .compare .less, .nat 9⟩])

/-- Fragments that a merge joined do not stand in the clause as they were joined, so a copy without
the tree still shows the conditions that the statement itself leaves out. -/
theorem project_flat_bounds : ∃ low high, Statement.ofFilters .and bounds.1 = .ok low ∧
    Statement.ofFilters .and bounds.2 = .ok high ∧
    (merge .and [low, high]).project (.except ["age"]) = "" ∧
    (merge .and [low, high]).flat.project (.except ["age"]) =
      "(age > :age) AND (age < :age_1)" := by
  obtain ⟨low, hlow⟩ :=
    (exists_ofFilters_iff (c := .and)).2 (by decide : ∀ f ∈ bounds.1, f.fits = true)
  obtain ⟨high, hhigh⟩ :=
    (exists_ofFilters_iff (c := .and)).2 (by decide : ∀ f ∈ bounds.2, f.fits = true)
  have htexts : ((Statement.ofFilters .and bounds.1).toOption.bind fun low =>
      (Statement.ofFilters .and bounds.2).toOption.map fun high =>
        ((merge .and [low, high]).project (.except ["age"]),
          (merge .and [low, high]).flat.project (.except ["age"]))) =
      some ("", "(age > :age) AND (age < :age_1)") := by decide +kernel
  rw [hlow, hhigh] at htexts
  obtain ⟨htree, hflat⟩ := Prod.mk.inj (Option.some.inj htexts)
  exact ⟨low, high, hlow, hhigh, htree, hflat⟩

end ClauseWeave
