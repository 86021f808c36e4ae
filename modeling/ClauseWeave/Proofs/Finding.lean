import ClauseWeave.Clause.Removal
import ClauseWeave.Template.Placeholder
import Mathlib.Data.List.Infix
import Mathlib.Order.WellFounded

namespace ClauseWeave.Removal

open Text

theorem touchesWord_eq_false_iff {s : List Char} :
    touchesWord s = false ↔ ∀ c ∈ s.head?, isNameChar c = false := by
  cases s <;> simp [touchesWord]

namespace Cut

structure Free (place : Cut) : Prop where
  before : ∀ c ∈ place.before.head?, isNameChar c = false
  after : ∀ c ∈ place.after.head?, isNameChar c = false

theorem free_iff {place : Cut} :
    place.Free ↔ (!touchesWord place.before && !touchesWord place.after) = true := by
  rw [Bool.and_eq_true, Bool.not_eq_true', Bool.not_eq_true', touchesWord_eq_false_iff,
    touchesWord_eq_false_iff]
  exact ⟨fun h => ⟨h.before, h.after⟩, fun h => ⟨h.1, h.2⟩⟩

/-- The bytes in front of the cut. -/
def offset (place : Cut) : Nat := byteSize place.before.reverse

end Cut

/-- Between what has been read and what has not, the places of the needle that the search meets. -/
inductive Met (needle : List Char) : List Char → List Char → Cut → Prop
  | here (before after : List Char) : Met needle before (needle ++ after) ⟨before, after⟩
  | behind {before after : List Char} {place : Cut}
      (h : Met needle (needle.reverse ++ before) after place) :
      Met needle before (needle ++ after) place
  | further {before rest : List Char} {c : Char} {place : Cut} (hnot : ¬ needle <+: c :: rest)
      (h : Met needle (c :: before) rest place) : Met needle before (c :: rest) place

section Search

variable {needle before after rest s : List Char} {c : Char} {place : Cut}

theorem Met.text (h : Met needle before s place) :
    before.reverse ++ s = place.before.reverse ++ (needle ++ place.after) := by
  induction h with
  | here => rfl
  | behind _ ih => rw [← ih]; simp
  | further _ _ ih => rw [← ih]; simp

theorem Met.suffix (h : Met needle before s place) : before <:+ place.before := by
  induction h with
  | here => exact List.suffix_refl _
  | behind _ ih => exact (List.suffix_append _ _).trans ih
  | further _ _ ih => exact (List.suffix_cons _ _).trans ih

theorem Met.length_le (h : Met needle before s place) : needle.length ≤ s.length := by
  induction h with
  | here | behind => simp
  | further _ _ ih => exact Nat.le_succ_of_le ih

theorem after?_eq_none_iff {start s : List Char} : after? start s = none ↔ ¬ start <+: s := by
  rw [Option.eq_none_iff_forall_ne_some]
  simp only [Ne, after?_eq_some_iff]
  exact ⟨fun h ⟨t, ht⟩ => h t ht.symm, fun h t ht => h ⟨t, ht.symm⟩⟩

theorem search_append (hne : needle ≠ []) (before after : List Char) :
    search needle before (needle ++ after) =
      if !touchesWord before && !touchesWord after then some ⟨before, after⟩
      else search needle (needle.reverse ++ before) after := by
  obtain ⟨c, rest, rfl⟩ := List.exists_cons_of_ne_nil hne
  have hafter := after?_eq_some_iff.2 (rfl : (c :: rest) ++ after = (c :: rest) ++ after)
  rw [List.cons_append] at hafter
  have hshorter : after.length < rest.length + after.length + 1 := by omega
  rw [List.cons_append, search.eq_def]
  simp [hafter, hshorter]

theorem search_cons (hnot : ¬ needle <+: c :: rest) (before : List Char) :
    search needle before (c :: rest) = search needle (c :: before) rest := by
  rw [search.eq_def]
  simp [after?_eq_none_iff.2 hnot]

theorem met_of_search (h : search needle before s = some place) :
    Met needle before s place ∧ place.Free := by
  fun_induction search needle before s with
  | case1 => simp at h
  | case2 before c rest after hafter hfree =>
      obtain rfl := Option.some.inj h
      rw [after?_eq_some_iff.1 hafter]
      exact ⟨.here before after, Cut.free_iff.2 hfree⟩
  | case3 before c rest after hafter _ _ ih =>
      simp only [List.unattach_reverse, List.unattach_attach] at ih
      rw [after?_eq_some_iff.1 hafter]
      exact ⟨.behind (ih h).1, (ih h).2⟩
  | case4 => simp at h
  | case5 before c rest hnone ih => exact ⟨.further (after?_eq_none_iff.1 hnone) (ih h).1, (ih h).2⟩

theorem offset_le_of_suffix {u v : Cut} (h : u.before <:+ v.before) : u.offset ≤ v.offset := by
  obtain ⟨t, ht⟩ := h
  rw [Cut.offset, Cut.offset, ← ht, List.reverse_append, byteSize_append]
  exact Nat.le_add_right _ _

theorem Met.exists_search (hne : needle ≠ []) (h : Met needle before s place)
    (hfree : place.Free) :
    ∃ found, search needle before s = some found ∧ found.offset ≤ place.offset := by
  induction h with
  | here before after =>
      exact ⟨_, (search_append hne before after).trans (if_pos (Cut.free_iff.1 hfree)), le_rfl⟩
  | @behind before after place h ih =>
      rw [search_append hne]
      split
      next =>
        refine ⟨_, rfl, offset_le_of_suffix ?_⟩
        exact (List.suffix_append _ _).trans h.suffix
      next => exact ih hfree
  | further hnot _ ih =>
      rw [search_cons hnot]
      exact ih hfree

/-- No place that begins in front of the needle reaches into it. -/
def Apart (needle front after : List Char) : Prop :=
  ∀ u v, front ++ (needle ++ after) = u ++ (needle ++ v) → u.length < front.length →
    u.length + needle.length ≤ front.length

theorem Apart.of_append {read front : List Char} (h : Apart needle (read ++ front) after) :
    Apart needle front after := by
  intro u v he hlt
  have hends := h (read ++ u) v (by simp [he]) (by simpa using hlt)
  simp only [List.length_append] at hends
  omega

theorem Apart.met (hne : needle ≠ []) {front : List Char} (h : Apart needle front after) :
    Met needle before (front ++ (needle ++ after)) ⟨front.reverse ++ before, after⟩ := by
  -- On the length of what stands in front; a place that begins it also ends in it.
  induction hlength : front.length using Nat.strong_induction_on generalizing front before with
  | _ n ih =>
    cases front with
    | nil => exact .here before after
    | cons c front =>
        by_cases hstart : needle <+: c :: front ++ (needle ++ after)
        · obtain ⟨v, hv⟩ := hstart
          have hends := h [] v hv.symm (by simp)
          obtain ⟨rest, hrest⟩ := List.prefix_of_prefix_length_le ⟨v, hv⟩
            (List.prefix_append (c :: front) _) (by simpa using hends)
          have hpos := List.length_pos_iff.2 hne
          rw [← hrest, List.length_append] at hlength
          rw [← hrest] at h ⊢
          have hmet : Met needle (needle.reverse ++ before) (rest ++ (needle ++ after))
              ⟨rest.reverse ++ (needle.reverse ++ before), after⟩ :=
            ih rest.length (by omega) h.of_append rfl
          simpa using Met.behind hmet
        · have hrest : Apart needle ([c] ++ front) after := h
          have hmet : Met needle (c :: before) (front ++ (needle ++ after))
              ⟨front.reverse ++ c :: before, after⟩ :=
            ih front.length (by simp [← hlength]) hrest.of_append rfl
          simpa using Met.further hstart hmet

end Search

/-- A place of the needle in the clause that no word character touches. -/
structure FreePlace (clause needle : List Char) (place : Cut) : Prop extends place.Free where
  text : clause = place.before.reverse ++ (needle ++ place.after)

structure First (P : Cut → Prop) (place : Cut) : Prop where
  holds : P place
  le : ∀ other, P other → place.offset ≤ other.offset

theorem exists_first {P : Cut → Prop} (h : ∃ place, P place) : ∃ place, First P place := by
  obtain ⟨place, hplace, hmin⟩ := (measure Cut.offset).wf.has_min {p | P p} h
  exact ⟨place, hplace, fun other hother => Nat.not_lt.1 (hmin other hother)⟩

section Place

variable {clause needle : List Char} {place other : Cut}

theorem FreePlace.eq_of_offset_eq (h : FreePlace clause needle place)
    (h' : FreePlace clause needle other) (he : place.offset = other.offset) : place = other := by
  obtain ⟨hbefore, hrest⟩ := eq_of_byteSize_eq (h.text.symm.trans h'.text) he
  have hafter := List.append_cancel_left hrest
  rw [List.reverse_inj] at hbefore
  cases place
  cases other
  congr

theorem FreePlace.met_of_apart (h : FreePlace clause needle place) (hne : needle ≠ [])
    (hapart : Apart needle place.before.reverse place.after) : Met needle [] clause place := by
  have hmet : Met needle [] (place.before.reverse ++ (needle ++ place.after))
      ⟨place.before.reverse.reverse ++ [], place.after⟩ := hapart.met hne
  rw [h.text]
  simpa using hmet

theorem length_lt_of_offset_lt {s t : List Char}
    (h : place.before.reverse ++ s = other.before.reverse ++ t) (hlt : place.offset < other.offset) :
    place.before.length < other.before.length := by
  by_contra hle
  have hprefix : other.before.reverse <+: place.before.reverse :=
    List.prefix_of_prefix_length_le ⟨t, h.symm⟩ (List.prefix_append _ _) (by simpa using hle)
  exact absurd hlt (Nat.not_lt.2 (offset_le_of_suffix (List.reverse_prefix.1 hprefix)))

theorem First.unique {P : Cut → Prop} (hP : ∀ p, P p → FreePlace clause needle p)
    (h : First P place) (h' : First P other) : place = other :=
  (hP _ h.holds).eq_of_offset_eq (hP _ h'.holds) (Nat.le_antisymm (h.le _ h'.holds) (h'.le _ h.holds))

/-- A free place that the search meets on its way through the clause. -/
structure MetFree (clause needle : List Char) (place : Cut) : Prop
    extends FreePlace clause needle place where
  met : Met needle [] clause place

theorem metFree_of_search (h : search needle [] clause = some place) :
    MetFree clause needle place := by
  obtain ⟨hmet, hfree⟩ := met_of_search h
  exact ⟨⟨hfree, by simpa using hmet.text⟩, hmet⟩

theorem find?_sound (h : find? clause needle = some place) : FreePlace clause needle place := by
  unfold find? at h
  split at h
  next => simp at h
  next => exact (metFree_of_search h).toFreePlace

variable (hne : needle ≠ [])

include hne

theorem find?_eq_search : find? clause needle = search needle [] clause := by
  rw [find?, if_neg (by simpa using hne)]

theorem find?_eq_none_iff : find? clause needle = none ↔ ∀ place, ¬ MetFree clause needle place := by
  rw [find?_eq_search hne]
  constructor
  · intro h place hplace
    obtain ⟨found, hfound, -⟩ := hplace.met.exists_search hne hplace.toFree
    simp [h] at hfound
  · intro h
    rw [Option.eq_none_iff_forall_ne_some]
    exact fun place hplace => h place (metFree_of_search hplace)

/-- The search finds the first one of the free places that it meets. -/
theorem find?_eq_some_iff :
    find? clause needle = some place ↔ First (MetFree clause needle) place := by
  have hfirst {found : Cut} (h : find? clause needle = some found) :
      First (MetFree clause needle) found := by
    rw [find?_eq_search hne] at h
    refine ⟨metFree_of_search h, fun other hother => ?_⟩
    obtain ⟨found', hfound, hle⟩ := hother.met.exists_search hne hother.toFree
    rw [h, Option.some.injEq] at hfound
    exact hfound ▸ hle
  refine ⟨hfirst, fun h => ?_⟩
  cases hfound : find? clause needle with
  | none => exact absurd h.holds ((find?_eq_none_iff hne).1 hfound place)
  | some found => rw [(hfirst hfound).unique (fun _ => MetFree.toFreePlace) h]

theorem find?_eq_some_of_earlier {u v : List Char}
    (hfree : touchesWord u.reverse = false ∧ touchesWord v = false)
    (hearlier : ∀ u' v', u ++ needle ++ v = u' ++ needle ++ v' → u'.length < u.length →
      u'.length + needle.length ≤ u.length ∧ (touchesWord u'.reverse || touchesWord v') = true) :
    find? (u ++ needle ++ v) needle = some ⟨u.reverse, v⟩ := by
  have hplace : FreePlace (u ++ needle ++ v) needle ⟨u.reverse, v⟩ :=
    ⟨⟨touchesWord_eq_false_iff.1 hfree.1, touchesWord_eq_false_iff.1 hfree.2⟩, by simp⟩
  have hapart : Apart needle u.reverse.reverse v := by
    rw [List.reverse_reverse]
    exact fun u' v' h hlt => (hearlier u' v' (by simpa using h) hlt).1
  rw [find?_eq_some_iff hne]
  refine ⟨⟨hplace, hplace.met_of_apart hne hapart⟩, fun other hother => ?_⟩
  by_contra hlt
  have hlength : other.before.reverse.length < u.length := by
    simpa using length_lt_of_offset_lt (hother.text.symm.trans hplace.text) (Nat.lt_of_not_le hlt)
  have htouched := (hearlier other.before.reverse other.after (by simpa using hother.text) hlength).2
  rw [List.reverse_reverse, touchesWord_eq_false_iff.2 hother.before,
    touchesWord_eq_false_iff.2 hother.after] at htouched
  simp at htouched

end Place

/-- The first free place is found, and nothing is found only where there is none. -/
structure FindsFirst (clause needle : List Char) : Prop where
  some_iff : ∀ place, find? clause needle = some place ↔ First (FreePlace clause needle) place
  none_iff : find? clause needle = none ↔ ∀ place, ¬ FreePlace clause needle place

theorem findsFirst_iff_met {clause needle : List Char} (hne : needle ≠ []) :
    FindsFirst clause needle ↔
      ∀ place, First (FreePlace clause needle) place → Met needle [] clause place := by
  constructor
  · intro h place hplace
    exact ((find?_eq_some_iff hne).1 ((h.some_iff place).2 hplace)).holds.met
  · intro hmet
    have hiff (place : Cut) :
        First (MetFree clause needle) place ↔ First (FreePlace clause needle) place := by
      constructor
      · intro h
        obtain ⟨first, hfirst⟩ := exists_first ⟨place, h.holds.toFreePlace⟩
        have hmetFirst : First (MetFree clause needle) first :=
          ⟨⟨hfirst.holds, hmet first hfirst⟩, fun other hother =>
            hfirst.le other hother.toFreePlace⟩
        rwa [h.unique (fun _ => MetFree.toFreePlace) hmetFirst]
      · intro h
        exact ⟨⟨h.holds, hmet place h⟩, fun other hother => h.le other hother.toFreePlace⟩
    refine ⟨fun place => (find?_eq_some_iff hne).trans (hiff place), ?_⟩
    rw [find?_eq_none_iff hne]
    constructor
    · intro hnone place hplace
      obtain ⟨first, hfirst⟩ := exists_first ⟨place, hplace⟩
      exact hnone first ((hiff first).2 hfirst).holds
    · exact fun hnone place hplace => hnone place hplace.toFreePlace

/-- The text begins with its own end, and no word character stands in front of that end. -/
def OverlapsFreely (s : List Char) : Prop :=
  ∃ front c back, s = front ++ c :: back ∧ isNameChar c = false ∧ back ≠ [] ∧ back <+: s

instance : DecidablePred OverlapsFreely := fun s =>
  decidable_of_iff (∃ t ∈ s.tails, t.head?.any (fun c => !isNameChar c) = true ∧ t.tail ≠ [] ∧
      t.tail <+: s) <| by
    simp only [Option.any_eq_true, Bool.not_eq_true']
    constructor
    · rintro ⟨t, ht, ⟨c, hc, hchar⟩, hne, hprefix⟩
      obtain ⟨front, hfront⟩ := (List.mem_tails _ _).1 ht
      obtain ⟨back, rfl⟩ := List.head?_eq_some_iff.1 hc
      exact ⟨front, c, back, hfront.symm, hchar, hne, hprefix⟩
    · rintro ⟨front, c, back, hs, hchar, hne, hprefix⟩
      exact ⟨c :: back, (List.mem_tails _ _).2 ⟨front, hs.symm⟩, ⟨c, rfl, hchar⟩, hne, hprefix⟩

theorem overlapsFreely_of_reaches {needle front after u v : List Char}
    (hfree : ∀ c ∈ front.reverse.head?, isNameChar c = false)
    (h : front ++ (needle ++ after) = u ++ (needle ++ v)) (hlt : u.length < front.length)
    (hreaches : front.length < u.length + needle.length) : OverlapsFreely needle := by
  rcases List.append_eq_append_iff.1 h with ⟨y, rfl, -⟩ | ⟨y, rfl, hrest⟩
  · rw [List.length_append] at hlt
    omega
  · rw [List.length_append] at hlt hreaches
    rcases List.append_eq_append_iff.1 hrest with ⟨z, rfl, -⟩ | ⟨z, hneedle, hz⟩
    · rw [List.length_append] at hreaches
      omega
    · have hsize := congrArg List.length hneedle
      rw [List.length_append] at hsize
      have hne : z ≠ [] := by
        rintro rfl
        rw [List.length_nil] at hsize
        omega
      have hprefix : z <+: needle :=
        List.prefix_of_prefix_length_le ⟨v, hz.symm⟩ (List.prefix_append needle after) (by omega)
      rcases List.eq_nil_or_concat y with rfl | ⟨y, c, rfl⟩
      · simp at hlt
      · rw [List.concat_eq_append] at hneedle hfree
        exact ⟨y, c, z, by simpa using hneedle, hfree c (by simp), hne, hprefix⟩

theorem FreePlace.met {clause needle : List Char} {place : Cut} (hne : needle ≠ [])
    (hoverlaps : ¬ OverlapsFreely needle) (h : FreePlace clause needle place) :
    Met needle [] clause place := by
  refine h.met_of_apart hne fun u v he hlt => ?_
  by_contra hreaches
  exact hoverlaps (overlapsFreely_of_reaches (by simpa using h.before) he hlt (by omega))

theorem exists_not_findsFirst {needle : List Char} (h : OverlapsFreely needle) :
    ∃ clause, ¬ FindsFirst clause needle := by
  obtain ⟨front, c, back, hneedle, hchar, hback, rest, hrest⟩ := h
  have hne : needle ≠ [] := by simp [hneedle]
  obtain ⟨letter, hletter, hhead⟩ : ∃ letter, isNameChar letter = true ∧
      ¬ needle <+: letter :: (needle ++ rest) := by
    obtain ⟨d, tail, rfl⟩ := List.exists_cons_of_ne_nil hne
    by_cases hd : d = 'x'
    · exact ⟨'y', by decide, by simp [hd]⟩
    · exact ⟨'x', by decide, by simp [hd]⟩
  have hfree : FreePlace (letter :: (needle ++ rest)) needle
      ⟨(letter :: (front ++ [c])).reverse, []⟩ := by
    refine ⟨⟨by simp [hchar], by simp⟩, ?_⟩
    conv_lhs => rw [hneedle]
    simp [hrest]
  have hshort : search needle (needle.reverse ++ [letter]) rest = none := by
    rw [Option.eq_none_iff_forall_ne_some]
    intro found hfound
    have hle := (met_of_search hfound).1.length_le
    have hsize := congrArg List.length hrest
    have hpos := List.length_pos_iff.2 hback
    rw [List.length_append] at hsize
    omega
  refine ⟨letter :: (needle ++ rest), fun h => h.none_iff.1 ?_ _ hfree⟩
  rw [find?_eq_search hne, search_cons hhead, search_append hne, if_neg, hshort]
  simp [touchesWord, hletter]

/-- The search finds the first one of the free places that it meets, and nothing if it meets none.
This is the first free place of all if and only if the search meets that one. So it is in every
clause if and only if the text nowhere overlaps itself without a word character in front. -/
theorem first_place_found_iff {needle : List Char} (hne : needle ≠ []) :
    (∀ clause, (∀ place, find? clause needle = some place ↔ First (MetFree clause needle) place) ∧
      (find? clause needle = none ↔ ∀ place, ¬ MetFree clause needle place)) ∧
    (∀ clause, FindsFirst clause needle ↔
      ∀ place, First (FreePlace clause needle) place → Met needle [] clause place) ∧
    ((∀ clause, FindsFirst clause needle) ↔ ¬ OverlapsFreely needle) := by
  refine ⟨fun clause => ⟨fun place => find?_eq_some_iff hne, find?_eq_none_iff hne⟩,
    fun clause => findsFirst_iff_met hne, ?_, ?_⟩
  · intro hall hoverlaps
    obtain ⟨clause, hclause⟩ := exists_not_findsFirst hoverlaps
    exact hclause (hall clause)
  · intro hoverlaps clause
    exact (findsFirst_iff_met hne).2 fun place hplace => hplace.holds.met hne hoverlaps

theorem first_place_found_iff_age : "age > :min".toList ≠ [] ∧
    ∀ clause, FindsFirst clause "age > :min".toList := by
  have hne : "age > :min".toList ≠ [] := by decide
  exact ⟨hne, (first_place_found_iff hne).2.2.2 (by decide +kernel)⟩

/-- The text is met within a longer word, and its own place begins before that one ends. -/
theorem first_place_not_found_active :
    FreePlace "inactive OR active OR active".toList "active OR active".toList
        ⟨"inactive OR ".toList.reverse, []⟩ ∧
      find? "inactive OR active OR active".toList "active OR active".toList = none ∧
      removeAll "inactive OR active OR active".toList ["active OR active".toList] =
        "inactive OR active OR active".toList := by
  refine ⟨⟨⟨?_, by simp⟩, by decide⟩, by decide +kernel, by decide +kernel⟩
  rintro _ ⟨⟩
  decide

example : (find? "éa = :a AND a = :a".toList "a = :a".toList).map Cut.offset = some 13 := by
  decide +kernel

end ClauseWeave.Removal
