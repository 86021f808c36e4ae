import ClauseWeave.Proofs.Finding
import ClauseWeave.Proofs.Grouping
import ClauseWeave.Proofs.Tidiness

namespace ClauseWeave

/-- How many parentheses are open behind a character; nothing if it closes one too many. -/
def openBehind? (n : Nat) (c : Char) : Option Nat :=
  if c = '(' then some (n + 1)
  else if c = ')' then if n = 0 then none else some (n - 1)
  else some n

def openAfter? (s : List Char) (n : Nat) : Option Nat := s.foldlM openBehind? n

theorem openAfter?_nil : openAfter? [] = some := rfl

theorem openAfter?_append (s t : List Char) :
    openAfter? (s ++ t) = fun n => (openAfter? s n).bind (openAfter? t) := by
  funext n
  exact List.foldlM_append ..

theorem openAfter?_cons (c : Char) (s : List Char) (n : Nat) :
    openAfter? (c :: s) n = (openBehind? n c).bind (openAfter? s) := rfl

theorem openAfter?_eq_some_iff {s : List Char} {n m : Nat} : openAfter? s n = some m ↔
    (∀ k, (s.take k).count ')' ≤ n + (s.take k).count '(') ∧
      m + s.count ')' = n + s.count '(' := by
  induction s generalizing n with
  | nil => simp [openAfter?, eq_comm]
  | cons c s ih =>
      have hfirst (p : Nat → Prop) : (∀ k, p k) ↔ p 0 ∧ ∀ k, p (k + 1) :=
        ⟨fun h => ⟨h 0, fun k => h (k + 1)⟩, fun h k => by cases k <;> simp [h]⟩
      rw [hfirst, openAfter?_cons, openBehind?]
      simp only [List.take_zero, List.take_succ_cons, List.count_nil, Nat.zero_le, true_and]
      by_cases hopen : c = '('
      · subst hopen
        simp only [if_true, Option.bind_some, ih, List.count_cons]
        grind
      · by_cases hclose : c = ')'
        · subst hclose
          cases n with
          | zero =>
              constructor
              · intro h
                simp at h
              · rintro ⟨h, -⟩
                exact absurd (h 0) (by simp)
          | succ n =>
              simp only [hopen, Nat.add_one_ne_zero, if_false, if_true, Nat.add_one_sub_one,
                Option.bind_some, ih, List.count_cons]
              grind
        · simp [hopen, hclose, ih]

theorem balanced_iff {s : List Char} : Balanced s ↔ openAfter? s 0 = some 0 := by
  simp [openAfter?_eq_some_iff, Balanced, eq_comm]

instance : DecidablePred Balanced := fun _ => decidable_of_iff' _ balanced_iff

theorem Balanced.openAfter?_eq {s : List Char} (h : Balanced s) : openAfter? s = some := by
  funext n
  rw [openAfter?_eq_some_iff]
  exact ⟨fun k => (h.1 k).trans (Nat.le_add_left _ _), by rw [h.2]⟩

theorem Balanced.openAfter?_append {t : List Char} (h : Balanced t) (s u : List Char) :
    openAfter? (s ++ (t ++ u)) = openAfter? (s ++ u) := by
  rw [ClauseWeave.openAfter?_append, ClauseWeave.openAfter?_append, h.openAfter?_eq,
    ClauseWeave.openAfter?_append]
  rfl

def Flat (s : List Char) : Prop := ∀ c ∈ s, c ≠ '(' ∧ c ≠ ')'

namespace Flat

variable {s t : List Char}

theorem balanced (h : Flat s) : Balanced s :=
  .of_not_mem (fun hmem => (h _ hmem).1 rfl) fun hmem => (h _ hmem).2 rfl

theorem append (hs : Flat s) (ht : Flat t) : Flat (s ++ t) := fun c hc =>
  (List.mem_append.1 hc).elim (hs c) (ht c)

theorem reverse (h : Flat s) : Flat s.reverse := fun c hc => h c (List.mem_reverse.1 hc)

end Flat

namespace Tidy

open Text

/-- What a rule takes out of a text, and what it writes there. -/
inductive Replaces : List Char → List Char → Prop
  | emptyGroup {b : List Char} (hb : b.all isBlank = true) : Replaces ('(' :: (b ++ [')'])) []
  | loneConnective {b w b' : List Char} (hb : b.all isBlank = true) (hw : w ∈ Removal.connectives)
      (hb' : b'.all isBlank = true) : Replaces ('(' :: (b ++ (w ++ (b' ++ [')'])))) []
  | leadingConnective {b w b' : List Char} (hb : b.all isBlank = true)
      (hw : w ∈ Removal.connectives) (hb' : b'.all isBlank = true) :
      Replaces ('(' :: (b ++ (w ++ b'))) ['(']
  | trailingConnective {b w b' : List Char} (hb : b.all isBlank = true)
      (hw : w ∈ Removal.connectives) (hb' : b'.all isBlank = true) :
      Replaces (b ++ (w ++ (b' ++ [')']))) [')']
  | doubledConnective {w b w' : List Char} (hw : w ∈ Removal.connectives)
      (hb : b.all isBlank = true) (hw' : w' ∈ Removal.connectives) : Replaces (w ++ (b ++ w')) w
  | danglingConnective {b w b' : List Char} (hb : b.all isBlank = true)
      (hw : w ∈ Removal.connectives) (hb' : b'.all isBlank = true) :
      Replaces (b ++ (w ++ b')) []

theorem exists_blanks (s : List Char) : ∃ b, b.all isBlank = true ∧ s = b ++ trimStart s :=
  ⟨s.takeWhile isBlank, List.all_takeWhile, List.takeWhile_append_dropWhile.symm⟩

section Rules

variable {before : Option Char} {s written rest : List Char}

theorem exists_connective {w t : List Char} (h : connective? (trimStart s) = some (w, t)) :
    ∃ b, b.all isBlank = true ∧ w ∈ Removal.connectives ∧ s = b ++ (w ++ t) := by
  obtain ⟨b, hb, hs⟩ := exists_blanks s
  obtain ⟨hmem, htrim⟩ := connective?_eq_some h
  exact ⟨b, hb, hmem, htrim ▸ hs⟩

theorem replaces_emptyGroup (h : emptyGroup before s = some (written, rest)) :
    ∃ taken, s = taken ++ rest ∧ Replaces taken written := by
  unfold emptyGroup at h
  split at h
  next s =>
    split at h
    next tail hs =>
      obtain ⟨rfl, rfl⟩ := Prod.mk.inj (Option.some.inj h)
      obtain ⟨b, hb, he⟩ := exists_blanks s
      refine ⟨_, ?_, .emptyGroup hb⟩
      rw [he, hs]
      simp
    next => simp at h
  next => simp at h

theorem replaces_loneConnective (h : loneConnective before s = some (written, rest)) :
    ∃ taken, s = taken ++ rest ∧ Replaces taken written := by
  unfold loneConnective at h
  split at h
  next s =>
    split at h
    next w t hw =>
      split at h
      next tail ht =>
        obtain ⟨rfl, rfl⟩ := Prod.mk.inj (Option.some.inj h)
        obtain ⟨b, hb, hmem, rfl⟩ := exists_connective hw
        obtain ⟨b', hb', ht'⟩ := exists_blanks t
        refine ⟨_, ?_, .loneConnective hb hmem hb'⟩
        rw [ht', ht]
        simp
      next => simp at h
    next => simp at h
  next => simp at h

theorem replaces_leadingConnective (h : leadingConnective before s = some (written, rest)) :
    ∃ taken, s = taken ++ rest ∧ Replaces taken written := by
  unfold leadingConnective at h
  split at h
  next s =>
    split at h
    next w c t hw =>
      split at h
      next hc =>
        obtain ⟨rfl, rfl⟩ := Prod.mk.inj (Option.some.inj h)
        obtain ⟨b, hb, hmem, rfl⟩ := exists_connective hw
        obtain ⟨b', hb', ht⟩ := exists_blanks t
        have hblanks : (c :: b').all isBlank = true := by simp [hc, hb']
        refine ⟨_, ?_, .leadingConnective hb hmem hblanks⟩
        simpa using ht
      next => simp at h
    next => simp at h
  next => simp at h

theorem replaces_trailingConnective (h : trailingConnective before s = some (written, rest)) :
    ∃ taken, s = taken ++ rest ∧ Replaces taken written := by
  unfold trailingConnective at h
  split at h
  next c s =>
    split at h
    next hc =>
      split at h
      next w t hw =>
        split at h
        next tail ht =>
          obtain ⟨rfl, rfl⟩ := Prod.mk.inj (Option.some.inj h)
          obtain ⟨b, hb, hmem, rfl⟩ := exists_connective hw
          obtain ⟨b', hb', ht'⟩ := exists_blanks t
          have hblanks : (c :: b).all isBlank = true := by simp [hc, hb]
          refine ⟨_, ?_, .trailingConnective hblanks hmem hb'⟩
          rw [ht', ht]
          simp
        next => simp at h
      next => simp at h
    next => simp at h
  next => simp at h

theorem replaces_doubledConnective (h : doubledConnective before s = some (written, rest)) :
    ∃ taken, s = taken ++ rest ∧ Replaces taken written := by
  unfold doubledConnective at h
  split at h
  next => simp at h
  next =>
    split at h
    next w c t hw =>
      split at h
      next hc =>
        split at h
        next w' t' hw' =>
          split at h
          next =>
            obtain ⟨rfl, rfl⟩ := Prod.mk.inj (Option.some.inj h)
            obtain ⟨hmem, rfl⟩ := connective?_eq_some hw
            obtain ⟨b, hb, hmem', rfl⟩ := exists_connective hw'
            have hblanks : (c :: b).all isBlank = true := by simp [hc, hb]
            exact ⟨_, by simp, .doubledConnective hmem hblanks hmem'⟩
          next => simp at h
        next => simp at h
      next => simp at h
    next => simp at h

theorem replaces_openingConnective (h : openingConnective before s = some (written, rest)) :
    ∃ taken, s = taken ++ rest ∧ Replaces taken written := by
  unfold openingConnective at h
  split at h
  next => simp at h
  next =>
    split at h
    next w t hw =>
      split at h
      next =>
        obtain ⟨rfl, rfl⟩ := Prod.mk.inj (Option.some.inj h)
        obtain ⟨b, hb, hmem, rfl⟩ := exists_connective hw
        obtain ⟨b', hb', ht⟩ := exists_blanks t
        refine ⟨_, ?_, .danglingConnective hb hmem hb'⟩
        rw [List.append_assoc, List.append_assoc, ← ht]
      next => simp at h
    next => simp at h

theorem replaces_closingConnective (h : closingConnective before s = some (written, rest)) :
    ∃ taken, s = taken ++ rest ∧ Replaces taken written := by
  simp only [closingConnective] at h
  split at h
  next => simp at h
  next =>
    split at h
    next w t hw =>
      split at h
      next hempty =>
        obtain ⟨rfl, rfl⟩ := Prod.mk.inj (Option.some.inj h)
        obtain ⟨b, hb, hmem, rfl⟩ := exists_connective hw
        obtain ⟨b', hb', ht⟩ := exists_blanks t
        refine ⟨_, ?_, .danglingConnective hb hmem hb'⟩
        rw [List.isEmpty_iff.1 hempty, List.append_nil] at ht
        rw [List.append_nil, ← ht]
      next => simp at h
    next => simp at h

theorem replaces_of_rule {rule : Rule} (hrule : rule ∈ rules)
    (h : rule before s = some (written, rest)) :
    ∃ taken, s = taken ++ rest ∧ Replaces taken written := by
  simp only [rules, List.mem_cons, List.not_mem_nil, or_false] at hrule
  rcases hrule with rfl | rfl | rfl | rfl | rfl | rfl | rfl
  · exact replaces_emptyGroup h
  · exact replaces_loneConnective h
  · exact replaces_leadingConnective h
  · exact replaces_trailingConnective h
  · exact replaces_doubledConnective h
  · exact replaces_openingConnective h
  · exact replaces_closingConnective h

end Rules

theorem flat_of_blanks {b : List Char} (h : b.all isBlank = true) : Flat b := by
  intro c hc
  have hblank := List.all_eq_true.1 h c hc
  constructor
  · rintro rfl
    exact absurd hblank (by decide)
  · rintro rfl
    exact absurd hblank (by decide)

theorem flat_of_mem_connectives {w : List Char} (h : w ∈ Removal.connectives) : Flat w := by
  simp only [Removal.connectives, List.mem_cons, List.not_mem_nil, or_false] at h
  rcases h with rfl | rfl <;> simp [Flat]

theorem Replaces.openAfter?_eq {taken written : List Char} (h : Replaces taken written) :
    openAfter? taken = openAfter? written := by
  have hblanks {b : List Char} (hb : b.all isBlank = true) := (flat_of_blanks hb).balanced.openAfter?_eq
  have hword {w : List Char} (hw : w ∈ Removal.connectives) :=
    (flat_of_mem_connectives hw).balanced.openAfter?_eq
  funext n
  cases h with
  | emptyGroup hb => simp [openAfter?_cons, openAfter?_append, hblanks hb, openBehind?, openAfter?_nil]
  | loneConnective hb hw hb' =>
      simp [openAfter?_cons, openAfter?_append, hblanks hb, hword hw, hblanks hb', openBehind?,
        openAfter?_nil]
  | leadingConnective hb hw hb' =>
      simp [openAfter?_cons, openAfter?_append, hblanks hb, hword hw, hblanks hb', openAfter?_nil]
  | trailingConnective hb hw hb' =>
      simp [openAfter?_append, hblanks hb, hword hw, hblanks hb']
  | doubledConnective hw hb hw' => simp [openAfter?_append, hblanks hb, hword hw, hword hw']
  | danglingConnective hb hw hb' =>
      simp [openAfter?_append, hblanks hb, hword hw, hblanks hb', openAfter?_nil]

theorem openAfter?_applyRule {rule : Rule} (hrule : rule ∈ rules) (before : Option Char)
    (s : List Char) : openAfter? (applyRule rule before s) = openAfter? s := by
  fun_induction applyRule rule before s with
  | case1 => rfl
  | case2 before c s written rest hsome hlt last ih =>
      obtain ⟨taken, hs, htaken⟩ := replaces_of_rule hrule hsome
      rw [hs, openAfter?_append, openAfter?_append, ih, htaken.openAfter?_eq]
  | case3 before c s written rest _ _ ih =>
      funext n
      rw [openAfter?_cons, openAfter?_cons, ih]
  | case4 before c s _ ih =>
      funext n
      rw [openAfter?_cons, openAfter?_cons, ih]

theorem openAfter?_intercalate (words : List (List Char)) :
    openAfter? ([' '].intercalate words) = openAfter? words.flatten := by
  have hspace : openAfter? [' '] = some := (Balanced.of_not_mem (by simp) (by simp)).openAfter?_eq
  induction words with
  | nil => rfl
  | cons word rest ih =>
      cases rest with
      | nil => simp
      | cons next rest =>
          rw [List.intercalate_cons_cons, List.flatten_cons, openAfter?_append, openAfter?_append,
            openAfter?_append, ih, hspace]
          simp

theorem openAfter?_collapse (s : List Char) : openAfter? (collapse s) = openAfter? s := by
  rw [collapse, openAfter?_intercalate]
  induction s using word_induction with
  | word w hw =>
      rw [words_word hw]
      split
      next he => rw [he, List.flatten_nil]
      next => simp
  | blank s b t hb hs ht =>
      have hblank : openAfter? [b] = some :=
        (flat_of_blanks (by simpa using hb)).balanced.openAfter?_eq
      rw [words_append_blank hb, List.flatten_append, openAfter?_append, hs, ht,
        ← List.singleton_append, openAfter?_append, openAfter?_append, hblank]
      rfl

theorem openAfter?_round (s : List Char) : openAfter? (round s) = openAfter? s := by
  have hrun (some : List Rule) (hsome : some ⊆ rules) (s : List Char) :
      openAfter? (some.foldl (fun s rule => applyRule rule none s) s) = openAfter? s := by
    induction some generalizing s with
    | nil => rfl
    | cons rule rest ih =>
        rw [List.foldl_cons, ih fun rule hrule => hsome (by simp [hrule])]
        exact openAfter?_applyRule (hsome (by simp)) none s
  rw [round, openAfter?_collapse, hrun rules (List.Subset.refl _)]

theorem openAfter?_tidy (s : List Char) : openAfter? (tidy s) = openAfter? s := by
  have hsettle (s : List Char) : openAfter? (settle s) = openAfter? s := by
    fun_induction settle s with
    | case1 s _ ih => rw [ih, openAfter?_round]
    | case2 s _ => exact openAfter?_round s
  rw [tidy, hsettle, openAfter?_collapse]

end Tidy

namespace Removal

open Text

def Cut.rest (cut : Cut) : List Char := cut.before.reverse ++ cut.after

theorem openAfter?_absorb (before after : List Char) :
    openAfter? (absorb before after).rest = openAfter? (before.reverse ++ after) := by
  fun_induction absorb before after with
  | case1 before after b a hb ha ih =>
      obtain ⟨blanks, hblanks, hbefore⟩ := Tidy.exists_blanks before
      obtain ⟨blanks', hblanks', hafter⟩ := Tidy.exists_blanks after
      rw [hb] at hbefore
      rw [ha] at hafter
      have hgroup : Balanced ('(' :: (blanks.reverse ++ blanks') ++ [')']) :=
        ((Tidy.flat_of_blanks (by simpa using hblanks)).balanced.append
          (Tidy.flat_of_blanks hblanks').balanced).paren
      have hsplit : before.reverse ++ after =
          b.reverse ++ ('(' :: (blanks.reverse ++ blanks') ++ [')'] ++ a) := by
        rw [hbefore, hafter]
        simp
      rw [ih, hsplit, hgroup.openAfter?_append]
  | case2 => rfl

theorem exists_taken_before {before head : List Char} (h : connectiveBefore? before = some head) :
    ∃ taken, before = taken ++ head ∧ Flat taken := by
  obtain ⟨w, hw, hafter⟩ := List.exists_of_findSome?_eq_some h
  obtain ⟨hafter, -⟩ := Option.filter_eq_some_iff.1 hafter
  obtain ⟨b, hb, hbefore⟩ := Tidy.exists_blanks before
  rw [after?_eq_some_iff.1 hafter] at hbefore
  refine ⟨b ++ w.reverse, by rw [hbefore]; simp, ?_⟩
  exact (Tidy.flat_of_blanks hb).append (Tidy.flat_of_mem_connectives hw).reverse

theorem exists_taken_after {after tail : List Char} (h : connectiveAfter? after = some tail) :
    ∃ taken, after = taken ++ tail ∧ Flat taken := by
  obtain ⟨w, hw, hafter⟩ := List.exists_of_findSome?_eq_some h
  obtain ⟨hafter, -⟩ := Option.filter_eq_some_iff.1 hafter
  obtain ⟨b, hb, hbefore⟩ := Tidy.exists_blanks after
  rw [after?_eq_some_iff.1 hafter] at hbefore
  refine ⟨b ++ w, by rw [hbefore]; simp, ?_⟩
  exact (Tidy.flat_of_blanks hb).append (Tidy.flat_of_mem_connectives hw)

theorem openAfter?_close (cut : Cut) : openAfter? cut.close = openAfter? cut.rest := by
  unfold Cut.close Cut.rest
  split
  next head hhead =>
    obtain ⟨taken, hbefore, htaken⟩ := exists_taken_before hhead
    obtain ⟨b, hb, hblanks⟩ := Tidy.exists_blanks head
    have hflat := htaken.append (Tidy.flat_of_blanks hb)
    have hsplit : cut.before = taken ++ b ++ trimStart head := by
      rw [List.append_assoc, ← hblanks, hbefore]
    rw [hsplit, List.reverse_append, List.append_assoc, hflat.reverse.balanced.openAfter?_append]
  next =>
    split
    next tail htail =>
      obtain ⟨taken, hafter, htaken⟩ := exists_taken_after htail
      obtain ⟨b, hb, hblanks⟩ := Tidy.exists_blanks tail
      have hflat := htaken.append (Tidy.flat_of_blanks hb)
      have hsplit : cut.after = taken ++ b ++ trimStart tail := by
        rw [List.append_assoc, ← hblanks, hafter]
      rw [hsplit, hflat.balanced.openAfter?_append]
    next => rfl

theorem openAfter?_remove? {clause fragment left : List Char} (hfragment : Balanced fragment)
    (h : remove? clause fragment = some left) : openAfter? left = openAfter? clause := by
  obtain ⟨cut, hcut, rfl⟩ := Option.map_eq_some_iff.1 h
  rw [openAfter?_close, openAfter?_absorb, (find?_sound hcut).text, hfragment.openAfter?_append]

theorem openAfter?_removeAll {fragments : List (List Char)} (h : ∀ t ∈ fragments, Balanced t)
    (clause : List Char) : openAfter? (removeAll clause fragments) = openAfter? clause := by
  induction fragments generalizing clause with
  | nil => rfl
  | cons fragment rest ih =>
      have hrest : ∀ t ∈ rest, Balanced t := fun t ht => h t (List.mem_cons_of_mem _ ht)
      rw [removeAll]
      split
      next left hleft =>
        rw [ih hrest, Tidy.openAfter?_tidy, openAfter?_remove? (h fragment (by simp)) hleft]
      next => rw [ih hrest]

/-- Fragments with balanced parentheses may be removed in any order, and as often as one likes: the
clause that is left is balanced exactly if the clause was. -/
theorem balanced_removeAll_iff {clause : List Char} {fragments : List (List Char)}
    (h : ∀ fragment ∈ fragments, Balanced fragment) :
    Balanced (removeAll clause fragments) ↔ Balanced clause := by
  rw [balanced_iff, balanced_iff, openAfter?_removeAll h]

/-- An empty group of a call goes as a whole. -/
theorem balanced_removeAll_call :
    (∀ fragment ∈ ["b = :b".toList, "lower(a) = :a".toList], Balanced fragment) ∧
      removeAll "lower(a) = :a AND ((b = :b) OR c < now())".toList
          ["b = :b".toList, "lower(a) = :a".toList] = "(c < now)".toList ∧
      (Balanced "(c < now)".toList ↔
        Balanced "lower(a) = :a AND ((b = :b) OR c < now())".toList) := by
  have hfragments : ∀ fragment ∈ ["b = :b".toList, "lower(a) = :a".toList], Balanced fragment := by
    decide +kernel
  have hleft : removeAll "lower(a) = :a AND ((b = :b) OR c < now())".toList
      ["b = :b".toList, "lower(a) = :a".toList] = "(c < now)".toList := by decide +kernel
  exact ⟨hfragments, hleft, hleft ▸ balanced_removeAll_iff hfragments⟩

end Removal

end ClauseWeave
