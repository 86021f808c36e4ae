import ClauseWeave.Text.Blank
import ClauseWeave.Text.Word
import Mathlib.Data.List.TakeWhile

namespace ClauseWeave

theorem takeWhile_append_cons {α : Type} {p : α → Bool} {a : α} (h : p a = false) (l r : List α) :
    (l ++ a :: r).takeWhile p = l.takeWhile p ∧
      (l ++ a :: r).dropWhile p = l.dropWhile p ++ a :: r := by
  induction l with
  | nil => simp [h]
  | cons b l ih => cases hb : p b <;> simp [hb, ih.1, ih.2]

namespace Text

theorem inRanges_eq_true {ranges : List (Nat × Nat)} {n : Nat} (h : inRanges ranges n = true) :
    ∃ r ∈ ranges, r.1 ≤ n ∧ n ≤ r.2 := by
  induction ranges with
  | nil => simp [inRanges] at h
  | cons r rest ih =>
      rw [inRanges] at h
      split at h
      next => simp at h
      next hlo =>
        split at h
        next hhi => exact ⟨r, by simp, by omega, hhi⟩
        next =>
          obtain ⟨r', hr', hbounds⟩ := ih h
          exact ⟨r', by simp [hr'], hbounds⟩

theorem of_isBlank {p : Char → Bool} {c : Char} (h : isBlank c = true)
    (hall : (blankRanges.all fun r => (List.range' r.1 (r.2 + 1 - r.1)).all fun n =>
      p (Char.ofNat n)) = true) : p c = true := by
  obtain ⟨r, hr, hlo, hhi⟩ := inRanges_eq_true h
  have hmem : c.toNat ∈ List.range' r.1 (r.2 + 1 - r.1) := List.mem_range'_1.2 ⟨hlo, by omega⟩
  have hp := List.all_eq_true.1 (List.all_eq_true.1 hall r hr) c.toNat hmem
  rwa [Char.ofNat_toNat] at hp

theorem isBlank_space : isBlank ' ' = true := by decide

theorem isBlank_of_isWord {c : Char} (h : isWord c = true) : isBlank c = false := by
  cases hblank : isBlank c with
  | false => rfl
  | true =>
      have hword := of_isBlank (p := fun c => !isWord c) hblank (by decide +kernel)
      simp [h] at hword

theorem word_induction {P : List Char → Prop} (word : ∀ w, (∀ c ∈ w, isBlank c = false) → P w)
    (blank : ∀ s b t, isBlank b = true → P s → P t → P (s ++ b :: t)) (s : List Char) : P s := by
  induction hn : s.length using Nat.strong_induction_on generalizing s with
  | _ n ih =>
      cases hrest : s.dropWhile (!isBlank ·) with
      | nil => exact word s fun c hc => by simpa using List.dropWhile_eq_nil_iff.1 hrest c hc
      | cons b t =>
          have hsplit := List.takeWhile_append_dropWhile (p := (!isBlank ·)) (l := s)
          have hb := List.head?_dropWhile_not (!isBlank ·) s
          rw [hrest] at hsplit hb
          have hlength := congrArg List.length hsplit
          rw [List.length_append, List.length_cons] at hlength
          rw [← hsplit]
          refine blank _ b t (by simpa using hb) (word _ fun c hc => ?_)
            (ih t.length (by omega) t rfl)
          simpa using List.mem_takeWhile_imp hc

theorem words_word {w : List Char} (h : ∀ c ∈ w, isBlank c = false) :
    words w = if w = [] then [] else [w] := by
  rw [words, List.splitOnP_eq_singleton h]
  cases w <;> simp

theorem words_append_blank {b : Char} (h : isBlank b = true) (s t : List Char) :
    words (s ++ b :: t) = words s ++ words t := by
  rw [words, List.splitOnP_append_cons s t h, List.filter_append]
  rfl

theorem mem_words {s w : List Char} (h : w ∈ words s) : w ≠ [] ∧ ∀ c ∈ w, isBlank c = false := by
  induction s using word_induction with
  | word v hv =>
      rw [words_word hv] at h
      split at h
      next => simp at h
      next hne =>
        obtain rfl := List.mem_singleton.1 h
        exact ⟨hne, hv⟩
  | blank s b t hb hs ht =>
      rw [words_append_blank hb] at h
      exact (List.mem_append.1 h).elim hs ht

theorem words_intercalate {ws : List (List Char)}
    (h : ∀ w ∈ ws, w ≠ [] ∧ ∀ c ∈ w, isBlank c = false) : words ([' '].intercalate ws) = ws := by
  induction ws with
  | nil => rfl
  | cons w rest ih =>
      obtain ⟨hne, hw⟩ := h w (by simp)
      cases rest with
      | nil => simp [words_word hw, hne]
      | cons v rest =>
          rw [List.intercalate_cons_cons, List.append_assoc, List.singleton_append,
            words_append_blank isBlank_space, ih fun u hu => h u (List.mem_cons_of_mem w hu),
            words_word hw]
          simp [hne]

theorem words_collapse (s : List Char) : words (collapse s) = words s :=
  words_intercalate fun _ => mem_words

/-- Each blank is a single space, and something follows it. -/
def SingleSpaced : List Char → Prop
  | [] => True
  | c :: s => (isBlank c = true → c = ' ' ∧ s.head?.map isBlank = some false) ∧ SingleSpaced s

def decidableSingleSpaced : (s : List Char) → Decidable (SingleSpaced s)
  | [] => isTrue trivial
  | _ :: s =>
    have := decidableSingleSpaced s
    inferInstanceAs (Decidable (_ ∧ _))

instance : DecidablePred SingleSpaced := decidableSingleSpaced

theorem splitOnP_eq_splitOn {p : Char → Bool} {c : Char} {s : List Char}
    (h : ∀ d ∈ s, p d = (d == c)) : s.splitOnP p = s.splitOn c := by
  induction s with
  | nil => rfl
  | cons d s ih =>
      rw [List.splitOn_eq_splitOnP, List.splitOnP_cons_eq_if_modifyHead,
        List.splitOnP_cons_eq_if_modifyHead, h d (by simp), ih fun e he => h e (by simp [he]),
        List.splitOn_eq_splitOnP]

namespace SingleSpaced

variable {s t : List Char}

theorem of_no_blank (h : ∀ c ∈ s, isBlank c = false) : SingleSpaced s := by
  induction s with
  | nil => trivial
  | cons c s ih => exact ⟨by simp [h c], ih fun d hd => h d (by simp [hd])⟩

theorem space (h : SingleSpaced s) (hs : s.head?.map isBlank = some false) :
    SingleSpaced (' ' :: s) :=
  ⟨fun _ => ⟨rfl, hs⟩, h⟩

theorem append (hs : SingleSpaced s) (ht : SingleSpaced t) : SingleSpaced (s ++ t) := by
  induction s with
  | nil => exact ht
  | cons c s ih =>
      refine ⟨fun hblank => ?_, ih hs.2⟩
      obtain ⟨hspace, hhead⟩ := hs.1 hblank
      cases s with
      | nil => simp at hhead
      | cons d s => exact ⟨hspace, hhead⟩

theorem isBlank_eq (h : SingleSpaced s) : ∀ c ∈ s, isBlank c = (c == ' ') := by
  induction s with
  | nil => simp
  | cons c s ih =>
      refine List.forall_mem_cons.2 ⟨?_, ih h.2⟩
      by_cases hspace : c = ' '
      · rw [hspace]
        decide
      · have hnot : isBlank c = false :=
          Bool.eq_false_iff.2 fun hblank => hspace (h.1 hblank).1
        simp [hnot, hspace]

theorem tail_splitOnP_ne_nil (h : SingleSpaced s) :
    ∀ part ∈ (s.splitOnP isBlank).tail, part ≠ [] := by
  induction s with
  | nil => simp
  | cons c s ih =>
      have hrest := ih h.2
      rw [List.splitOnP_cons_eq_if_modifyHead]
      split
      next hblank =>
        obtain ⟨d, hd, hplain⟩ := Option.map_eq_some_iff.1 (h.1 hblank).2
        obtain ⟨rest, rfl⟩ := List.head?_eq_some_iff.1 hd
        rw [List.splitOnP_cons_eq_if_modifyHead, hplain] at hrest ⊢
        obtain ⟨first, others, hsplit⟩ :=
          List.exists_cons_of_ne_nil (List.splitOnP_ne_nil isBlank rest)
        simpa [hsplit] using hrest
      next => simpa using hrest

theorem collapse_eq (h : SingleSpaced s) (hs : ∀ c ∈ s.head?, isBlank c = false) :
    collapse s = s := by
  have htail := h.tail_splitOnP_ne_nil
  have hspace := splitOnP_eq_splitOn h.isBlank_eq
  cases s with
  | nil => rfl
  | cons c s =>
      have hparts : ∀ part ∈ (c :: s).splitOnP isBlank, !part.isEmpty := by
        obtain ⟨first, others, hsplit⟩ :=
          List.exists_cons_of_ne_nil (List.splitOnP_ne_nil isBlank s)
        rw [List.splitOnP_cons_eq_if_modifyHead, hs c rfl, hsplit] at htail ⊢
        simpa using htail
      rw [collapse, words, List.filter_eq_self.2 hparts, hspace]
      exact List.intercalate_splitOn ' '

end SingleSpaced

end Text

end ClauseWeave
