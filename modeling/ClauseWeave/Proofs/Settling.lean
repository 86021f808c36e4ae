import ClauseWeave.Proofs.Excision
import ClauseWeave.Proofs.Levelling

namespace ClauseWeave

open Text

namespace Balanced

theorem closing_mem {front back : List Char} (h : Balanced (front ++ '(' :: back)) :
    ')' ∈ back := by
  have hfront := h.1 front.length
  have hall := h.2
  rw [List.take_left] at hfront
  rw [List.count_append, List.count_append] at hall
  simp only [List.count_cons] at hall
  apply List.count_pos_iff.1
  simp at hall
  omega

theorem head_ne_closing {c : Char} {s : List Char} (h : Balanced (c :: s)) : c ≠ ')' := by
  rintro rfl
  simpa using h.1 1

end Balanced

namespace EndsSolid

variable {s t : List Char}

theorem ne_nil (h : EndsSolid s) : s ≠ [] := by
  obtain ⟨rest, c, rfl, -⟩ := h
  simp

theorem of_suffix (h : EndsSolid s) (hsuffix : t <:+ s) (hne : t ≠ []) : EndsSolid t := by
  obtain ⟨rest, c, rfl, hc⟩ := h
  obtain ⟨front, he⟩ := hsuffix
  obtain ⟨init, d, rfl⟩ := (List.eq_nil_or_concat t).resolve_left hne
  rw [List.concat_eq_append, ← List.append_assoc] at he
  obtain ⟨-, hd⟩ := List.append_inj' he rfl
  exact ⟨init, d, List.concat_eq_append, by rwa [(List.cons.inj hd).1]⟩

theorem of_blank {c : Char} (hc : isBlank c = true) (h : EndsSolid (t ++ c :: s)) : EndsSolid s := by
  refine h.of_suffix ⟨t ++ [c], by simp⟩ ?_
  rintro rfl
  obtain ⟨rest, d, he, hd⟩ := h
  obtain ⟨-, he⟩ := List.append_inj' he rfl
  rw [(List.cons.inj he).1, hd] at hc
  simp at hc

theorem trimStart_ne_nil (h : EndsSolid s) : trimStart s ≠ [] := by
  obtain ⟨rest, c, rfl, hc⟩ := h
  intro hnil
  simpa [hc] using List.dropWhile_eq_nil_iff.1 hnil c (by simp)

theorem trimStart (h : EndsSolid s) : EndsSolid (trimStart s) :=
  h.of_suffix (List.dropWhile_suffix isBlank) h.trimStart_ne_nil

theorem trimStart_append (h : EndsSolid s) (t : List Char) :
    Text.trimStart (s ++ t) = Text.trimStart s ++ t := by
  have hne := h.trimStart_ne_nil
  unfold Text.trimStart at hne ⊢
  rw [List.dropWhile_append, if_neg (by simpa using hne)]

end EndsSolid

theorem mem_trimStart {c : Char} (hc : isBlank c = false) {s : List Char} (h : c ∈ s) :
    c ∈ trimStart s := by
  rw [← List.takeWhile_append_dropWhile (p := isBlank) (l := s), List.mem_append] at h
  refine h.resolve_left fun hmem => ?_
  simp [List.mem_takeWhile_imp hmem] at hc

theorem solid_intercalate {ws : List (List Char)} (hne : ws ≠ [])
    (h : ∀ w ∈ ws, w ≠ [] ∧ ∀ c ∈ w, isBlank c = false) : Solid ([' '].intercalate ws) := by
  induction ws with
  | nil => exact absurd rfl hne
  | cons w rest ih =>
      obtain ⟨hw, hplain⟩ := h w (by simp)
      obtain ⟨c, tail, rfl⟩ := List.exists_cons_of_ne_nil hw
      have hc := hplain c (by simp)
      cases rest with
      | nil =>
          obtain ⟨init, d, he⟩ := (List.eq_nil_or_concat (c :: tail)).resolve_left hw
          rw [List.concat_eq_append] at he
          have hd := hplain d (by simp [he])
          exact ⟨⟨c, tail, by simp, hc⟩, ⟨init, d, by simpa using he, hd⟩⟩
      | cons v rest =>
          have hrest := ih (by simp) fun w hw => h w (by simp [hw])
          rw [List.intercalate_cons_cons]
          exact ⟨⟨c, _, rfl, hc⟩, hrest.last.append _⟩

theorem collapse_append_blank {b : Char} (hb : isBlank b = true) {s t : List Char}
    (hs : words s ≠ []) (ht : words t ≠ []) :
    collapse (s ++ b :: t) = collapse s ++ ' ' :: collapse t := by
  have hjoin {ws vs : List (List Char)} (hws : ws ≠ []) (hvs : vs ≠ []) :
      [' '].intercalate (ws ++ vs) = [' '].intercalate ws ++ ' ' :: [' '].intercalate vs := by
    obtain ⟨v, vs, rfl⟩ := List.exists_cons_of_ne_nil hvs
    induction ws with
    | nil => exact absurd rfl hws
    | cons w rest ih =>
        cases rest with
        | nil => simp [List.intercalate_cons_cons]
        | cons u rest =>
            rw [List.cons_append, List.cons_append, List.intercalate_cons_cons,
              List.intercalate_cons_cons, ← List.cons_append, ih (by simp)]
            simp
  rw [collapse, words_append_blank hb, hjoin hs ht]
  rfl

namespace Tidy

theorem connective?_append_space (p s : List Char) :
    connective? (p ++ ' ' :: s) = (connective? p).map fun e => (e.1, e.2 ++ ' ' :: s) := by
  cases hp : connective? p with
  | some e =>
      obtain ⟨w, q⟩ := e
      obtain ⟨hmem, rfl⟩ := connective?_eq_some hp
      rw [List.append_assoc, connective?_of_mem hmem]
      rfl
  | none =>
      rw [Option.map_none, Option.eq_none_iff_forall_ne_some]
      rintro ⟨w, rest⟩ hrest
      obtain ⟨q, rfl, -⟩ := connective?_append (by simpa using Piece.Separates.space.2) hrest
      rw [connective?_of_mem (connective?_eq_some hrest).1] at hp
      simp at hp

theorem endsWord_append_space (q s : List Char) : endsWord (q ++ ' ' :: s) = endsWord q := by
  cases q with
  | nil =>
      have hspace : isWord ' ' = false := Piece.Separates.space.2
      simp [endsWord, hspace]
  | cons c q => rfl

def Closing (r : List Char) : Prop := ∀ front back, r = front ++ '(' :: back → ')' ∈ back

theorem Closing.inside {r : List Char} (h : Closing ('(' :: r)) (hr : EndsSolid ('(' :: r)) :
    EndsSolid r ∧ ')' ∈ trimStart r := by
  have hmem : ')' ∈ r := h [] r rfl
  exact ⟨hr.of_suffix (List.suffix_cons _ _) (List.ne_nil_of_mem hmem),
    mem_trimStart (by decide) hmem⟩

theorem endsSolid_of_connective? {p w q : List Char} (hp : EndsSolid p) (hmem : ')' ∈ p)
    (hw : connective? p = some (w, q)) : EndsSolid q := by
  obtain ⟨hword, rfl⟩ := connective?_eq_some hw
  refine hp.of_suffix (List.suffix_append _ _) (List.ne_nil_of_mem (a := ')') ?_)
  refine (List.mem_append.1 hmem).resolve_left fun hmem => ?_
  exact absurd (isWord_of_mem_connective hword _ hmem) (by decide)

section Joint

variable {before : Option Char} {r s : List Char} (hr : EndsSolid r)

include hr

theorem emptyGroup_append (hclosing : Closing r) (h : emptyGroup before r = none) :
    emptyGroup before (r ++ ' ' :: s) = none := by
  unfold emptyGroup at h ⊢
  split
  next t he =>
    obtain ⟨c, r, rfl⟩ := List.exists_cons_of_ne_nil hr.ne_nil
    obtain ⟨rfl, rfl⟩ := List.cons.inj he
    obtain ⟨hinside, -⟩ := hclosing.inside hr
    obtain ⟨c, q, hq⟩ := List.exists_cons_of_ne_nil hinside.trimStart_ne_nil
    simp only [List.append_eq, hinside.trimStart_append, hq, List.cons_append] at h ⊢
    split
    next he =>
      obtain ⟨rfl, -⟩ := List.cons.inj he
      simp at h
    next => rfl
  next => rfl

theorem loneConnective_append (hclosing : Closing r) (h : loneConnective before r = none) :
    loneConnective before (r ++ ' ' :: s) = none := by
  unfold loneConnective at h ⊢
  split
  next t he =>
    obtain ⟨c, r, rfl⟩ := List.exists_cons_of_ne_nil hr.ne_nil
    obtain ⟨rfl, rfl⟩ := List.cons.inj he
    obtain ⟨hinside, hmem⟩ := hclosing.inside hr
    simp only [List.append_eq, hinside.trimStart_append, connective?_append_space] at h ⊢
    cases hw : connective? (trimStart r) with
    | none => rfl
    | some e =>
        obtain ⟨w, q⟩ := e
        have hq := endsSolid_of_connective? hinside.trimStart hmem hw
        obtain ⟨c, tail, htail⟩ := List.exists_cons_of_ne_nil hq.trimStart_ne_nil
        simp only [hw, Option.map_some, hq.trimStart_append, htail, List.cons_append] at h ⊢
        split
        next he =>
          obtain ⟨rfl, -⟩ := List.cons.inj he
          simp at h
        next => rfl
  next => rfl

theorem leadingConnective_append (hclosing : Closing r) (h : leadingConnective before r = none) :
    leadingConnective before (r ++ ' ' :: s) = none := by
  unfold leadingConnective at h ⊢
  split
  next t he =>
    obtain ⟨c, r, rfl⟩ := List.exists_cons_of_ne_nil hr.ne_nil
    obtain ⟨rfl, rfl⟩ := List.cons.inj he
    obtain ⟨hinside, hmem⟩ := hclosing.inside hr
    simp only [List.append_eq, hinside.trimStart_append, connective?_append_space] at h ⊢
    cases hw : connective? (trimStart r) with
    | none => rfl
    | some e =>
        obtain ⟨w, q⟩ := e
        have hq := endsSolid_of_connective? hinside.trimStart hmem hw
        obtain ⟨c, tail, rfl⟩ := List.exists_cons_of_ne_nil hq.ne_nil
        simp only [hw, Option.map_some, List.cons_append] at h ⊢
        cases hc : isBlank c with
        | true => simp [hc] at h
        | false => rfl
  next => rfl

theorem trailingConnective_append (hs : ∀ t, trimStart s ≠ ')' :: t)
    (h : trailingConnective before r = none) :
    trailingConnective before (r ++ ' ' :: s) = none := by
  obtain ⟨c, r, rfl⟩ := List.exists_cons_of_ne_nil hr.ne_nil
  simp only [trailingConnective, List.cons_append] at h ⊢
  cases hc : isBlank c with
  | false => rfl
  | true =>
      have hrest : EndsSolid r := EndsSolid.of_blank (t := []) hc hr
      simp only [hc, if_true, hrest.trimStart_append, connective?_append_space] at h ⊢
      cases hw : connective? (trimStart r) with
      | none => rfl
      | some e =>
          obtain ⟨w, q⟩ := e
          obtain ⟨-, hsplit⟩ := connective?_eq_some hw
          simp only [hw, Option.map_some] at h ⊢
          by_cases hq : q = []
          · subst hq
            split
            next tail he => exact absurd (Removal.trimStart_space s ▸ he) (hs tail)
            next => rfl
          · have hsolid := hrest.trimStart.of_suffix (hsplit ▸ List.suffix_append w q) hq
            obtain ⟨d, tail, htail⟩ := List.exists_cons_of_ne_nil hsolid.trimStart_ne_nil
            simp only [hsolid.trimStart_append, htail, List.cons_append] at h ⊢
            split
            next he =>
              obtain ⟨rfl, -⟩ := List.cons.inj he
              simp at h
            next => rfl

theorem doubledConnective_append (hclosing : closingConnective before r = none)
    (h : doubledConnective before r = none) :
    doubledConnective before (r ++ ' ' :: s) = none := by
  unfold doubledConnective at h ⊢
  split
  next => rfl
  next hbefore =>
    rw [if_neg hbefore] at h
    rw [connective?_append_space]
    cases hw : connective? r with
    | none => rfl
    | some e =>
        obtain ⟨w, q⟩ := e
        obtain ⟨hmem, hsplit⟩ := connective?_eq_some hw
        cases q with
        | nil =>
            exfalso
            have hplain : trimStart r = r := by
              refine trimStart_of_head fun c hc => isBlank_of_isWord ?_
              refine isWord_of_mem_connective hmem c (List.mem_of_mem_head? ?_)
              rwa [hsplit, List.append_nil] at hc
            simp only [closingConnective, hplain, hw] at hclosing
            simp [hbefore, trimStart] at hclosing
        | cons c q =>
            simp only [hw, Option.map_some, List.cons_append] at h ⊢
            cases hc : isBlank c with
            | false => rfl
            | true =>
                have hq : EndsSolid q := EndsSolid.of_blank (t := w) hc (hsplit ▸ hr)
                simp only [hc, if_true, hq.trimStart_append, connective?_append_space] at h ⊢
                cases hw' : connective? (trimStart q) with
                | none => rfl
                | some e =>
                    simp only [hw', Option.map_some, endsWord_append_space] at h ⊢
                    cases hends : endsWord e.2 with
                    | true => simp [hends] at h
                    | false => rfl

theorem openingConnective_append (h : openingConnective before r = none) :
    openingConnective before (r ++ ' ' :: s) = none := by
  unfold openingConnective at h ⊢
  cases before with
  | some b => rfl
  | none =>
      simp only [hr.trimStart_append, connective?_append_space] at h ⊢
      cases hw : connective? (trimStart r) with
      | none => rfl
      | some e =>
          simp only [hw, Option.map_some, endsWord_append_space] at h ⊢
          cases hends : endsWord e.2 with
          | true => simp [hends] at h
          | false => rfl

theorem closingConnective_append (hs : trimStart s ≠ []) :
    closingConnective before (r ++ ' ' :: s) = none := by
  simp only [closingConnective, hr.trimStart_append, connective?_append_space]
  split
  next => rfl
  next =>
    cases hw : connective? (trimStart r) with
    | none => rfl
    | some e =>
        have hrest : trimStart (e.2 ++ ' ' :: s) ≠ [] := by
          have htrim := Removal.trimStart_space s
          unfold trimStart at hs htrim ⊢
          rw [List.dropWhile_append]
          split
          next => rwa [htrim]
          next => simp
        simp [hrest]

theorem rule_append (hclosing : Closing r) (hs : trimStart s ≠ [] ∧ ∀ t, trimStart s ≠ ')' :: t)
    (h : ∀ rule ∈ rules, rule before r = none) {rule : Rule} (hrule : rule ∈ rules) :
    rule before (r ++ ' ' :: s) = none := by
  have hown := h rule hrule
  have hend := h closingConnective (by simp [rules])
  simp only [rules, List.mem_cons, List.not_mem_nil, or_false] at hrule
  rcases hrule with rfl | rfl | rfl | rfl | rfl | rfl | rfl
  · exact emptyGroup_append hr hclosing hown
  · exact loneConnective_append hr hclosing hown
  · exact leadingConnective_append hr hclosing hown
  · exact trailingConnective_append hr hs.2 hown
  · exact doubledConnective_append hr hend hown
  · exact openingConnective_append hr hown
  · exact closingConnective_append hr hs.1

end Joint

theorem Still.append_space {before : Option Char} {r s : List Char} (h : Still before r)
    (hr : EndsSolid r) (hclosing : Closing r)
    (hs : trimStart s ≠ [] ∧ ∀ t, trimStart s ≠ ')' :: t)
    (hrest : ∀ b, Still (some b) (' ' :: s)) : Still before (r ++ ' ' :: s) := by
  induction r generalizing before with
  | nil => exact absurd rfl hr.ne_nil
  | cons c r ih =>
      refine ⟨fun _ hrule => rule_append hr hclosing hs h.1 hrule, ?_⟩
      by_cases hne : r = []
      · subst hne
        exact hrest c
      · refine ih h.2 (hr.of_suffix (List.suffix_cons _ _) hne) fun front back he => ?_
        exact hclosing (c :: front) back (by rw [he]; rfl)

theorem Still.behind_space {s : List Char} (h : Still none s) : Still (some ' ') s := by
  cases s with
  | nil => trivial
  | cons c s =>
      refine ⟨fun rule hrule => ?_, h.2⟩
      have hown := h.1 rule hrule
      have hspace : isWord ' ' = false := Piece.Separates.space.2
      simp only [rules, List.mem_cons, List.not_mem_nil, or_false] at hrule
      rcases hrule with rfl | rfl | rfl | rfl | rfl | rfl | rfl
      · exact hown
      · exact hown
      · exact hown
      · exact hown
      · simpa [doubledConnective, hspace] using hown
      · rfl
      · simpa [closingConnective, hspace] using hown

section Behind

variable {s : List Char} (hstarts : Starts s)

include hstarts

theorem Starts.continues {w rest : List Char} (hw : connective? s = some (w, rest)) :
    Continues rest := by
  obtain ⟨c, tail, rfl, hc⟩ := hstarts.not_opens hw
  exact .of_inner (.of_isWord hc) tail

theorem continues_word {p w rest : List Char} (hp : ∀ c ∈ p, isWord c = true)
    (hw : connective? (p ++ ' ' :: s) = some (w, rest)) : Continues rest := by
  obtain ⟨q, rfl, rfl⟩ := connective?_append (by simpa using Piece.Separates.space.2) hw
  cases q with
  | nil => exact ⟨' ', s, rfl, by decide, fun _ => hstarts⟩
  | cons c q => exact .of_inner (.of_isWord (hp c (by simp))) _

theorem Still.behind_word (h : Still none s) {p : List Char} (hp : ∀ c ∈ p, isWord c = true)
    (hne : p ≠ []) (b : Char) : Still (some b) (' ' :: (p ++ ' ' :: s)) := by
  have hjoint (b : Char) : Still (some b) (' ' :: s) := by
    refine ⟨fun _ hrule => Idle.rule_eq_none ⟨by simp, by simp, fun _ => ?_, ?_⟩ hrule, ?_⟩
    · exact ⟨hstarts.trimStart, fun _ _ => hstarts.continues⟩
    · simp [connective?]
    · exact h.behind_space
  have hword (b : Char) : Still (some b) (p ++ ' ' :: s) := by
    clear hne
    induction p generalizing b with
    | nil => exact hjoint b
    | cons c p ih =>
        have hc := Inner.of_isWord (hp c (by simp))
        refine ⟨fun _ hrule => Idle.rule_eq_none ⟨by simp, ?_, ?_, fun _ w rest hw => ?_⟩ hrule,
          ih (fun d hd => hp d (by simp [hd])) c⟩
        · exact fun he => absurd he hc.notOpening
        · simp [hc.notBlank]
        · exact continues_word hstarts hp hw
  refine ⟨fun _ hrule => Idle.rule_eq_none ⟨by simp, by simp, fun _ => ?_, ?_⟩ hrule, hword ' '⟩
  · obtain ⟨c, p, rfl⟩ := List.exists_cons_of_ne_nil hne
    have hc := isBlank_of_isWord (hp c (by simp))
    exact ⟨trimStart_of_head (by simpa using hc), fun _ _ => continues_word hstarts hp⟩
  · simp [connective?]

end Behind

end Tidy

namespace Connective

theorem word_ne_nil (c : Connective) : c.word.toList ≠ [] := by
  cases c <;> decide

theorem isWord_word (c : Connective) : ∀ d ∈ c.word.toList, isWord d = true :=
  Tidy.isWord_of_mem_connective (by cases c <;> decide)

end Connective

/-- A text that is not empty, has its parentheses in pairs and is left as it is by tidying. -/
structure Settled (s : List Char) : Prop where
  ne_nil : s ≠ []
  balanced : Balanced s
  spaced : collapse s = s
  still : Tidy.Still none s

instance : DecidablePred Settled := fun s =>
  decidable_of_iff (s ≠ [] ∧ Balanced s ∧ collapse s = s ∧ Tidy.Still none s)
    ⟨fun ⟨hne, hbalanced, hspaced, hstill⟩ => ⟨hne, hbalanced, hspaced, hstill⟩,
      fun h => ⟨h.ne_nil, h.balanced, h.spaced, h.still⟩⟩

namespace Settled

variable {s t : List Char}

theorem words_ne_nil (h : Settled s) : words s ≠ [] := by
  intro hnil
  refine h.ne_nil ?_
  rw [← h.spaced, collapse, hnil]
  rfl

theorem solid (h : Settled s) : Solid s := by
  rw [← h.spaced]
  exact solid_intercalate h.words_ne_nil fun _ => mem_words

theorem closing (h : Settled s) : Tidy.Closing s := by
  rintro front back rfl
  exact h.balanced.closing_mem

theorem starts (h : Settled s) : Tidy.Starts s := by
  obtain ⟨c, rest, rfl, hc⟩ := h.solid.first
  refine ⟨⟨c, rest, rfl, hc, h.balanced.head_ne_closing⟩, fun w tail hw => ?_⟩
  have hopening := h.still.1 Tidy.openingConnective (by simp [Tidy.rules])
  have htrim : trimStart (c :: rest) = c :: rest := Removal.trimStart_of_not_blank hc rest
  simp only [Tidy.openingConnective, htrim, hw] at hopening
  cases hends : Tidy.endsWord tail with
  | true => simp [hends] at hopening
  | false => rfl

theorem join (hs : Settled s) (c : Connective) (ht : Settled t) :
    Settled (s ++ (c.separator.toList ++ t)) := by
  have hne := c.word_ne_nil
  have hplain : ∀ d ∈ c.word.toList, isBlank d = false :=
    fun d hd => isBlank_of_isWord (c.isWord_word d hd)
  have hflat : Balanced c.separator.toList := by cases c <;> decide
  have hsep : c.separator.toList ++ t = ' ' :: (c.word.toList ++ ' ' :: t) := by
    simp [c.separator_eq]
  refine ⟨by simp [hs.ne_nil], hs.balanced.append (hflat.append ht.balanced), ?_, ?_⟩
  · have hwords : words c.word.toList = [c.word.toList] := by rw [words_word hplain, if_neg hne]
    have hbehind : words (c.word.toList ++ ' ' :: t) ≠ [] := by
      simp [words_append_blank isBlank_space, hwords]
    rw [hsep, collapse_append_blank isBlank_space hs.words_ne_nil hbehind,
      collapse_append_blank isBlank_space (by simp [hwords]) ht.words_ne_nil, hs.spaced, ht.spaced,
      collapse, hwords, List.intercalate_singleton]
  · rw [hsep]
    refine hs.still.append_space hs.solid.last hs.closing ?_
      (ht.still.behind_word ht.starts c.isWord_word hne)
    obtain ⟨d, p, hp⟩ := List.exists_cons_of_ne_nil hne
    have hd := Tidy.Inner.of_isWord (c.isWord_word d (by simp [hp]))
    rw [hp, List.cons_append, Removal.trimStart_of_not_blank hd.notBlank]
    simp [hd.notClosing]

theorem intercalate (c : Connective) {texts : List (List Char)} (h : ∀ t ∈ texts, Settled t)
    (hne : texts ≠ []) : Settled (c.separator.toList.intercalate texts) := by
  induction texts with
  | nil => exact absurd rfl hne
  | cons t rest ih =>
      cases rest with
      | nil => simpa using h t (by simp)
      | cons u rest =>
          rw [List.intercalate_cons_cons, List.append_assoc]
          exact (h t (by simp)).join c (ih (fun v hv => h v (by simp [hv])) (by simp))

theorem tidy_eq (h : Settled s) : Tidy.tidy s = s := h.still.tidy_eq h.spaced

end Settled

end ClauseWeave
