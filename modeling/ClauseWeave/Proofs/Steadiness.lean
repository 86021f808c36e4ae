import ClauseWeave.Proofs.Grouping
import ClauseWeave.Proofs.Tidiness

namespace ClauseWeave

/-- A path that does not begin with a segment that is a connective. -/
structure IsColumn (path : String) : Prop where
  isPath : isPath path = true
  notConnective : path.toList.takeWhile (· ≠ '.') ∉ Removal.connectives

instance : DecidablePred IsColumn := fun _ =>
  decidable_of_iff' _ ⟨fun h => And.intro h.isPath h.notConnective, fun h => ⟨h.1, h.2⟩⟩

namespace Tidy

open Text

theorem connective?_of_mem {w : List Char} (h : w ∈ Removal.connectives) (rest : List Char) :
    connective? (w ++ rest) = some (w, rest) := by
  simp only [Removal.connectives, List.mem_cons, List.not_mem_nil, or_false] at h
  rcases h with rfl | rfl <;> rfl

theorem isWord_of_mem_connective {w : List Char} (h : w ∈ Removal.connectives) :
    ∀ c ∈ w, isWord c = true := by
  have hall : (Removal.connectives.all fun w => w.all isWord) = true := by decide
  exact List.all_eq_true.1 (List.all_eq_true.1 hall w h)

theorem connective?_append {p t w rest : List Char} (ht : ∀ c ∈ t.head?, isWord c = false)
    (h : connective? (p ++ t) = some (w, rest)) : ∃ q, p = w ++ q ∧ rest = q ++ t := by
  obtain ⟨hw, he⟩ := connective?_eq_some h
  rcases List.append_eq_append_iff.1 he with ⟨q, rfl, rfl⟩ | ⟨q, rfl, rfl⟩
  · cases q with
    | nil => exact ⟨[], by simp, rfl⟩
    | cons c q =>
        have hword := isWord_of_mem_connective hw c (by simp)
        rw [ht c rfl] at hword
        simp at hword
  · exact ⟨q, rfl, rfl⟩

/-- Nothing that stands outside of the words of a path. -/
structure Inner (c : Char) : Prop where
  notOpening : c ≠ '('
  notClosing : c ≠ ')'
  notBlank : isBlank c = false

theorem Inner.of_isWord {c : Char} (h : isWord c = true) : Inner c := by
  refine ⟨?_, ?_, isBlank_of_isWord h⟩ <;> rintro rfl <;> exact absurd h (by decide)

theorem Inner.dot : Inner '.' := ⟨by decide, by decide, by decide⟩

theorem Continues.of_inner {c : Char} (h : Inner c) (s : List Char) : Continues (c :: s) :=
  ⟨c, s, rfl, h.notClosing, by simp [h.notBlank]⟩

/-- A text without a connective in it. Only at its end may a group begin. -/
def Calm : List Char → Prop
  | [] => True
  | c :: s => connective? (c :: s) = none ∧ (c = '(' → s = []) ∧
      (isBlank c = true → c = ' ' ∧ ∀ d ∈ s.head?, isBlank d = false) ∧ Calm s

def decidableCalm : (s : List Char) → Decidable (Calm s)
  | [] => inferInstanceAs (Decidable True)
  | c :: s =>
    have := decidableCalm s
    have : Decidable (∀ d ∈ s.head?, isBlank d = false) :=
      decidable_of_iff ((s.head?.map isBlank).getD false = false) (by cases s <;> simp)
    inferInstanceAs (Decidable (_ ∧ _ ∧ _ ∧ _))

instance : DecidablePred Calm := decidableCalm

theorem Calm.connective?_eq_none {c : Char} {t s : List Char} (h : Calm (c :: t))
    (hs : ∀ d ∈ s.head?, isWord d = false) : connective? (c :: t ++ s) = none := by
  obtain ⟨hnone, -⟩ := h
  by_contra hsome
  obtain ⟨⟨w, rest⟩, hw⟩ := Option.ne_none_iff_exists'.1 hsome
  obtain ⟨q, hq, rfl⟩ := connective?_append hs hw
  rw [hq, connective?_of_mem (connective?_eq_some hw).1] at hnone
  simp at hnone

namespace Steady

variable {s : List Char} (h : ∀ b, Steady (some b) s)

include h

theorem skip {c : Char} (hc : c ≠ '(') (hblank : isBlank c = false)
    (hword : connective? (c :: s) = none) (b : Char) : Steady (some b) (c :: s) := by
  refine .cons (by simp) (fun he => absurd he hc) (by simp [hblank]) ?_ (h c)
  intro _ w rest hw
  rw [hword] at hw
  simp at hw

theorem group (hs : Starts s) (b : Char) : Steady (some b) ('(' :: s) := by
  refine .cons (by simp) (fun _ => hs) (fun hblank => absurd hblank (by decide)) ?_ (h '(')
  intro _ w rest hw
  simp [connective?] at hw

theorem blank (hs : Starts s ∨ ∃ w rest, s = w ++ rest ∧ w ∈ Removal.connectives) (b : Char) :
    Steady (some b) (' ' :: s) := by
  refine .cons (by simp) (fun he => absurd he (by decide)) (fun _ => ⟨rfl, ?_⟩) ?_ (h ' ')
  · rcases hs with hs | ⟨w, rest, rfl, hw⟩
    · obtain ⟨d, rest, rfl, hd, -⟩ := hs.head
      exact ⟨d, rest, rfl, hd⟩
    · have hword := isWord_of_mem_connective hw
      cases w with
      | nil => simp [Removal.connectives] at hw
      | cons d w => exact ⟨d, w ++ rest, rfl, isBlank_of_isWord (hword d (by simp))⟩
  · intro _ w rest hw
    simp [connective?] at hw

theorem letters {n : List Char} (hn : ∀ c ∈ n, isWord c = true) {b : Char} (hb : isWord b = true) :
    Steady (some b) (n ++ s) := by
  induction n generalizing b with
  | nil => exact h b
  | cons c n ih =>
      have hc := Inner.of_isWord (hn c (by simp))
      refine .cons (by simp) (fun he => absurd he hc.notOpening) (by simp [hc.notBlank]) ?_
        (ih (fun d hd => hn d (by simp [hd])) (hn c (by simp)))
      intro hbefore
      simp [hb] at hbefore

theorem name {n : List Char} (hn : ∀ c ∈ n, isWord c = true) (hnot : n ∉ Removal.connectives)
    (hs : ∀ c ∈ s.head?, isWord c = false) (b : Char) : Steady (some b) (n ++ s) := by
  cases n with
  | nil => exact h b
  | cons c n =>
      have hc := Inner.of_isWord (hn c (by simp))
      refine .cons (by simp) (fun he => absurd he hc.notOpening) (by simp [hc.notBlank]) ?_
        (letters h (fun d hd => hn d (by simp [hd])) (hn c (by simp)))
      intro _ w rest hw
      obtain ⟨q, hq, rfl⟩ := connective?_append (p := c :: n) hs hw
      cases q with
      | nil =>
          rw [List.append_nil] at hq
          exact absurd (hq ▸ (connective?_eq_some hw).1) hnot
      | cons d q => exact .of_inner (.of_isWord (hn d (by simp [hq]))) _

theorem path {p : List Char} (hp : ∀ c ∈ p, isWord c = true ∨ c = '.')
    (hs : ∀ c ∈ s.head?, isWord c = false) (hcontinues : Continues s) (b : Char) :
    Steady (some b) (p ++ s) := by
  have hinner : ∀ c ∈ p, Inner c := by
    intro c hc
    rcases hp c hc with hword | rfl
    · exact .of_isWord hword
    · exact .dot
  clear hp
  induction p generalizing b with
  | nil => exact h b
  | cons c p ih =>
      have hc := hinner c (by simp)
      refine .cons (by simp) (fun he => absurd he hc.notOpening) (by simp [hc.notBlank]) ?_
        (ih c fun d hd => hinner d (by simp [hd]))
      intro _ w rest hw
      obtain ⟨q, hq, rfl⟩ := connective?_append (p := c :: p) hs hw
      cases q with
      | nil => exact hcontinues
      | cons d q => exact .of_inner (hinner d (by simp [hq])) _

theorem calm {t : List Char} (ht : Calm t) (hs : ∀ c ∈ s.head?, isWord c = false)
    (hstarts : ∀ c ∈ t.getLast?, isWord c = false → Starts s) (b : Char) :
    Steady (some b) (t ++ s) := by
  induction t generalizing b with
  | nil => exact h b
  | cons c t ih =>
      have hnone := ht.connective?_eq_none hs
      obtain ⟨-, hgroup, hblank, hrest⟩ := ht
      have hlast : t = [] → isWord c = false → Starts s := by
        rintro rfl
        exact hstarts c rfl
      have hmore : ∀ d ∈ t.getLast?, isWord d = false → Starts s := by
        intro d hd
        exact hstarts d (by simp [List.getLast?_cons, Option.mem_def.1 hd])
      refine .cons (by simp) ?_ ?_ ?_ (ih hrest hmore c)
      · rintro rfl
        obtain rfl := hgroup rfl
        exact hlast rfl (by decide)
      · intro hc
        obtain ⟨rfl, hhead⟩ := hblank hc
        refine ⟨rfl, ?_⟩
        cases t with
        | nil =>
            obtain ⟨d, rest, rfl, hd, -⟩ := (hlast rfl (by decide)).head
            exact ⟨d, rest, rfl, hd⟩
        | cons d t => exact ⟨d, t ++ s, rfl, hhead d rfl⟩
      · intro _ w rest hw
        rw [List.append_eq, ← List.cons_append, hnone] at hw
        simp at hw

theorem separator (hs : Starts s) (c : Connective) (b : Char) :
    Steady (some b) (c.separator.toList ++ s) := by
  have hword : c.word.toList ∈ Removal.connectives := by
    cases c <;> simp [Removal.connectives, Connective.word]
  have hend : ∀ b, Steady (some b) (c.word.toList ++ ' ' :: s) :=
    path (blank h (.inl hs)) (fun d hd => .inl (isWord_of_mem_connective hword d hd))
      (by simpa using Piece.Separates.space.2) ⟨' ', s, rfl, by decide, fun _ => hs⟩
  simpa [Connective.separator] using blank hend (.inr ⟨_, _, rfl, hword⟩) b

end Steady

end Tidy

open Tidy

namespace Operator

theorem calm_opening (op : Operator) : Calm op.opening.toList := by
  rcases op with c | m | n | n | n
  · cases c <;> decide
  · cases m <;> decide
  all_goals cases n <;> decide

def heads : List Char := "=<>LIN".toList

theorem exists_opening (op : Operator) :
    ∃ c rest, op.opening.toList = ' ' :: c :: rest ∧ c ∈ heads := by
  rcases op with c | m | n | n | n
  · cases c <;> exact ⟨_, _, rfl, by decide⟩
  · cases m <;> exact ⟨_, _, rfl, by decide⟩
  all_goals cases n <;> exact ⟨_, _, rfl, by decide⟩

theorem continues_opening (op : Operator) {s : List Char}
    (hs : ∀ c ∈ s.head?, Text.isWord c = false) : Continues (op.opening.toList ++ s) := by
  obtain ⟨c, rest, hopening, hc⟩ := op.exists_opening
  have hheads : (heads.all fun d => !Text.isBlank d && d != ')') = true := by decide
  have hplain : Text.isBlank c = false ∧ c ≠ ')' := by simpa using List.all_eq_true.1 hheads c hc
  have hcalm : Calm (c :: rest) := (hopening ▸ op.calm_opening).2.2.2
  refine ⟨' ', c :: rest ++ s, by rw [hopening]; rfl, by decide, fun _ => ?_⟩
  refine ⟨⟨c, rest ++ s, rfl, hplain⟩, fun w tail hw => ?_⟩
  rw [hcalm.connective?_eq_none hs] at hw
  simp at hw

end Operator

theorem Name.From.not_connective {path name : String} (h : Name.From path name)
    (hp : IsColumn path) : name.toList ∉ Removal.connectives := by
  have hletters : ∀ w ∈ Removal.connectives, '_' ∉ w := by decide
  induction h with
  | path =>
      intro hmem
      have hplain : ∀ c ∈ path.toList, c ≠ '.' := by
        rintro c hc rfl
        apply hletters _ hmem
        simp only [Name.ofPath, String.toList_ofList, List.mem_map]
        exact ⟨'.', hc, rfl⟩
      have hname : (Name.ofPath path).toList = path.toList := by
        rw [Name.ofPath, String.toList_ofList]
        conv_rhs => rw [← List.map_id path.toList]
        exact List.map_congr_left fun c hc => if_neg (hplain c hc)
      have hnot := hp.notConnective
      rw [List.takeWhile_eq_self_iff.2 (by simpa using hplain), ← hname] at hnot
      exact hnot hmem
  | @fresh name used _ ih =>
      rcases Name.fresh_eq name used with he | ⟨base, n, he, -⟩
      · rwa [he]
      · exact fun hmem => hletters _ hmem (by simp [he, Name.toList_numbered])
  | low _ _ | high _ _ => exact fun hmem => hletters _ hmem (by simp)

theorem IsColumn.starts {path : String} (h : IsColumn path) {t : List Char}
    (ht : ∀ c ∈ t.head?, Text.isWord c = false) : Starts (path.toList ++ t) := by
  obtain ⟨hne, hchars⟩ := chars_of_isPath h.isPath
  constructor
  · obtain ⟨c, p, hp⟩ := List.exists_cons_of_ne_nil (mt String.toList_eq_nil_iff.1 hne)
    have hinner : Inner c := by
      rcases hchars c (by simp [hp]) with hword | rfl
      · exact .of_isWord hword
      · exact .dot
    exact ⟨c, p ++ t, by simp [hp], hinner.notBlank, hinner.notClosing⟩
  · intro w rest hw
    obtain ⟨q, hq, rfl⟩ := connective?_append ht hw
    have hmem := (connective?_eq_some hw).1
    have hword : ∀ c ∈ w, c ≠ '.' := by
      rintro c hc rfl
      exact absurd (isWord_of_mem_connective hmem '.' hc) (by decide)
    have hnot := h.notConnective
    rw [hq, List.takeWhile_append_of_pos (by simpa using hword)] at hnot
    cases q with
    | nil => simp [hmem] at hnot
    | cons c q =>
        rcases hchars c (by simp [hq]) with hc | rfl
        · simp [endsWord, hc]
        · simp [hmem] at hnot

namespace Phrase

theorem exists_tail {p : Phrase} (hcount : p.names.length = p.operator.arity) :
    ∃ tail, p.text.toList = p.path.toList ++ (p.operator.opening.toList ++ tail) := by
  cases shape_of_count hcount with
  | @single path op h name =>
      exact ⟨':' :: (name.toList ++ op.closing.toList), by simp [text_single path h]⟩
  | range path negated low high =>
      refine ⟨':' :: low.toList ++ (Connective.and.separator ++
        text ⟨path, .compare (.high negated), [high]⟩).toList, ?_⟩
      rw [text_range, text_single path (rfl : (Operator.compare (.low negated)).arity = 1)]
      simp [Operator.opening, Operator.closing]
  | null path negated => exact ⟨[], by simp [text_null]⟩

variable {p : Phrase} (hp : p.Valid IsColumn)

include hp

theorem starts_text (s : List Char) : Starts (p.text.toList ++ s) := by
  obtain ⟨tail, htext⟩ := exists_tail hp.count
  obtain ⟨c, rest, hopening, -⟩ := p.operator.exists_opening
  rw [htext, hopening, List.append_assoc]
  exact hp.path.starts (by simpa using Piece.Separates.space.2)

omit hp in
theorem steady_single {path name : String} {op : Operator} (harity : op.arity = 1)
    (hpath : IsColumn path) (hname : Name.From path name) {s : List Char}
    (hs : ∀ c ∈ s.head?, Text.isWord c = false) (h : ∀ b, Steady (some b) s) (b : Char) :
    Steady (some b) ((text ⟨path, op, [name]⟩).toList ++ s) := by
  have hword := (hname.isName hpath.isPath).2
  have hend : ∀ b, Steady (some b) (op.closing.toList ++ s) := by
    rcases op.closing_eq with he | he
    · simpa [he] using h
    · simpa [he] using Steady.skip (c := ')') h (by decide) (by decide) rfl
  have hhead : ∀ c ∈ (op.closing.toList ++ s).head?, Text.isWord c = false := by
    rcases op.closing_eq with he | he
    · simpa [he] using hs
    · simpa [he] using Piece.Separates.closeParen.2
  have hmarker : ∀ b, Steady (some b) (':' :: (name.toList ++ (op.closing.toList ++ s))) :=
    Steady.skip (Steady.name hend hword (hname.not_connective hpath) hhead) (by decide) (by decide)
      rfl
  have hstarts : Starts (':' :: (name.toList ++ (op.closing.toList ++ s))) :=
    ⟨⟨_, _, rfl, by decide, by decide⟩, by simp [connective?]⟩
  have hplain : ∀ c ∈ (':' :: (name.toList ++ (op.closing.toList ++ s))).head?,
      Text.isWord c = false := by simpa using Piece.isWord_colon
  have hopening := Steady.calm hmarker op.calm_opening hplain fun _ _ _ => hstarts
  have hspace : ∀ c ∈ (op.opening.toList ++
      ':' :: (name.toList ++ (op.closing.toList ++ s))).head?, Text.isWord c = false := by
    obtain ⟨c, rest, he, -⟩ := op.exists_opening
    simpa [he] using Piece.Separates.space.2
  have hwhole := Steady.path hopening (chars_of_isPath hpath.isPath).2 hspace
    (op.continues_opening hplain) b
  simpa [text_single path harity] using hwhole

theorem steady_text {s : List Char} (hs : ∀ c ∈ s.head?, Text.isWord c = false)
    (h : ∀ b, Steady (some b) s) (b : Char) : Steady (some b) (p.text.toList ++ s) := by
  cases shape_of_count hp.count with
  | single path harity name => exact steady_single harity hp.path (hp.names name (by simp)) hs h b
  | range path negated low high =>
      have hhigh := steady_single (rfl : (Operator.compare (.high negated)).arity = 1) hp.path
        (hp.names high (by simp)) hs h
      have hvalid : Phrase.Valid IsColumn ⟨path, .compare (.high negated), [high]⟩ :=
        ⟨hp.path, rfl, by simpa using hp.names high (by simp)⟩
      have hjoin := Steady.separator hhigh (starts_text hvalid s) .and
      have hspace : ∀ c ∈ (Connective.and.separator.toList ++
          ((text ⟨path, .compare (.high negated), [high]⟩).toList ++ s)).head?,
          Text.isWord c = false := by
        simpa [Connective.separator] using Piece.Separates.space.2
      have hlow := steady_single (rfl : (Operator.compare (.low negated)).arity = 1) hp.path
        (hp.names low (by simp)) hspace hjoin b
      simpa [text_range] using hlow
  | null path negated =>
      have hlast : (Operator.null negated).opening.toList.getLast? = some 'L' := by
        cases negated <;> decide
      have hopening := Steady.calm h (Operator.null negated).calm_opening hs (by
        intro c hc hnot
        rw [hlast, Option.mem_some_iff] at hc
        exact absurd (hc ▸ hnot) (by decide))
      have hspace : ∀ c ∈ ((Operator.null negated).opening.toList ++ s).head?,
          Text.isWord c = false := by
        obtain ⟨c, rest, he, -⟩ := (Operator.null negated).exists_opening
        simpa [he] using Piece.Separates.space.2
      have hwhole := Steady.path hopening (chars_of_isPath hp.path.isPath).2 hspace
        ((Operator.null negated).continues_opening hs) b
      simpa [text_null] using hwhole

end Phrase

section Marks

variable {ms : List Mark}
  (hfragments : ∀ text, .fragment text ∈ ms → ∃ p, Phrase.Valid IsColumn p ∧ text = p.text)

include hfragments

theorem starts_spell (hbegins : ms.head?.map Mark.begins = some true) : Starts (spell ms) := by
  cases ms with
  | nil => simp at hbegins
  | cons m rest =>
      cases m with
      | fragment text =>
          obtain ⟨p, hp, rfl⟩ := hfragments text (by simp)
          exact p.starts_text hp (spell rest)
      | opening =>
          exact ⟨⟨'(', spell rest, rfl, by decide, by decide⟩, by simp [Mark.text, connective?]⟩
      | closing | join c => simp [Mark.begins] at hbegins

omit hfragments in
theorem head_spell_of_ends {m : Mark} (hchain : (m :: ms).IsChain Mark.Precedes)
    (hends : m.ends = true) : ∀ c ∈ (spell ms).head?, Text.isWord c = false := by
  cases ms with
  | nil => simp
  | cons n rest =>
      have hbegins : n.begins = !m.ends := (List.isChain_cons_cons.1 hchain).1
      rw [hends] at hbegins
      cases n with
      | closing => simpa [Mark.text] using Piece.Separates.closeParen.2
      | join c => simpa [Mark.text, Connective.separator] using Piece.Separates.space.2
      | fragment text | opening => simp [Mark.begins] at hbegins

theorem steady_spell (hchain : ms.IsChain Mark.Precedes) (hends : ∀ m ∈ ms.getLast?, m.ends = true)
    (b : Char) : Steady (some b) (spell ms) := by
  induction ms generalizing b with
  | nil => exact .nil _
  | cons m rest ih =>
      have hothers : ∀ text, .fragment text ∈ rest →
          ∃ p, Phrase.Valid IsColumn p ∧ text = p.text :=
        fun text htext => hfragments text (by simp [htext])
      have hrest := ih hothers hchain.tail fun n hn =>
        hends n (by simp [List.getLast?_cons, Option.mem_def.1 hn])
      have hstarts : m.ends = false → Starts (spell rest) := by
        intro hm
        cases rest with
        | nil => simp [hends m (by simp)] at hm
        | cons n rest =>
            have hbegins : n.begins = !m.ends := (List.isChain_cons_cons.1 hchain).1
            exact starts_spell hothers (by simp [hbegins, hm])
      cases m with
      | fragment text =>
          obtain ⟨p, hp, rfl⟩ := hfragments text (by simp)
          exact p.steady_text hp (head_spell_of_ends hchain rfl) hrest b
      | opening => exact Steady.group hrest (hstarts rfl) b
      | closing => exact Steady.skip hrest (by decide) (by decide) rfl b
      | join c => exact Steady.separator hrest (hstarts rfl) c b

theorem tidy_spell (h : IsCondition ms) : tidy (spell ms) = spell ms := by
  apply tidy_of_steady
  obtain ⟨last, hlast, hends⟩ := Option.map_eq_some_iff.1 h.ends
  have hsteady := steady_spell hfragments h.chain (by simp [hlast, hends]) ' '
  have hstarts := starts_spell hfragments h.begins
  generalize spell ms = s at hsteady hstarts
  cases hsteady with
  | nil => exact .nil _
  | cons _ group blank word rest =>
      exact .cons (fun _ => hstarts) group blank (fun _ => word (by decide)) rest

end Marks

end ClauseWeave
