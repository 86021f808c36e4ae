import ClauseWeave.Clause.Removal
import ClauseWeave.Proofs.Spacing
import Mathlib.Tactic.ByContra

namespace ClauseWeave.Tidy

open Text

theorem connective?_eq_some {s w rest : List Char} (h : connective? s = some (w, rest)) :
    w ∈ Removal.connectives ∧ s = w ++ rest := by
  unfold connective? at h
  split at h
  · obtain ⟨rfl, rfl⟩ := Prod.mk.inj (Option.some.inj h)
    exact ⟨by simp [Removal.connectives], rfl⟩
  · obtain ⟨rfl, rfl⟩ := Prod.mk.inj (Option.some.inj h)
    exact ⟨by simp [Removal.connectives], rfl⟩
  · simp at h

/-- Something begins here that is not a connective. -/
structure Starts (s : List Char) : Prop where
  head : ∃ c rest, s = c :: rest ∧ isBlank c = false ∧ c ≠ ')'
  word : ∀ w rest, connective? s = some (w, rest) → endsWord rest = false

/-- What follows a connective, or letters that look like one: a condition, or the rest of a word. -/
def Continues (s : List Char) : Prop :=
  ∃ c rest, s = c :: rest ∧ c ≠ ')' ∧ (isBlank c = true → Starts rest)

/-- No rule applies at any place of the text, which follows the given character. -/
def Still (before : Option Char) : List Char → Prop
  | [] => True
  | c :: s => (∀ rule ∈ rules, rule before (c :: s) = none) ∧ Still (some c) s

def decidableStill (before : Option Char) : (s : List Char) → Decidable (Still before s)
  | [] => isTrue trivial
  | c :: s =>
    have := decidableStill (some c) s
    inferInstanceAs (Decidable ((∀ rule ∈ rules, rule before (c :: s) = none) ∧ Still (some c) s))

instance (before : Option Char) (s : List Char) : Decidable (Still before s) :=
  decidableStill before s

/-- What each character must see ahead of it so that no rule applies in the text, which follows the
given character. -/
inductive Steady : Option Char → List Char → Prop
  | nil (before : Option Char) : Steady before []
  | cons {before : Option Char} {c : Char} {s : List Char}
      (start : before = none → Starts (c :: s))
      (group : c = '(' → Starts s)
      (blank : isBlank c = true → c = ' ' ∧ ∃ d rest, s = d :: rest ∧ isBlank d = false)
      (word : (before.map isWord).getD false = false →
        ∀ w rest, connective? (c :: s) = some (w, rest) → Continues rest)
      (rest : Steady (some c) s) : Steady before (c :: s)

theorem trimStart_of_head {s : List Char} (h : ∀ c ∈ s.head?, isBlank c = false) :
    trimStart s = s := by
  cases s with
  | nil => rfl
  | cons c s => simp [trimStart, h c rfl]

theorem Starts.trimStart {s : List Char} (h : Starts s) : Text.trimStart s = s := by
  obtain ⟨c, rest, rfl, hblank, -⟩ := h.head
  exact trimStart_of_head (by simpa using hblank)

theorem Starts.not_opens {s : List Char} (h : Starts s) {w rest : List Char}
    (hw : connective? s = some (w, rest)) :
    ∃ c tail, rest = c :: tail ∧ isWord c = true := by
  have hends := h.word w rest hw
  cases rest with
  | nil => simp [endsWord] at hends
  | cons c tail => exact ⟨c, tail, rfl, by simpa [endsWord] using hends⟩

theorem Continues.trimStart {s : List Char} (h : Continues s) :
    ∃ c rest, Text.trimStart s = c :: rest ∧ c ≠ ')' := by
  obtain ⟨c, rest, rfl, hne, hstarts⟩ := h
  cases hblank : isBlank c with
  | false => exact ⟨c, rest, trimStart_of_head (by simpa using hblank), hne⟩
  | true =>
      obtain ⟨d, tail, rfl, hd, hclosing⟩ := (hstarts hblank).head
      exact ⟨d, tail, by simp [Text.trimStart, hblank, hd], hclosing⟩

structure Idle (before : Option Char) (c : Char) (s : List Char) : Prop where
  start : before = none → Starts (c :: s)
  group : c = '(' → Starts s
  blank : isBlank c = true → Text.trimStart s = s ∧
    ∀ w rest, connective? s = some (w, rest) → Continues rest
  word : (before.map isWord).getD false = false →
    ∀ w rest, connective? (c :: s) = some (w, rest) → Continues rest

namespace Idle

variable {before : Option Char} {c : Char} {s : List Char}

theorem emptyGroup (h : Idle before c s) : emptyGroup before (c :: s) = none := by
  unfold Tidy.emptyGroup
  split
  next t he =>
    obtain ⟨rfl, rfl⟩ := List.cons.inj he
    obtain ⟨d, rest, rfl, -, hne⟩ := (h.group rfl).head
    rw [(h.group rfl).trimStart]
    split
    next he => exact absurd (List.cons.inj he).1 hne
    next => rfl
  next => rfl

theorem loneConnective (h : Idle before c s) : loneConnective before (c :: s) = none := by
  unfold Tidy.loneConnective
  split
  next t he =>
    obtain ⟨rfl, rfl⟩ := List.cons.inj he
    rw [(h.group rfl).trimStart]
    split
    next w rest hw =>
      obtain ⟨d, tail, rfl, hd⟩ := (h.group rfl).not_opens hw
      rw [trimStart_of_head (by simpa using isBlank_of_isWord hd)]
      split
      next he =>
        obtain ⟨rfl, -⟩ := List.cons.inj he
        exact absurd hd (by decide)
      next => rfl
    next => rfl
  next => rfl

theorem leadingConnective (h : Idle before c s) : leadingConnective before (c :: s) = none := by
  unfold Tidy.leadingConnective
  split
  next t he =>
    obtain ⟨rfl, rfl⟩ := List.cons.inj he
    rw [(h.group rfl).trimStart]
    split
    next w d rest hw =>
      obtain ⟨e, tail, he, hd⟩ := (h.group rfl).not_opens hw
      obtain ⟨rfl, rfl⟩ := List.cons.inj he
      simp [isBlank_of_isWord hd]
    next => rfl
  next => rfl

theorem trailingConnective (h : Idle before c s) : trailingConnective before (c :: s) = none := by
  unfold Tidy.trailingConnective
  split
  next d t he =>
    obtain ⟨rfl, rfl⟩ := List.cons.inj he
    split
    next hblank =>
      obtain ⟨htrim, hword⟩ := h.blank hblank
      rw [htrim]
      split
      next w rest hw =>
        obtain ⟨e, tail, htrim, hne⟩ := (hword w rest hw).trimStart
        rw [htrim]
        split
        next he => exact absurd (List.cons.inj he).1 hne
        next => rfl
      next => rfl
    next => rfl
  next => rfl

theorem doubledConnective (h : Idle before c s) : doubledConnective before (c :: s) = none := by
  unfold Tidy.doubledConnective
  split
  next => rfl
  next hbefore =>
    split
    next w d rest hw =>
      split
      next hblank =>
        obtain ⟨e, tail, he, -, hstarts⟩ := h.word (by simpa using hbefore) w _ hw
        obtain ⟨rfl, rfl⟩ := List.cons.inj he
        rw [(hstarts hblank).trimStart]
        split
        next w rest hw => rw [(hstarts hblank).word w rest hw, if_neg (by simp)]
        next => rfl
      next => rfl
    next => rfl

theorem openingConnective (h : Idle before c s) : openingConnective before (c :: s) = none := by
  unfold Tidy.openingConnective
  split
  next => rfl
  next =>
    rw [(h.start rfl).trimStart]
    split
    next w rest hw => rw [(h.start rfl).word w rest hw, if_neg (by simp)]
    next => rfl

theorem closingConnective (h : Idle before c s) : closingConnective before (c :: s) = none := by
  simp only [Tidy.closingConnective]
  split
  next => rfl
  next hplace =>
    split
    next w rest hw =>
      have hcontinues : Continues rest := by
        cases hblank : isBlank c with
        | true =>
            obtain ⟨htrim, hword⟩ := h.blank hblank
            have hskip : Text.trimStart (c :: s) = Text.trimStart s := by
              simp [Text.trimStart, hblank]
            exact hword w rest (by rwa [hskip, htrim] at hw)
        | false =>
            rw [trimStart_of_head (by simpa using hblank)] at hw
            exact h.word (by simpa [hblank] using hplace) w rest hw
      obtain ⟨d, tail, htrim, -⟩ := hcontinues.trimStart
      simp [htrim]
    next => rfl

theorem rule_eq_none (h : Idle before c s) {rule : Rule} (hrule : rule ∈ rules) :
    rule before (c :: s) = none := by
  simp only [rules, List.mem_cons, List.not_mem_nil, or_false] at hrule
  rcases hrule with rfl | rfl | rfl | rfl | rfl | rfl | rfl
  · exact h.emptyGroup
  · exact h.loneConnective
  · exact h.leadingConnective
  · exact h.trailingConnective
  · exact h.doubledConnective
  · exact h.openingConnective
  · exact h.closingConnective

end Idle

namespace Steady

variable {before : Option Char} {c : Char} {s : List Char}

theorem idle (h : Steady before (c :: s)) : Idle before c s := by
  cases h with
  | cons start group blank word hrest =>
      refine ⟨start, group, fun hblank => ?_, word⟩
      obtain ⟨rfl, d, tail, rfl, hd⟩ := blank hblank
      refine ⟨trimStart_of_head (by simpa using hd), ?_⟩
      -- behind a blank a connective may stand only if it goes on
      cases hrest with
      | cons _ _ _ word _ => exact word (by decide)

theorem still (h : Steady before s) : Still before s := by
  induction h with
  | nil before => trivial
  | cons start group blank word hrest ih =>
      exact ⟨fun _ hrule => (Steady.cons start group blank word hrest).idle.rule_eq_none hrule, ih⟩

theorem singleSpaced (h : Steady before s) : SingleSpaced s := by
  induction h with
  | nil => trivial
  | cons _ _ blank _ _ ih =>
      refine ⟨fun hblank => ?_, ih⟩
      obtain ⟨hspace, d, rest, rfl, hd⟩ := blank hblank
      exact ⟨hspace, congrArg some hd⟩

end Steady

theorem collapse_of_steady {s : List Char} (h : Steady none s) : collapse s = s := by
  refine h.singleSpaced.collapse_eq ?_
  cases h with
  | nil => simp
  | cons start _ _ _ _ =>
      obtain ⟨d, rest, he, hblank, -⟩ := (start rfl).head
      obtain ⟨rfl, rfl⟩ := List.cons.inj he
      simpa using hblank

namespace Still

variable {before : Option Char} {s : List Char}

theorem applyRule_eq (h : Still before s) {rule : Rule} (hrule : rule ∈ rules) :
    applyRule rule before s = s := by
  induction s generalizing before with
  | nil => rw [applyRule]
  | cons c s ih =>
      rw [applyRule, h.1 rule hrule]
      exact congrArg _ (ih h.2)

theorem foldl_applyRule (h : Still none s) {some : List Rule} (hsome : some ⊆ rules) :
    some.foldl (fun s rule => applyRule rule none s) s = s := by
  induction some with
  | nil => rfl
  | cons rule rest ih =>
      rw [List.foldl_cons, h.applyRule_eq (hsome (by simp))]
      exact ih fun rule hrule => hsome (by simp [hrule])

theorem tidy_eq (h : Still none s) (hspaced : collapse s = s) : tidy s = s := by
  have hround : round s = s := by
    rw [round, h.foldl_applyRule (List.Subset.refl _), hspaced]
  rw [tidy, hspaced, settle, hround]
  simp

end Still

theorem tidy_of_steady {s : List Char} (h : Steady none s) : tidy s = s :=
  h.still.tidy_eq (collapse_of_steady h)

end ClauseWeave.Tidy
