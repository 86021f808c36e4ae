import ClauseWeave.Filter.Basic
import Mathlib.Data.List.Forall2

namespace ClauseWeave.Sql

inductive Relation where
  | compare (c : Comparison)
  | like
  | among (negated : Bool)
  | null (negated : Bool)
  deriving DecidableEq

structure Atom where
  path : String
  relation : Relation
  operand : Option Value
  deriving DecidableEq

inductive Token where
  | opening
  | closing
  | join (c : Connective)
  | atom (a : Atom)
  deriving DecidableEq

/-- What is known of a group that is still open: whether one of its complete alternatives holds, and
whether all factors of the last one do. -/
structure Group where
  alternative : Bool
  factors : Bool

namespace Group

def fresh : Group := ⟨false, true⟩

def value (g : Group) : Bool := g.alternative || g.factors

def factor (g : Group) (b : Bool) : Group := ⟨g.alternative, g.factors && b⟩

def join (g : Group) : Connective → Group
  | .and => g
  | .or => ⟨g.value, true⟩

end Group

/-- The groups around the innermost one, from the inside out, and whether an operand comes next. -/
structure Reader where
  outer : List Group
  group : Group
  operand : Bool

namespace Reader

def start : Reader := ⟨[], .fresh, true⟩

def step (truth : Atom → Bool) (r : Reader) (t : Token) : Option Reader :=
  match t, r.operand, r.outer with
  | .atom a, true, _ => some ⟨r.outer, r.group.factor (truth a), false⟩
  | .opening, true, _ => some ⟨r.group :: r.outer, .fresh, true⟩
  | .join c, false, _ => some ⟨r.outer, r.group.join c, true⟩
  | .closing, false, g :: outer => some ⟨outer, g.factor r.group.value, false⟩
  | _, _, _ => none

def run (truth : Atom → Bool) (r : Reader) (ts : List Token) : Option Reader :=
  ts.foldlM (step truth) r

def result? (r : Reader) : Option Bool :=
  match r.operand, r.outer with
  | false, [] => some r.group.value
  | _, _ => none

end Reader

/-- The truth of a condition; none if it is not well formed. Parentheses bind first, then `AND`,
then `OR`. -/
def evaluate (truth : Atom → Bool) (ts : List Token) : Option Bool :=
  (Reader.start.run truth ts).bind Reader.result?

variable {truth : Atom → Bool}

theorem Reader.run_append (r : Reader) (ts us : List Token) :
    r.run truth (ts ++ us) = (r.run truth ts).bind fun s => s.run truth us := by
  rw [run, List.foldlM_append]
  rfl

theorem Reader.run_cons (r : Reader) (t : Token) (ts : List Token) :
    r.run truth (t :: ts) = (r.step truth t).bind fun s => s.run truth ts := by
  rw [run, List.foldlM_cons]
  rfl

/-- The tokens are one factor or several under `AND`, whatever stands around them. -/
def Factor (truth : Atom → Bool) (ts : List Token) (b : Bool) : Prop :=
  ∀ outer g, Reader.run truth ⟨outer, g, true⟩ ts = some ⟨outer, g.factor b, false⟩

def Alternatives (truth : Atom → Bool) (ts : List Token) (b : Bool) : Prop :=
  ∀ outer before, ∃ g, Reader.run truth ⟨outer, ⟨before, true⟩, true⟩ ts = some ⟨outer, g, false⟩ ∧
    g.value = (before || b)

section Grammar

variable {ts us : List Token} {b d : Bool}

theorem factor_atom (truth : Atom → Bool) (a : Atom) : Factor truth [.atom a] (truth a) :=
  fun _ _ => rfl

theorem Factor.and (ht : Factor truth ts b) (hu : Factor truth us d) :
    Factor truth (ts ++ .join .and :: us) (b && d) := by
  intro outer g
  rw [Reader.run_append, ht, Option.bind_some, Reader.run_cons]
  refine (hu outer (g.factor b)).trans ?_
  simp [Group.factor, Bool.and_assoc]

theorem Factor.alternatives (h : Factor truth ts b) : Alternatives truth ts b :=
  fun outer before => ⟨_, h outer ⟨before, true⟩, rfl⟩

theorem Alternatives.or (ht : Alternatives truth ts b) (hu : Alternatives truth us d) :
    Alternatives truth (ts ++ .join .or :: us) (b || d) := by
  intro outer before
  obtain ⟨g, hg, hvalue⟩ := ht outer before
  obtain ⟨k, hk, hend⟩ := hu outer g.value
  refine ⟨k, ?_, ?_⟩
  · rw [Reader.run_append, hg, Option.bind_some, Reader.run_cons]
    exact hk
  · rw [hend, hvalue, Bool.or_assoc]

theorem Alternatives.paren (h : Alternatives truth ts b) :
    Factor truth (.opening :: (ts ++ [.closing])) b := by
  intro outer g
  obtain ⟨k, hk, hvalue⟩ := h (g :: outer) false
  rw [Reader.run_cons]
  change Reader.run truth ⟨g :: outer, ⟨false, true⟩, true⟩ (ts ++ [.closing]) = _
  rw [Reader.run_append, hk, Option.bind_some]
  change some (Reader.mk outer (g.factor k.value) false) = _
  rw [hvalue, Bool.false_or]

theorem Alternatives.evaluate (h : Alternatives truth ts b) : evaluate truth ts = some b := by
  obtain ⟨g, hg, hvalue⟩ := h [] false
  rw [Sql.evaluate, Reader.start, Group.fresh, hg]
  exact congrArg some hvalue

end Grammar

def fold (c : Connective) (bs : List Bool) : Bool :=
  match c with
  | .and => bs.all id
  | .or => bs.any id

def fold? (c : Connective) : List Bool → Option Bool
  | [] => none
  | bs => some (fold c bs)

theorem forall₂_map_map {α β γ : Type} {R : β → γ → Prop} {f : α → β} {g : α → γ} {l : List α}
    (h : ∀ a ∈ l, R (f a) (g a)) : List.Forall₂ R (l.map f) (l.map g) := by
  rw [List.forall₂_map_left_iff, List.forall₂_map_right_iff, List.forall₂_same]
  exact h

theorem factor_intercalate {tss : List (List Token)} {bs : List Bool}
    (h : List.Forall₂ (Factor truth) tss bs) (hne : bs ≠ []) :
    Factor truth ([.join .and].intercalate tss) (bs.all id) := by
  induction h with
  | nil => exact absurd rfl hne
  | @cons ts b tss bs ht hrest ih =>
      cases hrest with
      | nil => simpa using ht
      | cons hu hmore =>
          rw [List.intercalate_cons_cons, List.append_assoc]
          exact ht.and (ih (by simp))

theorem alternatives_intercalate {tss : List (List Token)} {bs : List Bool}
    (h : List.Forall₂ (Factor truth) tss bs) (hne : bs ≠ []) :
    Alternatives truth ([.join .or].intercalate tss) (bs.any id) := by
  induction h with
  | nil => exact absurd rfl hne
  | @cons ts b tss bs ht hrest ih =>
      cases hrest with
      | nil => simpa using ht.alternatives
      | cons hu hmore =>
          rw [List.intercalate_cons_cons, List.append_assoc]
          exact ht.alternatives.or (ih (by simp))

theorem reads_intercalate (c : Connective) {tss : List (List Token)} {bs : List Bool}
    (h : List.Forall₂ (Factor truth) tss bs) (hne : bs ≠ []) :
    Alternatives truth ([.join c].intercalate tss) (fold c bs) := by
  cases c with
  | and => exact (factor_intercalate h hne).alternatives
  | or => exact alternatives_intercalate h hne

inductive Condition where
  | atom (a : Atom)
  | join (c : Connective) (left right : Condition)

namespace Condition

def holds (truth : Atom → Bool) : Condition → Bool
  | atom a => truth a
  | join .and left right => left.holds truth && right.holds truth
  | join .or left right => left.holds truth || right.holds truth

/-- Parentheses where a factor has alternatives. -/
def guard : Condition → List Token → List Token
  | join .or _ _, ts => .opening :: (ts ++ [.closing])
  | _, ts => ts

def tokens : Condition → List Token
  | atom a => [.atom a]
  | join .and left right => left.guard left.tokens ++ .join .and :: right.guard right.tokens
  | join .or left right => left.tokens ++ .join .or :: right.tokens

theorem factor_guard {c : Condition} {ts : List Token} {b : Bool}
    (hor : Alternatives truth ts b) (hand : (∀ l r, c ≠ join .or l r) → Factor truth ts b) :
    Factor truth (c.guard ts) b := by
  match c with
  | atom a => exact hand (by simp)
  | join .and l r => exact hand (by simp)
  | join .or l r => exact hor.paren

theorem reads (truth : Atom → Bool) (c : Condition) :
    Alternatives truth c.tokens (c.holds truth) ∧
      ((∀ l r, c ≠ join .or l r) → Factor truth c.tokens (c.holds truth)) := by
  induction c with
  | atom a => exact ⟨(factor_atom truth a).alternatives, fun _ => factor_atom truth a⟩
  | join c left right ihl ihr =>
      cases c with
      | and =>
          have hand := (factor_guard ihl.1 ihl.2).and (factor_guard ihr.1 ihr.2)
          exact ⟨hand.alternatives, fun _ => hand⟩
      | or => exact ⟨ihl.1.or ihr.1, fun h => absurd rfl (h left right)⟩

/-- Every condition is read back as what it says from the text with the fewest parentheses. -/
theorem evaluate_tokens (truth : Atom → Bool) (c : Condition) :
    evaluate truth c.tokens = some (c.holds truth) := (c.reads truth).1.evaluate

end Condition

end ClauseWeave.Sql
