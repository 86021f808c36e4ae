import ClauseWeave.Proofs.Levelling
import ClauseWeave.Proofs.Steadiness

namespace ClauseWeave

namespace Text

end Text

namespace Tidy

open Text

def Quiet (rule : Rule) (before : Option Char) : List Char → Prop
  | [] => True
  | c :: s => rule before (c :: s) = none ∧ Quiet rule (some c) s

theorem Still.behind {before : Option Char} {front back : List Char}
    (h : Still before (front ++ back)) (hne : back ≠ []) :
    ∀ rule ∈ rules, rule (front.getLast?.or before) back = none := by
  induction front generalizing before with
  | nil =>
      obtain ⟨c, back, rfl⟩ := List.exists_cons_of_ne_nil hne
      exact h.1
  | cons d front ih =>
      have hrest := ih h.2
      rw [List.getLast?_cons]
      cases hlast : front.getLast? <;> simpa [hlast] using hrest

example : tidy "(a  AND (( OR ) AND ) ) OR AND b OR".toList = "(a) OR b".toList := by
  decide +kernel

end Tidy

end ClauseWeave
