import ClauseWeave.Clause.Piece
import ClauseWeave.Filter.Input
import ClauseWeave.Proofs.Counting
import Mathlib.Data.List.Nodup
import Mathlib.Data.List.Perm.Subperm

namespace ClauseWeave.Name

theorem toList_numbered (base : String) (n : Nat) :
    (numbered base n).toList = base.toList ++ '_' :: Nat.toDigits 10 n := by
  simp [numbered]

theorem length_lt_numbered (base : String) (n : Nat) :
    base.toList.length < (numbered base n).toList.length := by
  rw [toList_numbered, List.length_append, List.length_cons]
  omega

theorem numbered_ne_of_splitCounter {name base : String} {n m : Nat}
    (h : splitCounter name = (base, some n)) (hm : m ≠ n) : numbered base m ≠ name := by
  intro he
  obtain ⟨-, hdigits, -⟩ := splitCounter_eq_some_iff.1 h
  exact hm ((digits_toDigits m).append_inj hdigits he).2

theorem length_base_lt {name base : String} {n : Nat} (h : splitCounter name = (base, some n)) :
    base.toList.length < name.toList.length := by
  obtain ⟨digits, hname⟩ := (splitCounter_eq_some_iff.1 h).exists_toList_eq
  rw [hname, List.length_append, List.length_cons]
  omega

theorem numbered_ne_self (name : String) (m : Nat) : numbered name m ≠ name := by
  intro he
  have hl := length_lt_numbered name m
  rw [he] at hl
  exact Nat.lt_irrefl _ hl

theorem attempt_succ_ne (candidate : String) (k : Nat) : attempt candidate (k + 1) ≠ candidate := by
  simp only [attempt]
  split
  next base n h =>
    split
    next => exact numbered_ne_of_splitCounter h (by omega)
    next => exact numbered_ne_self candidate _
  next => exact numbered_ne_self candidate _

theorem attempt_succ_inj {candidate : String} {j k : Nat}
    (h : attempt candidate (j + 1) = attempt candidate (k + 1)) : j = k := by
  simp only [attempt] at h
  split at h
  next base n hsplit =>
    -- a base is shorter than its candidate, so the two runs of counters do not meet
    have hl := length_base_lt hsplit
    split at h <;> split at h
    next hj hk =>
      have := (numbered_inj h).2
      omega
    next hj hk =>
      rw [(numbered_inj h).1] at hl
      exact absurd hl (Nat.lt_irrefl _)
    next hj hk =>
      rw [(numbered_inj h).1] at hl
      exact absurd hl (Nat.lt_irrefl _)
    next hj hk =>
      have := (numbered_inj h).2
      omega
  next =>
    have := (numbered_inj h).2
    omega

theorem attempt_injective (candidate : String) : Function.Injective (attempt candidate) := by
  intro j k h
  cases j with
  | zero =>
      cases k with
      | zero => rfl
      | succ k => exact absurd h.symm (attempt_succ_ne candidate k)
  | succ j =>
      cases k with
      | zero => exact absurd h (attempt_succ_ne candidate j)
      | succ k => rw [attempt_succ_inj h]

theorem exists_attempt_not_mem (candidate : String) (used : List String) :
    ∃ i ∈ List.range (used.length + 1), attempt candidate i ∉ used := by
  by_contra hall
  push Not at hall
  have hnodup : ((List.range (used.length + 1)).map (attempt candidate)).Nodup :=
    List.nodup_range.map (attempt_injective candidate)
  have hsub : (List.range (used.length + 1)).map (attempt candidate) ⊆ used := by
    intro name hname
    obtain ⟨i, hi, rfl⟩ := List.mem_map.1 hname
    exact hall i hi
  have hl := (List.subperm_of_subset hnodup hsub).length_le
  simp only [List.length_map, List.length_range] at hl
  omega

theorem exists_find?_eq_some (candidate : String) (used : List String) :
    ∃ i, (List.range (used.length + 1)).find? (fun i => attempt candidate i ∉ used) = some i ∧
      fresh candidate used = attempt candidate i := by
  unfold fresh
  split
  next i hi => exact ⟨i, hi, rfl⟩
  next hnone =>
    obtain ⟨i, hi, hfree⟩ := exists_attempt_not_mem candidate used
    have := List.find?_eq_none.1 hnone i hi
    simp [hfree] at this

theorem fresh_spec (candidate : String) (used : List String) :
    (∃ i, fresh candidate used = attempt candidate i) ∧ fresh candidate used ∉ used := by
  obtain ⟨i, hi, he⟩ := exists_find?_eq_some candidate used
  have hfree := List.find?_some hi
  rw [he]
  exact ⟨⟨i, rfl⟩, by simpa using hfree⟩

theorem fresh_eq (candidate : String) (used : List String) :
    fresh candidate used = candidate ∨
      ∃ base n, fresh candidate used = numbered base n ∧ base.toList ⊆ candidate.toList := by
  obtain ⟨⟨i, hi⟩, -⟩ := fresh_spec candidate used
  rw [hi]
  cases i with
  | zero => exact .inl rfl
  | succ k =>
      right
      simp only [attempt]
      split
      next base n hsplit =>
        have hbase : base.toList ⊆ candidate.toList := by
          obtain ⟨digits, hname⟩ := (splitCounter_eq_some_iff.1 hsplit).exists_toList_eq
          rw [hname]
          exact List.subset_append_left _ _
        split
        next => exact ⟨base, _, rfl, hbase⟩
        next => exact ⟨candidate, _, rfl, List.Subset.refl _⟩
      next => exact ⟨candidate, _, rfl, List.Subset.refl _⟩

theorem mem_toList_fresh {candidate : String} {used : List String} {c : Char}
    (h : c ∈ (fresh candidate used).toList) :
    c ∈ candidate.toList ∨ c = '_' ∨ c.isDigit = true := by
  rcases fresh_eq candidate used with he | ⟨base, n, he, hbase⟩
  · exact .inl (he ▸ h)
  · rw [he, toList_numbered, List.mem_append, List.mem_cons] at h
    rcases h with h | h | h
    · exact .inl (hbase h)
    · exact .inr (.inl h)
    · exact .inr (.inr (Nat.isDigit_of_mem_toDigits (by decide) (by decide) h))

theorem fresh_ne_empty {candidate : String} (h : candidate ≠ "") (used : List String) :
    fresh candidate used ≠ "" := by
  rcases fresh_eq candidate used with he | ⟨base, n, he, -⟩
  · rwa [he]
  · intro hempty
    have hl := length_lt_numbered base n
    simp [← he, hempty] at hl

theorem fresh_not_mem (candidate : String) (used : List String) : fresh candidate used ∉ used :=
  (fresh_spec candidate used).2

theorem fresh_eq_self {candidate : String} {used : List String} (h : candidate ∉ used) :
    fresh candidate used = candidate := by
  simp [fresh, List.range_succ_eq_map, attempt, h]

end ClauseWeave.Name

namespace ClauseWeave

theorem isDecimal_of_isDigit {c : Char} (h : c.isDigit = true) : Text.isDecimal c = true := by
  simp only [Char.isDigit, Bool.and_eq_true, decide_eq_true_eq, UInt32.le_iff_toNat_le] at h
  have hlo : ¬ c.toNat < 48 := Nat.not_lt.2 h.1
  have hhi : c.toNat ≤ 57 := h.2
  simp only [Text.isDecimal, Text.decimalRanges, Text.inRanges, hlo, hhi, if_true, if_false]

theorem isWord_of_isDigit {c : Char} (h : c.isDigit = true) : Text.isWord c = true := by
  simp [Text.isWord, isDecimal_of_isDigit h]

theorem isWord_underscore : Text.isWord '_' = true := by decide

namespace Piece.Reading

/-- Names may get counters, and hold none of the characters by which texts are told apart. -/
structure Sound (r : Reading) : Prop where
  apart : ∀ c ∈ [':', '\'', ' ', ')'], r.isName c = false
  underscore : r.isName '_' = true
  digit : ∀ c : Char, c.isDigit = true → r.isName c = true

theorem apart_of_all {p : Char → Bool} {signs : List Char}
    (h : (signs.all fun c => !p c) = true) : ∀ c ∈ signs, p c = false := by
  intro c hc
  simpa using List.all_eq_true.1 h c hc

theorem Sound.wide : wide.Sound :=
  ⟨apart_of_all (by decide), isWord_underscore, fun _ => isWord_of_isDigit⟩

theorem Sound.narrow : narrow.Sound := by
  refine ⟨apart_of_all (by decide), by decide, fun c hc => ?_⟩
  change Text.isNameChar c = true
  simp [Text.isNameChar, Text.isNumeric, isDecimal_of_isDigit hc]

def IsName (r : Reading) (s : String) : Prop := s ≠ "" ∧ ∀ c ∈ s.toList, r.isName c = true

instance (r : Reading) (s : String) : Decidable (r.IsName s) :=
  @instDecidableAnd _ _ _ (List.decidableBAll (fun c => r.isName c = true) s.toList)

theorem IsName.fresh {r : Reading} (hr : r.Sound) {candidate : String} (h : r.IsName candidate)
    (used : List String) : r.IsName (Name.fresh candidate used) := by
  refine ⟨Name.fresh_ne_empty h.1 used, fun c hc => ?_⟩
  rcases Name.mem_toList_fresh hc with hc | rfl | hc
  · exact h.2 c hc
  · exact hr.underscore
  · exact hr.digit c hc

end Piece.Reading

/-- What a marker of a clause can be called: clauses have the wide reading. -/
abbrev IsName (s : String) : Prop := Piece.Reading.wide.IsName s

theorem mem_of_mem_intercalate {α : Type} {sep : List α} {parts : List (List α)} {a : α}
    (h : a ∈ sep.intercalate parts) : a ∈ sep ∨ ∃ part ∈ parts, a ∈ part := by
  induction parts with
  | nil => simp at h
  | cons part rest ih =>
      cases rest with
      | nil => exact .inr ⟨part, by simp, by simpa using h⟩
      | cons next rest =>
          rw [List.intercalate_cons_cons, List.mem_append, List.mem_append] at h
          rcases h with (h | h) | h
          · exact .inr ⟨part, by simp, h⟩
          · exact .inl h
          · rcases ih h with h | ⟨p, hp, ha⟩
            · exact .inl h
            · exact .inr ⟨p, List.mem_cons_of_mem _ hp, ha⟩

theorem mem_intercalate_of_mem {α : Type} {sep : List α} {parts : List (List α)} {part : List α}
    {a : α} (hpart : part ∈ parts) (h : a ∈ part) : a ∈ sep.intercalate parts := by
  induction parts with
  | nil => simp at hpart
  | cons first rest ih =>
      cases rest with
      | nil =>
          obtain rfl := List.mem_singleton.1 hpart
          simpa using h
      | cons next rest =>
          rw [List.intercalate_cons_cons, List.mem_append]
          rcases List.mem_cons.1 hpart with rfl | hpart
          · exact .inl (List.mem_append_left _ h)
          · exact .inr (ih hpart)

theorem chars_of_isPath {path : String} (h : isPath path = true) :
    path ≠ "" ∧ ∀ c ∈ path.toList, Text.isWord c = true ∨ c = '.' := by
  simp only [isPath, List.all_eq_true, Bool.and_eq_true, Bool.not_eq_true'] at h
  constructor
  · rintro rfl
    simpa using h [] (by simp)
  · intro c hc
    rw [← @List.intercalate_splitOn _ path.toList _ _ '.'] at hc
    rcases mem_of_mem_intercalate hc with hc | ⟨part, hpart, hc⟩
    · exact .inr (by simpa using hc)
    · exact .inl ((h part hpart).2 c hc)

theorem IsName.ofPath {path : String} (h : isPath path = true) : IsName (Name.ofPath path) := by
  obtain ⟨hne, hchars⟩ := chars_of_isPath h
  constructor
  · simpa [Name.ofPath] using hne
  · intro c hc
    simp only [Name.ofPath, String.toList_ofList, List.mem_map] at hc
    obtain ⟨d, hd, rfl⟩ := hc
    split
    next => exact isWord_underscore
    next hdot => exact (hchars d hd).resolve_right hdot

end ClauseWeave
