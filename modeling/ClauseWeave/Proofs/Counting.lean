import ClauseWeave.Name

namespace ClauseWeave.Name

/-- Decimal digits with the value `n`, which may begin with zeros. -/
structure Digits (s : List Char) (n : Nat) : Prop where
  ne_nil : s ≠ []
  digits : ∀ c ∈ s, c.isDigit = true
  value : Nat.ofDigitChars 10 s 0 = n

theorem digits_toDigits (n : Nat) : Digits (Nat.toDigits 10 n) n where
  ne_nil := Nat.toDigits_ne_nil
  digits _ hc := Nat.isDigit_of_mem_toDigits (by decide) (by decide) hc
  value := Nat.ofDigitChars_ten_toDigits

theorem Digits.underscore_not_mem {s : List Char} {n : Nat} (h : Digits s n) : '_' ∉ s :=
  fun hmem => absurd (h.digits '_' hmem) (by decide)

theorem decimal?_eq_some_iff {s : List Char} {n : Nat} : decimal? s = some n ↔ Digits s n := by
  have hvalue : Nat.ofDigitChars 10 s 0 = s.foldl (fun n c => 10 * n + (c.toNat - 48)) 0 := rfl
  unfold decimal?
  split
  next hbad =>
    rw [Bool.or_eq_true, List.isEmpty_iff, Bool.not_eq_true', List.all_eq_false] at hbad
    refine ⟨fun h => by simp at h, fun h => ?_⟩
    rcases hbad with hnil | ⟨c, hc, hdigit⟩
    · exact absurd hnil h.ne_nil
    · exact absurd (h.digits c hc) hdigit
  next hgood =>
    rw [Bool.or_eq_true, not_or, List.isEmpty_iff, Bool.not_eq_true', Bool.not_eq_false,
      List.all_eq_true] at hgood
    rw [Option.some.injEq, ← hvalue]
    exact ⟨fun h => ⟨hgood.1, hgood.2, h⟩, fun h => h.value⟩

/-- A base that is not empty, an underscore and digits whose value has 64 bits. The base may end in
a counter itself. -/
inductive Counted (base : String) (n : Nat) : String → Prop
  | intro {digits : List Char} (hbase : base ≠ "") (hdigits : Digits digits n)
      (hn : n < UInt64.size) : Counted base n (base ++ "_" ++ String.ofList digits)

theorem toList_append_digits (base : String) (digits : List Char) :
    (base ++ "_" ++ String.ofList digits).toList = base.toList ++ '_' :: digits := by
  simp

theorem cutAtLast_append_digits (base : String) {digits : List Char} {n : Nat}
    (h : Digits digits n) : Text.cutAtLast '_' (base ++ "_" ++ String.ofList digits).toList =
      some (base.toList, digits) := by
  rw [toList_append_digits]
  exact Text.cutAtLast_append h.underscore_not_mem

theorem Digits.append_inj {base base' : String} {digits digits' : List Char} {n n' : Nat}
    (h : Digits digits n) (h' : Digits digits' n')
    (he : base ++ "_" ++ String.ofList digits = base' ++ "_" ++ String.ofList digits') :
    base = base' ∧ n = n' := by
  have hcut := cutAtLast_append_digits base h
  rw [he, cutAtLast_append_digits base' h', Option.some.injEq, Prod.mk.injEq] at hcut
  obtain ⟨hbase, rfl⟩ := hcut
  exact ⟨(String.toList_inj.1 hbase).symm, h.value.symm.trans h'.value⟩

theorem numbered_inj {base base' : String} {n n' : Nat} (h : numbered base n = numbered base' n') :
    base = base' ∧ n = n' :=
  (digits_toDigits n).append_inj (digits_toDigits n') h

theorem Counted.numbered {base : String} {n : Nat} (hbase : base ≠ "") (hn : n < UInt64.size) :
    Counted base n (numbered base n) :=
  .intro hbase (digits_toDigits n) hn

theorem Counted.lt_size {name base : String} {n : Nat} (h : Counted base n name) :
    n < UInt64.size := by
  obtain ⟨-, -, hn⟩ := h
  exact hn

theorem Counted.exists_toList_eq {name base : String} {n : Nat} (h : Counted base n name) :
    ∃ digits, name.toList = base.toList ++ '_' :: digits := by
  obtain ⟨-, -, -⟩ := h
  exact ⟨_, toList_append_digits base _⟩

theorem greatestCounter_lt_iff {n : Nat} : greatestCounter < n ↔ ¬ n < UInt64.size := by
  have hsize : greatestCounter + 1 = UInt64.size := rfl
  omega

theorem splitCounter_eq_some_iff {name base : String} {n : Nat} :
    splitCounter name = (base, some n) ↔ Counted base n name := by
  constructor
  · intro h
    unfold splitCounter at h
    split at h
    next front digits hcut =>
      split at h
      next m hm =>
        split at h
        next => simp at h
        next hgood =>
          obtain ⟨rfl, hn⟩ := Prod.mk.inj h
          obtain rfl := Option.some.inj hn
          rw [Bool.or_eq_true, decide_eq_true_eq, not_or, greatestCounter_lt_iff,
            Decidable.not_not, List.isEmpty_iff] at hgood
          have hname : name = String.ofList front ++ "_" ++ String.ofList digits := by
            rw [← String.toList_inj, toList_append_digits, String.toList_ofList]
            exact (Text.cutAtLast_eq_some hcut).1
          rw [hname]
          exact .intro (by simpa using hgood.1) (decimal?_eq_some_iff.1 hm) hgood.2
      next => simp at h
    next => simp at h
  · rintro ⟨hbase, hdigits, hn⟩
    have hlow : ¬ greatestCounter < n := fun hlt => greatestCounter_lt_iff.1 hlt hn
    simp only [splitCounter, cutAtLast_append_digits base hdigits, decimal?_eq_some_iff.2 hdigits]
    simp [hbase, hlow]

theorem eq_of_splitCounter_eq_none {name base : String} (h : splitCounter name = (base, none)) :
    base = name := by
  unfold splitCounter at h
  repeat' split at h
  all_goals simp_all

theorem splitCounter_eq_none_iff {name : String} :
    splitCounter name = (name, none) ↔ ∀ base n, ¬ Counted base n name := by
  simp only [← splitCounter_eq_some_iff]
  constructor
  · intro h base n hsome
    simp [h] at hsome
  · intro h
    rcases hsplit : splitCounter name with ⟨base, _ | n⟩
    · rw [eq_of_splitCounter_eq_none hsplit]
    · exact absurd hsplit (h base n)

/-- Splitting a numbered name gives back its base and its counter. In general a name has a counter
if it is a base that is not empty, an underscore and digits whose value has 64 bits, which are then
the base and the counter; every other name comes back whole. -/
theorem splitCounter_inverts_numbered :
    (∀ base n, base ≠ "" → n < UInt64.size → splitCounter (numbered base n) = (base, some n)) ∧
      ∀ name, (∀ base n, splitCounter name = (base, some n) ↔ Counted base n name) ∧
        (splitCounter name = (name, none) ↔ ∀ base n, ¬ Counted base n name) := by
  constructor
  · intro base n hbase hn
    exact splitCounter_eq_some_iff.2 (.numbered hbase hn)
  · intro name
    exact ⟨fun base n => splitCounter_eq_some_iff, splitCounter_eq_none_iff⟩

/-- The base has a counter of its own, and the counter behind it is the greatest. -/
theorem splitCounter_inverts_numbered_greatest : "age_07" ≠ "" ∧ greatestCounter < UInt64.size ∧
    numbered "age_07" greatestCounter = "age_07_18446744073709551615" ∧
    splitCounter "age_07_18446744073709551615" = ("age_07", some greatestCounter) := by
  have hbase : "age_07" ≠ "" := by decide
  have hname : numbered "age_07" greatestCounter = "age_07_18446744073709551615" := by
    decide +kernel
  have hsplit := splitCounter_inverts_numbered.1 "age_07" greatestCounter hbase (by decide)
  exact ⟨hbase, by decide, hname, hname ▸ hsplit⟩

example : ["v_007", "v_", "_3", "42", "n_18446744073709551616"].map splitCounter =
    [("v", some 7), ("v_", none), ("_3", none), ("42", none), ("n_18446744073709551616", none)] := by
  decide +kernel

end ClauseWeave.Name
