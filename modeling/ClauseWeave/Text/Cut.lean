import ClauseWeave.Text.Blank

namespace ClauseWeave.Text

def cutAt (c : Char) : List Char → Option (List Char × List Char)
  | [] => none
  | d :: rest =>
    if d = c then some ([], rest)
    else (cutAt c rest).map fun (before, after) => (d :: before, after)

def cutAtLast (c : Char) (s : List Char) : Option (List Char × List Char) :=
  (cutAt c s.reverse).map fun (after, before) => (before.reverse, after.reverse)

def after? : List Char → List Char → Option (List Char)
  | [], s => some s
  | _ :: _, [] => none
  | c :: start, d :: s => if c = d then after? start s else none

/-- `key=value` with both sides trimmed; the key may not be empty. -/
def keyValue (s : String) : Option (String × String) :=
  match cutAt '=' s.toList with
  | some (key, value) =>
    let key := trim key
    if key.isEmpty then none else some (String.ofList key, String.ofList (trim value))
  | none => none

def preview (s : String) (max : Nat) : String :=
  let trimmed := trim s.toList
  if max < trimmed.length then String.ofList (trimmed.take max) ++ "..."
  else String.ofList trimmed

theorem cutAt_eq_some {c : Char} {s before after : List Char}
    (h : cutAt c s = some (before, after)) : s = before ++ c :: after ∧ c ∉ before := by
  induction s generalizing before with
  | nil => simp [cutAt] at h
  | cons d rest ih =>
    by_cases hd : d = c
    · simp only [cutAt, hd, if_true, Option.some.injEq, Prod.mk.injEq] at h
      obtain ⟨rfl, rfl⟩ := h
      simp [hd]
    · simp only [cutAt, hd, if_false, Option.map_eq_some_iff, Prod.mk.injEq] at h
      obtain ⟨⟨b, a⟩, hcut, rfl, rfl⟩ := h
      obtain ⟨rfl, hmem⟩ := ih hcut
      exact ⟨rfl, by simp [Ne.symm hd, hmem]⟩

theorem cutAtLast_eq_some {c : Char} {s before after : List Char}
    (h : cutAtLast c s = some (before, after)) : s = before ++ c :: after ∧ c ∉ after := by
  obtain ⟨⟨a, b⟩, hcut, he⟩ := Option.map_eq_some_iff.1 h
  obtain ⟨rfl, rfl⟩ := Prod.mk.inj he
  obtain ⟨hs, hmem⟩ := cutAt_eq_some hcut
  refine ⟨?_, by simpa using hmem⟩
  have := congrArg List.reverse hs
  simpa using this

theorem cutAt_append {c : Char} {before after : List Char} (h : c ∉ before) :
    cutAt c (before ++ c :: after) = some (before, after) := by
  induction before with
  | nil => simp [cutAt]
  | cons d rest ih =>
    simp only [List.mem_cons, not_or] at h
    simp [cutAt, Ne.symm h.1, ih h.2]

theorem cutAtLast_append {c : Char} {before after : List Char} (h : c ∉ after) :
    cutAtLast c (before ++ c :: after) = some (before, after) := by
  have hc : c ∉ after.reverse := by simpa using h
  simp [cutAtLast, cutAt_append hc]

theorem after?_eq_some_iff {start s rest : List Char} :
    after? start s = some rest ↔ s = start ++ rest := by
  induction start generalizing s with
  | nil => simp [after?, eq_comm]
  | cons c start ih =>
    cases s with
    | nil => simp [after?]
    | cons d s =>
      by_cases h : c = d
      · simp [after?, h, ih]
      · simp [after?, h, Ne.symm h]

end ClauseWeave.Text
