import ClauseWeave.Proofs.Spotting

namespace ClauseWeave

inductive Refused (tokens : Tokens) : Failure → Prop
  | undefined {name : String} (h : tokens.get? name = none) : Refused tokens (.undefinedToken name)
  | params {p : Placeholder} {rendered : String} (hparams : p.params.isSome = true)
      (h : tokens.get? (String.ofList p.name) = some (.replace rendered)) :
      Refused tokens (.paramsNotSupported (String.ofList p.raw))

/-- The passes that a text goes through until no placeholder is left in it or one of them is
refused. The pass that meets the refused one counts. -/
inductive Expands (tokens : Tokens) : Nat → List Char → Except Failure (List Char) → Prop
  | done {s : List Char} (h : namesIn s = []) : Expands tokens 0 s (.ok s)
  | refused {s : List Char} {e : Failure} (h : namesIn s ≠ [])
      (he : expandSegments tokens (Segment.scan s) = .error e) : Expands tokens 1 s (.error e)
  | pass {n : Nat} {s s' : List Char} {out : Except Failure (List Char)} (h : namesIn s ≠ [])
      (hs : expandSegments tokens (Segment.scan s) = .ok s')
      (hout : Expands tokens n (Text.collapse s') out) : Expands tokens (n + 1) s out

section Passes

variable {tokens : Tokens} {s : List Char}

theorem refused_of_resolve {p : Placeholder} {e : Failure} (h : p.resolve tokens = .error e) :
    Refused tokens e := by
  rw [Placeholder.resolve] at h
  split at h
  next hnone =>
    cases h
    exact .undefined hnone
  next => cases h
  next hreplace =>
    split at h
    next => cases h
    next hparams =>
      cases h
      exact .params (by rw [hparams]; rfl) hreplace
  next => split at h <;> cases h

theorem refused_of_expandSegments {segments : List Segment} {e : Failure}
    (h : expandSegments tokens segments = .error e) : Refused tokens e := by
  induction segments with
  | nil => cases h
  | cons seg rest ih =>
      have hmap {f : List Char → List Char}
          (hf : (expandSegments tokens rest).map f = .error e) : Refused tokens e := by
        cases hrest : expandSegments tokens rest with
        | ok t => rw [hrest] at hf; cases hf
        | error e' => rw [hrest] at hf; cases hf; exact ih hrest
      cases seg with
      | plain c => exact hmap h
      | placeholder p =>
          rw [expandSegments] at h
          cases hp : p.resolve tokens with
          | error e' =>
              rw [hp] at h
              cases h
              exact refused_of_resolve hp
          | ok t => rw [hp] at h; exact hmap h

/-- A text without placeholders, or the failure of a placeholder that is refused. -/
def Final (tokens : Tokens) : Except Failure (List Char) → Prop
  | .ok r => namesIn r = []
  | .error e => Refused tokens e

theorem Expands.final {n : Nat} {out : Except Failure (List Char)}
    (h : Expands tokens n s out) : Final tokens out := by
  induction h with
  | done h => exact h
  | refused _ he => exact refused_of_expandSegments he
  | pass _ _ _ ih => exact ih

theorem expand_of_namesIn (limit left : Nat) (h : namesIn s ≠ []) : expand tokens limit left s =
    match left with
    | 0 => .error (.passLimit limit)
    | left + 1 => (expandSegments tokens (Segment.scan s)).bind fun s' =>
        expand tokens limit left (Text.collapse s') := by
  have hany : (Segment.scan s).any Segment.isPlaceholder = true := by
    rwa [Ne, namesIn_eq_nil_iff, Bool.not_eq_false] at h
  rw [expand.eq_def]
  simp only [hany, Bool.not_true, Bool.false_eq_true, if_false]
  cases left with
  | zero => rfl
  | succ left => cases expandSegments tokens (Segment.scan s) <;> rfl

theorem expand_of_namesIn_eq_nil (limit left : Nat) (h : namesIn s = []) :
    expand tokens limit left s = .ok s := by
  rw [expand.eq_def]
  simp [namesIn_eq_nil_iff.1 h]

/-- The outcome is reached if and only if the passes for it are left. -/
theorem Expands.expand_eq {n : Nat} {out : Except Failure (List Char)} (h : Expands tokens n s out)
    (limit left : Nat) :
    expand tokens limit left s = if n ≤ left then out else .error (.passLimit limit) := by
  induction h generalizing left with
  | done h => rw [expand_of_namesIn_eq_nil limit left h, if_pos (Nat.zero_le left)]
  | refused h he =>
      rw [expand_of_namesIn limit left h]
      cases left with
      | zero => rfl
      | succ left => simp [he, Except.bind]
  | pass h hs _ ih =>
      rw [expand_of_namesIn limit left h]
      cases left with
      | zero => rfl
      | succ left => simp [hs, Except.bind, ih]

theorem expand_of_not_expands (h : ∀ n out, ¬ Expands tokens n s out) (limit left : Nat) :
    expand tokens limit left s = .error (.passLimit limit) := by
  have hnames : namesIn s ≠ [] := fun hnil => h 0 _ (.done hnil)
  induction left generalizing s with
  | zero => exact expand_of_namesIn limit 0 hnames
  | succ left ih =>
      rw [expand_of_namesIn limit (left + 1) hnames]
      cases hs : expandSegments tokens (Segment.scan s) with
      | error e => exact absurd (.refused hnames hs) (h 1 _)
      | ok s' =>
          have hrest : ∀ n out, ¬ Expands tokens n (Text.collapse s') out :=
            fun n out hout => h (n + 1) out (.pass hnames hs hout)
          exact ih hrest fun hnil => hrest 0 _ (.done hnil)

theorem expand_eq_ok_iff {limit left : Nat} {r : List Char} :
    expand tokens limit left s = .ok r ↔ ∃ n ≤ left, Expands tokens n s (.ok r) := by
  constructor
  · intro h
    by_cases hout : ∃ n out, Expands tokens n s out
    · obtain ⟨n, out, hout⟩ := hout
      rw [hout.expand_eq] at h
      split at h
      next hn =>
        obtain rfl := h
        exact ⟨n, hn, hout⟩
      next => cases h
    · rw [expand_of_not_expands fun n out h => hout ⟨n, out, h⟩] at h
      cases h
  · rintro ⟨n, hn, hout⟩
    rw [hout.expand_eq, if_pos hn]

end Passes

section Render

variable {tokens : Tokens} {template : String}

theorem render_final_or_passLimit (tokens : Tokens) (template : String) (m : Nat) :
    (∃ out, Final tokens out ∧
      ∀ limit, m ≤ limit → render tokens limit template = out.map String.ofList) ∨
    render tokens m template = .error (.passLimit m) := by
  by_cases h : ∃ n out, Expands tokens n template.toList out
  · obtain ⟨n, out, hout⟩ := h
    by_cases hn : n ≤ m
    · refine .inl ⟨out, hout.final, fun limit hlimit => ?_⟩
      rw [render, hout.expand_eq, if_pos (hn.trans hlimit)]
    · refine .inr ?_
      rw [render, hout.expand_eq, if_neg hn]
      rfl
  · refine .inr ?_
    rw [render, expand_of_not_expands fun n out hout => h ⟨n, out, hout⟩]
    rfl

theorem render_of_placeholders_eq_nil (limit : Nat) (h : placeholders template = []) :
    render tokens limit template = .ok template := by
  rw [render, expand_of_namesIn_eq_nil limit limit (placeholders_eq_nil_iff.1 h)]
  simp [Except.map]

/-- A higher limit never takes an outcome back: what is written out has no placeholder left and is
written out again as it is, a placeholder that is refused is refused still, and only a template that
met the limit can come to something else. -/
theorem render_mono_limit {m m' : Nat} (h : m ≤ m') (tokens : Tokens) (template : String) :
    (∀ r, render tokens m template = .ok r →
      placeholders r = [] ∧ render tokens m' template = .ok r ∧
        ∀ limit, render tokens limit r = .ok r) ∧
      (∀ e, render tokens m template = .error e →
        e = .passLimit m ∨ (Refused tokens e ∧ render tokens m' template = .error e)) ∧
      (render tokens m' template = render tokens m template ∨
        render tokens m template = .error (.passLimit m)) := by
  rcases render_final_or_passLimit tokens template m with ⟨out, hfinal, hrender⟩ | hlimit
  · rw [hrender m le_rfl, hrender m' h]
    cases out with
    | ok r =>
        have hnone : placeholders (String.ofList r) = [] := by
          rw [placeholders_eq_nil_iff, String.toList_ofList]
          exact hfinal
        refine ⟨?_, fun e he => (by cases he), .inl rfl⟩
        rintro _ ⟨⟩
        exact ⟨hnone, rfl, fun limit => render_of_placeholders_eq_nil limit hnone⟩
    | error e =>
        refine ⟨fun r hr => (by cases hr), ?_, .inl rfl⟩
        rintro _ ⟨⟩
        exact .inr ⟨hfinal, rfl⟩
  · rw [hlimit]
    refine ⟨fun r hr => (by cases hr), ?_, .inr rfl⟩
    rintro _ ⟨⟩
    exact .inl rfl

end Render

def desk : Tokens := .ofList [("columns", .text "id,  %extra"), ("extra", .replace "name"),
  ("where", .projected "WHERE id=:id" fun params name => name ++ " " ++ params)]

theorem render_mono_limit_desk :
    2 ≤ 7 ∧ render desk 2 "%columns %where\x7bid\x7d" = .ok "id, name where id" ∧
      render desk 7 "%columns %where\x7bid\x7d" = .ok "id, name where id" ∧
      placeholders "id, name where id" = [] ∧
      1 ≤ 7 ∧ render desk 1 "%extra\x7bid\x7d" = .error (.paramsNotSupported "%extra\x7bid\x7d") ∧
      render desk 7 "%extra\x7bid\x7d" = .error (.paramsNotSupported "%extra\x7bid\x7d") := by
  have hok : render desk 2 "%columns %where\x7bid\x7d" = .ok "id, name where id" := by
    decide +kernel
  have herror :
      render desk 1 "%extra\x7bid\x7d" = .error (.paramsNotSupported "%extra\x7bid\x7d") := by
    decide +kernel
  obtain ⟨hnone, hok', -⟩ :=
    (render_mono_limit (by decide : 2 ≤ 7) desk "%columns %where\x7bid\x7d").1 _ hok
  have hlater := (render_mono_limit (by decide : 1 ≤ 7) desk "%extra\x7bid\x7d").2.1 _ herror
  exact ⟨by decide, hok, hok', hnone, by decide, herror, (hlater.resolve_left (by decide)).2⟩

end ClauseWeave
