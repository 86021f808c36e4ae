import ClauseWeave.Proofs.Admitting
import ClauseWeave.Proofs.Listing

namespace ClauseWeave

def Step.bound? : Step → Option String
  | .token name _ => some name
  | _ => none

namespace Session

variable {s : Session} {name : String}

theorem get?_tokens_perform {next : Session} {step : Step} (hname : step.bound? ≠ some name)
    (h : s.perform step = .ok next) : next.tokens.get? name = s.tokens.get? name := by
  cases step with
  | narrow call =>
      simp only [perform, narrow] at h
      split at h
      next => cases h
      next => split at h <;> cases h; rfl
  | join | conditions | page | order => cases h; rfl
  | token name' make =>
      cases h
      have hne : name ≠ name' := fun he => hname (congrArg some he.symm)
      simp only [setToken]
      cases s.document.tokens.get? name' <;> simp [hne]
  | type type factory =>
      simp only [perform, addType] at h
      cases hregistry : s.registry.register type factory with
      | error e => rw [hregistry] at h; cases h
      | ok registry => rw [hregistry] at h; cases h; rfl

theorem get?_tokens_run {steps : List Step} (hname : ∀ step ∈ steps, step.bound? ≠ some name) :
    (s.run steps).tokens.get? name = s.tokens.get? name := by
  induction steps generalizing s with
  | nil => rfl
  | cons step rest ih =>
      obtain ⟨hstep, hrest⟩ := List.forall_mem_cons.1 hname
      rw [run]
      cases hnext : s.perform step with
      | error e => exact ih hrest
      | ok next => exact (ih hrest).trans (get?_tokens_perform hstep hnext)

theorem tokens_start {document : Document} {config : Config} (h : start document config = .ok s) :
    s.tokens = ∅ := by
  unfold start at h
  split at h <;> cases h
  rfl

end Session

section Alone

variable {tokens : Tokens} {p : Placeholder} {s : List Char} {value : String}
  (hread : Placeholder.Reads s p []) (hvalue : p.resolve tokens = .ok value)

include hread hvalue

theorem render_placeholder_eq_ok_iff (limit : Nat) (r : String) :
    render tokens (limit + 1) (String.ofList ('%' :: s)) = .ok r ↔
      render tokens limit (Text.spaced value) = .ok r := by
  have hmap (x : Except Failure (List Char)) :
      x.map String.ofList = .ok r ↔ x = .ok r.toList := by
    cases x <;> simp [Except.map, ← String.toList_inj]
  rw [render, render, String.toList_ofList, Text.spaced, String.toList_ofList,
    expand_placeholder hread hvalue, hmap, hmap, expand_eq_ok_iff, expand_eq_ok_iff]

theorem render_eq_of_resolve {p' : Placeholder} {s' : List Char}
    (hread' : Placeholder.Reads s' p' []) (hvalue' : p'.resolve tokens = .ok value) (limit : Nat) :
    render tokens limit (String.ofList ('%' :: s)) =
      render tokens limit (String.ofList ('%' :: s')) := by
  rw [render, render, String.toList_ofList, String.toList_ofList]
  cases limit with
  | zero =>
      rw [expand_of_namesIn _ _ (namesIn_placeholder hread),
        expand_of_namesIn _ _ (namesIn_placeholder hread')]
  | succ limit => rw [expand_placeholder hread hvalue, expand_placeholder hread' hvalue']

end Alone

theorem Statement.renderFor_all (s : Statement) (token : String) :
    s.renderFor "*" token = withKeyword (keyword token) s.clause := by
  have hproject : s.project (.parse "*") = s.clause := rfl
  rw [renderFor, hproject, withKeyword, isEmpty]
  cases s.clause.isEmpty <;> rfl

section Conditions

variable {t : Session} {name keyword : String}
  (hname : (name, keyword) ∈ [("where", "WHERE"), ("having", "HAVING")])
  (hfree : t.tokens.get? name = none)

include hname

theorem reads_bare : Placeholder.Reads name.toList ⟨name.toList, none⟩ [] := by
  simp only [List.mem_cons, Prod.mk.injEq, List.not_mem_nil, or_false] at hname
  rcases hname with ⟨rfl, rfl⟩ | ⟨rfl, rfl⟩ <;>
    exact Placeholder.ofFront?_eq_some_iff.1 (by decide +kernel)

theorem reads_all : Placeholder.Reads (name ++ "\x7b*\x7d").toList ⟨name.toList, some ['*']⟩ [] := by
  simp only [List.mem_cons, Prod.mk.injEq, List.not_mem_nil, or_false] at hname
  rcases hname with ⟨rfl, rfl⟩ | ⟨rfl, rfl⟩ <;>
    exact Placeholder.ofFront?_eq_some_iff.1 (by decide +kernel)

include hfree

theorem Session.get?_context : t.context.get? name = some t.conditions.token := by
  have hbound : ∀ e ∈ t.tokens.entries, e.1 ≠ name := by
    rintro e he rfl
    exact Dict.get?_eq_none_iff.1 hfree (List.mem_map.2 ⟨e, he, rfl⟩)
  have hcolumns : ∀ e ∈ t.document.columns.entries, "fields." ++ e.1 ≠ name := by
    rintro e - rfl
    simp [String.ext_iff] at hname
  rw [context, Dict.get?_foldl_insert_of_ne hbound, Dict.get?_foldl_insert_of_ne hcolumns]
  simp only [List.mem_cons, Prod.mk.injEq, List.not_mem_nil, or_false] at hname
  rcases hname with ⟨rfl, rfl⟩ | ⟨rfl, rfl⟩ <;> cases t.order <;> simp

theorem resolve_bare : Placeholder.resolve t.context ⟨name.toList, none⟩ =
    .ok (Statement.withKeyword "WHERE" t.conditions.clause) := by
  simp only [Placeholder.resolve, String.ofList_toList, Session.get?_context hname hfree,
    Statement.token, Statement.renderWhere]

theorem resolve_all : Placeholder.resolve t.context ⟨name.toList, some ['*']⟩ =
    .ok (Statement.withKeyword keyword t.conditions.clause) := by
  have hkeyword : Statement.keyword name = keyword := by
    simp only [List.mem_cons, Prod.mk.injEq, List.not_mem_nil, or_false] at hname
    rcases hname with ⟨rfl, rfl⟩ | ⟨rfl, rfl⟩ <;> decide
  have hall : String.ofList ['*'] = "*" := by decide
  simp only [Placeholder.resolve, String.ofList_toList, Session.get?_context hname hfree,
    Statement.token, hall, Statement.renderFor_all, hkeyword]

end Conditions

theorem Statement.withKeyword_where_eq_having_iff {clause : String} :
    withKeyword "WHERE" clause = withKeyword "HAVING" clause ↔ clause = "" := by
  rw [withKeyword_eq, withKeyword_eq]
  by_cases hclause : clause = ""
  · simp [hclause]
  · rw [if_neg hclause, if_neg hclause]
    refine iff_of_false (fun he => ?_) hclause
    simp [← String.toList_inj] at he

/-- Whatever a session went through, as long as nothing was bound to the names of the two tokens:
asked for everything, each of them gives the clause under its own keyword, or nothing if there is
none. Alone, `where` gives the same and `having` gives it under `WHERE`, so that the two forms of
`having` agree only where there is no clause. A clause that is not inert is put in its place as
well, and goes through the rest of the passes. -/
theorem headings_of_run {document : Document} {config : Config} {s : Session}
    (hstart : Session.start document config = .ok s) {steps : List Step}
    (hsteps : ∀ step ∈ steps, step.bound? ≠ some "where" ∧ step.bound? ≠ some "having")
    {t : Session} (hrun : s.run steps = t) (limit : Nat) :
    render t.context limit "%where" = render t.context limit "%where\x7b*\x7d" ∧
    render t.context limit "%having" = render t.context limit "%where" ∧
    (∀ r, render t.context (limit + 1) "%where\x7b*\x7d" = .ok r ↔
      render t.context limit (Text.spaced (Statement.withKeyword "WHERE" t.conditions.clause)) =
        .ok r) ∧
    (∀ r, render t.context (limit + 1) "%having\x7b*\x7d" = .ok r ↔
      render t.context limit (Text.spaced (Statement.withKeyword "HAVING" t.conditions.clause)) =
        .ok r) ∧
    (Inert t.conditions.clause →
      render t.context (limit + 1) "%where\x7b*\x7d" =
        .ok (Statement.withKeyword "WHERE" t.conditions.clause) ∧
      render t.context (limit + 1) "%having\x7b*\x7d" =
        .ok (Statement.withKeyword "HAVING" t.conditions.clause) ∧
      (render t.context (limit + 1) "%having" = render t.context (limit + 1) "%having\x7b*\x7d" ↔
        t.conditions.clause = "")) := by
  have hfree {name : String} (hname : ∀ step ∈ steps, step.bound? ≠ some name) :
      t.tokens.get? name = none := by
    rw [← hrun, Session.get?_tokens_run hname, Session.tokens_start hstart]
    rfl
  have hwhere := hfree fun step hstep => (hsteps step hstep).1
  have hhaving := hfree fun step hstep => (hsteps step hstep).2
  have hmem : ("where", "WHERE") ∈ [("where", "WHERE"), ("having", "HAVING")] := by simp
  have hmem' : ("having", "HAVING") ∈ [("where", "WHERE"), ("having", "HAVING")] := by simp
  -- The templates, as the placeholders are read from them.
  have hbare : "%where" = String.ofList ('%' :: "where".toList) := by decide
  have hbare' : "%having" = String.ofList ('%' :: "having".toList) := by decide
  have hall : "%where\x7b*\x7d" = String.ofList ('%' :: ("where" ++ "\x7b*\x7d").toList) := by
    decide
  have hall' : "%having\x7b*\x7d" = String.ofList ('%' :: ("having" ++ "\x7b*\x7d").toList) := by
    decide
  rw [hbare, hbare', hall, hall']
  refine ⟨?_, ?_, fun r => ?_, fun r => ?_, fun hinert => ⟨?_, ?_, ?_⟩⟩
  · exact render_eq_of_resolve (reads_bare hmem) (resolve_bare hmem hwhere) (reads_all hmem)
      (resolve_all hmem hwhere) limit
  · exact render_eq_of_resolve (reads_bare hmem') (resolve_bare hmem' hhaving) (reads_bare hmem)
      (resolve_bare hmem hwhere) limit
  · exact render_placeholder_eq_ok_iff (reads_all hmem) (resolve_all hmem hwhere) limit r
  · exact render_placeholder_eq_ok_iff (reads_all hmem') (resolve_all hmem' hhaving) limit r
  · exact render_placeholder (reads_all hmem) (resolve_all hmem hwhere)
      (hinert.withKeyword (by simp)) limit
  · exact render_placeholder (reads_all hmem') (resolve_all hmem' hhaving)
      (hinert.withKeyword (by simp)) limit
  · rw [render_placeholder (reads_bare hmem') (resolve_bare hmem' hhaving)
      (hinert.withKeyword (by simp)) limit,
      render_placeholder (reads_all hmem') (resolve_all hmem' hhaving)
      (hinert.withKeyword (by simp)) limit, Except.ok.injEq,
      Statement.withKeyword_where_eq_having_iff]

def labelledNotes : Document := { archive with tokens := .ofList [("label", [])] }

def labelling : List Step := [.token "label" fun _ => .text "note",
  .narrow ⟨.and, [⟨"search", .like .anywhere, .text "x"⟩]⟩, .join .or (.ofParts "pinned = 1" ∅ ∅)]

theorem headings_of_run_labelled : ∃ s, Session.start labelledNotes .default = .ok s ∧
    (∀ step ∈ labelling, step.bound? ≠ some "where" ∧ step.bound? ≠ some "having") ∧
    render (s.run labelling).context 16 "%where" =
      .ok ("WHERE ((tenant = :tenant) AND ((title LIKE :title OR body LIKE :body))) " ++
        "OR (pinned = 1)") ∧
    render (s.run labelling).context 16 "%having\x7b*\x7d" =
      .ok ("HAVING ((tenant = :tenant) AND ((title LIKE :title OR body LIKE :body))) " ++
        "OR (pinned = 1)") := by
  have hsteps : ∀ step ∈ labelling, step.bound? ≠ some "where" ∧ step.bound? ≠ some "having" := by
    simp [labelling, Step.bound?]
  have hclause : (Session.start labelledNotes .default).toOption.map
      (fun s => (s.run labelling).conditions.clause) =
      some "((tenant = :tenant) AND ((title LIKE :title OR body LIKE :body))) OR (pinned = 1)" := by
    decide +kernel
  obtain ⟨s, hs, hclause⟩ := Option.map_eq_some_iff.1 hclause
  have hstart : Session.start labelledNotes .default = .ok s := by
    cases h : Session.start labelledNotes .default <;> simp_all [Except.toOption]
  have hinert : Inert (s.run labelling).conditions.clause := by
    rw [hclause]
    exact ⟨by decide +kernel, by decide⟩
  obtain ⟨hsame, -⟩ := headings_of_run hstart hsteps rfl 16
  obtain ⟨hwhere, hhaving, -⟩ := (headings_of_run hstart hsteps rfl 15).2.2.2.2 hinert
  rw [hclause] at hwhere hhaving
  exact ⟨s, hstart, hsteps, hsame.trans hwhere, hhaving⟩

/-- Under `having` alone the conditions stand as they do under `where`. -/
theorem having_without_list : (Session.start archive .default).toOption.map (fun s =>
      (render s.context s.config.passes "%having",
        render s.context s.config.passes "%having\x7b*\x7d")) =
    some (.ok "WHERE tenant = :tenant", .ok "HAVING tenant = :tenant") := by
  decide +kernel

end ClauseWeave
