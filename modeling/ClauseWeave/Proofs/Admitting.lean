import ClauseWeave.Proofs.Narrowing

namespace ClauseWeave

/-- A filter can be routed as declared: the type is known, and the columns are a list of texts, with
at least one. -/
structure RouteDefinition.Usable (r : RouteDefinition) : Prop where
  registered : Registry.builtin.contains r.type = true
  columns : ∃ columns : List String, columns ≠ [] ∧
    Param.get? r.params "fields" = some (.list (columns.map .text))

theorem Registry.contains_builtin {type : String} :
    builtin.contains type = true ↔ type = fulltext := by
  rw [Dict.contains_iff, builtin, Dict.mem_keys_insert]
  simp

theorem Value.mapM_text?_eq_some {items : List Value} {texts : List String} :
    items.mapM text? = some texts ↔ items = texts.map .text := by
  constructor
  · intro h
    induction items generalizing texts with
    | nil =>
        obtain rfl := Option.some.inj h
        rfl
    | cons v rest ih =>
        rw [List.mapM_cons, Option.bind_eq_bind, Option.bind_eq_some_iff] at h
        obtain ⟨text, htext, h⟩ := h
        obtain ⟨others, hothers, h⟩ := Option.bind_eq_some_iff.1 h
        obtain rfl := Option.some.inj h
        cases v with
        | text s =>
            obtain rfl := Option.some.inj htext
            rw [ih hothers, List.map_cons]
        | _ => simp [text?] at htext
  · rintro rfl
    induction texts with
    | nil => rfl
    | cons text rest ih => simp [List.mapM_cons, text?, ih]

theorem Param.columns?_eq_some {params : List Param} {columns : List String} :
    columns? params = some columns ↔ get? params "fields" = some (.list (columns.map .text)) := by
  unfold columns?
  split
  next items hitems => rw [hitems, Value.mapM_text?_eq_some, Option.some.injEq, Value.list.injEq]
  next hnone =>
    constructor
    · intro h
      simp at h
    · exact fun h => absurd h (hnone _)

theorem RouteDefinition.usable_iff {r : RouteDefinition} (path : String) :
    r.Usable ↔ ∃ s, r.spread? path = some s ∧ s.columns ≠ [] := by
  constructor
  · rintro ⟨htype, columns, hne, hcolumns⟩
    refine ⟨⟨path, r.connective, columns⟩, ?_, hne⟩
    rw [spread?, if_pos (Registry.contains_builtin.1 htype), Param.columns?_eq_some.2 hcolumns]
    rfl
  · rintro ⟨s, hs, hne⟩
    unfold spread? at hs
    split at hs
    next htype =>
      obtain ⟨columns, hcolumns, rfl⟩ := Option.map_eq_some_iff.1 hs
      exact ⟨Registry.contains_builtin.2 htype, columns, hne, Param.columns?_eq_some.1 hcolumns⟩
    next => simp at hs

theorem exists_mapM_eq_ok_iff {α β ε : Type} {f : α → Except ε β} {xs : List α} :
    (∃ ys, xs.mapM f = .ok ys) ↔ ∀ x ∈ xs, ∃ y, f x = .ok y := by
  induction xs with
  | nil => exact ⟨fun _ => by simp, fun _ => ⟨[], rfl⟩⟩
  | cons x rest ih =>
      rw [List.mapM_cons, List.forall_mem_cons, ← ih]
      cases hx : f x with
      | error e =>
          constructor
          · rintro ⟨ys, h⟩
            cases h
          · rintro ⟨⟨y, h⟩, -⟩
            cases h
      | ok y =>
          cases hrest : rest.mapM f with
          | error e =>
              constructor
              · rintro ⟨ys, h⟩
                cases h
              · rintro ⟨-, ys, h⟩
                cases h
          | ok ys => exact ⟨fun _ => ⟨⟨y, rfl⟩, ys, rfl⟩, fun _ => ⟨y :: ys, rfl⟩⟩

theorem Registry.exists_route_builtin_iff {path : String} {d : RouteDefinition} :
    (∃ route, builtin.route path d = .ok route) ↔ ∃ s, d.spread? path = some s := by
  constructor
  · rintro ⟨route, h⟩
    obtain ⟨s, hs, -⟩ := route_builtin h
    exact ⟨s, hs⟩
  · rintro ⟨s, hs⟩
    unfold RouteDefinition.spread? at hs
    split at hs
    next htype =>
      obtain ⟨columns, hcolumns, -⟩ := Option.map_eq_some_iff.1 hs
      have hitems := Param.columns?_eq_some.1 hcolumns
      have hspread : Factory.spread d.params = .ok (fanOut columns) := by
        simp only [Factory.spread, hitems, Value.mapM_text?_eq_some.2 rfl]
      refine ⟨⟨path, d.connective, fanOut columns⟩, ?_⟩
      simp [route, builtin, htype, hspread, Except.map]
    next => simp at hs

theorem Document.find?_spreads (d : Document) (f : Filter) :
    Spread.find? d.spreads f = (d.routes.get? f.path).bind fun r => r.spread? f.path := by
  have hrun (entries : List (String × RouteDefinition))
      (hkeys : (entries.map Prod.fst).Nodup) :
      Spread.find? (entries.filterMap fun e => e.2.spread? e.1) f =
        (entries.lookup f.path).bind fun r => r.spread? f.path := by
    induction entries with
    | nil => rfl
    | cons e rest ih =>
        obtain ⟨path, r⟩ := e
        obtain ⟨hnot, hrest⟩ := List.nodup_cons.1 hkeys
        rw [Dict.lookup_pair_cons, List.filterMap_cons]
        by_cases hpath : f.path = path
        · subst hpath
          -- the attribute is declared here, and so nowhere else
          have hnone : rest.lookup f.path = none := by
            rw [List.lookup_eq_none_iff]
            intro e he
            rw [bne_iff_ne]
            intro heq
            exact hnot (List.mem_map.2 ⟨e, he, heq.symm⟩)
          cases hs : r.spread? f.path with
          | none =>
              have hlater := ih hrest
              rw [hnone] at hlater
              simpa [hs] using hlater
          | some s =>
              have hs' := RouteDefinition.path_of_spread? hs
              simp [Spread.find?, hs', hs]
        · rw [if_neg hpath, ← ih hrest]
          cases hs : r.spread? path with
          | none => rfl
          | some s =>
              have hs' : s.path ≠ f.path := by
                rw [RouteDefinition.path_of_spread? hs]
                exact Ne.symm hpath
              simp [Spread.find?, hs']
  exact hrun d.routes.entries d.routes.nodup_keys

theorem Filter.fits_withPath (f : Filter) (path : String) : (f.withPath path).fits = f.fits := rfl

theorem exists_fanOut_iff {columns : List String} {f : Filter} :
    (∃ s, fanOut columns f = .ok s) ↔ columns ≠ [] ∧ f.fits = true := by
  unfold fanOut
  cases columns with
  | nil => simp
  | cons column rest =>
      rw [if_neg (by simp), exists_ofFilters_iff, List.forall_mem_map]
      simp only [Filter.fits_withPath]
      constructor
      · exact fun h => ⟨by simp, h column (by simp)⟩
      · exact fun h _ _ => h.2

theorem exists_expandAll_iff {routes : List Route} {spreads : List Spread} {fs : List Filter}
    (hagree : Spread.Agree routes spreads fs) {sofar : Statement} :
    (∃ s, Route.expandAll routes sofar fs = .ok s) ↔
      ∀ f ∈ fs, ∀ r, Spread.find? spreads f = some r → r.columns ≠ [] ∧ f.fits = true := by
  induction fs generalizing sofar with
  | nil => simp [Route.expandAll]
  | cons f rest ih =>
      have hrest : Spread.Agree routes spreads rest := fun g hg => hagree g (by simp [hg])
      have hfind := hagree f (by simp)
      rw [List.forall_mem_cons]
      cases hspread : Spread.find? spreads f with
      | none =>
          rw [hspread] at hfind
          rw [expandAll_none hfind, ih hrest]
          simp
      | some r =>
          rw [hspread] at hfind
          replace hfind : Route.find? routes f = some r.route := hfind
          constructor
          · rintro ⟨s, h⟩
            obtain ⟨sub, hsub, hnext⟩ := expandAll_some hfind h
            refine ⟨fun r' hr' => ?_, (ih hrest).1 ⟨s, hnext⟩⟩
            obtain rfl := Option.some.inj hr'
            exact exists_fanOut_iff.1 ⟨sub, hsub⟩
          · rintro ⟨hf, hlater⟩
            obtain ⟨sub, hsub⟩ := exists_fanOut_iff.2 (hf r rfl)
            replace hsub : r.route.expander f = .ok sub := hsub
            have hnext : ∃ s, Route.expandAll routes (merge r.route.connective [sub, sofar]) rest =
                .ok s := (ih hrest).2 hlater
            obtain ⟨s, hs⟩ := hnext
            exact ⟨s, by simp only [Route.expandAll, hfind, hsub, hs]⟩

theorem exists_ofRouted_iff {c : Connective} {routes : List Route} {spreads : List Spread}
    {fs : List Filter} (hagree : Spread.Agree routes spreads fs) :
    (∃ s, Statement.ofRouted c routes fs = .ok s) ↔
      ∀ f ∈ fs, f.fits = true ∧ ∀ r, Spread.find? spreads f = some r → r.columns ≠ [] := by
  have hsplit : (∀ f ∈ fs, f.fits = true ∧ ∀ r, Spread.find? spreads f = some r → r.columns ≠ []) ↔
      (∀ f ∈ Spread.unrouted spreads fs, f.fits = true) ∧
        ∀ f ∈ fs, ∀ r, Spread.find? spreads f = some r → r.columns ≠ [] ∧ f.fits = true := by
    constructor
    · intro h
      exact ⟨fun f hf => (h f (List.mem_filter.1 hf).1).1,
        fun f hf r hr => ⟨(h f hf).2 r hr, (h f hf).1⟩⟩
    · rintro ⟨hplain, hrouted⟩ f hf
      cases hfind : Spread.find? spreads f with
      | none => exact ⟨hplain f (List.mem_filter.2 ⟨hf, by simp [hfind]⟩), by simp⟩
      | some r =>
          refine ⟨(hrouted f hf r hfind).2, fun r' hr' => ?_⟩
          obtain rfl := Option.some.inj hr'
          exact (hrouted f hf r hfind).1
  rw [hsplit, ← exists_ofFilters_iff (c := c), Statement.ofRouted, hagree.unrouted_eq]
  cases hplain : Statement.ofFilters c (Spread.unrouted spreads fs) with
  | error e => simp
  | ok sofar => simp [exists_expandAll_iff hagree]

section Calls

variable {s : Session} (hregistry : s.registry = .builtin) {fs : List Filter}

include hregistry

theorem exists_routesFor_iff : (∃ routes, s.routesFor fs = .ok routes) ↔
    ∀ f ∈ fs, ∀ r, s.document.routes.get? f.path = some r → ∃ sp, r.spread? f.path = some sp := by
  rw [Session.routesFor, hregistry, exists_mapM_eq_ok_iff]
  simp only [Registry.exists_route_builtin_iff, List.mem_filter, List.any_eq_true,
    decide_eq_true_eq]
  constructor
  · intro h f hf r hr
    exact h (f.path, r) ⟨Dict.mem_of_get? hr, f, hf, rfl⟩
  · rintro h ⟨path, r⟩ ⟨hmem, f, hf, rfl⟩
    exact h f hf r (Dict.get?_of_mem hmem)

theorem exists_narrow_iff (c : Connective) : (∃ next, s.narrow c fs = .ok next) ↔
    ∀ f ∈ fs, f.fits = true ∧ ∀ r, s.document.routes.get? f.path = some r → r.Usable := by
  have hdeclared (h : ∀ f ∈ fs, ∀ r, s.document.routes.get? f.path = some r →
      ∃ sp, r.spread? f.path = some sp) (f : Filter) (hf : f ∈ fs) :
      (∀ r, Spread.find? s.document.spreads f = some r → r.columns ≠ []) ↔
        ∀ r, s.document.routes.get? f.path = some r → r.Usable := by
    rw [Document.find?_spreads]
    cases hr : s.document.routes.get? f.path with
    | none => simp
    | some r =>
        obtain ⟨sp, hsp⟩ := h f hf r hr
        simp [hsp, RouteDefinition.usable_iff f.path]
  unfold Session.narrow
  cases hroutes : s.routesFor fs with
  | error e =>
      have hnone : ¬ ∃ routes, s.routesFor fs = .ok routes := by simp [hroutes]
      rw [exists_routesFor_iff hregistry] at hnone
      constructor
      · simp
      · intro h
        refine absurd (fun f hf r hr => ?_) hnone
        obtain ⟨sp, hsp, -⟩ := (RouteDefinition.usable_iff f.path).1 ((h f hf).2 r hr)
        exact ⟨sp, hsp⟩
  | ok routes =>
      have hall := (exists_routesFor_iff hregistry).1 ⟨routes, hroutes⟩
      have hrouted := exists_ofRouted_iff (c := c) (agree_of_routesFor hregistry hroutes)
      rw [forall₂_congr fun f hf => and_congr_right' (hdeclared hall f hf)] at hrouted
      rw [← hrouted]
      cases hadded : Statement.ofRouted c routes fs with
      | error e => simp [hadded]
      | ok added => simp [hadded]

end Calls

inductive Step where
  | narrow (call : Call)
  | join (c : Connective) (added : Statement)
  | conditions (conditions : Statement)
  | page (page : Page)
  | order (terms : List OrderTerm)
  | token (name : String) (make : List TokenParam → Token)
  | type (name : String) (factory : Factory)

namespace Session

def perform (s : Session) : Step → Except Failure Session
  | .narrow call => s.narrow call.connective call.filters
  | .join c added => .ok (s.joinConditions c added)
  | .conditions conditions => .ok (s.setConditions conditions)
  | .page page => .ok (s.setPage page)
  | .order terms => .ok (s.setOrder terms)
  | .token name make => .ok ((s.setToken name make).getD s)
  | .type name factory => s.addType name factory

/-- A run of steps goes on from the last session that there was. -/
def run (s : Session) : List Step → Session
  | [] => s
  | step :: rest =>
    match s.perform step with
    | .ok next => next.run rest
    | .error _ => s.run rest

end Session

/-- A call succeeds when every value suits its operator and every declaration for an attribute of
its filters can be used. So nothing else matters: neither the order of the filters, nor the names
that the conditions take up, nor declarations for other attributes. A run goes on from a call that
fails as if it had not been made. -/
theorem narrow_succeeds_iff {s : Session} (hregistry : s.registry = .builtin) (c : Connective)
    (fs : List Filter) :
    ((∃ next, s.narrow c fs = .ok next) ↔
      (∀ f ∈ fs, f.fits = true) ∧
        ∀ e ∈ s.document.routes.entries, (∃ f ∈ fs, f.path = e.1) → e.2.Usable) ∧
    (∀ (t : Session) (d : Connective) (gs : List Filter), t.registry = .builtin →
      (∀ f, f ∈ gs ↔ f ∈ fs) →
      (∀ f ∈ fs, t.document.routes.get? f.path = s.document.routes.get? f.path) →
      ((∃ next, t.narrow d gs = .ok next) ↔ ∃ next, s.narrow c fs = .ok next)) ∧
    ∀ e, s.narrow c fs = .error e → ∀ steps,
      s.run (.narrow ⟨c, fs⟩ :: steps) = s.run steps := by
  refine ⟨?_, ?_, ?_⟩
  · rw [exists_narrow_iff hregistry]
    constructor
    · intro h
      refine ⟨fun f hf => (h f hf).1, ?_⟩
      rintro ⟨path, r⟩ hmem ⟨f, hf, rfl⟩
      exact (h f hf).2 r (Dict.get?_of_mem hmem)
    · rintro ⟨hfits, husable⟩ f hf
      exact ⟨hfits f hf, fun r hr => husable (f.path, r) (Dict.mem_of_get? hr) ⟨f, hf, rfl⟩⟩
  · intro t d gs ht hsame hroutes
    rw [exists_narrow_iff hregistry, exists_narrow_iff ht]
    constructor
    · intro h f hf
      have hg := h f ((hsame f).2 hf)
      rwa [hroutes f hf] at hg
    · intro h g hg
      have hf := (hsame g).1 hg
      rw [hroutes g hf]
      exact h g hf
  · intro e he steps
    have hstep : s.perform (.narrow ⟨c, fs⟩) = .error e := he
    rw [Session.run, hstep]

def gazetteer : Document :=
  { archive with routes := .ofList [("place", ⟨"geo", .and, []⟩), ("search",
      ⟨fulltext, .or, [⟨"fields", .list [.text "title", .text "body"]⟩, ⟨"fields", .null⟩]⟩)] }

def recentNotes : List Filter := [
  ⟨"search", .like .anywhere, .text "x"⟩, ⟨"year", .between false, .list [.nat 1, .text "9"]⟩]

theorem narrow_succeeds_iff_gazetteer : ∃ s, Session.start gazetteer .default = .ok s ∧
    s.registry = .builtin ∧ (∃ next, s.narrow .or recentNotes = .ok next) ∧
    ¬ ∃ next, s.narrow .or (⟨"place", .null false, .null⟩ :: recentNotes) = .ok next := by
  have hstart : ∃ s, Session.start gazetteer .default = .ok s := by
    obtain ⟨conditions, hconditions⟩ := (exists_ofFilters_iff (c := .and)).2
      (by decide : ∀ f ∈ gazetteer.defaultConditions, f.fits = true)
    rw [Session.start, hconditions]
    exact ⟨_, rfl⟩
  obtain ⟨s, hs⟩ := hstart
  obtain ⟨hdocument, hregistry⟩ := (start_spec hs).1
  have hentries : s.document.routes.entries = [("place", ⟨"geo", .and, []⟩), ("search",
      ⟨fulltext, .or, [⟨"fields", .list [.text "title", .text "body"]⟩, ⟨"fields", .null⟩]⟩)] := by
    rw [hdocument]
    decide +kernel
  refine ⟨s, hs, hregistry, (narrow_succeeds_iff hregistry .or recentNotes).1.2 ⟨by decide, ?_⟩, ?_⟩
  · rw [hentries]
    rintro e he ⟨f, hf, hpath⟩
    have hne : ∀ f ∈ recentNotes, f.path ≠ "place" := by decide
    rcases List.mem_cons.1 he with rfl | he
    · exact absurd hpath (hne f hf)
    · obtain rfl := List.mem_singleton.1 he
      exact ⟨by decide, ["title", "body"], by simp, by decide⟩
  · rw [(narrow_succeeds_iff hregistry .or _).1]
    rintro ⟨-, husable⟩
    have hplace := husable ("place", ⟨"geo", .and, []⟩) (by rw [hentries]; simp)
      ⟨_, List.mem_cons_self, rfl⟩
    exact absurd hplace.registered (by decide)

end ClauseWeave
