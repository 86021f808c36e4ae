import ClauseWeave.Routing

namespace ClauseWeave

/-- A route that spreads its filters over columns. -/
structure Spread where
  path : String
  connective : Connective
  columns : List String

namespace Spread

def route (s : Spread) : Route := ⟨s.path, s.connective, fanOut s.columns⟩

def find? (spreads : List Spread) (f : Filter) : Option Spread := spreads.find? (·.path = f.path)

def filters (s : Spread) (f : Filter) : List Filter := s.columns.map f.withPath

/-- What a routed clause amounts to: `one` says what comes of a filter that has a route, and `join`
how it meets what there is so far. -/
def gather {α : Type} (spreads : List Spread) (one : Spread → Filter → α)
    (join : Connective → α → α → α) (sofar : α) : List Filter → α
  | [] => sofar
  | f :: rest =>
    match find? spreads f with
    | none => gather spreads one join sofar rest
    | some s => gather spreads one join (join s.connective (one s f) sofar) rest

def unrouted (spreads : List Spread) (fs : List Filter) : List Filter :=
  fs.filter fun f => (find? spreads f).isNone

def spreadAll (spreads : List Spread) (fs : List Filter) : List Filter :=
  gather spreads filters (fun _ added sofar => added ++ sofar) (unrouted spreads fs) fs

/-- The routes are the spreads, as far as the filters are concerned. -/
def Agree (routes : List Route) (spreads : List Spread) (fs : List Filter) : Prop :=
  ∀ f ∈ fs, Route.find? routes f = (find? spreads f).map route

theorem agree_map_route (spreads : List Spread) (fs : List Filter) :
    Agree (spreads.map route) spreads fs := by
  intro f _
  rw [Route.find?, List.find?_map]
  rfl

theorem Agree.unrouted_eq {routes : List Route} {spreads : List Spread} {fs : List Filter}
    (h : Agree routes spreads fs) :
    (fs.filter fun f => (Route.find? routes f).isNone) = unrouted spreads fs := by
  apply List.filter_congr
  intro f hf
  rw [h f hf, Option.isNone_map]

theorem forall_filters {ok : String → Prop} {s : Spread} (h : ∀ column ∈ s.columns, ok column)
    (f : Filter) : ∀ g ∈ s.filters f, ok g.path := by
  intro g hg
  obtain ⟨column, hcolumn, rfl⟩ := List.mem_map.1 hg
  exact h column hcolumn

theorem ofFilters_of_expander {s : Spread} {f : Filter} {sub : Statement}
    (h : s.route.expander f = .ok sub) : Statement.ofFilters .or (s.filters f) = .ok sub := by
  change fanOut s.columns f = .ok sub at h
  unfold fanOut at h
  split at h
  next => simp at h
  next => exact h

end Spread

theorem expandAll_none {routes : List Route} {f : Filter} (h : Route.find? routes f = none)
    (sofar : Statement) (rest : List Filter) :
    Route.expandAll routes sofar (f :: rest) = Route.expandAll routes sofar rest := by
  simp only [Route.expandAll, h]

theorem expandAll_some {routes : List Route} {f : Filter} {route : Route} {sofar s : Statement}
    {rest : List Filter} (hroute : Route.find? routes f = some route)
    (h : Route.expandAll routes sofar (f :: rest) = .ok s) :
    ∃ sub, route.expander f = .ok sub ∧
      Route.expandAll routes (merge route.connective [sub, sofar]) rest = .ok s := by
  simp only [Route.expandAll, hroute] at h
  split at h
  next => simp at h
  next sub hsub => exact ⟨sub, hsub, h⟩

section Routed

variable {α : Type} {P : Statement → α → Prop} {one : Spread → Filter → α}
  {join : Connective → α → α → α} {routes : List Route} {spreads : List Spread}
  (hone : ∀ r ∈ spreads, ∀ f sub, Statement.ofFilters .or (r.filters f) = .ok sub → P sub (one r f))
  (hjoin : ∀ c s t a b, P s a → P t b → P (merge c [s, t]) (join c a b))

include hone hjoin

theorem expandAll_induction {fs : List Filter} (hagree : Spread.Agree routes spreads fs)
    {sofar s : Statement} {a : α} (hsofar : P sofar a)
    (h : Route.expandAll routes sofar fs = .ok s) : P s (Spread.gather spreads one join a fs) := by
  induction fs generalizing sofar a with
  | nil =>
      obtain rfl := Except.ok.inj h
      exact hsofar
  | cons f rest ih =>
      have hrest : Spread.Agree routes spreads rest := fun g hg => hagree g (by simp [hg])
      have hfind := hagree f (by simp)
      rw [Spread.gather]
      cases hspread : Spread.find? spreads f with
      | none =>
          rw [hspread] at hfind
          rw [expandAll_none hfind] at h
          exact ih hrest hsofar h
      | some r =>
          rw [hspread] at hfind
          obtain ⟨sub, hsub, hnext⟩ := expandAll_some hfind h
          have hr : r ∈ spreads := List.mem_of_find?_eq_some hspread
          have hadded := hone r hr f sub (Spread.ofFilters_of_expander hsub)
          exact ih hrest (hjoin r.connective _ _ _ _ hadded hsofar) hnext

theorem ofRouted_induction {c : Connective} {fs : List Filter} {s : Statement} {a : α}
    (hagree : Spread.Agree routes spreads fs)
    (hunrouted : ∀ sofar,
      Statement.ofFilters c (Spread.unrouted spreads fs) = .ok sofar → P sofar a)
    (h : Statement.ofRouted c routes fs = .ok s) : P s (Spread.gather spreads one join a fs) := by
  rw [Statement.ofRouted, hagree.unrouted_eq] at h
  split at h
  next => simp at h
  next sofar hsofar => exact expandAll_induction hone hjoin hagree (hunrouted sofar hsofar) h

end Routed

/-- The statements that can be reached with attributes that are `ok`, and their filters. -/
inductive Reached (ok : String → Prop) : Statement → List Filter → Prop
  | filters {c : Connective} {fs : List Filter} {s : Statement} (hok : ∀ f ∈ fs, ok f.path)
      (h : Statement.ofFilters c fs = .ok s) : Reached ok s fs
  | merged (c : Connective) {parts : List (Statement × List Filter)}
      (h : ∀ p ∈ parts, Reached ok p.1 p.2) :
      Reached ok (merge c (parts.map Prod.fst)) (parts.flatMap Prod.snd)
  | routed {c : Connective} {spreads : List Spread} {fs : List Filter} {s : Statement}
      (hok : ∀ f ∈ fs, ok f.path) (hcolumns : ∀ r ∈ spreads, ∀ column ∈ r.columns, ok column)
      (h : Statement.ofRouted c (spreads.map Spread.route) fs = .ok s) :
      Reached ok s (Spread.spreadAll spreads fs)

section Induction

variable {ok : String → Prop} {P : Statement → List Filter → Prop}
  (filters : ∀ {c fs s}, (∀ f ∈ fs, ok f.path) → Statement.ofFilters c fs = .ok s → P s fs)
  (merged : ∀ (c : Connective) {parts : List (Statement × List Filter)},
    (∀ p ∈ parts, P p.1 p.2) → P (merge c (parts.map Prod.fst)) (parts.flatMap Prod.snd))

include filters merged

/-- What filters and merges give is had by every statement that is reached: a route only adds
merges. -/
theorem Reached.induction {s : Statement} {fs : List Filter} (h : Reached ok s fs) : P s fs := by
  induction h with
  | filters hok h => exact filters hok h
  | merged c _ ih => exact merged c ih
  | @routed c spreads fs s hok hcolumns h =>
      refine ofRouted_induction ?_ ?_ (Spread.agree_map_route spreads fs) ?_ h
      · exact fun r hr f sub hsub => filters (Spread.forall_filters (hcolumns r hr) f) hsub
      · intro c s t a b hs ht
        have hboth : ∀ p ∈ [(s, a), (t, b)], P p.1 p.2 := by simpa using ⟨hs, ht⟩
        simpa using merged c hboth
      · exact fun sofar => filters fun f hf => hok f (List.mem_filter.1 hf).1

end Induction

end ClauseWeave
