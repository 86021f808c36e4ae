import ClauseWeave.Proofs.Meaning
import ClauseWeave.Session

namespace ClauseWeave

def Param.columns? (params : List Param) : Option (List String) :=
  match Param.get? params "fields" with
  | some (.list items) => items.mapM Value.text?
  | _ => none

def RouteDefinition.spread? (path : String) (r : RouteDefinition) : Option Spread :=
  if r.type = fulltext then
    (Param.columns? r.params).map fun columns => ⟨path, r.connective, columns⟩
  else none

def Document.spreads (d : Document) : List Spread :=
  d.routes.entries.filterMap fun e => e.2.spread? e.1

theorem RouteDefinition.path_of_spread? {path : String} {r : RouteDefinition} {s : Spread}
    (h : r.spread? path = some s) : s.path = path := by
  unfold spread? at h
  split at h
  next =>
    obtain ⟨columns, -, rfl⟩ := Option.map_eq_some_iff.1 h
    rfl
  next => simp at h

theorem Factory.spread_eq_ok {params : List Param} {expander : Expander}
    (h : Factory.spread params = .ok expander) :
    ∃ columns, Param.columns? params = some columns ∧ expander = fanOut columns := by
  unfold Factory.spread at h
  split at h
  next items hitems =>
    split at h
    next columns hcolumns =>
      obtain rfl := Except.ok.inj h
      exact ⟨columns, by simp [Param.columns?, hitems, hcolumns], rfl⟩
    next => simp at h
  next => simp at h

theorem Registry.route_builtin {path : String} {d : RouteDefinition} {route : Route}
    (h : builtin.route path d = .ok route) : ∃ s, d.spread? path = some s ∧ s.route = route := by
  by_cases htype : d.type = fulltext
  · simp only [Registry.route, builtin, htype, Dict.get?_insert, if_true] at h
    cases hspread : Factory.spread d.params with
    | error e => simp [hspread, Except.map] at h
    | ok expander =>
        rw [hspread] at h
        obtain rfl := Except.ok.inj h
        obtain ⟨columns, hcolumns, rfl⟩ := Factory.spread_eq_ok hspread
        have hspread? : d.spread? path = some ⟨path, d.connective, columns⟩ := by
          rw [RouteDefinition.spread?, if_pos htype, hcolumns]
          rfl
        exact ⟨_, hspread?, rfl⟩
  · simp [Registry.route, builtin, Dict.get?_insert, htype] at h

theorem Registry.mapM_route_builtin {entries : List (String × RouteDefinition)}
    {routes : List Route} (h : (entries.mapM fun e => builtin.route e.1 e.2) = .ok routes) :
    routes = (entries.filterMap fun e => e.2.spread? e.1).map Spread.route := by
  induction entries generalizing routes with
  | nil =>
      obtain rfl := Except.ok.inj h
      rfl
  | cons e rest ih =>
      rw [List.mapM_cons] at h
      cases hroute : builtin.route e.1 e.2 with
      | error fault =>
          rw [hroute] at h
          cases h
      | ok route =>
          cases hrest : rest.mapM fun e => builtin.route e.1 e.2 with
          | error fault =>
              rw [hroute, hrest] at h
              cases h
          | ok others =>
              rw [hroute, hrest] at h
              obtain rfl := Except.ok.inj h
              obtain ⟨s, hs, rfl⟩ := route_builtin hroute
              simp [hs, ih hrest]

theorem agree_of_routesFor {s : Session} (hregistry : s.registry = .builtin) {fs : List Filter}
    {routes : List Route} (h : s.routesFor fs = .ok routes) :
    Spread.Agree routes s.document.spreads fs := by
  rw [Session.routesFor, hregistry] at h
  rw [Registry.mapM_route_builtin h]
  intro f hf
  rw [Spread.agree_map_route _ fs f hf]
  -- Only routes that some filter needs were built; the one for `f` is among them.
  congr 1
  rw [Spread.find?, Spread.find?, Document.spreads, List.find?_filterMap, List.find?_filterMap,
    List.find?_filter]
  congr 2
  funext e
  cases hs : e.2.spread? e.1 with
  | none => simp
  | some r =>
      by_cases hpath : r.path = f.path
      · have hname : f.path = e.1 := hpath.symm.trans (RouteDefinition.path_of_spread? hs)
        have hused : fs.any (·.path = e.1) = true :=
          List.any_eq_true.2 ⟨f, hf, by simpa using hname⟩
        simp [hpath, hused]
      · simp [hpath]

structure Call where
  connective : Connective
  filters : List Filter

/-- The filters without a route under the connective of the call, and each of the others, which
any of its columns may satisfy, under the connective of its route. -/
def Document.asks? (d : Document) (truth : Sql.Atom → Bool) (call : Call) : Option Bool :=
  Spread.gather d.spreads (fun s f => Sql.fold? .or ((s.filters f).map (Filter.holds truth)))
    (fun c added sofar => Sql.fold? c (added.toList ++ sofar.toList))
    (Sql.fold? call.connective
      ((Spread.unrouted d.spreads call.filters).map (Filter.holds truth)))
    call.filters

/-- A call that asks for nothing is content with everything. -/
def Document.asks (d : Document) (truth : Sql.Atom → Bool) (call : Call) : Bool :=
  (d.asks? truth call).getD true

namespace Session

/-- The session is about the document, and no further types were added to it. -/
structure Declares (s : Session) (d : Document) : Prop where
  document : s.document = d
  registry : s.registry = .builtin

/-- A run of calls; those that fail change nothing. -/
def narrowAll (s : Session) : List Call → Session
  | [] => s
  | call :: rest =>
    match s.narrow call.connective call.filters with
    | .ok next => next.narrowAll rest
    | .error _ => s.narrowAll rest

def successes (s : Session) : List Call → List Call
  | [] => []
  | call :: rest =>
    match s.narrow call.connective call.filters with
    | .ok next => call :: next.successes rest
    | .error _ => s.successes rest

end Session

theorem getD_fold?_and (a b : Option Bool) :
    (Sql.fold? .and (a.toList ++ b.toList)).getD true = (a.getD true && b.getD true) := by
  rcases a with _ | a <;> rcases b with _ | b <;> simp [Sql.fold?, Sql.fold]

theorem getD_fold?_and_list (bs : List Bool) :
    (Sql.fold? .and bs).getD true = bs.all id := by
  cases bs <;> rfl

section Narrow

variable {truth : Sql.Atom → Bool}

theorem value?_merge_pair (c : Connective) {s t : Statement} (hs : s.Readable truth)
    (ht : t.Readable truth) : (merge c [s, t]).value? truth =
      Sql.fold? c ((s.value? truth).toList ++ (t.value? truth).toList) := by
  rw [value?_merge c (by simpa using ⟨hs, ht⟩)]
  cases hvs : s.value? truth <;> cases hvt : t.value? truth <;> simp [hvs, hvt]

theorem value?_ofRouted {c : Connective} {routes : List Route} {spreads : List Spread}
    {fs : List Filter} {s : Statement} (hagree : Spread.Agree routes spreads fs)
    (hcolumns : ∀ r ∈ spreads, ∀ column ∈ r.columns, IsAttribute column)
    (hok : ∀ f ∈ fs, IsAttribute f.path) (h : Statement.ofRouted c routes fs = .ok s) :
    s.Readable truth ∧ s.value? truth =
      Spread.gather spreads (fun r f => Sql.fold? .or ((r.filters f).map (Filter.holds truth)))
        (fun c added sofar => Sql.fold? c (added.toList ++ sofar.toList))
        (Sql.fold? c ((Spread.unrouted spreads fs).map (Filter.holds truth))) fs := by
  refine ofRouted_induction (P := fun s value => s.Readable truth ∧ s.value? truth = value)
    ?_ ?_ hagree ?_ h
  · intro r hr f sub hsub
    have hsubok := Spread.forall_filters (hcolumns r hr) f
    exact ⟨readable_ofFilters hsubok hsub, value?_ofFilters hsubok hsub⟩
  · rintro c s t a b ⟨hs, rfl⟩ ⟨ht, rfl⟩
    exact ⟨readable_merge c (by simpa using ⟨hs, ht⟩), value?_merge_pair c hs ht⟩
  · intro sofar hsofar
    have hunrouted : ∀ f ∈ Spread.unrouted spreads fs, IsAttribute f.path :=
      fun f hf => hok f (List.mem_filter.1 hf).1
    exact ⟨readable_ofFilters hunrouted hsofar, value?_ofFilters hunrouted hsofar⟩

variable {d : Document} {s next : Session} {call : Call}
  (hcolumns : ∀ r ∈ d.spreads, ∀ column ∈ r.columns, IsAttribute column)

include hcolumns

theorem narrow_spec (hs : s.Declares d) (hok : ∀ f ∈ call.filters, IsAttribute f.path)
    (hreadable : s.conditions.Readable truth)
    (h : s.narrow call.connective call.filters = .ok next) :
    next.Declares d ∧ next.conditions.Readable truth ∧
      (next.conditions.value? truth).getD true =
        ((s.conditions.value? truth).getD true && d.asks truth call) := by
  unfold Session.narrow at h
  split at h
  next => simp at h
  next routes hroutes =>
    split at h
    next => simp at h
    next added hadded =>
      obtain rfl := Except.ok.inj h
      have hagree := agree_of_routesFor hs.registry hroutes
      rw [hs.document] at hagree
      obtain ⟨haddedReadable, hvalue⟩ : added.Readable truth ∧ _ :=
        value?_ofRouted hagree hcolumns hok hadded
      refine ⟨⟨hs.document, hs.registry⟩, readable_merge .and ?_, ?_⟩
      · simpa using ⟨hreadable, haddedReadable⟩
      · rw [Document.asks, Document.asks?, ← hvalue, ← getD_fold?_and,
          ← value?_merge_pair .and hreadable haddedReadable]
        rfl

theorem narrowAll_spec (hs : s.Declares d) {calls : List Call}
    (hok : ∀ call ∈ calls, ∀ f ∈ call.filters, IsAttribute f.path)
    (hreadable : s.conditions.Readable truth) :
    (s.narrowAll calls).conditions.Readable truth ∧
      ((s.narrowAll calls).conditions.value? truth).getD true =
        ((s.conditions.value? truth).getD true && (s.successes calls).all (d.asks truth)) := by
  induction calls generalizing s with
  | nil => exact ⟨hreadable, by simp [Session.narrowAll, Session.successes]⟩
  | cons call rest ih =>
      have hrest : ∀ call ∈ rest, ∀ f ∈ call.filters, IsAttribute f.path :=
        fun c hc => hok c (by simp [hc])
      rw [Session.narrowAll, Session.successes]
      cases hnarrow : s.narrow call.connective call.filters with
      | error e => exact ih hs hrest hreadable
      | ok next =>
          obtain ⟨hdeclares, hnext, hvalue⟩ :=
            narrow_spec hcolumns hs (hok call (by simp)) hreadable hnarrow
          obtain ⟨hend, hall⟩ := ih hdeclares hrest hnext
          refine ⟨hend, ?_⟩
          rw [hall, hvalue, List.all_cons, Bool.and_assoc]

end Narrow

theorem start_spec {d : Document} {config : Config} {s : Session}
    (h : Session.start d config = .ok s) :
    s.Declares d ∧ Statement.ofFilters .and d.defaultConditions = .ok s.conditions := by
  unfold Session.start at h
  split at h
  next => simp at h
  next conditions hconditions =>
    obtain rfl := Except.ok.inj h
    exact ⟨⟨rfl, rfl⟩, hconditions⟩

/-- The clause of a session is true when the default conditions of the document and all that the
successful calls asked for are, and it is empty only if that is always so. -/
theorem narrowed_clause {d : Document} {config : Config} {s : Session}
    (hstart : Session.start d config = .ok s)
    (hdefaults : ∀ f ∈ d.defaultConditions, IsAttribute f.path)
    (hcolumns : ∀ r ∈ d.spreads, ∀ column ∈ r.columns, IsAttribute column) (calls : List Call)
    (hcalls : ∀ call ∈ calls, ∀ f ∈ call.filters, IsAttribute f.path) (truth : Sql.Atom → Bool) :
    ((s.narrowAll calls).conditions.isEmpty = false →
      (s.narrowAll calls).conditions.value? truth =
        some (d.defaultConditions.all (Filter.holds truth) &&
          (s.successes calls).all (d.asks truth))) ∧
    ((s.narrowAll calls).conditions.isEmpty = true →
      d.defaultConditions.all (Filter.holds truth) = true ∧
        (s.successes calls).all (d.asks truth) = true) ∧
    ((s.narrowAll calls).conditions.value? truth = some true →
      d.defaultConditions.all (Filter.holds truth) = true) := by
  obtain ⟨hdeclares, hconditions⟩ := start_spec hstart
  have hreadable : s.conditions.Readable truth := readable_ofFilters hdefaults hconditions
  have hvalue : (s.conditions.value? truth).getD true =
      d.defaultConditions.all (Filter.holds truth) := by
    rw [value?_ofFilters hdefaults hconditions, getD_fold?_and_list, List.all_map]
    rfl
  obtain ⟨hend, hall⟩ := narrowAll_spec hcolumns hdeclares hcalls hreadable
  rw [hvalue] at hall
  refine ⟨fun hne => ?_, fun hempty => ?_, fun htrue => ?_⟩
  · obtain ⟨b, hb⟩ := Option.isSome_iff_exists.1 (hend.isSome_value? hne)
    rw [← hall, hb]
    rfl
  · rw [Statement.value?_of_isEmpty hempty] at hall
    exact Bool.and_eq_true_iff.1 hall.symm
  · rw [htrue] at hall
    exact (Bool.and_eq_true_iff.1 hall.symm).1

def archive : Document where
  name := "archive"
  version := "1"
  columns := ∅
  tokens := ∅
  routes := .ofList [("search",
    ⟨fulltext, .or, [⟨"fields", .list [.text "title", .text "body"]⟩]⟩)]
  defaultConditions := [⟨"tenant", .compare .equal, .nat 7⟩]
  subjects := ∅
  settings := none

def intrusion : List Call := [
  ⟨.or, [⟨"tenant", .compare .notEqual, .nat 7⟩, ⟨"search", .like .anywhere, .text "x"⟩]⟩,
  ⟨.or, [⟨"age", .between false, .nat 1⟩]⟩]

theorem narrowed_clause_archive : ∃ s, Session.start archive .default = .ok s ∧
    (∀ f ∈ archive.defaultConditions, IsAttribute f.path) ∧
    (∀ r ∈ archive.spreads, ∀ column ∈ r.columns, IsAttribute column) ∧
    (∀ call ∈ intrusion, ∀ f ∈ call.filters, IsAttribute f.path) ∧ ∀ truth,
      (s.narrowAll intrusion).conditions.value? truth = some true →
        truth ⟨"tenant", .compare .equal, some (.nat 7)⟩ = true := by
  have hfits : ∀ f ∈ archive.defaultConditions, f.fits = true := by decide
  obtain ⟨conditions, hconditions⟩ := (exists_ofFilters_iff (c := .and)).2 hfits
  have hdefaults : ∀ f ∈ archive.defaultConditions, IsAttribute f.path := by decide +kernel
  have hcolumns : ∀ r ∈ archive.spreads, ∀ column ∈ r.columns, IsAttribute column := by
    decide +kernel
  have hcalls : ∀ call ∈ intrusion, ∀ f ∈ call.filters, IsAttribute f.path := by decide +kernel
  have hstart : ∃ s, Session.start archive .default = .ok s := by
    rw [Session.start, hconditions]
    exact ⟨_, rfl⟩
  obtain ⟨s, hs⟩ := hstart
  refine ⟨s, hs, hdefaults, hcolumns, hcalls, fun truth htrue => ?_⟩
  have htenant := (narrowed_clause hs hdefaults hcolumns intrusion hcalls truth).2.2 htrue
  simpa [archive, Filter.holds, Filter.atoms] using htenant

end ClauseWeave
