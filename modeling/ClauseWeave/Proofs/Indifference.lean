import ClauseWeave.Proofs.Binding
import ClauseWeave.Proofs.Narrowing

namespace ClauseWeave

/-- Both fail for one reason, or both succeed with results that are related. -/
inductive EndAlike {ε α β : Type} (R : α → β → Prop) : Except ε α → Except ε β → Prop
  | error (e : ε) : EndAlike R (.error e) (.error e)
  | ok {a : α} {b : β} (h : R a b) : EndAlike R (.ok a) (.ok b)

theorem EndAlike.elim {ε α β : Type} {R : α → β → Prop} {x : Except ε α} {y : Except ε β}
    (h : EndAlike R x y) :
    (∃ e, x = .error e ∧ y = .error e) ∨ ∃ a b, x = .ok a ∧ y = .ok b ∧ R a b := by
  cases h with
  | error e => exact .inl ⟨e, rfl, rfl⟩
  | ok h => exact .inr ⟨_, _, rfl, rfl, h⟩

/-- All that a text can show of a value: how many items it has, if it is a list. -/
def Value.shape : Value → Option Nat
  | list items => some items.length
  | _ => none

namespace Dict

variable {α β : Type}

theorem map_put (f : α → β) (k : String) (v : α) (l : List (String × α)) :
    (put k v l).map (fun e => (e.1, f e.2)) = put k (f v) (l.map fun e => (e.1, f e.2)) := by
  induction l with
  | nil => rfl
  | cons e rest ih =>
      by_cases hlt : k < e.1
      · simp [put, hlt]
      · by_cases hgt : e.1 < k <;> simp [put, hlt, hgt, ih]

theorem map_insert (f : α → β) (d : Dict α) (k : String) (v : α) :
    (d.insert k v).map f = (d.map f).insert k (f v) := by
  apply Dict.ext
  exact map_put f k v d.entries

theorem get?_map (f : α → β) (d : Dict α) (k : String) : (d.map f).get? k = (d.get? k).map f := by
  obtain ⟨l, hl⟩ := d
  change (l.map fun e => (e.1, f e.2)).lookup k = (l.lookup k).map f
  clear hl
  induction l with
  | nil => rfl
  | cons e rest ih =>
      rw [List.map_cons, lookup_pair_cons, ih, lookup_pair_cons]
      split <;> rfl

/-- The same names, with values of the same shape. -/
def Alike (d e : Dict Value) : Prop := d.map Value.shape = e.map Value.shape

namespace Alike

variable {d e : Dict Value}

theorem refl (d : Dict Value) : d.Alike d := rfl

theorem keys (h : d.Alike e) : d.keys = e.keys := by
  rw [← keys_map Value.shape d, h, keys_map]

theorem insert (h : d.Alike e) (k : String) {v w : Value} (hvw : v.shape = w.shape) :
    (d.insert k v).Alike (e.insert k w) := by
  rw [Alike, map_insert, map_insert, h, hvw]

theorem get? (h : d.Alike e) (k : String) :
    (d.get? k).map Value.shape = (e.get? k).map Value.shape := by
  rw [← get?_map, ← get?_map, h]

theorem entries (h : d.Alike e) :
    List.Forall₂ (fun a b => a.1 = b.1 ∧ a.2.shape = b.2.shape) d.entries e.entries := by
  have hentries := congrArg Dict.entries h
  rw [← List.forall₂_eq_eq_eq] at hentries
  simpa [Dict.map, List.forall₂_map_left_iff, List.forall₂_map_right_iff] using hentries

end Alike

end Dict

/-- One attribute under one operator, which takes both values; they are of one shape. -/
structure Filter.Alike (f g : Filter) : Prop where
  path : f.path = g.path
  operator : f.operator = g.operator
  fits : f.fits = true ∧ g.fits = true
  shape : f.value.shape = g.value.shape

theorem Filter.Alike.withPath {f g : Filter} (h : f.Alike g) (path : String) :
    (f.withPath path).Alike (g.withPath path) := ⟨rfl, h.operator, h.fits, h.shape⟩

structure Draft.Alike (d e : Draft) : Prop where
  arguments : d.arguments.Alike e.arguments
  fragments : d.fragments = e.fragments
  leaves : d.leaves = e.leaves

structure Statement.Alike (s t : Statement) : Prop where
  body : s.body = t.body
  arguments : s.arguments.Alike t.arguments
  fragments : s.fragments = t.fragments

theorem Value.shape_of_isBound {v : Value} (h : v.isBound = true) : v.shape = none := by
  cases v <;> simp_all [isBound, shape]

namespace Draft.Alike

variable {d e : Draft} (h : d.Alike e)

include h

theorem taken : d.taken = e.taken := by rw [Draft.taken, Draft.taken, h.arguments.keys, h.fragments]

theorem setArgument (name : String) {v w : Value} (hvw : v.shape = w.shape) :
    (d.setArgument name v).Alike (e.setArgument name w) :=
  ⟨h.arguments.insert name hvw, h.fragments, h.leaves⟩

theorem addFragment (key text : String) :
    (d.addFragment key text).Alike (e.addFragment key text) :=
  ⟨h.arguments, congrArg (·.insert key text) h.fragments, congrArg (· ++ [Tree.leaf key text]) h.leaves⟩

theorem addRange (key path : String) (negated : Bool) {low low' high high' : Value}
    (hlow : low.shape = low'.shape) (hhigh : high.shape = high'.shape) :
    (d.addRange key path negated low high).Alike (e.addRange key path negated low' high') := by
  have hset := h.setArgument (Name.fresh (key ++ "_1") (key :: d.taken)) hlow
  simp only [Draft.addRange, ← h.taken, ← hset.taken]
  exact (hset.setArgument _ hhigh).addFragment _ _

theorem add {f g : Filter} (hfg : f.Alike g) : EndAlike Draft.Alike (d.add f) (e.add g) := by
  obtain ⟨path, op, v⟩ := f
  obtain ⟨path', op', w⟩ := g
  obtain ⟨rfl, rfl, ⟨hv, hw⟩, hshape⟩ := hfg
  simp only [Draft.add, ← h.taken]
  cases op with
  | compare c => exact .ok ((h.setArgument _ hshape).addFragment _ _)
  | like m =>
      cases v with
      | text s =>
          cases w with
          | text t =>
              have hpattern : (Value.text (m.pattern s)).shape = (Value.text (m.pattern t)).shape := rfl
              exact .ok ((h.setArgument _ hpattern).addFragment _ _)
          | _ => simp [Filter.fits] at hw
      | _ => simp [Filter.fits] at hv
  | among negated =>
      have hlist : v.isList = true := hv
      have hlist' : w.isList = true := hw
      simp only [hlist, hlist', if_true]
      exact .ok ((h.setArgument _ hshape).addFragment _ _)
  | between negated =>
      obtain ⟨low, high, rfl, hlow, hhigh⟩ := Filter.list_of_fits_between hv
      obtain ⟨low', high', rfl, hlow', hhigh'⟩ := Filter.list_of_fits_between hw
      rw [Draft.range?_eq_ok_iff.2 ⟨rfl, hlow, hhigh⟩, Draft.range?_eq_ok_iff.2 ⟨rfl, hlow', hhigh'⟩]
      refine .ok (h.addRange _ _ _ ?_ ?_)
      · rw [Value.shape_of_isBound hlow, Value.shape_of_isBound hlow']
      · rw [Value.shape_of_isBound hhigh, Value.shape_of_isBound hhigh']
  | null negated => exact .ok (h.addFragment _ _)

theorem addAll {fs gs : List Filter} (hfg : List.Forall₂ Filter.Alike fs gs) :
    EndAlike Draft.Alike (d.addAll fs) (e.addAll gs) := by
  induction hfg generalizing d e with
  | nil => exact .ok h
  | cons hfg _ ih =>
      rw [Draft.addAll, Draft.addAll]
      rcases (h.add hfg).elim with ⟨fault, hd, he⟩ | ⟨next, next', hd, he, hnext⟩
      · rw [hd, he]
        exact .error fault
      · rw [hd, he]
        exact ih hnext

end Draft.Alike

theorem alike_ofFilters (c : Connective) {fs gs : List Filter}
    (h : List.Forall₂ Filter.Alike fs gs) :
    EndAlike Statement.Alike (Statement.ofFilters c fs) (Statement.ofFilters c gs) := by
  have hempty : Draft.empty.Alike .empty := ⟨.refl _, rfl, rfl⟩
  rw [Statement.ofFilters, Statement.ofFilters]
  rcases (hempty.addAll h).elim with ⟨fault, hfs, hgs⟩ | ⟨d, e, hfs, hgs, hde⟩
  · rw [hfs, hgs]
    exact .error fault
  · rw [hfs, hgs]
    exact .ok ⟨congrArg (Body.ofTrees c) hde.leaves, hde.arguments, hde.fragments⟩

structure Merge.Alike (m n : Merge) : Prop where
  arguments : m.arguments.Alike n.arguments
  fragments : m.fragments = n.fragments
  bodies : m.bodies = n.bodies

/-- A new name depends on the names in use, not on what they stand for. -/
theorem Merge.alike_addArguments {taken taken' : Dict Value} (h : taken.Alike taken')
    {entries entries' : List (String × Value)}
    (he : List.Forall₂ (fun a b => a.1 = b.1 ∧ a.2.shape = b.2.shape) entries entries')
    (renames : Dict String) :
    (addArguments taken renames entries).1.Alike (addArguments taken' renames entries').1 ∧
      (addArguments taken renames entries).2 = (addArguments taken' renames entries').2 := by
  induction he generalizing taken taken' renames with
  | nil => exact ⟨h, rfl⟩
  | @cons a b _ _ hab _ ih =>
      obtain ⟨name, v⟩ := a
      obtain ⟨name', w⟩ := b
      obtain ⟨rfl, hshape⟩ : name = name' ∧ v.shape = w.shape := hab
      simp only [addArguments, ← h.keys]
      exact ih (h.insert _ hshape) _

theorem Merge.alike_add (c : Connective) {m n : Merge} (h : m.Alike n) {s t : Statement}
    (hst : s.Alike t) : (m.add c s).Alike (n.add c t) := by
  obtain ⟨harguments, hrenames⟩ := alike_addArguments h.arguments hst.arguments.entries ∅
  refine ⟨harguments, ?_, ?_⟩
  · rw [add_fragments, add_fragments, hrenames, h.fragments, hst.fragments]
  · rw [add_bodies, add_bodies, hrenames, h.bodies, hst.body]

theorem alike_merge (c : Connective) {ss ts : List Statement}
    (h : List.Forall₂ Statement.Alike ss ts) : (merge c ss).Alike (merge c ts) := by
  have hpresent : List.Forall₂ Statement.Alike (present ss) (present ts) := by
    refine List.rel_filter ?_ h
    intro s t hst
    simp only [Statement.isEmpty, Statement.clause, hst.body]
  have hempty : Merge.empty.Alike .empty := ⟨.refl _, rfl, rfl⟩
  have hend := List.rel_foldl (P := Merge.Alike) (R := Statement.Alike)
    (fun _ _ hm _ _ hst => Merge.alike_add c hm hst) hempty hpresent
  exact ⟨congrArg (Body.join c) hend.bodies, hend.arguments, hend.fragments⟩

def Route.Steady (r : Route) : Prop :=
  ∀ f g, Filter.Alike f g → EndAlike Statement.Alike (r.expander f) (r.expander g)

theorem Spread.steady_route (s : Spread) : s.route.Steady := by
  intro f g hfg
  change EndAlike Statement.Alike (fanOut s.columns f) (fanOut s.columns g)
  unfold fanOut
  split
  next =>
    rw [hfg.path]
    exact .error _
  next =>
    apply alike_ofFilters
    rw [List.forall₂_map_left_iff, List.forall₂_map_right_iff, List.forall₂_same]
    exact fun path _ => hfg.withPath path

section Routed

variable {routes : List Route} (hroutes : ∀ r ∈ routes, r.Steady) {fs gs : List Filter}
  (h : List.Forall₂ Filter.Alike fs gs)

theorem Route.find?_alike (routes : List Route) {f g : Filter} (h : f.Alike g) :
    find? routes f = find? routes g := by
  rw [find?, find?, h.path]

include hroutes h

theorem alike_expandAll {s t : Statement} (hst : s.Alike t) :
    EndAlike Statement.Alike (Route.expandAll routes s fs) (Route.expandAll routes t gs) := by
  induction h generalizing s t with
  | nil => exact .ok hst
  | @cons f g _ _ hfg _ ih =>
      rw [Route.expandAll, Route.expandAll, Route.find?_alike routes hfg]
      cases hroute : Route.find? routes g with
      | none => exact ih hst
      | some route =>
          have hsteady := hroutes route (List.mem_of_find?_eq_some hroute) f g hfg
          dsimp only
          rcases hsteady.elim with ⟨e, hf, hg⟩ | ⟨sub, sub', hf, hg, hsub⟩
          · rw [hf, hg]
            exact .error e
          · rw [hf, hg]
            exact ih (alike_merge _ (.cons hsub (.cons hst .nil)))

theorem alike_ofRouted (c : Connective) :
    EndAlike Statement.Alike (Statement.ofRouted c routes fs) (Statement.ofRouted c routes gs) := by
  have hunrouted : List.Forall₂ Filter.Alike (fs.filter fun f => (Route.find? routes f).isNone)
      (gs.filter fun g => (Route.find? routes g).isNone) := by
    refine List.rel_filter ?_ h
    intro f g hfg
    simp only [Route.find?_alike routes hfg]
  rw [Statement.ofRouted, Statement.ofRouted]
  rcases (alike_ofFilters c hunrouted).elim with ⟨e, hs, ht⟩ | ⟨s, t, hs, ht, hst⟩
  · rw [hs, ht]
    exact .error e
  · rw [hs, ht]
    exact alike_expandAll hroutes h hst

end Routed

/-- The sessions differ in the values of their conditions alone. -/
inductive Session.Alike (s : Session) : Session → Prop
  | differ (conditions : Statement) (h : s.conditions.Alike conditions) :
      Alike s (s.setConditions conditions)

theorem Session.Alike.refl (s : Session) : s.Alike s := .differ s.conditions ⟨rfl, .refl _, rfl⟩

structure Call.Alike (a b : Call) : Prop where
  connective : a.connective = b.connective
  filters : List.Forall₂ Filter.Alike a.filters b.filters

namespace Session

def outcomes (s : Session) : List Call → List (Option Failure)
  | [] => []
  | call :: rest =>
    match s.narrow call.connective call.filters with
    | .ok next => none :: next.outcomes rest
    | .error e => some e :: s.outcomes rest

theorem steady_of_routesFor {s : Session} (hregistry : s.registry = .builtin) {fs : List Filter}
    {routes : List Route} (h : s.routesFor fs = .ok routes) : ∀ r ∈ routes, r.Steady := by
  rw [routesFor, hregistry] at h
  rw [Registry.mapM_route_builtin h]
  intro r hr
  obtain ⟨spread, -, rfl⟩ := List.mem_map.1 hr
  exact spread.steady_route

theorem routesFor_alike (s : Session) {fs gs : List Filter} (h : List.Forall₂ Filter.Alike fs gs) :
    s.routesFor fs = s.routesFor gs := by
  have hpaths : fs.map Filter.path = gs.map Filter.path := by
    rw [← List.forall₂_eq_eq_eq, List.forall₂_map_left_iff, List.forall₂_map_right_iff]
    exact h.imp fun f g hfg => hfg.path
  have hany (path : String) : fs.any (·.path = path) = gs.any (·.path = path) := by
    have hmap (l : List Filter) : l.any (·.path = path) = (l.map Filter.path).any (· = path) := by
      rw [List.any_map]
      rfl
    rw [hmap, hmap, hpaths]
  simp only [routesFor, hany]

theorem Alike.narrow {s t : Session} (h : s.Alike t) (hregistry : s.registry = .builtin)
    {a b : Call} (hab : a.Alike b) :
    EndAlike (fun s' t' => s'.Alike t' ∧ s'.registry = .builtin)
      (s.narrow a.connective a.filters) (t.narrow b.connective b.filters) := by
  obtain ⟨conditions, h⟩ := h
  have hroutesFor : (s.setConditions conditions).routesFor b.filters = s.routesFor a.filters :=
    (s.routesFor_alike hab.filters).symm
  rw [Session.narrow, Session.narrow, hroutesFor, hab.connective]
  cases hroutes : s.routesFor a.filters with
  | error e => exact .error e
  | ok routes =>
      dsimp only
      have hsteady := steady_of_routesFor hregistry hroutes
      rcases (alike_ofRouted hsteady hab.filters b.connective).elim with
        ⟨e, hs, ht⟩ | ⟨added, added', hs, ht, hadded⟩
      · rw [hs, ht]
        exact .error e
      · rw [hs, ht]
        have hmerge := alike_merge .and (.cons h (.cons hadded .nil))
        exact .ok ⟨.differ _ hmerge, hregistry⟩

theorem Alike.narrowAll {s t : Session} (h : s.Alike t) (hregistry : s.registry = .builtin)
    {calls calls' : List Call} (hcalls : List.Forall₂ Call.Alike calls calls') :
    s.outcomes calls = t.outcomes calls' ∧ (s.narrowAll calls).Alike (t.narrowAll calls') := by
  induction hcalls generalizing s t with
  | nil => exact ⟨rfl, h⟩
  | cons hcall _ ih =>
      rw [outcomes, outcomes, Session.narrowAll, Session.narrowAll]
      rcases (h.narrow hregistry hcall).elim with
        ⟨e, hs, ht⟩ | ⟨next, next', hs, ht, hnext, hkept⟩
      · rw [hs, ht]
        obtain ⟨hends, halike⟩ := ih h hregistry
        exact ⟨congrArg (some e :: ·) hends, halike⟩
      · rw [hs, ht]
        obtain ⟨hends, halike⟩ := ih hnext hkept
        exact ⟨congrArg (none :: ·) hends, halike⟩

end Session

theorem Statement.Alike.token {s t : Statement} (h : s.Alike t) : s.token = t.token := by
  obtain ⟨body, arguments, fragments⟩ := s
  obtain ⟨body', arguments', fragments'⟩ := t
  obtain ⟨rfl, -, rfl⟩ := h
  rfl

theorem Session.Alike.query {s t : Session} (h : s.Alike t) (key : String) :
    s.query key = t.query key := by
  obtain ⟨conditions, h⟩ := h
  have hcontext : s.context = (s.setConditions conditions).context := by
    simp only [Session.context, Session.setConditions, h.token]
  rw [Session.query, Session.query, hcontext]
  rfl

namespace BoundQuery

theorem valuesOf_alike {a b : Dict Value} (h : a.Alike b) (name : String) :
    EndAlike (fun vs ws => vs.length = ws.length) (valuesOf a name) (valuesOf b name) := by
  have hshape := h.get? name
  rw [valuesOf, valuesOf]
  cases ha : a.get? name with
  | none =>
      cases hb : b.get? name with
      | none => exact .error _
      | some w => simp [ha, hb] at hshape
  | some v =>
      cases hb : b.get? name with
      | none => simp [ha, hb] at hshape
      | some w =>
          have hvw : v.shape = w.shape := by simpa [ha, hb] using hshape
          cases v with
          | list items =>
              cases w with
              | list items' =>
                  have hlength : items.length = items'.length := Option.some.inj hvw
                  cases items with
                  | nil =>
                      obtain rfl := List.eq_nil_of_length_eq_zero hlength.symm
                      exact .error _
                  | cons v rest =>
                      obtain ⟨w, rest', rfl⟩ := List.exists_cons_of_length_eq_add_one hlength.symm
                      exact .ok hlength
              | _ => simp [Value.shape] at hvw
          | _ =>
              cases w with
              | list items' => simp [Value.shape] at hvw
              | _ => exact .ok rfl

theorem fill_alike (d : Dialect) {a b : Dict Value} (h : a.Alike b) (ps : List Piece)
    (bound : Nat) : EndAlike (fun r r' => r.1 = r'.1 ∧ r.2.length = r'.2.length)
      (fill d a bound ps) (fill d b bound ps) := by
  induction ps generalizing bound with
  | nil => exact .ok ⟨rfl, rfl⟩
  | cons p rest ih =>
      cases p with
      | marker name =>
          rw [fill, fill]
          rcases (valuesOf_alike h (String.ofList name)).elim with
            ⟨e, ha, hb⟩ | ⟨vs, ws, ha, hb, hlength⟩
          · rw [ha, hb]
            exact .error e
          · rw [ha, hb]
            dsimp only
            rw [← hlength]
            rcases (ih (bound + vs.length)).elim with ⟨e, ha, hb⟩ | ⟨r, r', ha, hb, hsql, hargs⟩
            · rw [ha, hb]
              exact .error e
            · rw [ha, hb]
              exact .ok ⟨congrArg ((slots d bound vs.length).toList ++ ·) hsql,
                by simp [hlength, hargs]⟩
      | other c | cast | literal text =>
          rw [fill_cons d a bound rfl, fill_cons d b bound rfl]
          rcases (ih bound).elim with ⟨e, ha, hb⟩ | ⟨r, r', ha, hb, hsql, hargs⟩
          · rw [ha, hb]
            exact .error e
          · rw [ha, hb]
            exact .ok ⟨congrArg (Piece.chars _ ++ ·) hsql, hargs⟩

end BoundQuery

structure BoundQuery.Alike (q r : BoundQuery) : Prop where
  sql : q.sql = r.sql
  args : q.args.length = r.args.length

theorem Session.Alike.boundQuery {s t : Session} (h : s.Alike t) (key : String) :
    EndAlike BoundQuery.Alike (s.boundQuery key) (t.boundQuery key) := by
  have hquery := h.query key
  obtain ⟨conditions, h⟩ := h
  rw [Session.boundQuery, Session.boundQuery, ← hquery]
  cases s.query key with
  | error e => exact .error e
  | ok sql =>
      simp only [bind, Session.setConditions]
      rcases (BoundQuery.fill_alike s.config.dialect h.arguments
        (Piece.pieces .narrow sql.toList) 0).elim with ⟨e, hs, ht⟩ | ⟨r, r', hs, ht, hsql, hargs⟩
      · rw [hs, ht]
        exact .error _
      · rw [hs, ht]
        exact .ok ⟨congrArg String.ofList hsql, hargs⟩

/-- Filters that differ in their values alone, each of a shape with its counterpart, make no
difference to how calls end or to what is written: every subject has one text in both runs, and it
is bound as one text with as many arguments, or fails for one reason. -/
theorem values_leave_texts {s : Session} (hregistry : s.registry = .builtin)
    {calls calls' : List Call} (h : List.Forall₂ Call.Alike calls calls') :
    s.outcomes calls = s.outcomes calls' ∧
      (∀ key, (s.narrowAll calls).query key = (s.narrowAll calls').query key) ∧
      ∀ key, EndAlike BoundQuery.Alike ((s.narrowAll calls).boundQuery key)
        ((s.narrowAll calls').boundQuery key) := by
  obtain ⟨hends, halike⟩ := (Session.Alike.refl s).narrowAll hregistry h
  exact ⟨hends, halike.query, halike.boundQuery⟩

def archiveRows : Document :=
  { archive with subjects := .ofList [("rows", "SELECT * FROM notes %where")] }

def inquiry (words : String) (shelf : List Value) (first last : Value) : List Call :=
  [⟨.or, [⟨"search", .like .anywhere, .text words⟩, ⟨"shelf", .among false, .list shelf⟩,
    ⟨"year", .between false, .list [first, last]⟩]⟩]

theorem values_leave_texts_archive : ∃ s, Session.start archiveRows .default = .ok s ∧
    s.registry = .builtin ∧
    List.Forall₂ Call.Alike (inquiry "sea" [.nat 1, .nat 2] (.nat 1) (.nat 9))
      (inquiry ") OR (1=1" [.text ":tenant", .null] (.text "%where") (.text "--")) ∧
    (s.narrowAll (inquiry ") OR (1=1" [.text ":tenant", .null] (.text "%where") (.text "--"))).query
        "rows" =
      .ok ("SELECT * FROM notes WHERE (tenant = :tenant) " ++
        "AND ((title LIKE :title OR body LIKE :body) OR " ++
        "(shelf IN(:shelf) OR year >= :year_1 AND year <= :year_2))") := by
  have halike : List.Forall₂ Call.Alike (inquiry "sea" [.nat 1, .nat 2] (.nat 1) (.nat 9))
      (inquiry ") OR (1=1" [.text ":tenant", .null] (.text "%where") (.text "--")) := by
    refine .cons ⟨rfl, .cons ⟨rfl, rfl, by decide, rfl⟩ (.cons ⟨rfl, rfl, by decide, rfl⟩ ?_)⟩ .nil
    exact .cons ⟨rfl, rfl, by decide, rfl⟩ .nil
  have hrun : (Session.start archiveRows .default).toOption.map (fun s =>
      (s.narrowAll (inquiry "sea" [.nat 1, .nat 2] (.nat 1) (.nat 9))).query "rows") =
        some (.ok ("SELECT * FROM notes WHERE (tenant = :tenant) " ++
          "AND ((title LIKE :title OR body LIKE :body) OR " ++
          "(shelf IN(:shelf) OR year >= :year_1 AND year <= :year_2))")) := by decide +kernel
  cases hstart : Session.start archiveRows .default with
  | error e => simp [hstart, Except.toOption] at hrun
  | ok s =>
      have hregistry := (start_spec hstart).1.registry
      refine ⟨s, rfl, hregistry, halike, ?_⟩
      rw [← (values_leave_texts hregistry halike).2.1 "rows"]
      simpa [hstart, Except.toOption] using hrun

end ClauseWeave
