import ClauseWeave.Proofs.Narrowing

namespace ClauseWeave

theorem Body.markersIn_leaf_subset {b : Body} {leaf : String × String} (h : leaf ∈ b.leaves) :
    markersIn leaf.2 ⊆ markersIn b.clause := by
  cases b with
  | raw text => simp [leaves] at h
  | built tree =>
      intro name hname
      rw [clause, Tree.markersIn_render]
      exact List.mem_flatMap.2 ⟨leaf, h, hname⟩

theorem Filter.spelled_ne_nil {f : Filter} (h : f.fits = true) : f.spelled ≠ [] := by
  obtain ⟨path, op, v⟩ := f
  cases op with
  | like m => cases v <;> simp_all [spelled, fits]
  | between negated =>
      obtain ⟨low, high, rfl, -⟩ := list_of_fits_between h
      simp [spelled]
  | null negated => cases negated <;> simp [spelled, Part.text]
  | _ => simp [spelled]

namespace Statement

/-- There is one leaf for each filter, which spells it with its own values, and there are no filters
to an empty clause. -/
structure Represents (s : Statement) (fs : List Filter) : Prop where
  accounts : s.Accounts fs
  leaves : List.Forall₂ (fun leaf f => resolve s.arguments leaf.2 = f.spelled) s.body.leaves fs
  eq_nil : s.isEmpty = true → fs = []

theorem Represents.bound {s : Statement} {fs : List Filter} (h : s.Represents fs)
    {leaf : String × String} (hleaf : leaf ∈ s.body.leaves) : Bound s.arguments leaf.2 :=
  fun name hname => h.accounts.closed.clause name (Body.markersIn_leaf_subset hleaf hname)

end Statement

theorem represents_ofFilters {c : Connective} {fs : List Filter} {s : Statement}
    (hp : ∀ f ∈ fs, isPath f.path = true) (h : Statement.ofFilters c fs = .ok s) :
    s.Represents fs := by
  refine ⟨accounts_ofFilters hp h, ?_, fun hempty => ?_⟩
  · obtain ⟨d, written, hd, rfl⟩ := ofFilters_spec hp h
    rw [hd.leaves_finish]
    exact hd.spells
  · have hclause : s.clause = "" := String.isEmpty_iff.1 hempty
    have hspelled := resolve_ofFilters hp h
    rw [hclause, resolve_empty] at hspelled
    by_contra hne
    obtain ⟨f, hf⟩ := List.exists_mem_of_ne_nil fs hne
    obtain ⟨part, hpart⟩ := List.exists_mem_of_ne_nil f.spelled
      (Filter.spelled_ne_nil (exists_ofFilters_iff.1 ⟨s, h⟩ f hf))
    have hmem : part ∈ c.parts.intercalate (fs.map Filter.spelled) :=
      mem_intercalate_of_mem (List.mem_map_of_mem hf) hpart
    simp [← hspelled] at hmem

theorem present_eq_nil_of_isEmpty_merge {c : Connective} {ss : List Statement}
    (h : (merge c ss).isEmpty = true) : present ss = [] := by
  by_contra hne
  obtain ⟨s, rest, hpresent⟩ := List.exists_cons_of_ne_nil hne
  obtain ⟨others, hplaced⟩ := Merge.placed_head s rest
  have hparen : '(' ∈ (merge c ss).clause.toList := by
    rw [merge_clause, hpresent, hplaced, String.toList_intercalate, List.map_cons, List.map_cons]
    exact mem_intercalate_of_mem List.mem_cons_self (by simp)
  have hclause : (merge c ss).clause = "" := String.isEmpty_iff.1 h
  simp [hclause] at hparen

section Merged

variable {parts : List (Statement × List Filter)}

theorem spells_placed {all taken : Dict Value} (h : ∀ p ∈ parts, p.1.Represents p.2)
    (hcarries : ∀ z ∈ Merge.placed taken (parts.map Prod.fst), Carries z.1.arguments all z.2) :
    List.Forall₂ (fun leaf f => resolve all leaf.2 = f.spelled)
      ((Merge.placed taken (parts.map Prod.fst)).flatMap fun z =>
        z.1.body.leaves.map fun leaf => (leaf.1, relabel z.2 leaf.2)) (parts.flatMap Prod.snd) := by
  induction parts generalizing taken with
  | nil => exact .nil
  | cons p rest ih =>
      rw [List.map_cons, Merge.placed] at hcarries ⊢
      rw [List.flatMap_cons, List.flatMap_cons]
      have hp := h p (by simp)
      have hcarry := hcarries _ List.mem_cons_self
      refine List.rel_append ?_ (ih (fun q hq => h q (by simp [hq]))
        fun z hz => hcarries z (List.mem_cons_of_mem _ hz))
      rw [List.forall₂_map_left_iff]
      have hboth := (List.forall₂_and_left _ _).2 ⟨fun _ => hp.bound, hp.leaves⟩
      exact hboth.imp fun leaf f hleaf => (hcarry.resolve_relabel hleaf.1).trans hleaf.2

theorem exists_present_parts (h : ∀ p ∈ parts, p.1.Represents p.2) :
    ∃ more : List (Statement × List Filter), (∀ p ∈ more, p.1.Represents p.2) ∧
      present (parts.map Prod.fst) = more.map Prod.fst ∧
      parts.flatMap Prod.snd = more.flatMap Prod.snd := by
  induction parts with
  | nil => exact ⟨[], by simp, rfl, rfl⟩
  | cons p rest ih =>
      obtain ⟨more, hmore, hpresent, hfilters⟩ := ih fun q hq => h q (by simp [hq])
      have hp := h p (by simp)
      cases hempty : p.1.isEmpty with
      | true =>
          refine ⟨more, hmore, ?_, ?_⟩
          · rw [← hpresent]
            simp [present, hempty]
          · simp [hp.eq_nil hempty, hfilters]
      | false =>
          refine ⟨p :: more, List.forall_mem_cons.2 ⟨hp, hmore⟩, ?_, ?_⟩
          · rw [List.map_cons, List.map_cons, ← hpresent]
            simp [present, hempty]
          · simp [hfilters]

theorem represents_merge (c : Connective) {parts : List (Statement × List Filter)}
    (h : ∀ p ∈ parts, p.1.Represents p.2) :
    (merge c (parts.map Prod.fst)).Represents (parts.flatMap Prod.snd) := by
  have haccounts : ∀ p ∈ parts, p.1.Accounts p.2 := fun p hp => (h p hp).accounts
  obtain ⟨more, hmore, hpresent, hfilters⟩ := exists_present_parts h
  refine ⟨accounts_merge c haccounts, ?_, fun hempty => ?_⟩
  · have hcarries (z) := carries_merge c (parts.map Prod.fst) (p := z)
    rw [leaves_merge c (isTree_of_mem_present haccounts), hfilters]
    rw [hpresent] at hcarries ⊢
    exact spells_placed hmore hcarries
  · have hnil : more = [] := by simpa [hpresent] using present_eq_nil_of_isEmpty_merge hempty
    rw [hfilters, hnil, List.flatMap_nil]

end Merged

theorem Reached.represents {s : Statement} {fs : List Filter}
    (h : Reached (fun path => isPath path = true) s fs) : s.Represents fs :=
  h.induction represents_ofFilters represents_merge

namespace Spread

variable (spreads : List Spread) (fs : List Filter)

def routed : List (Spread × Filter) := fs.filterMap fun f => (find? spreads f).map fun r => (r, f)

theorem gather_eq_foldl {α : Type} (one : Spread → Filter → α) (join : Connective → α → α → α)
    (sofar : α) : gather spreads one join sofar fs =
      (routed spreads fs).foldl (fun sofar p => join p.1.connective (one p.1 p.2) sofar) sofar := by
  induction fs generalizing sofar with
  | nil => rfl
  | cons f rest ih =>
      rw [gather, routed, List.filterMap_cons]
      cases hfind : find? spreads f with
      | none => exact ih sofar
      | some r => exact ih _

/-- What was spread last comes first. -/
theorem spreadAll_eq : spreadAll spreads fs =
    (routed spreads fs).reverse.flatMap (fun p => p.1.filters p.2) ++ unrouted spreads fs := by
  have hrun (ps : List (Spread × Filter)) (sofar : List Filter) :
      ps.foldl (fun sofar p => p.1.filters p.2 ++ sofar) sofar =
        ps.reverse.flatMap (fun p => p.1.filters p.2) ++ sofar := by
    induction ps generalizing sofar with
    | nil => rfl
    | cons p rest ih => simp [ih]
  rw [spreadAll, gather_eq_foldl, hrun]

variable {spreads fs}

theorem columns_ne_nil {sofar s : Statement}
    (h : Route.expandAll (spreads.map route) sofar fs = .ok s) :
    ∀ p ∈ routed spreads fs, p.1.columns ≠ [] := by
  induction fs generalizing sofar with
  | nil => simp [routed]
  | cons f rest ih =>
      have hagree := agree_map_route spreads [f] f (by simp)
      rw [routed, List.filterMap_cons]
      cases hfind : find? spreads f with
      | none =>
          rw [hfind] at hagree
          rw [expandAll_none hagree] at h
          exact ih h
      | some r =>
          rw [hfind] at hagree
          obtain ⟨sub, hsub, hnext⟩ := expandAll_some hagree h
          refine List.forall_mem_cons.2 ⟨?_, ih hnext⟩
          rintro (hnil : r.columns = [])
          simp [route, fanOut, hnil] at hsub

theorem fold?_filters {r : Spread} (h : r.columns ≠ []) (truth : Sql.Atom → Bool) (f : Filter) :
    Sql.fold? .or ((r.filters f).map (Filter.holds truth)) =
      some ((r.filters f).any (Filter.holds truth)) := by
  obtain ⟨column, rest, hcolumns⟩ := List.exists_cons_of_ne_nil h
  simp [filters, hcolumns, Sql.fold?, Sql.fold]

end Spread

theorem exists_expandAll_of_ofRouted {c : Connective} {routes : List Route} {fs : List Filter}
    {s : Statement} (h : Statement.ofRouted c routes fs = .ok s) :
    ∃ sofar, Route.expandAll routes sofar fs = .ok s := by
  unfold Statement.ofRouted at h
  split at h
  next => simp at h
  next sofar _ => exact ⟨sofar, h⟩

/-- No filter is lost or doubled on its route: the leaves are those without a route, and in front of
them every other filter once for each of its columns, all of them with their own values. The clause
starts from the filters without a route; each of the others, which is true if it is true of one of
its columns, is joined with what there is so far, if there is anything. -/
theorem routed_clause {c : Connective} {spreads : List Spread} {fs : List Filter} {s : Statement}
    (hok : ∀ f ∈ fs, IsAttribute f.path)
    (hcolumns : ∀ r ∈ spreads, ∀ column ∈ r.columns, IsAttribute column)
    (h : Statement.ofRouted c (spreads.map Spread.route) fs = .ok s) :
    List.Forall₂ (fun leaf f => resolve s.arguments leaf.2 = f.spelled) s.body.leaves
        ((Spread.routed spreads fs).reverse.flatMap (fun p => p.1.filters p.2) ++
          Spread.unrouted spreads fs) ∧
      ∀ truth, s.value? truth = (Spread.routed spreads fs).foldl
        (fun sofar p => Sql.fold? p.1.connective
          ((p.1.filters p.2).any (Filter.holds truth) :: sofar.toList))
        (Sql.fold? c ((Spread.unrouted spreads fs).map (Filter.holds truth))) := by
  constructor
  · have hreached : Reached (fun path => isPath path = true) s (Spread.spreadAll spreads fs) :=
      .routed (fun f hf => (hok f hf).isPath)
        (fun r hr column hcolumn => (hcolumns r hr column hcolumn).isPath) h
    rw [← Spread.spreadAll_eq]
    exact hreached.represents.leaves
  · intro truth
    obtain ⟨sofar, hrun⟩ := exists_expandAll_of_ofRouted h
    rw [(value?_ofRouted (Spread.agree_map_route spreads fs) hcolumns hok h).2,
      Spread.gather_eq_foldl]
    refine List.foldl_ext _ _ _ fun sofar p hp => ?_
    rw [Spread.fold?_filters (Spread.columns_ne_nil hrun p hp)]
    rfl

def searches : List Spread := [
  ⟨"search", .and, ["title", "body"]⟩, ⟨"notes", .or, ["body", "note"]⟩]

def letters : List Filter := [
  ⟨"search", .like .anywhere, .text "sea"⟩, ⟨"body", .compare .notEqual, .text ""⟩,
  ⟨"notes", .like .atStart, .text "x"⟩]

theorem routed_clause_letters : ∃ s,
    Statement.ofRouted .and (searches.map Spread.route) letters = .ok s ∧
    (∀ f ∈ letters, IsAttribute f.path) ∧
    (∀ r ∈ searches, ∀ column ∈ r.columns, IsAttribute column) ∧ s.body.leaves.length = 5 ∧
    ∀ truth, truth ⟨"note", .like, some (.text "x%")⟩ = true → s.value? truth = some true := by
  have hok : ∀ f ∈ letters, IsAttribute f.path := by decide +kernel
  have hcolumns : ∀ r ∈ searches, ∀ column ∈ r.columns, IsAttribute column := by decide +kernel
  have hsome : (Statement.ofRouted .and (searches.map Spread.route) letters).toOption.isSome =
    true := by decide +kernel
  obtain ⟨s, hs⟩ : ∃ s, Statement.ofRouted .and (searches.map Spread.route) letters = .ok s := by
    cases hrouted : Statement.ofRouted .and (searches.map Spread.route) letters with
    | ok s => exact ⟨s, rfl⟩
    | error e => simp [Except.toOption, hrouted] at hsome
  obtain ⟨hleaves, hvalue⟩ := routed_clause hok hcolumns hs
  refine ⟨s, hs, hok, hcolumns, hleaves.length_eq.trans (by decide), fun truth hnote => ?_⟩
  have hrouted : Spread.routed searches letters = [(⟨"search", .and, ["title", "body"]⟩,
      ⟨"search", .like .anywhere, .text "sea"⟩), (⟨"notes", .or, ["body", "note"]⟩,
      ⟨"notes", .like .atStart, .text "x"⟩)] := by
    simp [Spread.routed, Spread.find?, searches, letters]
  have hholds : Filter.holds truth ⟨"note", .like .atStart, .text "x"⟩ = true := by
    simpa [Filter.holds, Filter.atoms, TextMatch.pattern] using hnote
  rw [hvalue, hrouted]
  simp [Spread.filters, Filter.withPath, hholds, Sql.fold?, Sql.fold]

end ClauseWeave
