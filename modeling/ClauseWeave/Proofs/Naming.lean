import ClauseWeave.Proofs.Flattening

namespace ClauseWeave

namespace Filter

def handle (f : Filter) : String := Name.ofPath f.path

/-- The names that a range tries first for its two values. -/
def ends (f : Filter) : List String :=
  match f.operator with
  | .between _ => [f.handle ++ "_1", f.handle ++ "_2"]
  | _ => []

def names (f : Filter) : List String := f.handle :: f.ends

theorem mem_ends {f : Filter} {name : String} (h : name ∈ f.ends) :
    ∃ suffix ∈ ["_1", "_2"], name = f.handle ++ suffix := by
  unfold ends at h
  split at h
  next => simpa using h
  next => simp at h

theorem length_suffix {suffix : String} (h : suffix ∈ ["_1", "_2"]) :
    suffix.toList.length = 2 := by
  have hall : ∀ s ∈ ["_1", "_2"], s.toList.length = 2 := by decide
  exact hall suffix h

theorem append_ne_self (name : String) {suffix : String} (h : suffix ∈ ["_1", "_2"]) :
    name ++ suffix ≠ name := by
  intro he
  have hlength := congrArg (List.length ∘ String.toList) he
  simp only [Function.comp_apply, String.toList_append, List.length_append,
    length_suffix h] at hlength
  omega

theorem handle_not_mem_ends (f : Filter) : f.handle ∉ f.ends := by
  intro h
  obtain ⟨suffix, hsuffix, he⟩ := mem_ends h
  exact append_ne_self f.handle hsuffix he.symm

theorem handle_eq_of_mem_ends {f g : Filter} {name : String} (hf : name ∈ f.ends)
    (hg : name ∈ g.ends) : f.handle = g.handle := by
  obtain ⟨suffix, hsuffix, rfl⟩ := mem_ends hf
  obtain ⟨suffix', hsuffix', he⟩ := mem_ends hg
  have hlength : suffix.toList.length = suffix'.toList.length := by
    rw [length_suffix hsuffix, length_suffix hsuffix']
  have hlists := congrArg String.toList he
  rw [String.toList_append, String.toList_append] at hlists
  exact String.toList_inj.1 (List.append_inj_left' hlists hlength)

theorem disjoint_names {f g : Filter} (hne : f.handle ≠ g.handle) (hf : f.handle ∉ g.ends)
    (hg : g.handle ∉ f.ends) : f.names.Disjoint g.names := by
  intro name hnamef hnameg
  rcases List.mem_cons.1 hnamef with rfl | hnamef
  · exact (List.mem_cons.1 hnameg).elim hne hf
  · rcases List.mem_cons.1 hnameg with rfl | hnameg
    · exact hg hnamef
    · exact hne (handle_eq_of_mem_ends hnamef hnameg)

end Filter

namespace Draft

/-- No filter finds its name taken by an argument of the filters in front of it. -/
def Untaken (d : Draft) : List Filter → Prop
  | [] => True
  | f :: rest => f.handle ∉ d.arguments.keys ∧ ∀ next, d.add f = .ok next → next.Untaken rest

section Step

variable {d next : Draft} {f : Filter}

theorem keyFor_eq_handle (h : f.handle ∉ d.taken) : d.keyFor f = f.handle := Name.fresh_eq_self h

theorem mem_taken {name : String} :
    name ∈ d.taken ↔ name ∈ d.arguments.keys ∨ name ∈ d.fragments.keys := List.mem_append

theorem argument_add (hp : isPath f.path = true) (h : d.add f = .ok next) {name : String}
    (hname : name ∈ d.arguments.keys ∧ name ∉ d.fragments.keys) :
    name ∈ next.arguments.keys ∧ name ∉ next.fragments.keys := by
  obtain ⟨text, added, hadds, rfl⟩ := add_spec hp h
  obtain ⟨-, -, hkeys, hfragments, -⟩ := d.setArguments_spec hadds.nodup hadds.free
  refine ⟨hkeys.mem_iff.2 (List.mem_append_right _ hname.1), ?_⟩
  change name ∉ ((d.setArguments added).fragments.insert (d.keyFor f) text).keys
  rw [Dict.mem_keys_insert, hfragments, not_or]
  refine ⟨?_, hname.2⟩
  rintro rfl
  exact d.keyFor_not_mem f (mem_taken.2 (.inl hname.1))

theorem mem_taken_addFragment {key text name : String} :
    name ∈ (d.addFragment key text).taken ↔ name = key ∨ name ∈ d.taken := by
  simp only [taken, addFragment, List.mem_append, Dict.mem_keys_insert, or_left_comm]

theorem taken_addRange {key : String} (hlow : key ++ "_1" ∉ d.taken) (hhigh : key ++ "_2" ∉ d.taken)
    (path : String) (negated : Bool) (low high : Value) :
    (∀ name ∈ [key ++ "_1", key ++ "_2"],
      name ∈ (d.addRange key path negated low high).arguments.keys) ∧
      ∀ name ∈ (d.addRange key path negated low high).taken,
        name ∈ [key, key ++ "_1", key ++ "_2"] ∨ name ∈ d.taken := by
  have hlowName : Name.fresh (key ++ "_1") (key :: d.taken) = key ++ "_1" := by
    apply Name.fresh_eq_self
    rw [List.mem_cons, not_or]
    exact ⟨Filter.append_ne_self key (by simp), hlow⟩
  have hhighName : Name.fresh (key ++ "_2") (key :: (d.setArgument (key ++ "_1") low).taken) =
      key ++ "_2" := by
    apply Name.fresh_eq_self
    have hne : key ++ "_2" ≠ key ++ "_1" := by
      intro he
      simpa using congrArg String.toList he
    rw [List.mem_cons, mem_taken_setArgument, not_or, not_or]
    exact ⟨Filter.append_ne_self key (by simp), hne, hhigh⟩
  simp only [addRange, hlowName, hhighName]
  constructor
  · simp [addFragment, setArgument, Dict.mem_keys_insert]
  · intro name hname
    rw [mem_taken_addFragment, mem_taken_setArgument, mem_taken_setArgument] at hname
    simp only [List.mem_cons, List.not_mem_nil, or_false]
    tauto

theorem taken_add (hfree : ∀ name ∈ f.names, name ∉ d.taken) (h : d.add f = .ok next) :
    (∀ name ∈ f.ends, name ∈ next.arguments.keys) ∧
      ∀ name ∈ next.taken, name ∈ f.names ∨ name ∈ d.taken := by
  have hkey : Name.fresh (Name.ofPath f.path) d.taken = f.handle :=
    keyFor_eq_handle (hfree _ List.mem_cons_self)
  have hsingle (v : Value) (text name : String)
      (hname : name ∈ ((d.setArgument f.handle v).addFragment f.handle text).taken) :
      name ∈ f.names ∨ name ∈ d.taken := by
    rw [mem_taken_addFragment, mem_taken_setArgument, ← or_assoc, or_self] at hname
    exact hname.imp_left fun he => List.mem_cons.2 (.inl he)
  obtain ⟨path, op, v⟩ := f
  cases op with
  | compare c =>
      simp only [add, hkey] at h
      obtain rfl := Except.ok.inj h
      exact ⟨by simp [Filter.ends], hsingle _ _⟩
  | like m =>
      cases v with
      | text s =>
          simp only [add, hkey] at h
          obtain rfl := Except.ok.inj h
          exact ⟨by simp [Filter.ends], hsingle _ _⟩
      | _ => simp [add] at h
  | among negated =>
      cases hv : v.isList with
      | false => simp [add, hv] at h
      | true =>
          simp only [add, hkey, hv, if_true] at h
          obtain rfl := Except.ok.inj h
          exact ⟨by simp [Filter.ends], hsingle _ _⟩
  | between negated =>
      simp only [add, hkey] at h
      split at h
      next low high _ =>
        obtain rfl := Except.ok.inj h
        exact taken_addRange (hfree _ (by simp [Filter.names, Filter.ends]))
          (hfree _ (by simp [Filter.names, Filter.ends])) path negated low high
      next => simp at h
  | null negated =>
      simp only [add, hkey] at h
      obtain rfl := Except.ok.inj h
      refine ⟨by simp [Filter.ends], fun name hname => ?_⟩
      rw [mem_taken_addFragment] at hname
      exact hname.imp_left fun he => List.mem_cons.2 (.inl he)

end Step

section Run

variable {d d' : Draft} {done rest : List Filter} {written : List (String × String)}

structure Named (d : Draft) (fs : List Filter) (written : List (String × String)) : Prop
    extends d.Sound fs written where
  keys : written.map Prod.fst = fs.map Filter.handle

theorem Named.mem_keys (h : d.Named done written) {name : String} :
    name ∈ d.fragments.keys ↔ name ∈ done.map Filter.handle := by
  rw [← h.keys]
  exact (h.fragments.map Prod.fst).mem_iff

theorem Named.handle_not_mem {f : Filter} (h : d.Named done written)
    (hnodup : ((done ++ f :: rest).map Filter.handle).Nodup) : f.handle ∉ d.fragments.keys := by
  rw [h.mem_keys]
  rw [List.map_append, List.map_cons] at hnodup
  exact fun hmem => (List.nodup_append'.1 hnodup).2.2 hmem List.mem_cons_self

theorem Named.add {f : Filter} (h : d.Named done written) (hp : isPath f.path = true)
    (hnot : f.handle ∉ d.taken) (hadd : d.add f = .ok d') :
    ∃ text, d'.Named (done ++ [f]) (written ++ [(f.handle, text)]) := by
  obtain ⟨text, hsound⟩ := h.toSound.add hp hadd
  rw [keyFor_eq_handle hnot] at hsound
  exact ⟨text, hsound, by simp [h.keys]⟩

variable (hp : ∀ f ∈ rest, isPath f.path = true)
  (hnodup : ((done ++ rest).map Filter.handle).Nodup) (hrun : d.addAll rest = .ok d')

include hp hnodup hrun

theorem Named.addAll (h : d.Named done written) (huntaken : d.Untaken rest) :
    ∃ more, d'.Named (done ++ rest) (written ++ more) := by
  induction rest generalizing d done written with
  | nil =>
      obtain rfl := Except.ok.inj hrun
      exact ⟨[], by simpa using h⟩
  | cons f rest ih =>
      rw [Draft.addAll] at hrun
      split at hrun
      next next hadd =>
        have hnot : f.handle ∉ d.taken :=
          fun hmem => (mem_taken.1 hmem).elim huntaken.1 (h.handle_not_mem hnodup)
        obtain ⟨text, hnext⟩ := h.add (hp f (by simp)) hnot hadd
        obtain ⟨more, hmore⟩ := ih (fun g hg => hp g (by simp [hg])) (by simpa using hnodup) hrun
          hnext (huntaken.2 next hadd)
        exact ⟨(f.handle, text) :: more, by simpa using hmore⟩
      next => simp at hrun

theorem Named.untaken (h : d.Named done written)
    (hlisted : ∀ f ∈ rest, f.handle ∈ d'.fragments.keys) : d.Untaken rest := by
  induction rest generalizing d done written with
  | nil => trivial
  | cons f rest ih =>
      have hfragment := h.handle_not_mem hnodup
      have hargument : f.handle ∉ d.arguments.keys := by
        intro hmem
        have hkept := addAll_induction
          (P := fun d => f.handle ∈ d.arguments.keys ∧ f.handle ∉ d.fragments.keys)
          (fun g hg _ _ hd hadd => argument_add (hp g hg) hadd hd) ⟨hmem, hfragment⟩ hrun
        exact hkept.2 (hlisted f (by simp))
      refine ⟨hargument, fun next hadd => ?_⟩
      have hnot : f.handle ∉ d.taken := fun hmem => (mem_taken.1 hmem).elim hargument hfragment
      obtain ⟨text, hnext⟩ := h.add (hp f (by simp)) hnot hadd
      rw [Draft.addAll, hadd] at hrun
      exact ih (fun g hg => hp g (by simp [hg])) (by simpa using hnodup) hrun hnext
        fun g hg => hlisted g (by simp [hg])

end Run

theorem Sound.project_finish {d : Draft} {fs : List Filter} {written : List (String × String)}
    (h : d.Sound fs written) (c : Connective) (keys : List String) :
    (d.finish c).project (.except keys) =
      c.separator.intercalate ((written.filter (·.1 ∉ keys)).map Prod.snd) := by
  have hleaves : d.leaves = Tree.row written := h.leaves
  cases written with
  | nil =>
      have hraw : (d.finish c).body = .raw "" := by
        rw [finish, hleaves]
        rfl
      have hkeys : (d.finish c).fragments.keys = [] := by
        have hperm := h.fragments.map Prod.fst
        exact List.perm_nil.1 hperm
      rw [Statement.project_empty hraw hkeys]
      rfl
  | cons r rest =>
      have hbuilt : (d.finish c).body = .built (.join c (Tree.row (r :: rest))) := by
        rw [finish, hleaves]
        rfl
      have hwhole : (Tree.join c (Tree.row (r :: rest))).Whole :=
        Tree.whole_join c (by simp [Tree.row]) fun t ht => (Tree.operand_row _ t ht).whole
      let keep : String → Bool := fun k => k ∉ keys
      have hkeep : ∀ leaf ∈ (Tree.join c (Tree.row (r :: rest))).leaves, keep leaf.1 = true ↔
          leaf.1 ∉ (Projection.except keys).dropped (d.finish c).fragments.keys := by
        intro leaf _
        rw [decide_eq_true_eq, Projection.mem_dropped_except]
      rw [Statement.project_built hbuilt hwhole (.except keys) hkeep]
      exact Tree.getD_render_retain_row keep c (r :: rest)

theorem untaken_of_disjoint {d : Draft} (done : List Filter) {rest : List Filter}
    (htaken : ∀ name ∈ d.taken, ∃ f ∈ done, name ∈ f.names)
    (h : (done ++ rest).Pairwise fun f g => f.names.Disjoint g.names) : d.Untaken rest := by
  induction rest generalizing d done with
  | nil => trivial
  | cons f rest ih =>
      have hfree : ∀ name ∈ f.names, name ∉ d.taken := by
        intro name hname hmem
        obtain ⟨g, hg, hname'⟩ := htaken name hmem
        exact (List.pairwise_append.1 h).2.2 g hg f List.mem_cons_self hname' hname
      refine ⟨fun hmem => hfree _ List.mem_cons_self (mem_taken.2 (.inl hmem)), fun next hadd => ?_⟩
      refine ih (done ++ [f]) (fun name hname => ?_) (by simpa using h)
      rcases (taken_add hfree hadd).2 name hname with hown | hbefore
      · exact ⟨f, by simp, hown⟩
      · obtain ⟨g, hg, hname'⟩ := htaken name hbefore
        exact ⟨g, by simp [hg], hname'⟩

end Draft

/-- Each filter has its fragment under its own name, and a projection leaves out the filters whose
names are listed, and nothing else. -/
structure Statement.Named (s : Statement) (c : Connective) (fs : List Filter) : Prop where
  keys : s.fragments.keys.Perm (fs.map Filter.handle)
  rows : ∃ rows : List (Filter × String), rows.map Prod.fst = fs ∧
    s.clause = c.separator.intercalate (rows.map Prod.snd) ∧
    (∀ r ∈ rows, s.fragment? r.1.handle = some r.2 ∧ resolve s.arguments r.2 = r.1.spelled) ∧
    ∀ keys, s.project (.except keys) =
      c.separator.intercalate ((rows.filter (·.1.handle ∉ keys)).map Prod.snd)

theorem Draft.Named.finish {d : Draft} {fs : List Filter} {written : List (String × String)}
    (h : d.Named fs written) (c : Connective) : (d.finish c).Named c fs := by
  have hrows : ∃ rows : List (Filter × String), rows.map Prod.fst = fs ∧
      rows.map (fun r => (r.1.handle, r.2)) = written ∧
      ∀ r ∈ rows, resolve d.arguments r.2 = r.1.spelled := by
    have hspells := h.spells
    have hkeys := h.keys
    clear h
    induction hspells with
    | nil => exact ⟨[], rfl, rfl, by simp⟩
    | @cons e f written fs htext _ ih =>
        obtain ⟨hkey, hrest⟩ := List.cons.inj hkeys
        obtain ⟨rows, rfl, rfl, hrows⟩ := ih hrest
        exact ⟨(f, e.2) :: rows, rfl, by simp [← hkey], List.forall_mem_cons.2 ⟨htext, hrows⟩⟩
  obtain ⟨rows, rfl, rfl, htexts⟩ := hrows
  constructor
  · rw [← h.keys]
    exact h.fragments.map Prod.fst
  · refine ⟨rows, rfl, ?_, fun r hr => ⟨?_, htexts r hr⟩, fun keys => ?_⟩
    · rw [h.toSound.clause_finish, List.map_map]
      rfl
    · have hmem : (r.1.handle, r.2) ∈ rows.map fun r => (r.1.handle, r.2) :=
        List.mem_map_of_mem hr
      exact Dict.get?_of_mem (h.fragments.mem_iff.2 hmem)
    · rw [h.toSound.project_finish, List.filter_map, List.map_map]
      rfl

theorem named_iff_untaken {c : Connective} {fs : List Filter} {s : Statement}
    (hp : ∀ f ∈ fs, isPath f.path = true) (hnodup : (fs.map Filter.handle).Nodup)
    (h : Statement.ofFilters c fs = .ok s) : s.Named c fs ↔ Draft.empty.Untaken fs := by
  obtain ⟨d, hrun, rfl⟩ := ofFilters_eq_ok h
  have hempty : Draft.empty.Named [] [] := ⟨.empty, rfl⟩
  have hall : (([] ++ fs).map Filter.handle).Nodup := hnodup
  constructor
  · intro hnamed
    refine hempty.untaken hp hall hrun fun f hf => ?_
    exact hnamed.keys.mem_iff.2 (List.mem_map_of_mem hf)
  · intro huntaken
    obtain ⟨more, hmore⟩ := hempty.addAll hp hall hrun huntaken
    exact hmore.finish c

theorem exists_order_taken {fs : List Filter} {f g : Filter} (hf : f ∈ fs) (hg : g ∈ fs)
    (hends : f.handle ∈ g.ends) (hfits : g.fits = true) :
    ∃ gs, gs.Perm fs ∧ ¬ Draft.empty.Untaken gs := by
  have hne : f ≠ g := by
    rintro rfl
    exact f.handle_not_mem_ends hends
  have hmem : f ∈ fs.erase g := (List.mem_erase_of_ne hne).2 hf
  refine ⟨g :: f :: (fs.erase g).erase f, ?_, fun huntaken => ?_⟩
  · exact ((List.perm_cons_erase hmem).symm.cons g).trans (List.perm_cons_erase hg).symm
  · obtain ⟨next, hnext⟩ := (Draft.exists_add_iff (d := .empty)).2 hfits
    have htaken := (Draft.taken_add (fun _ _ => List.not_mem_nil) hnext).1 _ hends
    exact (huntaken.2 next hnext).1 htaken

/-- Filters for attributes with different names have their fragments under these names as long as
none of them is the name of an argument of the filters in front. This is so in every order of the
filters exactly if no filter is called like one of the two ends of a range. -/
theorem named_in_every_order_iff {c : Connective} {fs : List Filter} {s : Statement}
    (hp : ∀ f ∈ fs, isPath f.path = true) (hnodup : (fs.map Filter.handle).Nodup)
    (h : Statement.ofFilters c fs = .ok s) :
    (s.Named c fs ↔ Draft.empty.Untaken fs) ∧
      ((∀ gs, gs.Perm fs → ∃ t, Statement.ofFilters c gs = .ok t ∧ t.Named c gs) ↔
        ∀ f ∈ fs, ∀ g ∈ fs, f.handle ∉ g.ends) := by
  have hfits := exists_ofFilters_iff.1 ⟨s, h⟩
  have horder {gs : List Filter} (hperm : gs.Perm fs) {t : Statement}
      (ht : Statement.ofFilters c gs = .ok t) : t.Named c gs ↔ Draft.empty.Untaken gs :=
    named_iff_untaken (fun f hf => hp f (hperm.mem_iff.1 hf))
      ((hperm.map Filter.handle).nodup_iff.2 hnodup) ht
  refine ⟨horder (.refl fs) h, ?_, fun hapart gs hperm => ?_⟩
  · intro hall f hf g hg hends
    obtain ⟨gs, hperm, htaken⟩ := exists_order_taken hf hg hends (hfits g hg)
    obtain ⟨t, ht, hnamed⟩ := hall gs hperm
    exact htaken ((horder hperm ht).1 hnamed)
  · obtain ⟨t, ht⟩ := (exists_ofFilters_iff (c := c)).2 fun f hf => hfits f (hperm.mem_iff.1 hf)
    refine ⟨t, ht, (horder hperm ht).2 (Draft.untaken_of_disjoint [] ?_ ?_)⟩
    · exact fun _ hname => absurd hname List.not_mem_nil
    · have hhandles := (hperm.map Filter.handle).nodup_iff.2 hnodup
      refine (List.pairwise_map.1 hhandles).imp_of_mem fun {f g} hf hg hne => ?_
      exact Filter.disjoint_names hne (hapart f (hperm.mem_iff.1 hf) g (hperm.mem_iff.1 hg))
        (hapart g (hperm.mem_iff.1 hg) f (hperm.mem_iff.1 hf))

def apartAges : List Filter := [
  ⟨"age", .between false, .list [.nat 1, .nat 5]⟩, ⟨"age_3", .compare .equal, .nat 4⟩]

theorem named_in_every_order_apartAges : ∃ s, Statement.ofFilters .and apartAges = .ok s ∧
    (∀ f ∈ apartAges, isPath f.path = true) ∧ (apartAges.map Filter.handle).Nodup ∧
    ∀ gs, gs.Perm apartAges → ∃ t, Statement.ofFilters .and gs = .ok t ∧ t.Named .and gs := by
  have hp : ∀ f ∈ apartAges, isPath f.path = true := by decide +kernel
  have hnodup : (apartAges.map Filter.handle).Nodup := by decide +kernel
  obtain ⟨s, hs⟩ :=
    (exists_ofFilters_iff (c := .and)).2 (by decide : ∀ f ∈ apartAges, f.fits = true)
  exact ⟨s, hs, hp, hnodup, (named_in_every_order_iff hp hnodup hs).2.2 (by decide +kernel)⟩

def crowdedAges : List Filter := [
  ⟨"age", .between false, .list [.nat 1, .nat 5]⟩, ⟨"age_1", .compare .equal, .nat 3⟩,
  ⟨"age_3", .compare .equal, .nat 4⟩]

/-- The ends of the range are called `age_1` and `age_2`, so the next filter is called `age_3`, and
the last one `age_4`. -/
theorem not_named_crowdedAges : ∃ s, Statement.ofFilters .and crowdedAges = .ok s ∧
    (∀ f ∈ crowdedAges, isPath f.path = true) ∧ (crowdedAges.map Filter.handle).Nodup ∧
    ¬ s.Named .and crowdedAges ∧ s.fragment? "age_1" = none ∧
    s.fragment? "age_3" = some "age_1 = :age_3" ∧ s.project (.except ["age_1"]) = s.clause ∧
    s.project (.except ["age_3"]) = "age >= :age_1 AND age <= :age_2 AND age_3 = :age_4" := by
  obtain ⟨s, hs⟩ :=
    (exists_ofFilters_iff (c := .and)).2 (by decide : ∀ f ∈ crowdedAges, f.fits = true)
  have hrun : (Statement.ofFilters .and crowdedAges).toOption.map (fun s =>
      (s.fragments.entries, s.clause, s.project (.except ["age_1"]),
        s.project (.except ["age_3"]))) =
      some ([("age", "age >= :age_1 AND age <= :age_2"), ("age_3", "age_1 = :age_3"),
        ("age_4", "age_3 = :age_4")],
        "age >= :age_1 AND age <= :age_2 AND age_1 = :age_3 AND age_3 = :age_4",
        "age >= :age_1 AND age <= :age_2 AND age_1 = :age_3 AND age_3 = :age_4",
        "age >= :age_1 AND age <= :age_2 AND age_3 = :age_4") := by decide +kernel
  rw [hs] at hrun
  obtain ⟨hentries, hrest⟩ := Prod.mk.inj (Option.some.inj hrun)
  obtain ⟨hclause, hrest⟩ := Prod.mk.inj hrest
  obtain ⟨hfirst, hsecond⟩ := Prod.mk.inj hrest
  have hget (key : String) : s.fragment? key = s.fragments.entries.lookup key := rfl
  refine ⟨s, hs, by decide +kernel, by decide +kernel, fun hnamed => ?_, ?_, ?_,
    hfirst.trans hclause.symm, hsecond⟩
  · have hmem : "age_1" ∈ s.fragments.keys := hnamed.keys.mem_iff.2 (by decide +kernel)
    rw [Dict.keys, hentries] at hmem
    exact absurd hmem (by decide)
  · rw [hget, hentries]
    rfl
  · rw [hget, hentries]
    rfl

end ClauseWeave
