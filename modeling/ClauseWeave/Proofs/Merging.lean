import ClauseWeave.Clause.Merge
import ClauseWeave.Proofs.Resolution
import Mathlib.Algebra.GroupWithZero.Nat

namespace ClauseWeave

def Connective.join? (c : Connective) : List String → Option String
  | [] => none
  | texts => some (c.separator.intercalate texts)

theorem Connective.join?_eq_none_iff {c : Connective} {texts : List String} :
    c.join? texts = none ↔ texts = [] := by
  cases texts <;> simp [join?]

theorem Connective.join?_append (c : Connective) (texts more : List String) :
    c.join? ((c.join? texts).toList ++ more) = c.join? (texts ++ more) := by
  cases texts with
  | nil => rfl
  | cons t rest =>
      cases more with
      | nil => simp [join?]
      | cons u more =>
          change some (c.separator.intercalate (c.separator.intercalate (t :: rest) :: u :: more)) =
            some (c.separator.intercalate ((t :: rest) ++ (u :: more)))
          rw [String.intercalate_cons_cons, String.intercalate_append_of_ne_nil (by simp) (by simp)]

theorem Connective.mem_markersIn_join? (c : Connective) {texts : List String} {joined name : String}
    (h : c.join? texts = some joined) (hname : name ∈ markersIn joined) :
    name ∈ texts.flatMap markersIn := by
  cases texts with
  | nil => simp [join?] at h
  | cons t rest =>
      obtain rfl := Option.some.inj h
      rwa [markersIn_intercalate] at hname

theorem Body.clause_rename (renames : Dict String) (b : Body) :
    (b.rename renames).clause = relabel renames b.clause := by
  cases b with
  | raw text => rfl
  | built tree => exact Tree.render_rename renames tree

theorem Body.eq_built_of_tree? {b : Body} {t : Tree} (h : b.tree? = some t) : b = .built t := by
  cases b with
  | raw text => simp [tree?] at h
  | built tree => simpa [tree?] using h

theorem Body.mapM_tree?_eq_some {bodies : List Body} {trees : List Tree}
    (h : bodies.mapM tree? = some trees) : bodies = trees.map .built := by
  induction bodies generalizing trees with
  | nil =>
      obtain rfl : trees = [] := by simpa using h.symm
      rfl
  | cons b rest ih =>
      rw [List.mapM_cons, Option.bind_eq_bind, Option.bind_eq_some_iff] at h
      obtain ⟨t, ht, h⟩ := h
      rw [Option.bind_eq_bind, Option.bind_eq_some_iff] at h
      obtain ⟨others, hothers, h⟩ := h
      obtain rfl : t :: others = trees := by simpa using h
      rw [eq_built_of_tree? ht, ih hothers, List.map_cons]

theorem Body.clause_join (c : Connective) (bodies : List Body) :
    (Body.join c bodies).clause =
      c.separator.intercalate (bodies.map fun b => "(" ++ b.clause ++ ")") := by
  unfold Body.join
  split
  next trees h =>
    rw [mapM_tree?_eq_some h, clause_ofTrees, List.map_map, List.map_map]
    rfl
  next => rfl

namespace Merge

theorem get?_addArguments_of_not_mem {entries : List (String × Value)} {name : String}
    (h : name ∉ entries.map Prod.fst) (taken : Dict Value) (renames : Dict String) :
    (addArguments taken renames entries).2.get? name = renames.get? name := by
  induction entries generalizing taken renames with
  | nil => rfl
  | cons e rest ih =>
      obtain ⟨k, v⟩ := e
      rw [List.map_cons, List.mem_cons, not_or] at h
      rw [addArguments, ih h.2]
      split
      · rfl
      · simp [h.1]

/-- Every argument finds a place beside those already there, under a name that none of them has. -/
theorem addArguments_spec {entries : List (String × Value)} (hnodup : (entries.map Prod.fst).Nodup)
    (taken : Dict Value) (renames : Dict String) (hnew : ∀ e ∈ entries, renames.get? e.1 = none) :
    taken.Extends (addArguments taken renames entries).1 ∧
      (∀ e ∈ entries, (addArguments taken renames entries).1.get?
        (renamed (addArguments taken renames entries).2 e.1) = some e.2) ∧
      (∀ e ∈ entries, IsName e.1 → IsName (renamed (addArguments taken renames entries).2 e.1)) ∧
      (addArguments taken renames entries).1.keys.Perm
        (entries.map (fun e => renamed (addArguments taken renames entries).2 e.1) ++
          taken.keys) := by
  induction entries generalizing taken renames with
  | nil => exact ⟨.refl _, by simp, by simp, .refl _⟩
  | cons e rest ih =>
      obtain ⟨name, v⟩ := e
      rw [List.map_cons, List.nodup_cons] at hnodup
      have hfree := Name.fresh_not_mem name taken.keys
      have hnew' : ∀ e ∈ rest, (if Name.fresh name taken.keys = name then renames
          else renames.insert name (Name.fresh name taken.keys)).get? e.1 = none := by
        intro e he
        have hne : e.1 ≠ name := fun h => hnodup.1 (List.mem_map.2 ⟨e, he, h⟩)
        split
        · exact hnew e (by simp [he])
        · simp [hne, hnew e (by simp [he])]
      obtain ⟨hext, hvalue, hname, hkeys⟩ :=
        ih hnodup.2 (taken.insert (Name.fresh name taken.keys) v) _ hnew'
      -- No later entry has this name, so what is chosen for it here stands in the end.
      have hhead : renamed (addArguments taken renames ((name, v) :: rest)).2 name =
          Name.fresh name taken.keys := by
        rw [renamed, addArguments, get?_addArguments_of_not_mem hnodup.1]
        split
        next h => rw [hnew (name, v) (by simp), Option.getD_none, h]
        next => simp
      refine ⟨(Dict.extends_insert v hfree).trans hext, ?_, ?_, ?_⟩
      · rintro e he
        rcases List.mem_cons.1 he with rfl | he
        · rw [hhead]
          exact hext _ _ (by simp)
        · exact hvalue e he
      · rintro e he hn
        rcases List.mem_cons.1 he with rfl | he
        · rw [hhead]
          exact hn.fresh .wide taken.keys
        · exact hname e he hn
      · rw [List.map_cons, hhead]
        refine hkeys.trans ?_
        refine ((Dict.perm_keys_insert hfree).append_left _).trans ?_
        exact List.perm_middle

theorem addArguments_eq_self {entries : List (String × Value)}
    (hnodup : (entries.map Prod.fst).Nodup) {taken : Dict Value}
    (hfree : ∀ e ∈ entries, e.1 ∉ taken.keys) (renames : Dict String) :
    (addArguments taken renames entries).2 = renames := by
  induction entries generalizing taken with
  | nil => rfl
  | cons e rest ih =>
      obtain ⟨name, v⟩ := e
      rw [List.map_cons, List.nodup_cons] at hnodup
      have hself := Name.fresh_eq_self (hfree (name, v) (by simp))
      rw [addArguments, hself, if_pos rfl]
      apply ih hnodup.2
      intro e he hmem
      rcases Dict.mem_keys_insert.1 hmem with h | h
      · exact hnodup.1 (List.mem_map.2 ⟨e, he, h⟩)
      · exact hfree e (by simp [he]) h

theorem carries_addArguments (taken own : Dict Value) :
    Carries own (addArguments taken ∅ own.entries).1 (addArguments taken ∅ own.entries).2 := by
  obtain ⟨-, hvalue, hname, hkeys⟩ :=
    addArguments_spec own.nodup_keys taken ∅ (fun e _ => Dict.get?_empty e.1)
  refine ⟨?_, ?_, ?_⟩
  · intro name v h
    exact hvalue (name, v) (Dict.mem_of_get? h)
  · intro name h
    obtain ⟨e, he, rfl⟩ := List.mem_map.1 h
    exact hname e he
  · have hnodup := (List.nodup_append.1 (hkeys.nodup_iff.1 (Dict.nodup_keys _))).1
    intro name hn other ho he
    obtain ⟨e, hmem, rfl⟩ := List.mem_map.1 hn
    obtain ⟨f, hmem', rfl⟩ := List.mem_map.1 ho
    rw [List.inj_on_of_nodup_map hnodup hmem hmem' he]

/-- The statements of a merge, each with the new names of its arguments. -/
def placed (taken : Dict Value) : List Statement → List (Statement × Dict String)
  | [] => []
  | s :: rest =>
    let added := addArguments taken ∅ s.arguments.entries
    (s, added.2) :: placed added.1 rest

theorem map_fst_placed (taken : Dict Value) (ss : List Statement) :
    (placed taken ss).map Prod.fst = ss := by
  induction ss generalizing taken with
  | nil => rfl
  | cons s rest ih => rw [placed, List.map_cons, ih]

theorem renamed_addArguments {renames : Dict String}
    (h : ∀ name, ∃ used, renamed renames name = Name.fresh name used) (taken : Dict Value)
    (entries : List (String × Value)) (name : String) :
    ∃ used, renamed (addArguments taken renames entries).2 name = Name.fresh name used := by
  induction entries generalizing taken renames with
  | nil => exact h name
  | cons e rest ih =>
      obtain ⟨key, v⟩ := e
      rw [addArguments]
      apply ih
      intro other
      split
      · exact h other
      · by_cases hkey : other = key
        · exact ⟨taken.keys, by simp [renamed, hkey]⟩
        · obtain ⟨used, hused⟩ := h other
          exact ⟨used, by simpa [renamed, hkey] using hused⟩

theorem renamed_eq_fresh {taken : Dict Value} {ss : List Statement} {p : Statement × Dict String}
    (hp : p ∈ placed taken ss) (name : String) :
    ∃ used, renamed p.2 name = Name.fresh name used := by
  induction ss generalizing taken with
  | nil => simp [placed] at hp
  | cons s rest ih =>
      rw [placed] at hp
      rcases List.mem_cons.1 hp with rfl | hp
      · refine renamed_addArguments (fun other => ⟨[], ?_⟩) taken s.arguments.entries name
        rw [Name.fresh_eq_self (by simp)]
        rfl
      · exact ih hp

theorem placed_head (s : Statement) (rest : List Statement) :
    ∃ others, placed ∅ (s :: rest) = (s, ∅) :: others := by
  have hfree : ∀ e ∈ s.arguments.entries, e.1 ∉ (∅ : Dict Value).keys := by simp
  have h := addArguments_eq_self s.arguments.nodup_keys hfree ∅
  exact ⟨_, by rw [placed, h]⟩

section Run

variable (c : Connective) (m : Merge) (s : Statement) (ss : List Statement)

theorem add_arguments :
    (m.add c s).arguments = (addArguments m.arguments ∅ s.arguments.entries).1 := rfl

theorem add_bodies : (m.add c s).bodies = m.bodies ++
    [s.body.rename (addArguments m.arguments ∅ s.arguments.entries).2] := rfl

theorem add_fragments : (m.add c s).fragments = addFragments c
    (addArguments m.arguments ∅ s.arguments.entries).2 m.fragments s.fragments := rfl

theorem placed_cons : placed m.arguments (s :: ss) =
    (s, (addArguments m.arguments ∅ s.arguments.entries).2) ::
      placed (m.add c s).arguments ss := rfl

theorem extends_add : m.arguments.Extends (m.add c s).arguments :=
  (addArguments_spec s.arguments.nodup_keys m.arguments ∅ fun e _ => Dict.get?_empty e.1).1

theorem extends_foldl : m.arguments.Extends (ss.foldl (add c) m).arguments := by
  induction ss generalizing m with
  | nil => exact .refl _
  | cons s rest ih => exact (extends_add c m s).trans (ih (m.add c s))

/-- In the end every statement finds its own values under the names that it was given. -/
theorem carries_of_mem_placed {p : Statement × Dict String} (hp : p ∈ placed m.arguments ss) :
    Carries p.1.arguments (ss.foldl (add c) m).arguments p.2 := by
  induction ss generalizing m with
  | nil => simp [placed] at hp
  | cons s rest ih =>
      rw [placed_cons c] at hp
      rcases List.mem_cons.1 hp with rfl | hp
      · exact (carries_addArguments m.arguments s.arguments).extends
          (extends_foldl c (m.add c s) rest)
      · exact ih (m.add c s) hp

theorem bodies_foldl : (ss.foldl (add c) m).bodies =
    m.bodies ++ (placed m.arguments ss).map fun p => p.1.body.rename p.2 := by
  induction ss generalizing m with
  | nil => simp [placed]
  | cons s rest ih =>
      rw [List.foldl_cons, ih, add_bodies, placed_cons c, List.map_cons, List.append_assoc]
      rfl

theorem perm_keys_foldl : (ss.foldl (add c) m).arguments.keys.Perm
    (m.arguments.keys ++
      (placed m.arguments ss).flatMap fun p => p.1.arguments.keys.map (renamed p.2)) := by
  induction ss generalizing m with
  | nil => simp [placed]
  | cons s rest ih =>
      have hadd := (addArguments_spec s.arguments.nodup_keys m.arguments ∅
        fun e _ => Dict.get?_empty e.1).2.2.2
      rw [List.foldl_cons, placed_cons c, List.flatMap_cons, ← List.append_assoc]
      refine (ih (m.add c s)).trans (List.Perm.append_right _ ?_)
      refine hadd.trans (List.perm_append_comm.trans (List.Perm.append_left _ ?_))
      rw [Dict.keys, List.map_map]
      rfl

theorem size_foldl : (ss.foldl (add c) m).arguments.size =
    m.arguments.size + (ss.map fun s => s.arguments.size).sum := by
  induction ss generalizing m with
  | nil => simp
  | cons s rest ih =>
      have hadd := (addArguments_spec s.arguments.nodup_keys m.arguments ∅
        fun e _ => Dict.get?_empty e.1).2.2.2.length_eq
      rw [← add_arguments c m s, List.length_append, List.length_map] at hadd
      rw [List.foldl_cons, ih, List.map_cons, List.sum_cons, ← Nat.add_assoc]
      rw [Dict.size_eq_length_keys, hadd, Nat.add_comm (s.arguments.entries.length),
        ← Dict.size_eq_length_keys]
      rfl

end Run

theorem get?_addFragment (c : Connective) (fs : Dict String) (key text k : String) :
    (addFragment c fs key text).get? k =
      c.join? ((fs.get? k).toList ++ (if k = key then some text else none).toList) := by
  unfold addFragment
  by_cases hk : k = key
  · subst hk
    cases h : fs.get? k with
    | none => simp [Connective.join?]
    | some before => simp [Connective.join?]
  · cases hkey : fs.get? key <;> cases h : fs.get? k <;> simp [hk, h, Connective.join?]

theorem get?_addFragments (c : Connective) (renames fs added : Dict String) (k : String) :
    (addFragments c renames fs added).get? k =
      c.join? ((fs.get? k).toList ++ ((added.get? k).map (relabel renames)).toList) := by
  have hrun (entries : List (String × String)) (hnodup : (entries.map Prod.fst).Nodup)
      (fs : Dict String) :
      (entries.foldl (fun fs e => addFragment c fs e.1 (relabel renames e.2)) fs).get? k =
        c.join? ((fs.get? k).toList ++ ((entries.lookup k).map (relabel renames)).toList) := by
    induction entries generalizing fs with
    | nil => cases h : fs.get? k <;> simp [h, Connective.join?]
    | cons e rest ih =>
        obtain ⟨key, text⟩ := e
        rw [List.map_cons, List.nodup_cons] at hnodup
        rw [List.foldl_cons, ih hnodup.2, get?_addFragment, Connective.join?_append,
          Dict.lookup_pair_cons, List.append_assoc]
        by_cases hk : k = key
        · subst hk
          have hnone : rest.lookup k = none := by
            cases h : rest.lookup k with
            | none => rfl
            | some t =>
                exact absurd (List.mem_map.2 ⟨_, Dict.mem_of_lookup_eq_some h, rfl⟩) hnodup.1
          simp [hnone]
        · simp [hk]
  exact hrun added.entries added.nodup_keys fs

theorem get?_fragments_foldl (c : Connective) (m : Merge) (ss : List Statement) (k : String) :
    (ss.foldl (add c) m).fragments.get? k = c.join? ((m.fragments.get? k).toList ++
      (placed m.arguments ss).filterMap fun p => (p.1.fragments.get? k).map (relabel p.2)) := by
  induction ss generalizing m with
  | nil => cases h : m.fragments.get? k <;> simp [placed, h, Connective.join?]
  | cons s rest ih =>
      rw [List.foldl_cons, ih, add_fragments, get?_addFragments, Connective.join?_append,
        placed_cons c, List.append_assoc, List.filterMap_cons]
      cases s.fragments.get? k <;> simp

theorem perm_markers_addFragment (c : Connective) (fs : Dict String) (key text : String) :
    ((addFragment c fs key text).values.flatMap markersIn).Perm
      (fs.values.flatMap markersIn ++ markersIn text) := by
  unfold addFragment
  cases h : fs.get? key with
  | none =>
      have hperm := Dict.perm_insert (v := text) (Dict.get?_eq_none_iff.1 h)
      refine ((hperm.map Prod.snd).flatMap_right markersIn).trans ?_
      rw [List.map_cons, List.flatMap_cons]
      exact List.perm_append_comm
  | some before =>
      obtain ⟨others, hfs, hput⟩ := Dict.exists_perm_insert h
      refine (((hput _).map Prod.snd).flatMap_right markersIn).trans ?_
      refine List.Perm.trans ?_ (((hfs.map Prod.snd).flatMap_right markersIn).append_right _).symm
      have hjoin := markersIn_intercalate c [before, text]
      rw [String.intercalate_cons_cons, String.intercalate_singleton] at hjoin
      rw [List.map_cons, List.flatMap_cons, List.map_cons, List.flatMap_cons, hjoin]
      simp only [List.flatMap_cons, List.flatMap_nil, List.append_nil, List.append_assoc]
      exact List.Perm.append_left _ List.perm_append_comm

theorem perm_markers_addFragments (c : Connective) (renames fs added : Dict String) :
    ((addFragments c renames fs added).values.flatMap markersIn).Perm
      (fs.values.flatMap markersIn ++
        added.values.flatMap fun text => markersIn (relabel renames text)) := by
  have hrun (entries : List (String × String)) (fs : Dict String) :
      ((entries.foldl (fun fs e => addFragment c fs e.1 (relabel renames e.2)) fs).values.flatMap
        markersIn).Perm (fs.values.flatMap markersIn ++
          entries.flatMap fun e => markersIn (relabel renames e.2)) := by
    induction entries generalizing fs with
    | nil => simp
    | cons e rest ih =>
        rw [List.foldl_cons, List.flatMap_cons, ← List.append_assoc]
        exact (ih _).trans ((perm_markers_addFragment c fs e.1 _).append_right _)
  refine (hrun added.entries fs).trans (List.Perm.of_eq ?_)
  simp only [Dict.values, List.flatMap_map]

theorem perm_markers_fragments_foldl (c : Connective) (m : Merge) (ss : List Statement) :
    ((ss.foldl (add c) m).fragments.values.flatMap markersIn).Perm
      (m.fragments.values.flatMap markersIn ++ (placed m.arguments ss).flatMap fun p =>
        p.1.fragments.values.flatMap fun text => markersIn (relabel p.2 text)) := by
  induction ss generalizing m with
  | nil => simp [placed]
  | cons s rest ih =>
      rw [List.foldl_cons, placed_cons c, List.flatMap_cons, ← List.append_assoc]
      refine (ih _).trans (List.Perm.append_right _ ?_)
      rw [add_fragments]
      exact perm_markers_addFragments c _ m.fragments s.fragments

end Merge

def present (ss : List Statement) : List Statement := ss.filter (!·.isEmpty)

/-- Every marker of the clause and of the fragments has a value among the arguments. -/
structure Statement.Closed (s : Statement) : Prop where
  clause : Bound s.arguments s.clause
  fragments : ∀ key text, s.fragments.get? key = some text → Bound s.arguments text

theorem Statement.closed_iff {s : Statement} : s.Closed ↔
    Bound s.arguments s.clause ∧ ∀ e ∈ s.fragments.entries, Bound s.arguments e.2 := by
  constructor
  · exact fun h => ⟨h.clause, fun e he => h.fragments e.1 e.2 (Dict.get?_of_mem he)⟩
  · exact fun h => ⟨h.1, fun key text ht => h.2 (key, text) (Dict.mem_of_get? ht)⟩

instance (s : Statement) : Decidable s.Closed := decidable_of_iff' _ Statement.closed_iff

section Merged

variable (c : Connective) (ss : List Statement)

theorem merge_arguments :
    (merge c ss).arguments = ((present ss).foldl (Merge.add c) .empty).arguments := rfl

theorem merge_clause : (merge c ss).clause = c.separator.intercalate
    ((Merge.placed ∅ (present ss)).map fun p => "(" ++ relabel p.2 p.1.clause ++ ")") := by
  change (Body.join c ((present ss).foldl (Merge.add c) .empty).bodies).clause = _
  rw [Body.clause_join, Merge.bodies_foldl, Merge.empty, List.nil_append, List.map_map]
  simp only [Function.comp_def, Body.clause_rename]
  rfl

theorem merge_fragment (key : String) : (merge c ss).fragments.get? key = c.join?
    ((Merge.placed ∅ (present ss)).filterMap fun p =>
      (p.1.fragments.get? key).map (relabel p.2)) :=
  Merge.get?_fragments_foldl c .empty (present ss) key

theorem merge_size : (merge c ss).arguments.size =
    ((present ss).map fun s => s.arguments.size).sum := by
  rw [merge_arguments, Merge.size_foldl]
  exact Nat.zero_add _

theorem carries_merge {p : Statement × Dict String} (hp : p ∈ Merge.placed ∅ (present ss)) :
    Carries p.1.arguments (merge c ss).arguments p.2 :=
  Merge.carries_of_mem_placed c .empty (present ss) hp

end Merged

theorem mem_present_of_mem_placed {ss : List Statement} {p : Statement × Dict String}
    (hp : p ∈ Merge.placed ∅ (present ss)) : p.1 ∈ ss := by
  have hmem : p.1 ∈ (Merge.placed ∅ (present ss)).map Prod.fst := List.mem_map_of_mem hp
  rw [Merge.map_fst_placed] at hmem
  exact List.mem_of_mem_filter hmem

theorem map_placed {α : Type} (taken : Dict Value) (ss : List Statement) (f : Statement → α) :
    ((Merge.placed taken ss).map fun p => f p.1) = ss.map f := by
  conv_rhs => rw [← Merge.map_fst_placed taken ss, List.map_map]
  rfl

theorem filterMap_placed {α : Type} (taken : Dict Value) (ss : List Statement)
    (f : Statement → Option α) :
    ((Merge.placed taken ss).filterMap fun p => f p.1) = ss.filterMap f := by
  conv_rhs => rw [← Merge.map_fst_placed taken ss, List.filterMap_map]
  rfl

def Connective.joinParts? (c : Connective) : List (List Part) → Option (List Part)
  | [] => none
  | texts => some (c.parts.intercalate texts)

theorem Connective.resolve_join? (c : Connective) (arguments : Dict Value) (texts : List String) :
    (c.join? texts).map (resolve arguments) = c.joinParts? (texts.map (resolve arguments)) := by
  cases texts with
  | nil => rfl
  | cons t rest => exact congrArg some (resolve_intercalate arguments c (t :: rest))

section Closed

variable (c : Connective) {ss : List Statement} (h : ∀ s ∈ ss, s.Closed)

include h

theorem resolve_merge_clause : resolve (merge c ss).arguments (merge c ss).clause =
    c.parts.intercalate ((present ss).map fun s => inParens (resolve s.arguments s.clause)) := by
  rw [merge_clause, resolve_intercalate, List.map_map, ← map_placed ∅]
  congr 1
  apply List.map_congr_left
  intro p hp
  rw [Function.comp_apply, resolve_paren,
    (carries_merge c ss hp).resolve_relabel (h _ (mem_present_of_mem_placed hp)).clause]

theorem resolve_merge_fragment (key : String) :
    ((merge c ss).fragments.get? key).map (resolve (merge c ss).arguments) =
      c.joinParts? ((present ss).filterMap fun s =>
        (s.fragments.get? key).map (resolve s.arguments)) := by
  rw [merge_fragment, Connective.resolve_join?, List.map_filterMap, ← filterMap_placed ∅]
  congr 1
  apply List.filterMap_congr
  intro p hp
  rw [Option.map_map]
  cases ht : p.1.fragments.get? key with
  | none => rfl
  | some text =>
      have hbound := (h _ (mem_present_of_mem_placed hp)).fragments key text ht
      exact congrArg some ((carries_merge c ss hp).resolve_relabel hbound)

theorem closed_merge : (merge c ss).Closed := by
  constructor
  · intro name hname
    rw [merge_clause, markersIn_intercalate, List.flatMap_map, List.mem_flatMap] at hname
    obtain ⟨p, hp, hname⟩ := hname
    rw [markersIn_paren] at hname
    have hclause := (h _ (mem_present_of_mem_placed hp)).clause
    exact (carries_merge c ss hp).bound_relabel hclause name hname
  · intro key text htext name hname
    rw [merge_fragment] at htext
    have hmem := c.mem_markersIn_join? htext hname
    rw [List.mem_flatMap] at hmem
    obtain ⟨t, ht, hname⟩ := hmem
    obtain ⟨p, hp, hfragment⟩ := List.mem_filterMap.1 ht
    obtain ⟨own, hown, rfl⟩ := Option.map_eq_some_iff.1 hfragment
    have hbound := (h _ (mem_present_of_mem_placed hp)).fragments key own hown
    exact (carries_merge c ss hp).bound_relabel hbound name hname

end Closed

/-- A merge loses, mixes up and captures no parameter: with every marker replaced by its value, the
clause is that of the statements in parentheses under the connective, and so is each fragment. The
names of one statement stay apart from each other, and the first statement keeps all of its own. -/
theorem merge_preserves_values (c : Connective) (ss : List Statement) (h : ∀ s ∈ ss, s.Closed) :
    resolve (merge c ss).arguments (merge c ss).clause =
        c.parts.intercalate
          ((present ss).map fun s => inParens (resolve s.arguments s.clause)) ∧
      (∀ key, ((merge c ss).fragments.get? key).map (resolve (merge c ss).arguments) =
        c.joinParts? ((present ss).filterMap fun s =>
          (s.fragments.get? key).map (resolve s.arguments))) ∧
      (merge c ss).clause = c.separator.intercalate
        ((Merge.placed ∅ (present ss)).map fun p => "(" ++ relabel p.2 p.1.clause ++ ")") ∧
      (Merge.placed ∅ (present ss)).map Prod.fst = present ss ∧
      (∀ p ∈ Merge.placed ∅ (present ss), ∀ name ∈ p.1.arguments.keys,
        ∀ other ∈ p.1.arguments.keys, renamed p.2 name = renamed p.2 other → name = other) ∧
      (merge c ss).arguments.size = ((present ss).map fun s => s.arguments.size).sum ∧
      ∀ p ∈ (Merge.placed ∅ (present ss)).head?,
        p.2 = ∅ ∧ p.1.arguments.Extends (merge c ss).arguments := by
  refine ⟨resolve_merge_clause c h, resolve_merge_fragment c h, merge_clause c ss,
    Merge.map_fst_placed ∅ _, fun p hp => (carries_merge c ss hp).inj, merge_size c ss, ?_⟩
  intro p hp
  have hcarries := carries_merge c ss (List.mem_of_mem_head? hp)
  cases hss : present ss with
  | nil => simp [hss, Merge.placed] at hp
  | cons s rest =>
      obtain ⟨others, hplaced⟩ := Merge.placed_head s rest
      obtain rfl : (s, ∅) = p := by simpa [hss, hplaced] using hp
      exact ⟨rfl, hcarries.value⟩

def rivals : List Statement := [
  .ofParts "age = :age" (.ofList [("age", .nat 1)]) (.ofList [("age", "age = :age")]),
  .ofParts "born::age > :age_1:age" (.ofList [("age", .nat 2), ("age_1", .nat 3)])
    (.ofList [("age", "born::age > :age_1:age")])]

theorem merge_preserves_values_rivals :
    (∀ s ∈ rivals, s.Closed) ∧ (merge .or rivals).arguments.size = 3 ∧
      resolve (merge .or rivals).arguments (merge .or rivals).clause =
        Connective.or.parts.intercalate
          ((present rivals).map fun s => inParens (resolve s.arguments s.clause)) := by
  have h : ∀ s ∈ rivals, s.Closed := by decide +kernel
  refine ⟨h, ?_, (merge_preserves_values .or rivals h).1⟩
  rw [(merge_preserves_values .or rivals h).2.2.2.2.2.1]
  decide +kernel

end ClauseWeave
