import ClauseWeave.Proofs.Drafting
import ClauseWeave.Proofs.Merging
import ClauseWeave.Proofs.Reaching
import Mathlib.Data.List.Pairwise

namespace ClauseWeave

namespace Body

def leaves : Body → List (String × String)
  | raw _ => []
  | built tree => tree.leaves

theorem leaves_ofTrees (c : Connective) (trees : List Tree) :
    (ofTrees c trees).leaves = trees.flatMap Tree.leaves := by
  cases trees with
  | nil => rfl
  | cons t rest => exact Tree.leavesAll_eq_flatMap (t :: rest)

theorem leaves_rename (renames : Dict String) (b : Body) :
    (b.rename renames).leaves = b.leaves.map fun l => (l.1, relabel renames l.2) := by
  cases b with
  | raw text => rfl
  | built tree => exact Tree.leaves_rename renames tree

def IsTree (b : Body) : Prop := ∃ t, b = built t

theorem isTree_ofTrees {c : Connective} {trees : List Tree}
    (h : (ofTrees c trees).clause.isEmpty = false) : (ofTrees c trees).IsTree := by
  cases trees with
  | nil => simp [ofTrees, clause] at h
  | cons t rest => exact ⟨_, rfl⟩

theorem IsTree.rename {b : Body} (h : b.IsTree) (renames : Dict String) :
    (b.rename renames).IsTree := by
  obtain ⟨t, rfl⟩ := h
  exact ⟨t.rename renames, rfl⟩

theorem join_eq_ofTrees (c : Connective) {bodies : List Body} (h : ∀ b ∈ bodies, b.IsTree) :
    ∃ trees : List Tree, bodies = trees.map built ∧
      join c bodies = ofTrees c (trees.map .paren) := by
  have htrees : ∃ trees : List Tree, bodies.mapM tree? = some trees := by
    induction bodies with
    | nil => exact ⟨[], rfl⟩
    | cons b rest ih =>
        obtain ⟨t, rfl⟩ := h b (by simp)
        obtain ⟨trees, htrees⟩ := ih fun b hb => h b (by simp [hb])
        exact ⟨t :: trees, by simp [List.mapM_cons, htrees, tree?]⟩
  obtain ⟨trees, htrees⟩ := htrees
  exact ⟨trees, mapM_tree?_eq_some htrees, by simp only [join, htrees]⟩

theorem leaves_join (c : Connective) {bodies : List Body} (h : ∀ b ∈ bodies, b.IsTree) :
    (join c bodies).leaves = bodies.flatMap leaves := by
  obtain ⟨trees, rfl, hjoin⟩ := join_eq_ofTrees c h
  rw [hjoin, leaves_ofTrees, List.flatMap_map, List.flatMap_map]
  rfl

end Body

namespace Statement

/-- The statement accounts for the filters: its arguments are the markers of the clause, each of
which stands in one fragment, and the fragments are those of the tree. -/
structure Accounts (s : Statement) (fs : List Filter) : Prop where
  names : (markersIn s.clause).Perm s.arguments.keys
  fragments : (s.fragments.values.flatMap markersIn).Perm (markersIn s.clause)
  keys : ∀ key, key ∈ s.fragments.keys ↔ key ∈ s.body.leaves.map Prod.fst
  size : s.arguments.size = (fs.map fun f => f.operator.arity).sum
  isTree : s.isEmpty = false → s.body.IsTree

theorem Accounts.closed {s : Statement} {fs : List Filter} (h : s.Accounts fs) : s.Closed := by
  constructor
  · exact fun name hname => h.names.subset hname
  · intro key text htext name hname
    have hvalue : text ∈ s.fragments.values := List.mem_map.2 ⟨_, Dict.mem_of_get? htext, rfl⟩
    exact h.names.subset (h.fragments.subset (List.mem_flatMap.2 ⟨text, hvalue, hname⟩))

theorem Accounts.size_eq_zero {s : Statement} {fs : List Filter} (h : s.Accounts fs)
    (hempty : s.isEmpty = true) : s.arguments.size = 0 := by
  have hclause : s.clause = "" := String.isEmpty_iff.1 hempty
  have hlength := h.names.length_eq
  rwa [hclause, markersIn_empty, ← Dict.size_eq_length_keys, eq_comm] at hlength

end Statement

theorem isTree_ofFilters {c : Connective} {fs : List Filter} {s : Statement}
    (h : Statement.ofFilters c fs = .ok s) (hne : s.isEmpty = false) : s.body.IsTree := by
  obtain ⟨d, -, rfl⟩ := ofFilters_eq_ok h
  exact Body.isTree_ofTrees hne

theorem Draft.Sound.leaves_finish {d : Draft} {fs : List Filter} {written : List (String × String)}
    (h : d.Sound fs written) (c : Connective) : (d.finish c).body.leaves = written := by
  change (Body.ofTrees c d.leaves).leaves = written
  rw [Body.leaves_ofTrees, h.leaves, List.flatMap_map]
  exact List.flatMap_singleton' written

theorem accounts_ofFilters {c : Connective} {fs : List Filter} {s : Statement}
    (hp : ∀ f ∈ fs, isPath f.path = true) (h : Statement.ofFilters c fs = .ok s) :
    s.Accounts fs := by
  obtain ⟨d, written, hd, rfl⟩ := ofFilters_spec hp h
  have hmarkers : markersIn (d.finish c).clause = written.flatMap fun e => markersIn e.2 := by
    rw [hd.clause_finish, markersIn_intercalate, List.flatMap_map]
  refine ⟨?_, ?_, ?_, hd.size, ?_⟩
  · rw [hmarkers]
    exact hd.names.symm
  · rw [hmarkers]
    have hperm := (hd.fragments.map Prod.snd).flatMap_right markersIn
    rwa [List.flatMap_map (l := written)] at hperm
  · intro key
    rw [hd.leaves_finish]
    exact (hd.fragments.map Prod.fst).mem_iff
  · exact isTree_ofFilters h

section Merged

variable (c : Connective) {ss : List Statement}

theorem mem_keys_fragments_merge {key : String} :
    key ∈ (merge c ss).fragments.keys ↔ ∃ s ∈ present ss, key ∈ s.fragments.keys := by
  rw [← not_iff_not, ← Dict.get?_eq_none_iff, merge_fragment, Connective.join?_eq_none_iff,
    List.filterMap_eq_nil_iff]
  conv_rhs => rw [← Merge.map_fst_placed ∅ (present ss)]
  simp [Dict.get?_eq_none_iff]

theorem perm_keys_merge : (merge c ss).arguments.keys.Perm
    ((Merge.placed ∅ (present ss)).flatMap fun p => p.1.arguments.keys.map (renamed p.2)) :=
  Merge.perm_keys_foldl c .empty (present ss)

theorem markersIn_merge (h : ∀ s ∈ ss, s.Closed) : markersIn (merge c ss).clause =
    (Merge.placed ∅ (present ss)).flatMap fun p => (markersIn p.1.clause).map (renamed p.2) := by
  rw [merge_clause, markersIn_intercalate, List.flatMap_map]
  apply List.flatMap_congr
  intro p hp
  have hclosed := h _ (mem_present_of_mem_placed hp)
  rw [markersIn_paren, (carries_merge c ss hp).markersIn_relabel hclosed.clause]

theorem perm_markers_fragments_merge (h : ∀ s ∈ ss, s.Closed) :
    ((merge c ss).fragments.values.flatMap markersIn).Perm
      ((Merge.placed ∅ (present ss)).flatMap fun p =>
        (p.1.fragments.values.flatMap markersIn).map (renamed p.2)) := by
  refine (Merge.perm_markers_fragments_foldl c .empty (present ss)).trans (List.Perm.of_eq ?_)
  apply List.flatMap_congr
  intro p hp
  rw [List.map_flatMap]
  apply List.flatMap_congr
  intro text htext
  obtain ⟨e, he, rfl⟩ := List.mem_map.1 htext
  have hclosed := h _ (mem_present_of_mem_placed hp)
  exact (carries_merge c ss hp).markersIn_relabel (hclosed.fragments e.1 e.2 (Dict.get?_of_mem he))

theorem isTree_of_mem_bodies (h : ∀ s ∈ present ss, s.body.IsTree) :
    ∀ b ∈ ((present ss).foldl (Merge.add c) .empty).bodies, b.IsTree := by
  intro b hb
  rw [Merge.bodies_foldl] at hb
  obtain ⟨p, hp, rfl⟩ := List.mem_map.1 hb
  have hmem : p.1 ∈ present ss := Merge.map_fst_placed ∅ (present ss) ▸ List.mem_map_of_mem hp
  exact (h p.1 hmem).rename p.2

theorem leaves_merge (h : ∀ s ∈ present ss, s.body.IsTree) : (merge c ss).body.leaves =
    (Merge.placed ∅ (present ss)).flatMap fun p =>
      p.1.body.leaves.map fun l => (l.1, relabel p.2 l.2) := by
  change (Body.join c ((present ss).foldl (Merge.add c) .empty).bodies).leaves = _
  rw [Body.leaves_join c (isTree_of_mem_bodies c h), Merge.bodies_foldl]
  change (((Merge.placed ∅ (present ss)).map _).flatMap Body.leaves) = _
  simp only [List.flatMap_map, Body.leaves_rename]

theorem leaf_keys_merge (h : ∀ s ∈ present ss, s.body.IsTree) :
    (merge c ss).body.leaves.map Prod.fst =
      (present ss).flatMap fun s => s.body.leaves.map Prod.fst := by
  rw [leaves_merge c h, List.map_flatMap]
  conv_rhs => rw [← Merge.map_fst_placed ∅ (present ss)]
  simp [List.flatMap_map, Function.comp_def]

theorem isTree_merge (h : ∀ s ∈ present ss, s.body.IsTree)
    (hne : (merge c ss).isEmpty = false) : (merge c ss).body.IsTree := by
  obtain ⟨trees, -, hjoin⟩ := Body.join_eq_ofTrees c (isTree_of_mem_bodies c h)
  have hbody : (merge c ss).body = Body.ofTrees c (trees.map .paren) := hjoin
  rw [Statement.isEmpty, Statement.clause, hbody] at hne
  rw [hbody]
  exact Body.isTree_ofTrees hne

end Merged

theorem sum_size_present {parts : List (Statement × List Filter)}
    (h : ∀ p ∈ parts, p.1.Accounts p.2) :
    ((present (parts.map Prod.fst)).map fun s => s.arguments.size).sum =
      ((parts.flatMap Prod.snd).map fun f => f.operator.arity).sum := by
  induction parts with
  | nil => rfl
  | cons p rest ih =>
      have hp := h p (by simp)
      rw [List.flatMap_cons, List.map_append, List.sum_append, ← ih fun q hq => h q (by simp [hq]),
        ← hp.size, List.map_cons, present, List.filter_cons]
      cases hempty : p.1.isEmpty with
      | false => simp [present]
      | true => simp [present, hp.size_eq_zero hempty]

theorem isTree_of_mem_present {parts : List (Statement × List Filter)}
    (h : ∀ p ∈ parts, p.1.Accounts p.2) : ∀ s ∈ present (parts.map Prod.fst), s.body.IsTree := by
  intro s hs
  obtain ⟨hmem, hne⟩ := List.mem_filter.1 hs
  obtain ⟨p, hp, rfl⟩ := List.mem_map.1 hmem
  exact (h p hp).isTree (by simpa using hne)

theorem accounts_merge (c : Connective) {parts : List (Statement × List Filter)}
    (h : ∀ p ∈ parts, p.1.Accounts p.2) :
    (merge c (parts.map Prod.fst)).Accounts (parts.flatMap Prod.snd) := by
  have hall : ∀ s ∈ parts.map Prod.fst, ∃ fs, s.Accounts fs := by
    intro s hs
    obtain ⟨p, hp, rfl⟩ := List.mem_map.1 hs
    exact ⟨p.2, h p hp⟩
  have hclosed : ∀ s ∈ parts.map Prod.fst, s.Closed := by
    intro s hs
    obtain ⟨fs, hfs⟩ := hall s hs
    exact hfs.closed
  have htree := isTree_of_mem_present h
  refine ⟨?_, ?_, ?_, ?_, isTree_merge c htree⟩
  · rw [markersIn_merge c hclosed]
    refine List.Perm.trans ?_ (perm_keys_merge c).symm
    apply List.Perm.flatMap_left
    intro p hp
    obtain ⟨fs, hfs⟩ := hall _ (mem_present_of_mem_placed hp)
    exact hfs.names.map _
  · rw [markersIn_merge c hclosed]
    refine (perm_markers_fragments_merge c hclosed).trans ?_
    apply List.Perm.flatMap_left
    intro p hp
    obtain ⟨fs, hfs⟩ := hall _ (mem_present_of_mem_placed hp)
    exact hfs.fragments.map _
  · intro key
    rw [mem_keys_fragments_merge, leaf_keys_merge c htree, List.mem_flatMap]
    refine exists_congr fun s => and_congr_right fun hs => ?_
    obtain ⟨fs, hfs⟩ := hall s (List.mem_filter.1 hs).1
    exact hfs.keys key
  · rw [merge_size, sum_size_present h]

theorem Reached.accounts {s : Statement} {fs : List Filter}
    (h : Reached (fun path => isPath path = true) s fs) : s.Accounts fs :=
  h.induction accounts_ofFilters accounts_merge

theorem eq_of_nodup_flatMap {α β : Type} {f : α → List β} {l : List α} (h : (l.flatMap f).Nodup)
    {a b : α} (ha : a ∈ l) (hb : b ∈ l) {x : β} (hxa : x ∈ f a) (hxb : x ∈ f b) : a = b := by
  have hsymm : Std.Symm (Function.onFun List.Disjoint f) := ⟨fun _ _ h x hy hx => h hx hy⟩
  by_contra hne
  exact (List.nodup_flatMap.1 h).2.forall ha hb hne hxa hxb

/-- In a statement that is reached, the markers of the clause are the arguments, each of them once,
each argument belongs to one fragment, the fragments are those of the tree, and there are as many
arguments as the filters bind. -/
theorem arguments_accounted {s : Statement} {fs : List Filter}
    (h : Reached (fun path => isPath path = true) s fs) :
    (markersIn s.clause).Nodup ∧
      (∀ name, name ∈ markersIn s.clause ↔ name ∈ s.arguments.keys) ∧
      (∀ key, key ∈ s.fragments.keys ↔ key ∈ s.body.leaves.map Prod.fst) ∧
      (s.fragments.values.flatMap markersIn).Perm (markersIn s.clause) ∧
      (∀ name ∈ s.arguments.keys,
        ∃! key, ∃ text, s.fragments.get? key = some text ∧ name ∈ markersIn text) ∧
      s.arguments.size = (fs.map fun f => f.operator.arity).sum := by
  have ha := h.accounts
  have hnodup : (markersIn s.clause).Nodup := ha.names.nodup_iff.2 s.arguments.nodup_keys
  refine ⟨hnodup, fun name => ha.names.mem_iff, ha.keys, ha.fragments, ?_, ha.size⟩
  have hfragments := ha.fragments.nodup_iff.2 hnodup
  rw [Dict.values, List.flatMap_map] at hfragments
  intro name hname
  have hmem := ha.fragments.mem_iff.2 (ha.names.mem_iff.2 hname)
  rw [Dict.values, List.flatMap_map, List.mem_flatMap] at hmem
  obtain ⟨e, he, hin⟩ := hmem
  refine ⟨e.1, ⟨e.2, Dict.get?_of_mem he, hin⟩, ?_⟩
  rintro key ⟨text, htext, hother⟩
  exact congrArg Prod.fst
    (eq_of_nodup_flatMap hfragments (Dict.mem_of_get? htext) he hother hin)

def ages : List Filter := [
  ⟨"age", .between false, .list [.nat 1, .nat 2]⟩,
  ⟨"age", .between true, .list [.nat 3, .nat 4]⟩]

theorem arguments_accounted_ages : ∃ s, Statement.ofFilters .or ages = .ok s ∧
    (∀ f ∈ ages, isPath f.path = true) ∧ (merge .and [s, s]).arguments.size = 8 := by
  have hpath : ∀ f ∈ ages, isPath f.path = true := by decide +kernel
  obtain ⟨s, hs⟩ := (exists_ofFilters_iff (c := .or)).2 (by decide : ∀ f ∈ ages, f.fits = true)
  have hone : Reached (fun path => isPath path = true) s ages := .filters hpath hs
  have hboth : ∀ p ∈ [(s, ages), (s, ages)], Reached (fun path => isPath path = true) p.1 p.2 := by
    simpa using hone
  have htwice := Reached.merged .and hboth
  exact ⟨s, hs, hpath, (arguments_accounted htwice).2.2.2.2.2⟩

end ClauseWeave
