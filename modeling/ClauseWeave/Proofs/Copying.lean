import ClauseWeave.Proofs.Accounting

namespace ClauseWeave

theorem Statement.flat_eq_iff {s t : Statement} : s.flat = t.flat ↔
    s.clause = t.clause ∧ s.arguments = t.arguments ∧ s.fragments = t.fragments := by
  simp [flat, ofParts]

def Body.flat (b : Body) : Body := .raw b.clause

def Merge.flat (m : Merge) : Merge := { m with bodies := m.bodies.map Body.flat }

theorem Body.flat_rename (renames : Dict String) (b : Body) :
    (b.rename renames).flat = b.flat.rename renames := by
  rw [flat, clause_rename]
  rfl

theorem Body.join_flat (c : Connective) (bodies : List Body) :
    join c (bodies.map flat) = (join c bodies).flat := by
  cases bodies with
  | nil => rfl
  | cons b rest =>
      have htexts : (join c ((b :: rest).map flat)) = .raw (c.separator.intercalate
          (((b :: rest).map flat).map fun b => "(" ++ b.clause ++ ")")) := rfl
      rw [htexts, flat, clause_join, List.map_map]
      rfl

theorem Merge.flat_add (c : Connective) (m : Merge) (s : Statement) :
    (m.add c s).flat = m.flat.add c s.flat := by
  rw [flat, add_bodies, List.map_append, List.map_singleton, Body.flat_rename]
  rfl

theorem Merge.flat_foldl (c : Connective) (m : Merge) (ss : List Statement) :
    (ss.map Statement.flat).foldl (Merge.add c) m.flat = (ss.foldl (Merge.add c) m).flat := by
  induction ss generalizing m with
  | nil => rfl
  | cons s rest ih => rw [List.map_cons, List.foldl_cons, ← flat_add, ih, List.foldl_cons]

theorem present_map_flat (ss : List Statement) :
    present (ss.map Statement.flat) = (present ss).map Statement.flat := by
  rw [present, List.filter_map]
  rfl

theorem merge_map_flat (c : Connective) (ss : List Statement) :
    merge c (ss.map Statement.flat) = (merge c ss).flat := by
  have hrun := Merge.flat_foldl c .empty (present ss)
  rw [← present_map_flat] at hrun
  have hbodies := congrArg (fun m => Body.join c m.bodies) hrun
  have harguments := congrArg Merge.arguments hrun
  have hfragments := congrArg Merge.fragments hrun
  simp only [Merge.flat, Body.join_flat] at hbodies
  change Statement.mk _ _ _ = Statement.mk _ _ _
  exact congr (congr (congrArg Statement.mk hbodies) harguments) hfragments

/-- The second statement comes of the same filters and merges as the first one, but on the way some
statements gave way to copies without their trees. -/
inductive Copied : Statement → Statement → Prop
  | filters {c : Connective} {fs : List Filter} {s : Statement}
      (h : Statement.ofFilters c fs = .ok s) : Copied s s
  | merged (c : Connective) {parts : List (Statement × Statement)}
      (h : ∀ p ∈ parts, Copied p.1 p.2) :
      Copied (merge c (parts.map Prod.fst)) (merge c (parts.map Prod.snd))
  | flat {s t : Statement} (h : Copied s t) : Copied s t.flat

theorem Copied.flat_eq {s t : Statement} (h : Copied s t) : t.flat = s.flat := by
  induction h with
  | filters h => rfl
  | merged c _ ih =>
      rw [← merge_map_flat, ← merge_map_flat, List.map_map, List.map_map]
      exact congrArg (merge c) (List.map_congr_left ih)
  | flat _ ih => exact ih

theorem Copied.isTree {s t : Statement} (h : Copied s t) (hne : s.isEmpty = false) :
    s.body.IsTree := by
  induction h with
  | filters h => exact isTree_ofFilters h hne
  | merged c _ ih =>
      refine isTree_merge c (fun s hs => ?_) hne
      obtain ⟨hmem, hpresent⟩ := List.mem_filter.1 hs
      obtain ⟨p, hp, rfl⟩ := List.mem_map.1 hmem
      exact ih p hp (by simpa using hpresent)
  | flat _ ih => exact ih hne

/-- A statement that is not empty has its tree unless it lost it, and its clause is the text of the
tree, also after the leaves were renamed. A tree that a merge joins reads like the joined texts, and
where copies go into a merge, its clause, arguments and fragments are the same. -/
theorem merge_copied (c : Connective) {parts : List (Statement × Statement)}
    (h : ∀ p ∈ parts, Copied p.1 p.2) :
    (∀ p ∈ parts, (p.1.isEmpty = false → p.1.body.IsTree) ∧
      ∀ t, p.2.body = .built t → p.2.clause = t.render ∧
        ∀ renames, (t.rename renames).render = relabel renames p.2.clause) ∧
      (∀ t, (merge c (parts.map Prod.snd)).body = .built t → t.render = c.separator.intercalate
        ((Merge.placed ∅ (present (parts.map Prod.snd))).map fun p =>
          "(" ++ relabel p.2 p.1.clause ++ ")")) ∧
      (merge c (parts.map Prod.snd)).clause = (merge c (parts.map Prod.fst)).clause ∧
      (merge c (parts.map Prod.snd)).arguments = (merge c (parts.map Prod.fst)).arguments ∧
      (merge c (parts.map Prod.snd)).fragments = (merge c (parts.map Prod.fst)).fragments := by
  have hclause {s : Statement} {t : Tree} (ht : s.body = .built t) : s.clause = t.render :=
    congrArg Body.clause ht
  have hflat := (Copied.merged c h).flat_eq
  refine ⟨fun p hp => ⟨(h p hp).isTree, fun t ht => ⟨hclause ht, fun renames => ?_⟩⟩, ?_,
    Statement.flat_eq_iff.1 hflat⟩
  · rw [Tree.render_rename, hclause ht]
  · intro t ht
    rw [← hclause ht, merge_clause]

def oddities : List Filter := [
  ⟨"born::date", .compare .greater, .nat 1⟩, ⟨":a:b", .between true, .list [.nat 2, .nat 3]⟩,
  ⟨":", .null false, .null⟩, ⟨"::", .among false, .list [.nat 4]⟩]

theorem merge_copied_oddities : ∃ s, Statement.ofFilters .or oddities = .ok s ∧
    (∀ p ∈ [(s, s.flat), (s, s)], Copied p.1 p.2) ∧ s.body.IsTree ∧
    (merge .and [s.flat, s]).clause = (merge .and [s, s]).clause := by
  obtain ⟨s, hs⟩ :=
    (exists_ofFilters_iff (c := .or)).2 (by decide : ∀ f ∈ oddities, f.fits = true)
  have hboth : ∀ p ∈ [(s, s.flat), (s, s)], Copied p.1 p.2 := by
    simpa using ⟨Copied.flat (.filters hs), .filters hs⟩
  have hne : ((Statement.ofFilters .or oddities).toOption.map Statement.isEmpty) = some false := by
    decide +kernel
  rw [hs] at hne
  have hmerge := merge_copied .and hboth
  exact ⟨s, hs, hboth, (hmerge.1 (s, s) (by simp)).1 (Option.some.inj hne), hmerge.2.2.1⟩

end ClauseWeave
