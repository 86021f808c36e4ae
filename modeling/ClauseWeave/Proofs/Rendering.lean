import ClauseWeave.Proofs.Scanning

namespace ClauseWeave

theorem relabel_append_separator (renames : Dict String) (c : Connective) (s t : String) :
    relabel renames (s ++ c.separator ++ t) =
      relabel renames s ++ c.separator ++ relabel renames t := by
  have hsep : (c.separator.toList.map Piece.other).flatMap (fun p => (p.rename renames).chars) =
      c.separator.toList := by
    simp [List.flatMap_map]
  simp only [relabel_eq, scan_append_separator, scan_separator, List.flatMap_append, hsep,
    String.ofList_append, String.ofList_toList]

theorem relabel_intercalate (renames : Dict String) (c : Connective) (texts : List String) :
    relabel renames (c.separator.intercalate texts) =
      c.separator.intercalate (texts.map (relabel renames)) := by
  induction texts with
  | nil => simp [relabel_eq, scan_empty]
  | cons s rest ih =>
      cases rest with
      | nil => simp
      | cons t rest =>
          rw [String.intercalate_cons_cons, relabel_append_separator, ih]
          simp

theorem relabel_paren (renames : Dict String) (s : String) :
    relabel renames ("(" ++ s ++ ")") = "(" ++ relabel renames s ++ ")" := by
  rw [relabel_eq, relabel_eq, scan_paren]
  simp [String.append_assoc]

theorem markersIn_intercalate (c : Connective) (texts : List String) :
    markersIn (c.separator.intercalate texts) = texts.flatMap markersIn := by
  have hsep : (scan c.separator).filterMap Piece.markerName? = [] := by
    simp [scan_separator, List.filterMap_map, Function.comp_def]
  induction texts with
  | nil => simp [markersIn_eq, scan_empty]
  | cons s rest ih =>
      cases rest with
      | nil => simp
      | cons t rest =>
          rw [String.intercalate_cons_cons, markersIn_eq, scan_append_separator]
          rw [List.filterMap_append, List.filterMap_append, hsep, List.append_nil]
          rw [← markersIn_eq, ← markersIn_eq, ih]
          rfl

theorem markersIn_paren (s : String) : markersIn ("(" ++ s ++ ")") = markersIn s := by
  simp [markersIn_eq, scan_paren, List.filterMap_cons]

namespace Tree

mutual

theorem render_rename (renames : Dict String) (t : Tree) :
    (t.rename renames).render = relabel renames t.render := by
  cases t with
  | leaf key text => rfl
  | join c children =>
      rw [rename, render, render, renderAll_renameAll, relabel_intercalate]
  | paren inner => rw [rename, render, render, render_rename, relabel_paren]

theorem renderAll_renameAll (renames : Dict String) (ts : List Tree) :
    renderAll (renameAll renames ts) = (renderAll ts).map (relabel renames) := by
  cases ts with
  | nil => rfl
  | cons t rest =>
      rw [renameAll, renderAll, renderAll, render_rename, renderAll_renameAll, List.map_cons]

end

mutual

theorem leaves_rename (renames : Dict String) (t : Tree) :
    (t.rename renames).leaves = t.leaves.map fun l => (l.1, relabel renames l.2) := by
  cases t with
  | leaf key text => rfl
  | join c children => rw [rename, leaves, leaves, leavesAll_renameAll]
  | paren inner => rw [rename, leaves, leaves, leaves_rename]

theorem leavesAll_renameAll (renames : Dict String) (ts : List Tree) :
    leavesAll (renameAll renames ts) = (leavesAll ts).map fun l => (l.1, relabel renames l.2) := by
  cases ts with
  | nil => rfl
  | cons t rest =>
      rw [renameAll, leavesAll, leavesAll, leaves_rename, leavesAll_renameAll, List.map_append]

end

mutual

theorem markersIn_render (t : Tree) :
    markersIn t.render = t.leaves.flatMap fun l => markersIn l.2 := by
  cases t with
  | leaf key text => simp [render, leaves]
  | join c children =>
      rw [render, leaves, markersIn_intercalate, flatMap_markersIn_renderAll]
  | paren inner => rw [render, leaves, markersIn_paren, markersIn_render]

theorem flatMap_markersIn_renderAll (ts : List Tree) :
    (renderAll ts).flatMap markersIn = (leavesAll ts).flatMap fun l => markersIn l.2 := by
  cases ts with
  | nil => rfl
  | cons t rest =>
      rw [renderAll, leavesAll, List.flatMap_cons, List.flatMap_append, markersIn_render,
        flatMap_markersIn_renderAll]

end

theorem renderAll_eq_map (ts : List Tree) : renderAll ts = ts.map render := by
  induction ts with
  | nil => rfl
  | cons t rest ih => rw [renderAll, ih, List.map_cons]

theorem leavesAll_eq_flatMap (ts : List Tree) : leavesAll ts = ts.flatMap leaves := by
  induction ts with
  | nil => rfl
  | cons t rest ih => rw [leavesAll, ih, List.flatMap_cons]

end Tree

theorem Body.clause_ofTrees (c : Connective) (trees : List Tree) :
    (ofTrees c trees).clause = c.separator.intercalate (trees.map Tree.render) := by
  cases trees with
  | nil => rfl
  | cons t rest =>
      change Tree.render (.join c (t :: rest)) = _
      rw [Tree.render, Tree.renderAll_eq_map]

end ClauseWeave
