import ClauseWeave.Clause.Projection
import ClauseWeave.Proofs.Grouping
import Mathlib.Data.List.Flatten

namespace ClauseWeave

namespace Projection

theorem mem_ascending {names : List String} {k : String} : k ∈ ascending names ↔ k ∈ names := by
  simp [ascending, Dict.mem_keys_ofList]

theorem mem_dropped_except {keys fragmentKeys : List String} {k : String} :
    k ∈ (Projection.except keys).dropped fragmentKeys ↔ k ∈ keys := mem_ascending

theorem mem_dropped_only {keys fragmentKeys : List String} (hne : keys ≠ []) {k : String} :
    k ∈ (Projection.only keys).dropped fragmentKeys ↔ k ∈ fragmentKeys ∧ k ∉ keys := by
  cases keys with
  | nil => exact absurd rfl hne
  | cons first rest =>
      change k ∈ ascending (fragmentKeys.filter (· ∉ first :: rest)) ↔ _
      rw [mem_ascending, List.mem_filter]
      simp

end Projection

namespace Statement

variable {s : Statement}

theorem project_built {t : Tree} (ht : s.body = .built t) (hwhole : t.Whole) (p : Projection)
    {keep : String → Bool}
    (hkeep : ∀ leaf ∈ t.leaves, keep leaf.1 = true ↔ leaf.1 ∉ p.dropped s.fragments.keys) :
    s.project p = ((t.retain keep).map Tree.render).getD "" := by
  have hcongr : t.retain keep = t.retain (· ∉ p.dropped s.fragments.keys) :=
    t.retain_congr fun leaf hleaf => by simpa using Bool.eq_iff_iff.2 (by simpa using hkeep leaf hleaf)
  rw [project, hcongr]
  cases hdropped : p.dropped s.fragments.keys with
  | nil =>
      have hall : (fun k : String => decide (k ∉ ([] : List String))) = fun _ => true := by simp
      rw [hall, hwhole]
      simp [clause, ht, Body.clause]
  | cons k rest => simp [ht]

theorem project_empty (hraw : s.body = .raw "") (hkeys : s.fragments.keys = []) (p : Projection) :
    s.project p = "" := by
  have hnone (dropped : List String) : dropped.filterMap s.fragment? = [] := by
    rw [List.filterMap_eq_nil_iff]
    intro k _
    exact Dict.get?_eq_none_iff.2 (by simp [hkeys])
  rw [project]
  split
  · simp [clause, hraw, Body.clause]
  · simp [hraw, hnone, Removal.removeAll]

/-- What the projection writes is a part of the tree: that of the leaves whose keys are kept, in
their order, with their connectives and their parentheses. -/
structure Shows (s : Statement) (p : Projection) (keep : String → Bool) : Prop where
  empty : s.project p = "" ↔ (s.body.leaves.filter fun l => keep l.1) = []
  part : s.project p ≠ "" → ∃ tree part, s.body = .built tree ∧ Tree.PartOf part tree ∧
    part.leaves = (tree.leaves.filter fun l => keep l.1) ∧ s.project p = part.render ∧
    WellGrouped part.marks
  balanced : Balanced (s.project p).toList

theorem Shows.markersIn {p : Projection} {keep : String → Bool} (h : s.Shows p keep) :
    markersIn (s.project p) =
      (s.body.leaves.filter fun l => keep l.1).flatMap fun l => ClauseWeave.markersIn l.2 := by
  by_cases hempty : s.project p = ""
  · rw [h.empty.1 hempty, hempty, markersIn_empty]
    rfl
  · obtain ⟨tree, part, htree, -, hleaves, htext, -⟩ := h.part hempty
    rw [htext, Tree.markersIn_render, hleaves, htree]
    rfl

end Statement

section Reached

variable {s : Statement} {fs : List Filter} (h : Reached (fun path => isPath path = true) s fs)

include h

theorem Reached.balanced_leaves : ∀ leaf ∈ s.body.leaves, Balanced leaf.2.toList ∧ leaf.2 ≠ "" := by
  intro leaf hleaf
  obtain ⟨p, hvalid, htext⟩ := h.phrased (fun _ hpath => hpath) leaf hleaf
  rw [htext]
  have hnames : ∀ name ∈ p.names, IsName name :=
    fun name hname => (hvalid.names name hname).isName hvalid.path
  exact ⟨Phrase.balanced_text hvalid.path hvalid.count hnames,
    Phrase.text_ne_empty hvalid.path hvalid.count⟩

theorem Reached.tree_or_empty : (∃ t, s.body = .built t) ∨
    s.body = .raw "" ∧ s.fragments.keys = [] := by
  cases hbody : s.body with
  | built t => exact .inl ⟨t, rfl⟩
  | raw clause =>
      have hempty : s.isEmpty = true := by
        by_contra hne
        obtain ⟨t, ht⟩ := h.accounts.isTree (by simpa using hne)
        simp [hbody] at ht
      have hclause : s.body.clause = "" := String.isEmpty_iff.1 hempty
      rw [hbody] at hclause
      refine .inr ⟨congrArg Body.raw hclause, List.eq_nil_iff_forall_not_mem.2 fun key hkey => ?_⟩
      have hleaf := (h.accounts.keys key).1 hkey
      simp [hbody, Body.leaves] at hleaf

theorem Reached.shows {p : Projection} {keep : String → Bool}
    (hkeep : ∀ key ∈ s.fragments.keys, keep key = true ↔ key ∉ p.dropped s.fragments.keys) :
    s.Shows p keep := by
  have hleaves := h.balanced_leaves
  rcases h.tree_or_empty with ⟨t, ht⟩ | ⟨hraw, hkeys⟩
  · have hproject := Statement.project_built ht (h.joined ht).whole p fun leaf hleaf =>
      hkeep leaf.1 ((h.accounts.keys leaf.1).2 (by rw [ht]; exact List.mem_map_of_mem hleaf))
    rw [ht] at hleaves
    rcases t.retain_spec keep with ⟨hnone, hnil⟩ | ⟨part, hsome, hpart, hkept⟩
    · rw [hnone] at hproject
      refine ⟨by simpa [hproject, ht, Body.leaves] using hnil, fun hne => absurd hproject hne, ?_⟩
      rw [hproject]
      exact .of_not_mem (by simp) (by simp)
    · rw [hsome] at hproject
      have hmem : ∀ leaf ∈ part.leaves, Balanced leaf.2.toList ∧ leaf.2 ≠ "" := by
        intro leaf hleaf
        rw [hkept] at hleaf
        exact hleaves leaf (List.mem_filter.1 hleaf).1
      have hne : part.render ≠ "" :=
        Tree.render_ne_empty hpart.leaves_ne_nil fun leaf hleaf => (hmem leaf hleaf).2
      have htext : s.project p = part.render := hproject
      refine ⟨?_, fun _ => ⟨t, part, ht, hpart, hkept, htext, hpart.isCondition.wellGrouped⟩, ?_⟩
      · rw [htext, ht, Body.leaves, ← hkept]
        exact ⟨fun hempty => absurd hempty hne, fun hnil => absurd hnil hpart.leaves_ne_nil⟩
      · rw [htext]
        exact part.balanced_render fun leaf hleaf => (hmem leaf hleaf).1
  · have hproject := Statement.project_empty hraw hkeys p
    refine ⟨by simp [hproject, hraw, Body.leaves], fun hne => absurd hproject hne, ?_⟩
    rw [hproject]
    exact .of_not_mem (by simp) (by simp)

theorem Reached.nodup_markersIn : (markersIn s.clause).Nodup :=
  h.accounts.names.nodup_iff.2 s.arguments.nodup_keys

theorem Reached.project_congr {p p' : Projection}
    (hdropped : ∀ key ∈ s.fragments.keys,
      key ∈ p.dropped s.fragments.keys ↔ key ∈ p'.dropped s.fragments.keys) :
    s.project p = s.project p' := by
  rcases h.tree_or_empty with ⟨t, ht⟩ | ⟨hraw, hkeys⟩
  · have hkey : ∀ leaf ∈ t.leaves, leaf.1 ∈ s.fragments.keys := fun leaf hleaf =>
      (h.accounts.keys leaf.1).2 (by rw [ht]; exact List.mem_map_of_mem hleaf)
    let keep : String → Bool := fun key => key ∉ p'.dropped s.fragments.keys
    have hkeep : ∀ leaf ∈ t.leaves,
        keep leaf.1 = true ↔ leaf.1 ∉ p.dropped s.fragments.keys := by
      intro leaf hleaf
      rw [decide_eq_true_eq, hdropped leaf.1 (hkey leaf hleaf)]
    have hkeep' : ∀ leaf ∈ t.leaves,
        keep leaf.1 = true ↔ leaf.1 ∉ p'.dropped s.fragments.keys :=
      fun _ _ => decide_eq_true_iff
    rw [Statement.project_built ht (h.joined ht).whole p hkeep,
      Statement.project_built ht (h.joined ht).whole p' hkeep']
  · rw [Statement.project_empty hraw hkeys, Statement.project_empty hraw hkeys]

end Reached

/-- Two projections by the same keys, one that leaves them out and one that shows only them, share
out the leaves of a statement that is reached: each of them writes a whole condition of its own
leaves, every marker of the clause stands in one of the two texts, and keys that the statement does
not have make no difference. -/
theorem projections_share_out {s : Statement} {fs : List Filter}
    (h : Reached (fun path => isPath path = true) s fs) {keys : List String} (hne : keys ≠ []) :
    s.Shows (.except keys) (· ∉ keys) ∧ s.Shows (.only keys) (· ∈ keys) ∧
      (markersIn (s.project (.except keys))).Sublist (markersIn s.clause) ∧
      (markersIn (s.project (.only keys))).Sublist (markersIn s.clause) ∧
      (markersIn (s.project (.except keys)) ++ markersIn (s.project (.only keys))).Perm
        (markersIn s.clause) ∧
      (markersIn (s.project (.except keys)) ++ markersIn (s.project (.only keys))).Nodup ∧
      ∀ others, (∀ key ∈ s.fragments.keys, key ∈ others ↔ key ∈ keys) →
        s.project (.except others) = s.project (.except keys) ∧
          (others ≠ [] → s.project (.only others) = s.project (.only keys)) := by
  have hexcept : s.Shows (.except keys) (· ∉ keys) := h.shows fun key _ => by
    rw [Projection.mem_dropped_except, decide_eq_true_eq]
  have honly : s.Shows (.only keys) (· ∈ keys) := h.shows fun key hkey => by
    rw [Projection.mem_dropped_only hne]
    simp [hkey]
  have hclause : markersIn s.clause = s.body.leaves.flatMap fun l => markersIn l.2 := by
    rcases h.tree_or_empty with ⟨t, ht⟩ | ⟨hraw, -⟩
    · rw [Statement.clause, ht]
      exact t.markersIn_render
    · rw [Statement.clause, hraw]
      exact markersIn_empty
  have hperm : (markersIn (s.project (.except keys)) ++ markersIn (s.project (.only keys))).Perm
      (markersIn s.clause) := by
    rw [hexcept.markersIn, honly.markersIn, hclause, ← List.flatMap_append]
    apply List.Perm.flatMap_right
    refine List.perm_append_comm.trans ?_
    simpa using List.filter_append_perm (fun l => decide (l.1 ∈ keys)) s.body.leaves
  refine ⟨hexcept, honly, ?_, ?_, hperm, hperm.nodup_iff.2 h.nodup_markersIn, ?_⟩
  · rw [hexcept.markersIn, hclause]
    exact List.filter_sublist.flatMap _
  · rw [honly.markersIn, hclause]
    exact List.filter_sublist.flatMap _
  · intro others hothers
    constructor
    · apply h.project_congr
      intro key hkey
      rw [Projection.mem_dropped_except, Projection.mem_dropped_except]
      exact hothers key hkey
    · intro hne'
      apply h.project_congr
      intro key hkey
      rw [Projection.mem_dropped_only hne, Projection.mem_dropped_only hne', hothers key hkey]

def orders : List Filter := [
  ⟨"shop.id", .compare .equal, .nat 7⟩, ⟨"total", .between false, .list [.nat 1, .nat 9]⟩]

theorem projections_share_out_orders : ∃ s, Statement.ofFilters .or orders = .ok s ∧
    (∀ f ∈ orders, isPath f.path = true) ∧ ["total"] ≠ [] ∧
    (merge .and [s, s]).Shows (.except ["total"]) (· ∉ ["total"]) ∧
    (merge .and [s, s]).Shows (.only ["total"]) (· ∈ ["total"]) ∧
    (merge .and [s, s]).project (.only ["total", "tax"]) =
      (merge .and [s, s]).project (.only ["total"]) := by
  have hpath : ∀ f ∈ orders, isPath f.path = true := by decide +kernel
  obtain ⟨s, hs⟩ := (exists_ofFilters_iff (c := .or)).2 (by decide : ∀ f ∈ orders, f.fits = true)
  have hone : Reached (fun path => isPath path = true) s orders := .filters hpath hs
  have hboth : ∀ p ∈ [(s, orders), (s, orders)],
      Reached (fun path => isPath path = true) p.1 p.2 := by simpa using hone
  have htwice := Reached.merged .and hboth
  have hne : ["total"] ≠ [] := by simp
  obtain ⟨hexcept, honly, -, -, -, -, hunknown⟩ := projections_share_out htwice hne
  have hkeys : (Statement.ofFilters .or orders).toOption.map
      (fun s => (merge .and [s, s]).fragments.keys) = some ["shop_id", "total"] := by decide +kernel
  have hothers : ∀ key ∈ (merge .and [s, s]).fragments.keys,
      key ∈ ["total", "tax"] ↔ key ∈ ["total"] := by
    rw [hs] at hkeys
    replace hkeys : (merge .and [s, s]).fragments.keys = ["shop_id", "total"] :=
      Option.some.inj hkeys
    rw [hkeys]
    decide
  exact ⟨s, hs, hpath, hne, hexcept, honly, (hunknown _ hothers).2 (by simp)⟩

end ClauseWeave
