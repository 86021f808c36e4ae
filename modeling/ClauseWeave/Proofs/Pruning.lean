import ClauseWeave.Proofs.Phrasing

namespace ClauseWeave

namespace Tree

mutual

/-- What is left of a tree: the connectives and parentheses around the leaves that stay, and no
group without a leaf. -/
inductive PartOf : Tree → Tree → Prop
  | leaf (key text : String) : PartOf (leaf key text) (leaf key text)
  | join (c : Connective) {kept children : List Tree} (h : PartsOf kept children)
      (hne : kept ≠ []) : PartOf (join c kept) (join c children)
  | paren {kept inner : Tree} (h : PartOf kept inner) : PartOf (paren kept) (paren inner)

inductive PartsOf : List Tree → List Tree → Prop
  | nil : PartsOf [] []
  | keep {kept t : Tree} {others rest : List Tree} (h : PartOf kept t) (hrest : PartsOf others rest) :
      PartsOf (kept :: others) (t :: rest)
  | drop (t : Tree) {others rest : List Tree} (hrest : PartsOf others rest) :
      PartsOf others (t :: rest)

end

section Retain

variable (keep : String → Bool)

mutual

/-- What is retained is the part of the tree that has the leaves to keep; there is none if no leaf
is to be kept. -/
theorem retain_spec (t : Tree) :
    (retain keep t = none ∧ (t.leaves.filter fun l => keep l.1) = []) ∨
      ∃ part, retain keep t = some part ∧ part.PartOf t ∧
        part.leaves = t.leaves.filter fun l => keep l.1 := by
  cases t with
  | leaf key text =>
      cases hkey : keep key with
      | false => exact .inl (by simp [retain, leaves, hkey])
      | true => exact .inr ⟨leaf key text, by simp [retain, hkey], .leaf key text,
          by simp [leaves, hkey]⟩
  | join c children =>
      obtain ⟨hparts, hleaves⟩ := retainAll_spec children
      rw [retain, leaves, ← hleaves]
      cases hkept : retainAll keep children with
      | nil => exact .inl ⟨rfl, rfl⟩
      | cons t rest =>
          rw [hkept] at hparts
          exact .inr ⟨join c (t :: rest), rfl, .join c hparts (by simp), rfl⟩
  | paren inner =>
      rw [retain, leaves]
      rcases retain_spec inner with ⟨hnone, hleaves⟩ | ⟨part, hsome, hpart, hleaves⟩
      · exact .inl ⟨by rw [hnone]; rfl, hleaves⟩
      · exact .inr ⟨paren part, by rw [hsome]; rfl, .paren hpart, hleaves⟩

theorem retainAll_spec (ts : List Tree) : PartsOf (retainAll keep ts) ts ∧
    leavesAll (retainAll keep ts) = (leavesAll ts).filter fun l => keep l.1 := by
  cases ts with
  | nil => exact ⟨.nil, rfl⟩
  | cons t rest =>
      obtain ⟨hparts, hrest⟩ := retainAll_spec rest
      rw [retainAll, leavesAll, List.filter_append]
      rcases retain_spec t with ⟨hnone, hleaves⟩ | ⟨part, hsome, hpart, hleaves⟩
      · rw [hnone]
        exact ⟨.drop t hparts, by simp [hrest, hleaves]⟩
      · rw [hsome]
        exact ⟨.keep hpart hparts, by simp [leavesAll, hrest, hleaves]⟩

end

end Retain

mutual

theorem PartOf.leaves_ne_nil {part t : Tree} (h : PartOf part t) : part.leaves ≠ [] := by
  cases h with
  | leaf key text => simp [leaves]
  | join c hparts hne => exact hparts.leavesAll_ne_nil hne
  | paren h => exact h.leaves_ne_nil

theorem PartsOf.leavesAll_ne_nil {kept ts : List Tree} (h : PartsOf kept ts) (hne : kept ≠ []) :
    leavesAll kept ≠ [] := by
  cases h with
  | nil => exact absurd rfl hne
  | keep h hrest => simp [leavesAll, h.leaves_ne_nil]
  | drop t hrest => exact hrest.leavesAll_ne_nil hne

end

mutual

theorem retain_congr {keep keep' : String → Bool} (t : Tree)
    (h : ∀ leaf ∈ t.leaves, keep leaf.1 = keep' leaf.1) : retain keep t = retain keep' t := by
  cases t with
  | leaf key text => rw [retain, retain, h (key, text) (by simp [leaves])]
  | join c children => rw [retain, retain, retainAll_congr children h]
  | paren inner => rw [retain, retain, retain_congr inner h]

theorem retainAll_congr {keep keep' : String → Bool} (ts : List Tree)
    (h : ∀ leaf ∈ leavesAll ts, keep leaf.1 = keep' leaf.1) :
    retainAll keep ts = retainAll keep' ts := by
  cases ts with
  | nil => rfl
  | cons t rest =>
      rw [leavesAll] at h
      rw [retainAll, retainAll, retain_congr t fun leaf hleaf => h leaf (List.mem_append_left _ hleaf),
        retainAll_congr rest fun leaf hleaf => h leaf (List.mem_append_right _ hleaf)]

end

mutual

theorem retain_retain (keep keep' : String → Bool) (t : Tree) :
    (retain keep t).bind (retain keep') = retain (fun k => keep k && keep' k) t := by
  cases t with
  | leaf key text => cases hkey : keep key <;> simp [retain, hkey]
  | join c children =>
      have hall := retainAll_retainAll keep keep' children
      rw [retain, retain]
      cases hkept : retainAll keep children with
      | nil =>
          rw [hkept, retainAll] at hall
          rw [← hall]
          rfl
      | cons t rest =>
          rw [hkept] at hall
          rw [← hall]
          rfl
  | paren inner =>
      rw [retain, retain, ← retain_retain keep keep' inner]
      cases retain keep inner <;> rfl

theorem retainAll_retainAll (keep keep' : String → Bool) (ts : List Tree) :
    retainAll keep' (retainAll keep ts) = retainAll (fun k => keep k && keep' k) ts := by
  cases ts with
  | nil => rfl
  | cons t rest =>
      have hhead := retain_retain keep keep' t
      rw [retainAll, retainAll, ← retainAll_retainAll keep keep' rest, ← hhead]
      cases retain keep t <;> rfl

end

theorem renameAll_eq_map (renames : Dict String) (ts : List Tree) :
    renameAll renames ts = ts.map (rename renames) := by
  induction ts with
  | nil => rfl
  | cons t rest ih => rw [renameAll, ih, List.map_cons]

/-- A leaf, or operands under one connective in parentheses. -/
inductive Operand : Tree → Prop
  | leaf (key text : String) : Operand (leaf key text)
  | group (c : Connective) {ts : List Tree} (hne : ts ≠ []) (h : ∀ t ∈ ts, Operand t) :
      Operand (paren (join c ts))

theorem Operand.rename {t : Tree} (h : t.Operand) (renames : Dict String) :
    (t.rename renames).Operand := by
  induction h with
  | leaf key text => exact .leaf key (relabel renames text)
  | @group c ts hne _ ih =>
      rw [Tree.rename, Tree.rename, renameAll_eq_map]
      refine .group c (by simpa using hne) ?_
      intro t ht
      obtain ⟨o, ho, rfl⟩ := List.mem_map.1 ht
      exact ih o ho

def Joined (t : Tree) : Prop := ∃ c ts, t = join c ts ∧ ts ≠ [] ∧ ∀ o ∈ ts, o.Operand

theorem Joined.of_ofTrees {c : Connective} {trees : List Tree} (h : ∀ t ∈ trees, t.Operand)
    {t : Tree} (ht : Body.ofTrees c trees = .built t) : t.Joined := by
  cases trees with
  | nil => simp [Body.ofTrees] at ht
  | cons first rest =>
      obtain rfl := Body.built.inj ht
      exact ⟨c, first :: rest, rfl, by simp, h⟩

theorem Joined.operand_rename {t : Tree} (h : t.Joined) (renames : Dict String) :
    (paren (t.rename renames)).Operand := by
  obtain ⟨c, ts, rfl, hne, hts⟩ := h
  exact (Operand.group c hne hts).rename renames

/-- No group of the tree is empty: what keeps every leaf keeps the tree. -/
def Whole (t : Tree) : Prop := retain (fun _ => true) t = some t

theorem retainAll_of_whole {ts : List Tree} (h : ∀ t ∈ ts, t.Whole) :
    retainAll (fun _ => true) ts = ts := by
  induction ts with
  | nil => rfl
  | cons t rest ih =>
      have hhead : retain (fun _ => true) t = some t := h t (by simp)
      rw [retainAll, hhead, ih fun t ht => h t (by simp [ht])]

theorem whole_join (c : Connective) {ts : List Tree} (hne : ts ≠ []) (h : ∀ t ∈ ts, t.Whole) :
    (join c ts).Whole := by
  obtain ⟨t, rest, rfl⟩ := List.exists_cons_of_ne_nil hne
  rw [Whole, retain, retainAll_of_whole h]

theorem Operand.whole {t : Tree} (h : t.Operand) : t.Whole := by
  induction h with
  | leaf key text => rfl
  | group c hne _ ih =>
      rw [Whole, retain, whole_join c hne ih]
      rfl

theorem Joined.whole {t : Tree} (h : t.Joined) : t.Whole := by
  obtain ⟨c, ts, rfl, hne, hts⟩ := h
  exact whole_join c hne fun o ho => (hts o ho).whole

def row (rows : List (String × String)) : List Tree := rows.map fun r => leaf r.1 r.2

theorem retainAll_row (keep : String → Bool) (rows : List (String × String)) :
    retainAll keep (row rows) = row (rows.filter fun r => keep r.1) := by
  induction rows with
  | nil => rfl
  | cons r rest ih =>
      rw [row, row] at ih
      rw [row, row, List.map_cons, retainAll, ih, retain]
      cases hkeep : keep r.1 <;> simp [hkeep]

theorem operand_row (rows : List (String × String)) : ∀ t ∈ row rows, t.Operand := by
  intro t ht
  obtain ⟨r, -, rfl⟩ := List.mem_map.1 ht
  exact .leaf r.1 r.2

theorem leavesAll_row (rows : List (String × String)) : leavesAll (row rows) = rows := by
  rw [leavesAll_eq_flatMap, row, List.flatMap_map]
  exact List.flatMap_singleton' rows

theorem render_join_row (c : Connective) (rows : List (String × String)) :
    (join c (row rows)).render = c.separator.intercalate (rows.map Prod.snd) := by
  rw [render, renderAll_eq_map, row, List.map_map]
  rfl

theorem getD_render_retain_row (keep : String → Bool) (c : Connective)
    (rows : List (String × String)) : (((join c (row rows)).retain keep).map render).getD "" =
      c.separator.intercalate ((rows.filter fun r => keep r.1).map Prod.snd) := by
  rw [retain, retainAll_row, ← render_join_row]
  cases row (rows.filter fun r => keep r.1) <;> rfl

end Tree

theorem joined_ofFilters {c : Connective} {fs : List Filter} {s : Statement}
    (h : Statement.ofFilters c fs = .ok s) {t : Tree} (ht : s.body = .built t) : t.Joined := by
  obtain ⟨d, hd, rfl⟩ := ofFilters_eq_ok h
  have hleaves : ∀ t ∈ d.leaves, ∃ key p, Phrase.Valid (fun _ => True) p ∧ t = .leaf key p.text :=
    Draft.phrased_addAll (by simp) (by simp [Draft.empty]) hd
  refine Tree.Joined.of_ofTrees ?_ ht
  intro leaf hleaf
  obtain ⟨key, p, -, rfl⟩ := hleaves leaf hleaf
  exact .leaf key p.text

theorem joined_merge (c : Connective) {ss : List Statement}
    (h : ∀ s ∈ ss, ∀ t, s.body = .built t → t.Joined) {t : Tree}
    (ht : (merge c ss).body = .built t) : t.Joined := by
  change Body.join c ((present ss).foldl (Merge.add c) .empty).bodies = .built t at ht
  rw [Merge.bodies_foldl] at ht
  unfold Body.join at ht
  split at ht
  next trees hbodies =>
    have hmap := Body.mapM_tree?_eq_some hbodies
    refine Tree.Joined.of_ofTrees ?_ ht
    intro inner hinner
    obtain ⟨tree, htree, rfl⟩ := List.mem_map.1 hinner
    have hbody : Body.built tree ∈ trees.map .built := List.mem_map_of_mem htree
    rw [← hmap] at hbody
    obtain ⟨p, hp, hrename⟩ := List.mem_map.1 hbody
    cases hown : p.1.body with
    | raw text => simp [hown, Body.rename] at hrename
    | built own =>
        rw [hown] at hrename
        obtain rfl := Body.built.inj hrename
        exact (h p.1 (mem_present_of_mem_placed hp) own hown).operand_rename p.2
  next => simp at ht

theorem Reached.joined {ok : String → Prop} {s : Statement} {fs : List Filter} (h : Reached ok s fs)
    {t : Tree} (ht : s.body = .built t) : t.Joined := by
  refine h.induction (P := fun s _ => ∀ t, s.body = .built t → t.Joined) ?_ ?_ t ht
  · exact fun _ hs t ht => joined_ofFilters hs ht
  · intro c parts hparts t ht
    refine joined_merge c ?_ ht
    intro s hs
    obtain ⟨p, hp, rfl⟩ := List.mem_map.1 hs
    exact hparts p hp

end ClauseWeave
