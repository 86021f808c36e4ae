import ClauseWeave.Proofs.Lexing
import ClauseWeave.Proofs.Accounting

namespace ClauseWeave

def Filter.holds (truth : Sql.Atom → Bool) (f : Filter) : Bool := f.atoms.all truth

namespace Statement

def tokens? (s : Statement) : Option (List Sql.Token) :=
  Sql.tokens (Sql.lexemes (resolve s.arguments s.clause))

/-- Whether the clause is true; none if it is empty or not well formed. -/
def value? (truth : Sql.Atom → Bool) (s : Statement) : Option Bool :=
  s.tokens?.bind (Sql.evaluate truth)

structure Readable (truth : Sql.Atom → Bool) (s : Statement) : Prop where
  closed : s.Closed
  reads : s.isEmpty = false → ∃ ts b, s.tokens? = some ts ∧ Sql.Alternatives truth ts b

variable {truth : Sql.Atom → Bool} {s : Statement}

theorem tokens?_of_isEmpty (h : s.isEmpty = true) : s.tokens? = some [] := by
  have hclause : s.clause = "" := String.isEmpty_iff.1 h
  rw [tokens?, hclause, resolve_empty]
  rfl

theorem value?_of_isEmpty (h : s.isEmpty = true) : s.value? truth = none := by
  rw [value?, tokens?_of_isEmpty h]
  rfl

theorem value?_of_tokens? {ts : List Sql.Token} {b : Bool} (hts : s.tokens? = some ts)
    (h : Sql.Alternatives truth ts b) : s.value? truth = some b := by
  rw [value?, hts]
  exact h.evaluate

theorem Readable.isSome_value? (h : s.Readable truth) (hne : s.isEmpty = false) :
    (s.value? truth).isSome = true := by
  obtain ⟨ts, b, hts, hb⟩ := h.reads hne
  rw [value?_of_tokens? hts hb]
  rfl

end Statement

variable {truth : Sql.Atom → Bool}

theorem Filter.atoms_ne_nil {f : Filter} (h : f.fits = true) : f.atoms ≠ [] := by
  obtain ⟨path, op, v⟩ := f
  cases op with
  | between negated =>
      obtain ⟨low, high, rfl, -⟩ := Filter.list_of_fits_between h
      simp [Filter.atoms]
  | like m => cases v <;> simp_all [Filter.atoms, Filter.fits]
  | _ => simp [Filter.atoms]

theorem Filter.factor_tokens {f : Filter} (h : f.fits = true) :
    Sql.Factor truth f.tokens (f.holds truth) := by
  have hatoms : List.Forall₂ (Sql.Factor truth) (f.atoms.map fun a => [.atom a])
      (f.atoms.map truth) := Sql.forall₂_map_map fun a _ => Sql.factor_atom truth a
  have hall := Sql.factor_intercalate hatoms (by simpa using Filter.atoms_ne_nil h)
  rwa [List.all_map, Function.id_comp] at hall

theorem alternatives_filters (c : Connective) {fs : List Filter} (hfits : ∀ f ∈ fs, f.fits = true)
    (hne : fs ≠ []) : Sql.Alternatives truth ([.join c].intercalate (fs.map Filter.tokens))
      (Sql.fold c (fs.map (Filter.holds truth))) := by
  apply Sql.reads_intercalate c
  · exact Sql.forall₂_map_map fun f hf => Filter.factor_tokens (hfits f hf)
  · simpa using hne

section Filters

variable {c : Connective} {fs : List Filter} {s : Statement}
  (hok : ∀ f ∈ fs, IsAttribute f.path) (h : Statement.ofFilters c fs = .ok s)

include hok h

theorem tokens?_ofFilters : s.tokens? = some ([.join c].intercalate (fs.map Filter.tokens)) := by
  have hfits := exists_ofFilters_iff.1 ⟨s, h⟩
  rw [Statement.tokens?, resolve_ofFilters (fun f hf => (hok f hf).isPath) h,
    Sql.lexemes_intercalate, List.map_map]
  apply Sql.tokens_intercalate
  exact Sql.forall₂_map_map fun f hf => tokens_spelled (hok f hf) (hfits f hf)

theorem readable_ofFilters : s.Readable truth := by
  refine ⟨(accounts_ofFilters (fun f hf => (hok f hf).isPath) h).closed, fun hne => ?_⟩
  have hfs : fs ≠ [] := by
    rintro rfl
    obtain rfl := Except.ok.inj h
    exact absurd (show true = false from hne) (by decide)
  have hfits := exists_ofFilters_iff.1 ⟨s, h⟩
  exact ⟨_, _, tokens?_ofFilters hok h, alternatives_filters c hfits hfs⟩

theorem value?_ofFilters :
    s.value? truth = Sql.fold? c (fs.map (Filter.holds truth)) := by
  cases fs with
  | nil =>
      obtain rfl := Except.ok.inj h
      exact Statement.value?_of_isEmpty rfl
  | cons f rest =>
      have hfits := exists_ofFilters_iff.1 ⟨s, h⟩
      exact Statement.value?_of_tokens? (tokens?_ofFilters hok h)
        (alternatives_filters c hfits (by simp))

end Filters

section Merged

variable (c : Connective) {ss : List Statement}

theorem filterMap_value?_present (truth : Sql.Atom → Bool) (ss : List Statement) :
    (present ss).filterMap (Statement.value? truth) = ss.filterMap (Statement.value? truth) := by
  rw [present, List.filterMap_filter]
  apply List.filterMap_congr
  intro s _
  cases hempty : s.isEmpty with
  | false => rfl
  | true => exact (Statement.value?_of_isEmpty hempty).symm

theorem exists_factors
    (h : ∀ s ∈ ss, ∃ ts b, s.tokens? = some ts ∧ Sql.Alternatives truth ts b) : ∃ tss,
      List.Forall₂ (fun ls ts => Sql.tokens ls = some ts)
        (ss.map fun s => Sql.lexemes (inParens (resolve s.arguments s.clause))) tss ∧
      List.Forall₂ (Sql.Factor truth) tss (ss.filterMap (Statement.value? truth)) := by
  induction ss with
  | nil => exact ⟨[], .nil, .nil⟩
  | cons s rest ih =>
      obtain ⟨tss, htokens, hfactors⟩ := ih fun s hs => h s (by simp [hs])
      obtain ⟨ts, b, hts, hb⟩ := h s (by simp)
      have hhead := Sql.tokens_paren hts
      rw [← Sql.lexemes_paren] at hhead
      rw [List.filterMap_cons_some (Statement.value?_of_tokens? hts hb)]
      exact ⟨_ :: tss, .cons hhead htokens, .cons hb.paren hfactors⟩

variable (h : ∀ s ∈ ss, s.Readable truth)

include h

theorem reads_merge : ∃ ts, (merge c ss).tokens? = some ts ∧
    ((present ss).filterMap (Statement.value? truth) ≠ [] →
      Sql.Alternatives truth ts
        (Sql.fold c ((present ss).filterMap (Statement.value? truth)))) := by
  have hpresent : ∀ s ∈ present ss, ∃ ts b, s.tokens? = some ts ∧
      Sql.Alternatives truth ts b := by
    intro s hs
    obtain ⟨hmem, hne⟩ := List.mem_filter.1 hs
    exact (h s hmem).reads (by simpa using hne)
  obtain ⟨tss, htokens, hfactors⟩ := exists_factors hpresent
  refine ⟨[.join c].intercalate tss, ?_, Sql.reads_intercalate c hfactors⟩
  rw [Statement.tokens?, resolve_merge_clause c fun s hs => (h s hs).closed,
    Sql.lexemes_intercalate, List.map_map]
  exact Sql.tokens_intercalate c htokens

theorem isEmpty_merge (hnil : (present ss).filterMap (Statement.value? truth) = []) :
    (merge c ss).isEmpty = true := by
  have hpresent : present ss = [] := by
    rw [List.eq_nil_iff_forall_not_mem]
    intro s hs
    obtain ⟨hmem, hne⟩ := List.mem_filter.1 hs
    have hsome := (h s hmem).isSome_value? (by simpa using hne)
    rw [List.filterMap_eq_nil_iff.1 hnil s hs] at hsome
    exact absurd hsome (by simp)
  rw [Statement.isEmpty, merge_clause, hpresent]
  rfl

theorem readable_merge : (merge c ss).Readable truth := by
  refine ⟨closed_merge c fun s hs => (h s hs).closed, fun hne => ?_⟩
  obtain ⟨ts, hts, halt⟩ := reads_merge c h
  refine ⟨ts, _, hts, halt fun hnil => ?_⟩
  rw [isEmpty_merge c h hnil] at hne
  exact absurd hne (by simp)

theorem value?_merge :
    (merge c ss).value? truth = Sql.fold? c (ss.filterMap (Statement.value? truth)) := by
  rw [← filterMap_value?_present]
  obtain ⟨ts, hts, halt⟩ := reads_merge c h
  cases hvalues : (present ss).filterMap (Statement.value? truth) with
  | nil => exact Statement.value?_of_isEmpty (isEmpty_merge c h hvalues)
  | cons b rest =>
      rw [hvalues] at halt
      exact Statement.value?_of_tokens? hts (halt (by simp))

end Merged

theorem Reached.readable {s : Statement} {fs : List Filter} (h : Reached IsAttribute s fs) :
    s.Readable truth := by
  refine h.induction (P := fun s _ => s.Readable truth) readable_ofFilters ?_
  intro c parts hparts
  apply readable_merge
  rintro s hs
  obtain ⟨p, hp, rfl⟩ := List.mem_map.1 hs
  exact hparts p hp

/-- The clause of filters is true when the filters ask for it, under their connective, and the
clause of a merge is true when those of its statements are, under its connective; statements that
are empty have no part in it. -/
theorem clause_value (truth : Sql.Atom → Bool) (c : Connective) :
    (∀ (fs : List Filter) (s : Statement), (∀ f ∈ fs, IsAttribute f.path) →
      Statement.ofFilters c fs = .ok s →
        s.value? truth = Sql.fold? c (fs.map (Filter.holds truth))) ∧
    ∀ ss : List Statement, (∀ s ∈ ss, ∃ fs, Reached IsAttribute s fs) →
      (∀ s ∈ present ss, (s.value? truth).isSome = true) ∧
        (merge c ss).value? truth =
          Sql.fold? c ((present ss).filterMap (Statement.value? truth)) := by
  refine ⟨fun fs s hok h => value?_ofFilters hok h, fun ss hss => ?_⟩
  have hreadable : ∀ s ∈ ss, s.Readable truth := by
    intro s hs
    obtain ⟨fs, hfs⟩ := hss s hs
    exact hfs.readable
  rw [filterMap_value?_present]
  refine ⟨fun s hs => ?_, value?_merge c hreadable⟩
  obtain ⟨hmem, hne⟩ := List.mem_filter.1 hs
  exact (hreadable s hmem).isSome_value? (by simpa using hne)

/-- A range under `OR` stays together, also inside a merge under `AND`. -/
theorem clause_value_ages : ∃ s, Statement.ofFilters .or ages = .ok s ∧
    (∀ f ∈ ages, IsAttribute f.path) ∧ ∀ truth,
      s.value? truth = some (ages.any (Filter.holds truth)) ∧
      (merge .and [s, .empty, s]).value? truth = some (ages.any (Filter.holds truth)) := by
  have hok : ∀ f ∈ ages, IsAttribute f.path := by decide +kernel
  obtain ⟨s, hs⟩ := (exists_ofFilters_iff (c := .or)).2 (by decide : ∀ f ∈ ages, f.fits = true)
  have hreached : ∀ t ∈ [s, .empty, s], ∃ fs, Reached IsAttribute t fs := by
    have hone : ∃ fs, Reached IsAttribute s fs := ⟨ages, .filters hok hs⟩
    have hempty : ∃ fs, Reached IsAttribute .empty fs := ⟨[], .filters (c := .or) (by simp) rfl⟩
    simpa using ⟨hone, hempty, hone⟩
  refine ⟨s, hs, hok, fun truth => ?_⟩
  have hvalue : s.value? truth = some (ages.any (Filter.holds truth)) := by
    rw [(clause_value truth .or).1 ages s hok hs]
    simp [ages, Sql.fold?, Sql.fold]
  have hne : s.isEmpty = false := by
    by_contra hempty
    rw [Bool.not_eq_false] at hempty
    simp [Statement.value?_of_isEmpty hempty] at hvalue
  have hpresent : present [s, .empty, s] = [s, s] := by
    have hempty : Statement.empty.isEmpty = true := rfl
    simp [present, hne, hempty]
  refine ⟨hvalue, ?_⟩
  rw [((clause_value truth .and).2 _ hreached).2, hpresent]
  simp [hvalue, Sql.fold?, Sql.fold]

end ClauseWeave
