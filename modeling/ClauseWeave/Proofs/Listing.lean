import ClauseWeave.Proofs.Expanding
import ClauseWeave.Proofs.Splitting

namespace ClauseWeave

/-- What can stand in a list: ASCII letters, digits and underscores, at least one of them. -/
def IsKey (key : String) : Prop := key ≠ "" ∧ ∀ c ∈ key.toList, Text.isAsciiWord c = true

instance : DecidablePred IsKey := fun key =>
  decidable_of_iff (key ≠ "" ∧ key.toList.all Text.isAsciiWord = true)
    (by rw [IsKey, List.all_eq_true])

theorem Text.trim_eq_self {s : List Char} (h : ∀ c ∈ s, isBlank c = false) : trim s = s := by
  have hfront : trimStart s = s :=
    Tidy.trimStart_of_head fun c hc => h c (List.mem_of_head? hc)
  have hback : trimStart s.reverse = s.reverse :=
    Tidy.trimStart_of_head fun c hc => h c (List.mem_reverse.1 (List.mem_of_head? hc))
  rw [trim, hfront, trimEnd, ← trimStart, hback, List.reverse_reverse]

theorem Placeholder.isBlank_of_isListChar {c : Char} (h : isListChar c = true) :
    Text.isBlank c = false := by
  refine Bool.eq_false_iff.2 fun hblank => ?_
  simp [(outside_of_isBlank hblank).2.1] at h

namespace Projection

def written : Projection → String
  | all => "*"
  | only keys => ",".intercalate keys
  | except keys => "!" ++ ",".intercalate keys

def Writable : Projection → Prop
  | all => True
  | only keys | except keys => keys ≠ [] ∧ ∀ key ∈ keys, IsKey key

section Keys

variable {keys : List String} (hkeys : ∀ key ∈ keys, IsKey key)

include hkeys

theorem isItemChar_of_mem_key {key : String} (hkey : key ∈ keys) :
    ∀ c ∈ key.toList, Placeholder.isItemChar c = true := by
  intro c hc
  simp [Placeholder.isItemChar, (hkeys key hkey).2 c hc]

theorem not_mem_key {key : String} (hkey : key ∈ keys) {c : Char}
    (hc : Text.isAsciiWord c = false) : c ∉ key.toList := by
  intro hmem
  simp [(hkeys key hkey).2 c hmem] at hc

theorem trim_key {key : String} (hkey : key ∈ keys) : Text.trim key.toList = key.toList := by
  refine Text.trim_eq_self fun c hc => Placeholder.isBlank_of_isListChar ?_
  simp [Placeholder.isListChar, isItemChar_of_mem_key hkeys hkey c hc]

theorem keyList_intercalate (hne : keys ≠ []) : keyList (",".intercalate keys).toList = keys := by
  have hcomma : ∀ part ∈ keys.map String.toList, ',' ∉ part := by
    rintro _ hpart
    obtain ⟨key, hkey, rfl⟩ := List.mem_map.1 hpart
    exact not_mem_key hkeys hkey (by decide)
  have htrim : (keys.map String.toList).map Text.trim = keys.map String.toList := by
    rw [List.map_map]
    exact List.map_congr_left fun key hkey => trim_key hkeys hkey
  have hfull : ∀ part ∈ keys.map String.toList, !part.isEmpty := by
    rintro _ hpart
    obtain ⟨key, hkey, rfl⟩ := List.mem_map.1 hpart
    simpa using (hkeys key hkey).1
  have hparts : ",".toList = [','] := by decide
  rw [keyList, String.toList_intercalate, hparts, List.splitOn_intercalate ',' hcomma (by simpa),
    htrim, List.filter_eq_self.2 hfull, List.map_map]
  simp [Function.comp_def]

theorem isItems_keys (hne : keys ≠ []) (front : List Char)
    (hfront : ∀ c ∈ front, Placeholder.isItemChar c = true) :
    Placeholder.IsItems (front ++ (",".intercalate keys).toList) := by
  obtain ⟨key, rest, rfl⟩ := List.exists_cons_of_ne_nil hne
  refine ⟨(front ++ key.toList) :: rest.map String.toList, by simp, ?_, ?_⟩
  · refine List.forall_mem_cons.2 ⟨⟨?_, List.forall_mem_append.2 ⟨hfront, ?_⟩⟩, ?_⟩
    · simp [(hkeys key (by simp)).1]
    · exact isItemChar_of_mem_key hkeys (by simp)
    · rintro _ hitem
      obtain ⟨other, hother, rfl⟩ := List.mem_map.1 hitem
      have hmem : other ∈ key :: rest := List.mem_cons_of_mem _ hother
      exact ⟨by simpa using (hkeys other hmem).1, isItemChar_of_mem_key hkeys hmem⟩
  · cases rest with
    | nil => simp
    | cons next rest => simp [List.intercalate_cons_cons]

theorem not_mem_intercalate {c : Char} (hc : Text.isAsciiWord c = false) (hcomma : c ≠ ',') :
    c ∉ (",".intercalate keys).toList := by
  rw [String.toList_intercalate]
  intro hmem
  rcases mem_of_mem_intercalate hmem with hsep | ⟨_, hpart, hmem⟩
  · simp [hcomma] at hsep
  · obtain ⟨key, hkey, rfl⟩ := List.mem_map.1 hpart
    exact not_mem_key hkeys hkey hc hmem

end Keys

variable {p : Projection} (hp : p.Writable)

include hp

theorem isItems_written : Placeholder.IsItems p.written.toList := by
  cases p with
  | all => exact ⟨[['*']], by simp, by simp; decide, rfl⟩
  | only keys => exact isItems_keys hp.2 hp.1 [] (by simp)
  | except keys =>
      rw [written, String.toList_append]
      exact isItems_keys hp.2 hp.1 _ (List.all_eq_true.1 (by decide))

theorem parse_written : parse p.written = p := by
  cases p with
  | all => decide
  | only keys =>
      -- Neither of the two signs stands in a list of keys.
      have hall : '!' ∉ (written (.only keys)).toList ∧ '*' ∉ (written (.only keys)).toList :=
        ⟨not_mem_intercalate hp.2 (by decide) (by decide),
          not_mem_intercalate hp.2 (by decide) (by decide)⟩
      have htrim : Text.trim (written (.only keys)).toList = (written (.only keys)).toList := by
        have hchars := (Placeholder.isItems_iff.1 (isItems_written hp)).1
        exact Text.trim_eq_self fun c hc => Placeholder.isBlank_of_isListChar (hchars c hc)
      rw [parse]
      split
      next rest he => simp [he] at hall
      next =>
        rw [htrim, if_neg (fun he => by simp [he] at hall)]
        exact congrArg only (keyList_intercalate hp.2 hp.1)
  | except keys =>
      have hfront : (written (.except keys)).toList = '!' :: (",".intercalate keys).toList := by
        simp [written]
      rw [parse, hfront]
      exact congrArg except (keyList_intercalate hp.2 hp.1)

end Projection

/-- Text that begins at once and has single spaces between its words. -/
structure WellSpaced (s : List Char) : Prop where
  first : s.head?.map Text.isBlank = some false
  spaced : Text.SingleSpaced s

namespace WellSpaced

variable {s t : List Char}

theorem of_no_blank (hne : s ≠ []) (h : ∀ c ∈ s, Text.isBlank c = false) : WellSpaced s := by
  obtain ⟨c, s, rfl⟩ := List.exists_cons_of_ne_nil hne
  exact ⟨congrArg some (h c (by simp)), .of_no_blank h⟩

theorem append (hs : WellSpaced s) (ht : Text.SingleSpaced t) : WellSpaced (s ++ t) := by
  refine ⟨?_, hs.spaced.append ht⟩
  obtain ⟨c, hc, hblank⟩ := Option.map_eq_some_iff.1 hs.first
  simp [hc, hblank]

theorem space (hs : WellSpaced s) (ht : WellSpaced t) : WellSpaced (s ++ ' ' :: t) :=
  hs.append (ht.spaced.space ht.first)

theorem join (hs : WellSpaced s) (c : Connective) (ht : WellSpaced t) :
    WellSpaced (s ++ c.separator.toList ++ t) := by
  have hword : WellSpaced c.word.toList := by cases c <;> exact ⟨by decide, by decide⟩
  simpa [c.separator_eq] using hs.space (hword.space ht)

theorem intercalate (c : Connective) {texts : List (List Char)} (h : ∀ t ∈ texts, WellSpaced t)
    (hne : texts ≠ []) : WellSpaced (c.separator.toList.intercalate texts) := by
  induction texts with
  | nil => exact absurd rfl hne
  | cons t rest ih =>
      cases rest with
      | nil => simpa using h t (by simp)
      | cons u rest =>
          rw [List.intercalate_cons_cons]
          exact (h t (by simp)).join c (ih (fun v hv => h v (by simp [hv])) (by simp))

theorem paren (hs : WellSpaced s) : WellSpaced ('(' :: (s ++ [')'])) := by
  refine ⟨rfl, ?_⟩
  have hopening : Text.SingleSpaced ['('] := by decide
  exact hopening.append (hs.spaced.append (by decide))

theorem collapse_eq (h : WellSpaced s) : Text.collapse s = s := by
  refine h.spaced.collapse_eq fun c hc => ?_
  simpa [Option.mem_def.1 hc] using h.first

end WellSpaced

theorem wellSpaced_of_isPath {path : String} (h : isPath path = true) : WellSpaced path.toList := by
  obtain ⟨hne, hchars⟩ := chars_of_isPath h
  refine .of_no_blank (by simpa using hne) fun c hc => ?_
  rcases hchars c hc with hword | rfl
  · exact Text.isBlank_of_isWord hword
  · decide

namespace Phrase

theorem wellSpaced_single {path name : String} {op : Operator} (hp : isPath path = true)
    (h : op.arity = 1) (hname : IsName name) : WellSpaced (text ⟨path, op, [name]⟩).toList := by
  have hopening : Text.SingleSpaced (op.opening.toList ++ [':']) := by
    rcases op with c | m | n | n | n
    · cases c <;> decide
    · cases m <;> decide
    all_goals cases n <;> decide
  have hclosing : Text.SingleSpaced op.closing.toList := by
    rcases op.closing_eq with he | he <;> rw [he] <;> decide
  have hword : Text.SingleSpaced name.toList :=
    .of_no_blank fun c hc => Text.isBlank_of_isWord (hname.2 c hc)
  have hmarked := (wellSpaced_of_isPath hp).append (hopening.append (hword.append hclosing))
  simpa [text_single path h] using hmarked

theorem wellSpaced_text {p : Phrase} (hp : p.Valid (isPath · = true)) :
    WellSpaced p.text.toList := by
  have hname : ∀ name ∈ p.names, IsName name := fun name hmem => (hp.names name hmem).isName hp.path
  cases shape_of_count hp.count with
  | single path h name => exact wellSpaced_single hp.path h (hname name (by simp))
  | range path negated low high =>
      rw [text_range, String.toList_append, String.toList_append]
      exact (wellSpaced_single hp.path rfl (hname low (by simp))).join .and
        (wellSpaced_single hp.path rfl (hname high (by simp)))
  | null path negated =>
      have hopening : Text.SingleSpaced (Operator.null negated).opening.toList := by
        cases negated <;> decide
      rw [text_null, String.toList_append]
      exact (wellSpaced_of_isPath hp.path).append hopening

theorem sign_not_mem_text {p : Phrase} (hp : p.Valid (isPath · = true)) :
    '%' ∉ p.text.toList := by
  intro hmem
  rcases mem_text hp.count hmem with hpath | ⟨name, hname, hmem⟩ | hletter
  · rcases (chars_of_isPath hp.path).2 _ hpath with hword | hdot
    · exact absurd hword (by decide)
    · exact absurd hdot (by decide)
  · exact absurd (((hp.names name hname).isName hp.path).2 _ hmem) (by decide)
  · exact absurd hletter (by decide)

end Phrase

namespace Tree

mutual

theorem PartOf.wellSpaced {part t : Tree} (h : PartOf part t)
    (hleaves : ∀ leaf ∈ part.leaves, WellSpaced leaf.2.toList) : WellSpaced part.render.toList := by
  cases h with
  | leaf key text => exact hleaves (key, text) (by simp [leaves])
  | join c hparts hne =>
      rw [render, String.toList_intercalate]
      refine .intercalate c (hparts.forall_wellSpaced hleaves) ?_
      simpa [renderAll_eq_map] using hne
  | @paren kept _ h => simpa [render] using (h.wellSpaced hleaves).paren

theorem PartsOf.forall_wellSpaced {kept ts : List Tree} (h : PartsOf kept ts)
    (hleaves : ∀ leaf ∈ leavesAll kept, WellSpaced leaf.2.toList) :
    ∀ text ∈ (renderAll kept).map String.toList, WellSpaced text := by
  cases h with
  | nil => simp [renderAll]
  | keep h hrest =>
      rw [leavesAll, List.forall_mem_append] at hleaves
      rw [renderAll, List.map_cons]
      exact List.forall_mem_cons.2 ⟨h.wellSpaced hleaves.1, hrest.forall_wellSpaced hleaves.2⟩
  | drop t hrest => exact hrest.forall_wellSpaced hleaves

end

end Tree

theorem Statement.withKeyword_eq (keyword clause : String) : withKeyword keyword clause =
    if clause = "" then "" else keyword ++ " " ++ clause := by
  simp [withKeyword]

/-- A template leaves the text as it is: it has single spaces and no placeholders. -/
def Inert (s : String) : Prop := Text.collapse s.toList = s.toList ∧ '%' ∉ s.toList

theorem Inert.withKeyword {clause keyword : String} (h : Inert clause)
    (hkeyword : keyword ∈ ["WHERE", "HAVING"]) : Inert (Statement.withKeyword keyword clause) := by
  rw [Statement.withKeyword_eq]
  split
  next => exact ⟨rfl, List.not_mem_nil⟩
  next hne =>
    obtain ⟨hplain, hfull, hsign⟩ : keyword.toList.any Text.isBlank = false ∧
        keyword.toList ≠ [] ∧ '%' ∉ keyword.toList := by
      simp only [List.mem_cons, List.not_mem_nil, or_false] at hkeyword
      rcases hkeyword with rfl | rfl <;> exact ⟨by decide, by decide, by decide⟩
    have hword : ∀ c ∈ keyword.toList, Text.isBlank c = false := by simpa using hplain
    have htext : (keyword ++ " " ++ clause).toList = keyword.toList ++ ' ' :: clause.toList := by
      simp
    obtain ⟨hclause, hclauseSign⟩ := h
    have hwords : Text.words clause.toList ≠ [] := by
      intro hnil
      rw [Text.collapse, hnil] at hclause
      exact hne (String.toList_eq_nil_iff.1 hclause.symm)
    obtain ⟨w, ws, hws⟩ := List.exists_cons_of_ne_nil hwords
    rw [Text.collapse, hws] at hclause
    rw [Inert, htext]
    refine ⟨?_, by simp [hsign, hclauseSign]⟩
    rw [Text.collapse, Text.words_append_blank Text.isBlank_space, Text.words_word hword,
      if_neg hfull, hws, List.singleton_append, List.intercalate_cons_cons, hclause]
    simp

section Reached

variable {s : Statement} {fs : List Filter} (h : Reached (fun path => isPath path = true) s fs)

include h

theorem Reached.project_cases (p : Projection) : s.project p = "" ∨
    s.isEmpty = false ∧ WellSpaced (s.project p).toList ∧ '%' ∉ (s.project p).toList := by
  by_cases hempty : s.project p = ""
  · exact .inl hempty
  · have hshows : s.Shows p fun key => decide (key ∉ p.dropped s.fragments.keys) :=
      h.shows fun key _ => decide_eq_true_iff
    obtain ⟨t, part, ht, hpart, hleaves, htext, -⟩ := hshows.part hempty
    have hphrased := h.phrased fun _ hpath => hpath
    rw [Body.Phrased, ht] at hphrased
    have hsub : ∀ leaf ∈ part.leaves, leaf ∈ t.leaves := by
      intro leaf hleaf
      rw [hleaves] at hleaf
      exact (List.mem_filter.1 hleaf).1
    refine .inr ⟨?_, ?_, ?_⟩
    · have hne : t.leaves ≠ [] := by
        obtain ⟨leaf, hleaf⟩ := List.exists_mem_of_ne_nil _ hpart.leaves_ne_nil
        exact List.ne_nil_of_mem (hsub leaf hleaf)
      have hclause := Tree.render_ne_empty hne fun leaf hleaf =>
        (h.balanced_leaves leaf (by rw [ht]; exact hleaf)).2
      simpa [Statement.isEmpty, Statement.clause, ht, Body.clause] using hclause
    · rw [htext]
      refine hpart.wellSpaced fun leaf hleaf => ?_
      obtain ⟨q, hq, he⟩ := hphrased leaf (hsub leaf hleaf)
      rw [he]
      exact Phrase.wellSpaced_text hq
    · rw [htext]
      intro hmem
      rcases Tree.mem_render part hmem with ⟨leaf, hleaf, hmem⟩ | hletter
      · obtain ⟨q, hq, he⟩ := hphrased leaf (hsub leaf hleaf)
        rw [he] at hmem
        exact Phrase.sign_not_mem_text hq hmem
      · exact absurd hletter (by decide)

theorem Reached.inert_project (token : String) (p : Projection) :
    Inert (Statement.withKeyword (Statement.keyword token) (s.project p)) := by
  have hinert : Inert (s.project p) := by
    rcases h.project_cases p with hempty | ⟨-, hspaced, hsign⟩
    · rw [hempty]
      exact ⟨rfl, List.not_mem_nil⟩
    · exact ⟨hspaced.collapse_eq, hsign⟩
  refine hinert.withKeyword ?_
  rw [Statement.keyword]
  split <;> simp

theorem Reached.renderFor_eq (params token : String) : s.renderFor params token =
    Statement.withKeyword (Statement.keyword token) (s.project (.parse params)) := by
  rw [Statement.renderFor]
  rcases h.project_cases (.parse params) with hempty | ⟨hne, -⟩
  · rw [hempty, Statement.withKeyword_eq, if_pos rfl, ite_self]
  · rw [hne, if_neg Bool.false_ne_true]

end Reached

section Alone

variable {tokens : Tokens} {p : Placeholder} {s : List Char} {value : String}
  (hread : Placeholder.Reads s p [])

include hread

theorem scan_placeholder : Segment.scan ('%' :: s) = [.placeholder p] := by
  rw [Segment.scan_sign hread, Segment.scan]

theorem namesIn_placeholder : namesIn ('%' :: s) ≠ [] := by
  rw [namesIn, scan_placeholder hread]
  simp [Segment.name?]

variable (hvalue : p.resolve tokens = .ok value)

include hvalue

theorem expand_placeholder (limit left : Nat) : expand tokens limit (left + 1) ('%' :: s) =
    expand tokens limit left (Text.collapse value.toList) := by
  rw [expand_of_namesIn limit (left + 1) (namesIn_placeholder hread), scan_placeholder hread]
  simp [expandSegments, hvalue, Except.map, Except.bind]

theorem render_placeholder (hinert : Inert value) (passes : Nat) :
    render tokens (passes + 1) (String.ofList ('%' :: s)) = .ok value := by
  rw [render, String.toList_ofList, expand_placeholder hread hvalue, hinert.1,
    expand_of_namesIn_eq_nil _ _ (namesIn_of_not_mem hinert.2)]
  simp [Except.map]

end Alone

section Written

variable {s : Statement} {fs : List Filter} (h : Reached (fun path => isPath path = true) s fs)
  {tokens : Tokens} {token : String} (hs : tokens.get? token = some s.token)

include h hs

theorem render_written (hne : token ≠ "")
    (hchars : ∀ c ∈ token.toList, Placeholder.isNameChar c = true) {p : Projection}
    (hp : p.Writable) (passes : Nat) :
    render tokens (passes + 1) ("%" ++ token ++ "\x7b" ++ p.written ++ "\x7d") =
      .ok (Statement.withKeyword (Statement.keyword token) (s.project p)) := by
  have htemplate : "%" ++ token ++ "\x7b" ++ p.written ++ "\x7d" =
      String.ofList ('%' :: (token.toList ++ '\x7b' :: (p.written.toList ++ '\x7d' :: []))) := by
    apply String.toList_inj.1
    simp
  have hread : Placeholder.Reads (token.toList ++ '\x7b' :: (p.written.toList ++ '\x7d' :: []))
      ⟨token.toList, some p.written.toList⟩ [] :=
    .items (by simpa using hne) hchars (Projection.isItems_written hp)
  have hvalue : Placeholder.resolve tokens ⟨token.toList, some p.written.toList⟩ =
      .ok (Statement.withKeyword (Statement.keyword token) (s.project p)) := by
    simp only [Placeholder.resolve, String.ofList_toList, hs, Statement.token]
    rw [h.renderFor_eq, Projection.parse_written hp]
  rw [htemplate]
  exact render_placeholder hread hvalue (h.inert_project token p) passes

end Written

/-- In a template every list of keys is read back. Behind the keyword of the token stands the clause
without the fragments of these keys where the list has a mark, and the clause of these fragments
alone where it has none; nothing at all where nothing is left of the clause. -/
theorem render_key_list {s : Statement} {fs : List Filter}
    (h : Reached (fun path => isPath path = true) s fs) {tokens : Tokens} {token keyword : String}
    (hkeyword : (token, keyword) ∈ [("where", "WHERE"), ("having", "HAVING")])
    (hs : tokens.get? token = some s.token) {keys : List String} (hne : keys ≠ [])
    (hkeys : ∀ key ∈ keys, IsKey key) (passes : Nat) :
    render tokens (passes + 1) ("%" ++ token ++ "\x7b!" ++ ",".intercalate keys ++ "\x7d") =
        .ok (if s.project (.except keys) = "" then ""
          else keyword ++ " " ++ s.project (.except keys)) ∧
      render tokens (passes + 1) ("%" ++ token ++ "\x7b" ++ ",".intercalate keys ++ "\x7d") =
        .ok (if s.project (.only keys) = "" then ""
          else keyword ++ " " ++ s.project (.only keys)) := by
  have htoken : token ≠ "" ∧ (∀ c ∈ token.toList, Placeholder.isNameChar c = true) ∧
      Statement.keyword token = keyword := by
    simp only [List.mem_cons, Prod.mk.injEq, List.not_mem_nil, or_false] at hkeyword
    rcases hkeyword with ⟨rfl, rfl⟩ | ⟨rfl, rfl⟩ <;>
      exact ⟨by decide, List.all_eq_true.1 (by decide), by decide⟩
  obtain ⟨hname, hchars, rfl⟩ := htoken
  have hmark : "%" ++ token ++ "\x7b!" ++ ",".intercalate keys ++ "\x7d" =
      "%" ++ token ++ "\x7b" ++ Projection.written (.except keys) ++ "\x7d" := by
    apply String.toList_inj.1
    simp [Projection.written]
  rw [← Statement.withKeyword_eq, ← Statement.withKeyword_eq, hmark]
  exact ⟨render_written h hs hname hchars (p := .except keys) ⟨hne, hkeys⟩ passes,
    render_written h hs hname hchars (p := .only keys) ⟨hne, hkeys⟩ passes⟩

/-- A key that the statement does not have is listed as well, and leaves nothing to show. -/
theorem render_key_list_orders : ∃ s, Statement.ofFilters .or orders = .ok s ∧
    (∀ f ∈ orders, isPath f.path = true) ∧
    ("having", "HAVING") ∈ [("where", "WHERE"), ("having", "HAVING")] ∧
    Dict.get? (.ofList [("having", (merge .and [s, s]).token)]) "having" =
      some (merge .and [s, s]).token ∧
    (∀ key ∈ ["total", "tax"], IsKey key) ∧
    render (.ofList [("having", (merge .and [s, s]).token)]) 16 "%having\x7b!total,tax\x7d" =
      .ok "HAVING (shop.id = :shop_id) AND (shop.id = :shop_id_1)" ∧
    render (.ofList [("having", (merge .and [s, s]).token)]) 16 "%having\x7btax\x7d" = .ok "" := by
  have hpath : ∀ f ∈ orders, isPath f.path = true := by decide +kernel
  have hkeys : ∀ key ∈ ["total", "tax"], IsKey key := by decide +kernel
  have hhaving : ("having", "HAVING") ∈ [("where", "WHERE"), ("having", "HAVING")] := by decide
  obtain ⟨s, hs⟩ := (exists_ofFilters_iff (c := .or)).2 (by decide : ∀ f ∈ orders, f.fits = true)
  have hone : Reached (fun path => isPath path = true) s orders := .filters hpath hs
  have hboth : ∀ p ∈ [(s, orders), (s, orders)],
      Reached (fun path => isPath path = true) p.1 p.2 := by simpa using hone
  have htwice := Reached.merged .and hboth
  have hprojected : (Statement.ofFilters .or orders).toOption.map (fun s =>
      ((merge .and [s, s]).project (.except ["total", "tax"]),
        (merge .and [s, s]).project (.only ["tax"]))) =
      some ("(shop.id = :shop_id) AND (shop.id = :shop_id_1)", "") := by decide +kernel
  rw [hs] at hprojected
  obtain ⟨hexcept, honly⟩ := Prod.mk.inj (Option.some.inj hprojected)
  have hget : Dict.get? (.ofList [("having", (merge .and [s, s]).token)]) "having" =
      some (merge .and [s, s]).token := rfl
  have hlist := (render_key_list htwice hhaving hget (by simp) hkeys 15).1
  have hlist' := (render_key_list htwice hhaving hget (by simp)
    (List.forall_mem_singleton.2 (hkeys "tax" (by simp))) 15).2
  refine ⟨s, hs, hpath, hhaving, hget, hkeys, ?_, ?_⟩
  · simpa [hexcept] using hlist
  · simpa [honly] using hlist'

end ClauseWeave
