import ClauseWeave.Proofs.Phrasing
import Mathlib.Data.List.Infix

namespace ClauseWeave

namespace Sql

def isWildcard (c : Char) : Bool := c == '%' || c == '_'

/-- `%` matches any run of characters, `_` any one character, any other character itself. There is
no escape character. -/
def like : List Char → List Char → Bool
  | [], s => s.isEmpty
  | c :: p, s =>
    if c = '%' then s.tails.any (like p)
    else
      match s with
      | [] => false
      | d :: s => (c == '_' || c == d) && like p s

theorem like_run {p s : List Char} :
    like ('%' :: p) s = true ↔ ∃ t, t <:+ s ∧ like p t = true := by
  simp [like, List.mem_tails]

theorem like_single {c : Char} (hc : c ≠ '%') {p s : List Char} :
    like (c :: p) s = true ↔ ∃ d t, s = d :: t ∧ (c = '_' ∨ c = d) ∧ like p t = true := by
  cases s <;> simp [like, hc]

theorem like_append {p q s : List Char} :
    like (p ++ q) s = true ↔ ∃ a b, s = a ++ b ∧ like p a = true ∧ like q b = true := by
  induction p generalizing s with
  | nil => simp [like]
  | cons c p ih =>
      rw [List.cons_append]
      by_cases hc : c = '%'
      · subst hc
        simp only [like_run, ih]
        constructor
        · rintro ⟨_, ⟨front, rfl⟩, a, b, rfl, ha, hb⟩
          exact ⟨front ++ a, b, by simp, ⟨a, List.suffix_append front a, ha⟩, hb⟩
        · rintro ⟨_, b, rfl, ⟨a, ⟨front, rfl⟩, ha⟩, hb⟩
          exact ⟨a ++ b, ⟨front, by simp⟩, a, b, rfl, ha, hb⟩
      · simp only [like_single hc, ih]
        constructor
        · rintro ⟨d, _, rfl, hd, a, b, rfl, ha, hb⟩
          exact ⟨d :: a, b, rfl, ⟨d, a, rfl, hd, ha⟩, hb⟩
        · rintro ⟨_, b, rfl, ⟨d, a, rfl, hd, ha⟩, hb⟩
          exact ⟨d, a ++ b, rfl, hd, a, b, rfl, ha, hb⟩

theorem like_self (s : List Char) : like s s = true := by
  induction s with
  | nil => rfl
  | cons c s ih =>
      by_cases hc : c = '%'
      · subst hc
        exact like_run.2 ⟨s, List.suffix_cons '%' s, ih⟩
      · exact (like_single hc).2 ⟨c, s, rfl, .inr rfl, ih⟩

theorem like_iff_eq {p : List Char} (hp : ∀ c ∈ p, isWildcard c = false) {s : List Char} :
    like p s = true ↔ s = p := by
  induction p generalizing s with
  | nil => simp [like]
  | cons c p ih =>
      obtain ⟨hc, hp⟩ := List.forall_mem_cons.1 hp
      obtain ⟨hrun, hone⟩ : c ≠ '%' ∧ c ≠ '_' := by simpa [isWildcard] using hc
      rw [like_single hrun]
      simp only [hone, false_or, ih hp]
      constructor
      · rintro ⟨_, _, rfl, rfl, rfl⟩
        rfl
      · rintro rfl
        exact ⟨c, p, rfl, rfl, rfl⟩

theorem exists_like_ne {p : List Char} {c : Char} (hmem : c ∈ p) (hc : isWildcard c = true) :
    ∃ s, s.length = p.length ∧ s ≠ p ∧ like p s = true := by
  obtain ⟨front, back, rfl⟩ := List.append_of_mem hmem
  refine ⟨front ++ 'a' :: back, by simp, ?_, ?_⟩
  · rintro he
    obtain rfl : 'a' = c := by simpa using he
    exact absurd hc (by decide)
  · refine like_append.2 ⟨front, 'a' :: back, rfl, like_self front, ?_⟩
    by_cases hrun : c = '%'
    · subst hrun
      exact like_run.2 ⟨back, List.suffix_cons 'a' back, like_self back⟩
    · have hone : c = '_' := by simpa [isWildcard, hrun] using hc
      exact (like_single hrun).2 ⟨'a', back, rfl, .inl hone, like_self back⟩

end Sql

namespace TextMatch

def Finds : TextMatch → List Char → List Char → Prop
  | atStart, v, x => v <+: x
  | anywhere, v, x => v <:+: x
  | atEnd, v, x => v <:+ x

instance : (m : TextMatch) → (v x : List Char) → Decidable (m.Finds v x)
  | atStart, v, x => inferInstanceAs (Decidable (v <+: x))
  | anywhere, v, x => inferInstanceAs (Decidable (v <:+: x))
  | atEnd, v, x => inferInstanceAs (Decidable (v <:+ x))

variable {m : TextMatch}

theorem finds_self (m : TextMatch) (s : List Char) : m.Finds s s := by
  cases m with
  | atStart => exact List.prefix_refl s
  | anywhere => exact List.infix_refl s
  | atEnd => exact List.suffix_refl s

theorem Finds.eq_of_length {v x : List Char} (h : m.Finds v x) (hlength : v.length = x.length) :
    v = x := by
  cases m with
  | atStart => exact List.IsPrefix.eq_of_length h hlength
  | anywhere => exact List.IsInfix.eq_of_length h hlength
  | atEnd => exact List.IsSuffix.eq_of_length h hlength

theorem like_pattern {v : String} {x : List Char} : Sql.like (m.pattern v).toList x = true ↔
    ∃ part, m.Finds part x ∧ Sql.like v.toList part = true := by
  have hrest (s : List Char) : Sql.like ['%'] s = true :=
    Sql.like_run.2 ⟨[], List.nil_suffix, rfl⟩
  have hstart {s : List Char} : Sql.like (v.toList ++ ['%']) s = true ↔
      ∃ part, part <+: s ∧ Sql.like v.toList part = true := by
    rw [Sql.like_append]
    constructor
    · rintro ⟨part, rest, rfl, hpart, -⟩
      exact ⟨part, List.prefix_append part rest, hpart⟩
    · rintro ⟨part, ⟨rest, rfl⟩, hpart⟩
      exact ⟨part, rest, rfl, hpart, hrest rest⟩
  cases m with
  | atStart =>
      have hlist : (pattern .atStart v).toList = v.toList ++ ['%'] := by simp [pattern]
      rw [hlist]
      exact hstart
  | anywhere =>
      have hlist : (pattern .anywhere v).toList = '%' :: (v.toList ++ ['%']) := by simp [pattern]
      rw [hlist, Sql.like_run]
      constructor
      · rintro ⟨t, ht, hlike⟩
        obtain ⟨part, hpart, hlike⟩ := hstart.1 hlike
        exact ⟨part, hpart.isInfix.trans ht.isInfix, hlike⟩
      · rintro ⟨part, hpart, hlike⟩
        obtain ⟨t, hpart, ht⟩ := List.infix_iff_prefix_suffix.1 hpart
        exact ⟨t, ht, hstart.2 ⟨part, hpart, hlike⟩⟩
  | atEnd =>
      have hlist : (pattern .atEnd v).toList = '%' :: v.toList := by simp [pattern]
      rw [hlist, Sql.like_run]
      rfl

theorem like_pattern_of_finds {v : String} {x : List Char} (h : m.Finds v.toList x) :
    Sql.like (m.pattern v).toList x = true := like_pattern.2 ⟨v.toList, h, Sql.like_self _⟩

theorem like_pattern_iff_finds {v : String} :
    (∀ x : String, Sql.like (m.pattern v).toList x.toList = true ↔ m.Finds v.toList x.toList) ↔
      ∀ c ∈ v.toList, Sql.isWildcard c = false := by
  constructor
  · intro h c hmem
    by_contra hc
    rw [Bool.not_eq_false] at hc
    obtain ⟨x, hlength, hne, hlike⟩ := Sql.exists_like_ne hmem hc
    have hx := h (String.ofList x)
    rw [String.toList_ofList] at hx
    have hfinds := hx.1 (like_pattern.2 ⟨x, m.finds_self x, hlike⟩)
    exact hne (hfinds.eq_of_length hlength.symm).symm
  · intro hv x
    rw [like_pattern]
    constructor
    · rintro ⟨part, hfinds, hlike⟩
      rwa [← (Sql.like_iff_eq hv).1 hlike]
    · exact fun hfinds => ⟨v.toList, hfinds, Sql.like_self _⟩

end TextMatch

namespace Draft

variable {d d' : Draft}

theorem addAll_grows {fs : List Filter} (h : d.addAll fs = .ok d') :
    (∃ more : List (String × String), more.length = fs.length ∧
      d'.leaves = d.leaves ++ more.map fun e => .leaf e.1 e.2) ∧
    d.arguments.Extends d'.arguments := by
  induction fs generalizing d with
  | nil =>
      obtain rfl := Except.ok.inj h
      exact ⟨⟨[], rfl, by simp⟩, .refl _⟩
  | cons f rest ih =>
      rw [Draft.addAll] at h
      split at h
      next next hadd =>
        obtain ⟨p, -, -, -, hleaf, -⟩ := @leaves_add (fun _ => True) d next f trivial hadd
        obtain ⟨⟨more, hlength, hleaves⟩, hext⟩ := ih h
        refine ⟨⟨(d.keyFor f, p.text) :: more, by simp [hlength], ?_⟩,
          (extends_add hadd).trans hext⟩
        rw [hleaves, hleaf]
        simp
      next => simp at h

theorem addAll_append_cons {fs gs : List Filter} {f : Filter}
    (h : d.addAll (fs ++ f :: gs) = .ok d') :
    ∃ before next, d.addAll fs = .ok before ∧ before.add f = .ok next ∧ next.addAll gs = .ok d' := by
  induction fs generalizing d with
  | nil =>
      rw [List.nil_append, Draft.addAll] at h
      split at h
      next next hadd => exact ⟨d, next, rfl, hadd, h⟩
      next => simp at h
  | cons g rest ih =>
      rw [List.cons_append, Draft.addAll] at h
      split at h
      next next hadd =>
        simp only [Draft.addAll, hadd]
        exact ih h
      next => simp at h

end Draft

/-- Wherever a filter stands among others, its leaf compares its attribute with a pattern that is
bound to the marker. The pattern matches every text in which the given one stands at its place, and
it matches no others if and only if the given text has no wildcards. -/
theorem like_finds_literally_iff {c : Connective} {before after : List Filter} {path v : String}
    {m : TextMatch} {s : Statement}
    (h : Statement.ofFilters c (before ++ ⟨path, .like m, .text v⟩ :: after) = .ok s) :
    ∃ name pattern,
      s.body.leaves[before.length]? = some (name, path ++ " LIKE :" ++ name) ∧
      s.arguments.get? name = some (.text pattern) ∧
      (∀ x : String, m.Finds v.toList x.toList → Sql.like pattern.toList x.toList = true) ∧
      ((∀ x : String, Sql.like pattern.toList x.toList = true ↔ m.Finds v.toList x.toList) ↔
        ∀ ch ∈ v.toList, Sql.isWildcard ch = false) := by
  obtain ⟨d, hd, rfl⟩ := ofFilters_eq_ok h
  obtain ⟨first, next, hfirst, hadd, hrest⟩ := Draft.addAll_append_cons hd
  obtain ⟨⟨texts, hlength, hleaves⟩, -⟩ := Draft.addAll_grows hfirst
  obtain ⟨⟨more, -, hmore⟩, hext⟩ := Draft.addAll_grows hrest
  obtain rfl := Except.ok.inj hadd
  let name := first.keyFor ⟨path, .like m, .text v⟩
  refine ⟨name, m.pattern v, ?_, ?_, fun x => TextMatch.like_pattern_of_finds,
    TextMatch.like_pattern_iff_finds⟩
  · have hrow : d.leaves = (texts ++ (name, path ++ " LIKE :" ++ name) :: more).map fun e =>
        Tree.leaf e.1 e.2 := by
      rw [hmore]
      change first.leaves ++ [Tree.leaf name (path ++ " LIKE :" ++ name)] ++ _ = _
      rw [hleaves]
      simp [Draft.empty]
    change (Body.ofTrees c d.leaves).leaves[before.length]? = _
    rw [Body.leaves_ofTrees, hrow, List.flatMap_map, ← hlength]
    simp [Tree.leaves]
  · refine hext name _ ?_
    change (first.arguments.insert name (.text (m.pattern v))).get? name = _
    simp

def labels : List Filter := [
  ⟨"label", .like .atStart, .text "sale"⟩, ⟨"label", .like .anywhere, .text "5%_off"⟩]

theorem like_finds_literally_iff_labels : ∃ s, Statement.ofFilters .or labels = .ok s ∧
    (∃ name pattern, s.body.leaves[0]? = some (name, "label LIKE :" ++ name) ∧
      s.arguments.get? name = some (.text pattern) ∧
      ∀ x : String, Sql.like pattern.toList x.toList = true ↔ "sale".toList <+: x.toList) ∧
    ∃ name pattern, s.body.leaves[1]? = some (name, "label LIKE :" ++ name) ∧
      s.arguments.get? name = some (.text pattern) ∧
      ¬ ∀ x : String, Sql.like pattern.toList x.toList = true ↔ "5%_off".toList <:+: x.toList := by
  obtain ⟨s, hs⟩ := (exists_ofFilters_iff (c := .or)).2 (by decide : ∀ f ∈ labels, f.fits = true)
  obtain ⟨name, pattern, hleaf, hvalue, -, hfinds⟩ :=
    @like_finds_literally_iff .or [] _ _ _ _ s hs
  obtain ⟨name', pattern', hleaf', hvalue', -, hfinds'⟩ :=
    @like_finds_literally_iff .or (labels.take 1) _ _ _ _ s hs
  have hplain : "sale".toList.any Sql.isWildcard = false := by decide
  have hwild : '%' ∈ "5%_off".toList := by decide
  refine ⟨s, hs, ⟨name, pattern, hleaf, hvalue, hfinds.2 (by simpa using hplain)⟩,
    name', pattern', hleaf', hvalue', fun h => ?_⟩
  exact absurd (hfinds'.1 h '%' hwild) (by decide)

/-- The pattern for the text `50%` matches a text that does not begin with it. -/
theorem like_matches_discount :
    (Statement.ofFilters .and [⟨"label", .like .atStart, .text "50%"⟩]).toOption.map
        (fun s => (s.clause, s.arguments.entries)) =
      some ("label LIKE :label", [("label", .text "50%%")]) ∧
    Sql.like "50%%".toList "500 items".toList = true ∧
    ¬ TextMatch.atStart.Finds "50%".toList "500 items".toList := by
  decide +kernel

end ClauseWeave
