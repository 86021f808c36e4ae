import ClauseWeave.Proofs.Entries
import ClauseWeave.Proofs.Spacing
import ClauseWeave.Template.Expansion
import Mathlib.Data.ENat.Lattice
import Mathlib.Data.Set.Card
import Mathlib.Order.CompletePartialOrder

namespace ClauseWeave

namespace Placeholder

theorem outside_of_isBlank {b : Char} (h : Text.isBlank b = true) :
    isNameChar b = false ∧ isListChar b = false ∧ b ≠ '\x7b' ∧ b ≠ '\x7d' ∧ b ≠ '%' := by
  have hall := Text.of_isBlank (p := fun b => !isNameChar b && !isListChar b && b != '\x7b' &&
    b != '\x7d' && b != '%') h (by decide +kernel)
  simpa [and_assoc] using hall

variable {b : Char} (hb : Text.isBlank b = true)

include hb

theorem params?_append_blank (s t : List Char) : params? (s ++ b :: t) =
    (params? s).map fun (items, rest) => (items, rest ++ b :: t) := by
  obtain ⟨-, hlist, hopen, hclose, -⟩ := outside_of_isBlank hb
  cases s with
  | nil => simp [params?, hopen]
  | cons c s =>
      by_cases hc : c = '\x7b'
      · subst hc
        obtain ⟨htake, hdrop⟩ := takeWhile_append_cons hlist s t
        simp only [List.cons_append, params?, htake, hdrop]
        cases s.dropWhile isListChar with
        | nil => simp [hclose]
        | cons d rest =>
            by_cases hd : d = '\x7d'
            · subst hd
              simp only [List.cons_append]
              split <;> rfl
            · simp [hd]
      · simp [params?, hc]

theorem ofFront?_append_blank (s t : List Char) : ofFront? (s ++ b :: t) =
    (ofFront? s).map fun (p, rest) => (p, rest ++ b :: t) := by
  obtain ⟨htake, hdrop⟩ := takeWhile_append_cons (outside_of_isBlank hb).1 s t
  simp only [ofFront?, htake, hdrop, params?_append_blank hb]
  split
  next => rfl
  next => cases params? (s.dropWhile isNameChar) <;> rfl

end Placeholder

namespace Segment

theorem chars_ne_nil (seg : Segment) : seg.chars ≠ [] := by
  cases seg <;> simp [chars, Placeholder.raw]

theorem scan_append_blank {b : Char} (hb : Text.isBlank b = true) (s t : List Char) :
    scan (s ++ b :: t) = scan s ++ .plain b :: scan t := by
  fun_induction scan s with
  | case1 =>
      rw [List.nil_append, scan.eq_def]
      simp [(Placeholder.outside_of_isBlank hb).2.2.2.2]
  | case2 rest p after h ih =>
      have hfront := Placeholder.ofFront?_append_blank hb rest t
      rw [h, Option.map_some] at hfront
      rw [List.cons_append, scan.eq_def]
      simp only [if_true]
      split
      next q r hq =>
        obtain ⟨rfl, rfl⟩ := Prod.mk.inj (Option.some.inj (hq.symm.trans hfront))
        rw [ih]
        rfl
      next hq => simp [hq] at hfront
  | case3 rest h ih =>
      have hfront := Placeholder.ofFront?_append_blank hb rest t
      rw [h, Option.map_none] at hfront
      rw [List.cons_append, scan.eq_def]
      simp only [if_true]
      split
      next q r hq => simp [hq] at hfront
      next => rw [ih]; rfl
  | case4 c rest hc ih =>
      rw [List.cons_append, scan.eq_def]
      simp only [hc, if_false, ih]
      rfl

/-- Every placeholder has a blank or an end of the text on either side. -/
def Apart (segments : List Segment) : Prop :=
  ∀ before p after, segments = before ++ .placeholder p :: after →
    (before.flatMap chars).getLast?.all Text.isBlank = true ∧
      (after.flatMap chars).head?.all Text.isBlank = true

instance (segments : List Segment) : Decidable (Apart segments) :=
  decidable_of_iff (∀ i < segments.length, segments[i]?.any isPlaceholder = true →
    ((segments.take i).flatMap chars).getLast?.all Text.isBlank = true ∧
      ((segments.drop (i + 1)).flatMap chars).head?.all Text.isBlank = true) <| by
    constructor
    · rintro h before p after rfl
      simpa [isPlaceholder] using h before.length (by simp) (by simp [isPlaceholder])
    · intro h i hi hseg
      have hsplit := List.take_append_drop i segments
      rw [List.drop_eq_getElem_cons hi] at hsplit
      cases hp : segments[i] with
      | plain c => simp [hi, hp, isPlaceholder] at hseg
      | placeholder p => exact h _ p _ (by rw [← hp, hsplit])

def name? : Segment → Option String
  | plain _ => none
  | placeholder p => some (String.ofList p.name)

end Segment

def namesIn (s : List Char) : List String := (Segment.scan s).filterMap Segment.name?

theorem namesIn_nil : namesIn [] = [] := by simp [namesIn, Segment.scan]

theorem namesIn_append_blank {b : Char} (hb : Text.isBlank b = true) (s t : List Char) :
    namesIn (s ++ b :: t) = namesIn s ++ namesIn t := by
  rw [namesIn, Segment.scan_append_blank hb, List.filterMap_append]
  rfl

theorem namesIn_eq_flatMap (s : List Char) : namesIn s = (Text.words s).flatMap namesIn := by
  induction s using Text.word_induction with
  | word w hw =>
      rw [Text.words_word hw]
      split
      next hnil => simp [hnil, namesIn_nil]
      next => simp
  | blank s b t hb hs ht =>
      rw [namesIn_append_blank hb, Text.words_append_blank hb, List.flatMap_append, ← hs, ← ht]

theorem namesIn_collapse (s : List Char) : namesIn (Text.collapse s) = namesIn s := by
  rw [namesIn_eq_flatMap, Text.words_collapse, ← namesIn_eq_flatMap]

theorem namesIn_eq_nil_iff {s : List Char} :
    namesIn s = [] ↔ (Segment.scan s).any Segment.isPlaceholder = false := by
  rw [namesIn, List.filterMap_eq_nil_iff, List.any_eq_false]
  refine forall₂_congr fun seg _ => ?_
  cases seg <;> simp [Segment.name?, Segment.isPlaceholder]

/-- A word is a placeholder or has none in it. -/
def Wordwise (s : List Char) : Prop :=
  ∀ w ∈ Text.words s, namesIn w = [] ∨ ∃ p, Segment.scan w = [.placeholder p]

theorem wordwise_append_blank {b : Char} (hb : Text.isBlank b = true) {s t : List Char} :
    Wordwise (s ++ b :: t) ↔ Wordwise s ∧ Wordwise t := by
  rw [Wordwise, Text.words_append_blank hb, List.forall_mem_append]
  rfl

theorem wordwise_collapse {s : List Char} : Wordwise (Text.collapse s) ↔ Wordwise s := by
  rw [Wordwise, Text.words_collapse]
  rfl

namespace Segment

theorem exists_placeholder_of_namesIn {s : List Char} (h : namesIn s ≠ []) :
    ∃ before p after, scan s = before ++ .placeholder p :: after := by
  rw [Ne, namesIn_eq_nil_iff, Bool.not_eq_false, List.any_eq_true] at h
  obtain ⟨seg, hmem, hseg⟩ := h
  obtain ⟨before, after, hsplit⟩ := List.append_of_mem hmem
  cases seg with
  | plain c => simp [isPlaceholder] at hseg
  | placeholder p => exact ⟨before, p, after, hsplit⟩

theorem eq_nil_of_no_blank {segments : List Segment}
    (hchars : ∀ c ∈ segments.flatMap chars, Text.isBlank c = false)
    (hends : (segments.flatMap chars).head?.all Text.isBlank = true ∨
      (segments.flatMap chars).getLast?.all Text.isBlank = true) : segments = [] := by
  by_contra hne
  have hflat : segments.flatMap chars ≠ [] := by
    obtain ⟨seg, rest, rfl⟩ := List.exists_cons_of_ne_nil hne
    simp [chars_ne_nil]
  rcases hends with hblank | hblank
  · rw [List.head?_eq_some_head hflat, Option.all_some, hchars _ (List.head_mem hflat)] at hblank
    simp at hblank
  · rw [List.getLast?_eq_some_getLast hflat, Option.all_some,
      hchars _ (List.getLast_mem hflat)] at hblank
    simp at hblank

theorem Apart.wordwise {s : List Char} (h : Apart (scan s)) : Wordwise s := by
  induction s using Text.word_induction with
  | word w hw =>
      rw [Wordwise, Text.words_word hw]
      split
      next => simp
      next =>
        intro v hv
        obtain rfl := List.mem_singleton.1 hv
        by_cases hnone : namesIn v = []
        · exact .inl hnone
        · obtain ⟨before, p, after, hsplit⟩ := exists_placeholder_of_namesIn hnone
          -- A word has no blank in it, so nothing stands before the placeholder or behind it.
          obtain ⟨hbefore, hafter⟩ := h before p after hsplit
          have hchars := flatMap_chars_scan v
          rw [hsplit, List.flatMap_append, List.flatMap_cons] at hchars
          rw [← hchars] at hw
          rw [hsplit, eq_nil_of_no_blank (fun c hc => hw c (by simp [hc])) (.inr hbefore),
            eq_nil_of_no_blank (fun c hc => hw c (by simp [hc])) (.inl hafter)]
          exact .inr ⟨p, rfl⟩
  | blank s b t hb hs ht =>
      rw [Apart, scan_append_blank hb] at h
      rw [wordwise_append_blank hb]
      constructor
      · apply hs
        intro before p after hsplit
        obtain ⟨hbefore, hafter⟩ := h before p (after ++ .plain b :: scan t) (by simp [hsplit])
        refine ⟨hbefore, ?_⟩
        rw [List.flatMap_append, List.head?_append] at hafter
        cases hhead : (after.flatMap chars).head? with
        | none => rfl
        | some c => simpa [hhead] using hafter
      · apply ht
        intro before p after hsplit
        obtain ⟨hbefore, hafter⟩ := h (scan s ++ .plain b :: before) p after (by simp [hsplit])
        refine ⟨?_, hafter⟩
        rw [List.append_cons, List.flatMap_append, List.getLast?_append] at hbefore
        cases hlast : (before.flatMap chars).getLast? with
        | none => rfl
        | some c => simpa [hlast] using hbefore

end Segment

def Tokens.valueOf (tokens : Tokens) (name : String) : List Char :=
  match tokens.get? name with
  | some (.text v) => v.toList
  | _ => []

/-- A chain of `n` placeholders, the first one in the text and each other one in the value of the
one before it. -/
inductive Nests (tokens : Tokens) : Nat → List Char → Prop
  | zero (s : List Char) : Nests tokens 0 s
  | succ {n : Nat} {s : List Char} {name : String} (h : name ∈ namesIn s)
      (hn : Nests tokens n (tokens.valueOf name)) : Nests tokens (n + 1) s

/-- The length of the longest chain of placeholders. -/
noncomputable def depth (tokens : Tokens) (s : List Char) : ℕ∞ :=
  ⨆ (n : Nat) (_ : Nests tokens n s), (n : ℕ∞)

/-- A placeholder in the text, or in the value of one that is reached. -/
inductive Leads (tokens : Tokens) : List Char → String → Prop
  | here {s : List Char} {name : String} (h : name ∈ namesIn s) : Leads tokens s name
  | onward {s : List Char} {name other : String} (h : name ∈ namesIn s)
      (ho : Leads tokens (tokens.valueOf name) other) : Leads tokens s other

section Depth

variable {tokens : Tokens}

theorem nests_succ_iff {n : Nat} {s : List Char} :
    Nests tokens (n + 1) s ↔ ∃ name ∈ namesIn s, Nests tokens n (tokens.valueOf name) := by
  constructor
  · intro h
    cases h with
    | succ hname hn => exact ⟨_, hname, hn⟩
  · rintro ⟨name, hname, hn⟩
    exact .succ hname hn

def decidableNests (tokens : Tokens) : (n : Nat) → (s : List Char) → Decidable (Nests tokens n s)
  | 0, s => .isTrue (.zero s)
  | n + 1, _ =>
    have := decidableNests tokens n
    decidable_of_iff' _ nests_succ_iff

instance (n : Nat) (s : List Char) : Decidable (Nests tokens n s) := decidableNests tokens n s

theorem Nests.mono {m n : Nat} {s : List Char} (h : Nests tokens n s) (hm : m ≤ n) :
    Nests tokens m s := by
  induction h generalizing m with
  | zero s =>
      obtain rfl := Nat.le_zero.1 hm
      exact .zero s
  | succ hname _ ih =>
      cases m with
      | zero => exact .zero _
      | succ m => exact .succ hname (ih (Nat.le_of_succ_le_succ hm))

theorem natCast_le_depth_iff {n : Nat} {s : List Char} :
    (n : ℕ∞) ≤ depth tokens s ↔ Nests tokens n s := by
  constructor
  · intro h
    cases n with
    | zero => exact .zero s
    | succ n =>
        rw [Nat.cast_succ, ENat.add_one_le_iff (ENat.natCast_ne_top n)] at h
        obtain ⟨m, hm⟩ := lt_iSup_iff.1 h
        obtain ⟨hnests, hlt⟩ := lt_iSup_iff.1 hm
        exact hnests.mono (Nat.cast_lt.1 hlt)
  · exact fun h => le_iSup₂_of_le n h le_rfl

theorem depth_le_iff {m : Nat} {s : List Char} :
    depth tokens s ≤ m ↔ ¬ Nests tokens (m + 1) s := by
  rw [← natCast_le_depth_iff, Nat.cast_succ, ENat.add_one_le_iff (ENat.natCast_ne_top m), not_lt]

/-- A text is one level deeper than the deepest of the values it names; without a placeholder its
depth is zero. -/
theorem depth_eq (s : List Char) :
    depth tokens s = ⨆ name ∈ namesIn s, depth tokens (tokens.valueOf name) + 1 := by
  refine ENat.eq_of_forall_natCast_le_iff fun n => ?_
  cases n with
  | zero => simp
  | succ n =>
      rw [natCast_le_depth_iff, nests_succ_iff, Nat.cast_succ,
        ENat.add_one_le_iff (ENat.natCast_ne_top n)]
      simp only [lt_iSup_iff, exists_prop]
      refine exists_congr fun name => and_congr_right fun _ => ?_
      rw [← natCast_le_depth_iff, ENat.natCast_lt_add_one_iff]

theorem Leads.nests {n : Nat} {s : List Char} {name : String} (h : Leads tokens s name)
    (hn : Nests tokens n (tokens.valueOf name)) : Nests tokens (n + 1) s := by
  induction h with
  | here hname => exact .succ hname hn
  | onward hname _ ih => exact (Nests.succ hname (ih hn)).mono (Nat.le_succ _)

theorem valueOf_of_not_mem {name : String} (h : name ∉ tokens.keys) : tokens.valueOf name = [] := by
  rw [Tokens.valueOf, Dict.get?_eq_none_iff.2 h]

theorem Leads.mem {s : List Char} {name : String} (h : Leads tokens s name) :
    name ∈ namesIn s ++ tokens.keys.flatMap fun key => namesIn (tokens.valueOf key) := by
  induction h with
  | here hname => exact List.mem_append_left _ hname
  | @onward s name other hname _ ih =>
      refine List.mem_append_right _ ((List.mem_append.1 ih).elim (fun hmem => ?_) id)
      by_cases hkey : name ∈ tokens.keys
      · exact List.mem_flatMap.2 ⟨name, hkey, hmem⟩
      · rw [valueOf_of_not_mem hkey, namesIn_nil] at hmem
        simp at hmem

theorem finite_leads (s : List Char) : {name | Leads tokens s name}.Finite :=
  (List.finite_toSet _).subset fun _ => Leads.mem

theorem Nests.le_ncard {n : Nat} {s : List Char} (h : Nests tokens n s)
    (hacyclic : ∀ name, Leads tokens s name → ¬ Leads tokens (tokens.valueOf name) name) :
    n ≤ {name | Leads tokens s name}.ncard := by
  induction h with
  | zero s => exact Nat.zero_le _
  | @succ n s name hname _ ih =>
      have hsub : {other | Leads tokens (tokens.valueOf name) other} ⊂
          {other | Leads tokens s other} := by
        refine ⟨fun other ho => .onward hname ho, fun hsup => ?_⟩
        exact hacyclic name (.here hname) (hsup (.here hname))
      have hlt := Set.ncard_lt_ncard hsub (finite_leads s)
      have hle := ih fun other ho => hacyclic other (.onward hname ho)
      omega

/-- Only a cycle nests without end. -/
theorem depth_eq_top_iff {s : List Char} : depth tokens s = ⊤ ↔
    ∃ name, Leads tokens s name ∧ Leads tokens (tokens.valueOf name) name := by
  constructor
  · intro htop
    by_contra hnone
    have hacyclic : ∀ name, Leads tokens s name → ¬ Leads tokens (tokens.valueOf name) name :=
      fun name hname hcycle => hnone ⟨name, hname, hcycle⟩
    have hle : depth tokens s ≤ {name | Leads tokens s name}.ncard :=
      iSup₂_le fun n hn => Nat.cast_le.2 (hn.le_ncard hacyclic)
    rw [htop, top_le_iff] at hle
    exact ENat.natCast_ne_top _ hle
  · rintro ⟨name, hname, hcycle⟩
    have hall (n : Nat) : Nests tokens n (tokens.valueOf name) := by
      induction n with
      | zero => exact .zero _
      | succ n ih => exact hcycle.nests ih
    exact ENat.eq_top_iff_forall_ge.2 fun n =>
      natCast_le_depth_iff.2 ((hname.nests (hall n)).mono (Nat.le_succ n))

end Depth

section Pass

variable {tokens : Tokens}

theorem expandSegments_append {xs ys : List Segment} {s t : List Char}
    (hx : expandSegments tokens xs = .ok s) (hy : expandSegments tokens ys = .ok t) :
    expandSegments tokens (xs ++ ys) = .ok (s ++ t) := by
  induction xs generalizing s with
  | nil =>
      obtain rfl := Except.ok.inj hx
      exact hy
  | cons seg rest ih =>
      cases seg with
      | plain c =>
          rw [expandSegments] at hx
          cases hrest : expandSegments tokens rest with
          | error e => simp [hrest, Except.map] at hx
          | ok r =>
              rw [hrest] at hx
              obtain rfl := Except.ok.inj hx
              rw [List.cons_append, expandSegments, ih hrest]
              rfl
      | placeholder p =>
          rw [expandSegments] at hx
          cases hp : p.resolve tokens with
          | error e => simp [hp] at hx
          | ok v =>
              cases hrest : expandSegments tokens rest with
              | error e => simp [hp, hrest, Except.map] at hx
              | ok r =>
                  simp only [hp, hrest] at hx
                  obtain rfl := Except.ok.inj hx
                  rw [List.cons_append, expandSegments, hp, ih hrest, List.append_assoc]
                  rfl

theorem expandSegments_plain {segments : List Segment}
    (h : segments.filterMap Segment.name? = []) :
    expandSegments tokens segments = .ok (segments.flatMap Segment.chars) := by
  induction segments with
  | nil => rfl
  | cons seg rest ih =>
      cases seg with
      | plain c =>
          rw [expandSegments, ih (by simpa [Segment.name?] using h)]
          rfl
      | placeholder p => simp [Segment.name?] at h

theorem expandSegments_placeholder {p : Placeholder} {v : String}
    (h : tokens.get? (String.ofList p.name) = some (.text v)) :
    expandSegments tokens [.placeholder p] = .ok v.toList := by
  simp [expandSegments, Placeholder.resolve, h, Except.map]

/-- The placeholders are words of their own, and each stands for a text. -/
def Ready (tokens : Tokens) (s : List Char) : Prop :=
  Wordwise s ∧ ∀ name ∈ namesIn s, ∃ v, tokens.get? name = some (.text v)

theorem ready_append_blank {b : Char} (hb : Text.isBlank b = true) {s t : List Char} :
    Ready tokens (s ++ b :: t) ↔ Ready tokens s ∧ Ready tokens t := by
  rw [Ready, wordwise_append_blank hb, namesIn_append_blank hb, List.forall_mem_append]
  exact and_and_and_comm

theorem ready_collapse {s : List Char} : Ready tokens (Text.collapse s) ↔ Ready tokens s := by
  rw [Ready, wordwise_collapse, namesIn_collapse]
  rfl

variable (hvalues : ∀ name v, tokens.get? name = some (.text v) → Ready tokens v.toList)

include hvalues

/-- A pass leaves exactly the placeholders of the values that it writes. -/
theorem expandSegments_spec {s : List Char} (hs : Ready tokens s) :
    ∃ s', expandSegments tokens (Segment.scan s) = .ok s' ∧ Ready tokens s' ∧
      namesIn s' = (namesIn s).flatMap fun name => namesIn (tokens.valueOf name) := by
  induction s using Text.word_induction with
  | word w hw =>
      by_cases hnone : namesIn w = []
      · refine ⟨w, ?_, hs, by simp [hnone]⟩
        rw [expandSegments_plain hnone, Segment.flatMap_chars_scan]
      · have hne : w ≠ [] := by
          rintro rfl
          exact hnone namesIn_nil
        obtain ⟨p, hp⟩ := (hs.1 w (by simp [Text.words_word hw, hne])).resolve_left hnone
        have hname : namesIn w = [String.ofList p.name] := by
          rw [namesIn, hp]
          rfl
        obtain ⟨v, hv⟩ := hs.2 (String.ofList p.name) (by simp [hname])
        refine ⟨v.toList, ?_, hvalues _ v hv, ?_⟩
        · rw [hp, expandSegments_placeholder hv]
        · rw [hname, List.flatMap_singleton, Tokens.valueOf, hv]
  | blank s b t hb ihs iht =>
      obtain ⟨hs, ht⟩ := (ready_append_blank hb).1 hs
      obtain ⟨s', hexpand, hready, hnames⟩ := ihs hs
      obtain ⟨t', hexpand', hready', hnames'⟩ := iht ht
      refine ⟨s' ++ b :: t', ?_, (ready_append_blank hb).2 ⟨hready, hready'⟩, ?_⟩
      · rw [Segment.scan_append_blank hb]
        refine expandSegments_append hexpand ?_
        rw [expandSegments, hexpand']
        rfl
      · rw [namesIn_append_blank hb, namesIn_append_blank hb, List.flatMap_append, hnames, hnames']

theorem exists_pass {s : List Char} (hs : Ready tokens s) :
    ∃ s', expandSegments tokens (Segment.scan s) = .ok s' ∧ Ready tokens (Text.collapse s') ∧
      ∀ n, Nests tokens (n + 1) (Text.collapse s') ↔ Nests tokens (n + 2) s := by
  obtain ⟨s', hexpand, hready, hnames⟩ := expandSegments_spec hvalues hs
  refine ⟨s', hexpand, ready_collapse.2 hready, fun n => ?_⟩
  rw [nests_succ_iff, nests_succ_iff, namesIn_collapse, hnames]
  simp only [nests_succ_iff, List.mem_flatMap]
  constructor
  · rintro ⟨name, ⟨outer, houter, hname⟩, hn⟩
    exact ⟨outer, houter, name, hname, hn⟩
  · rintro ⟨outer, houter, name, hname, hn⟩
    exact ⟨name, ⟨outer, houter, hname⟩, hn⟩

theorem expand_of_nests (limit left : Nat) {s : List Char} (hs : Ready tokens s) :
    (¬ Nests tokens (left + 1) s → ∃ r, expand tokens limit left s = .ok r) ∧
      (Nests tokens (left + 1) s → expand tokens limit left s = .error (.passLimit limit)) := by
  -- On the passes that are left; each of them goes on with a text that nests one level less.
  induction left generalizing s with
  | zero =>
      rw [nests_succ_iff, expand]
      cases hany : (Segment.scan s).any Segment.isPlaceholder with
      | false => simp [namesIn_eq_nil_iff.2 hany]
      | true =>
          obtain ⟨name, hname⟩ := List.exists_mem_of_ne_nil (namesIn s)
            (by simp [namesIn_eq_nil_iff, hany])
          exact ⟨fun h => absurd ⟨name, hname, .zero _⟩ h, fun _ => rfl⟩
  | succ left ih =>
      rw [expand]
      cases hany : (Segment.scan s).any Segment.isPlaceholder with
      | false => simp [nests_succ_iff, namesIn_eq_nil_iff.2 hany]
      | true =>
          obtain ⟨s', hexpand, hready, hnests⟩ := exists_pass hvalues hs
          simp only [Bool.not_true, Bool.false_eq_true, if_false, hexpand]
          rw [← hnests]
          exact ih hready

end Pass

def Token.text? : Token → Option String
  | text s => some s
  | _ => none

def Tokens.texts (tokens : Tokens) (template : String) : List String :=
  template :: tokens.values.filterMap Token.text?

theorem Tokens.mem_texts {tokens : Tokens} {name v : String}
    (h : tokens.get? name = some (.text v)) (template : String) : v ∈ tokens.texts template :=
  List.mem_cons_of_mem _
    (List.mem_filterMap.2 ⟨_, List.mem_map_of_mem (Dict.mem_of_get? h), rfl⟩)

section Render

variable {tokens : Tokens} {template : String}
  (htexts : ∀ t ∈ tokens.values, t.text?.isSome = true)
  (hdefined : ∀ s ∈ tokens.texts template, ∀ name ∈ namesIn s.toList, name ∈ tokens.keys)
  (hapart : ∀ s ∈ tokens.texts template, Segment.Apart (Segment.scan s.toList))

include htexts hdefined hapart

theorem ready_of_mem_texts {s : String} (hs : s ∈ tokens.texts template) :
    Ready tokens s.toList := by
  refine ⟨(hapart s hs).wordwise, fun name hname => ?_⟩
  obtain ⟨t, ht⟩ := Dict.mem_keys_iff.1 (hdefined s hs name hname)
  have htext := htexts t (List.mem_map_of_mem (Dict.mem_of_get? ht))
  cases t with
  | text v => exact ⟨v, ht⟩
  | replace rendered | projected rendered withParams => simp [Token.text?] at htext

/-- Where all tokens are texts and placeholders are words of their own, a template is written out
exactly if it does not nest deeper than the limit; otherwise the limit is what stops it. -/
theorem render_eq_ok_iff_depth_le (limit : Nat) :
    ((∃ r, render tokens limit template = .ok r) ↔ depth tokens template.toList ≤ limit) ∧
      (¬ depth tokens template.toList ≤ limit →
        render tokens limit template = .error (.passLimit limit)) := by
  have hready {s : String} (hs : s ∈ tokens.texts template) : Ready tokens s.toList :=
    ready_of_mem_texts htexts hdefined hapart hs
  obtain ⟨hok, herror⟩ := expand_of_nests (fun _ _ hv => hready (Tokens.mem_texts hv template))
    limit limit (hready List.mem_cons_self)
  rw [depth_le_iff, not_not]
  refine ⟨⟨?_, fun hn => ?_⟩, fun hn => ?_⟩
  · rintro ⟨r, hr⟩ hn
    rw [render, herror hn] at hr
    simp [Except.map] at hr
  · obtain ⟨r, hr⟩ := hok hn
    exact ⟨String.ofList r, by rw [render, hr]; rfl⟩
  · rw [render, herror hn]
    rfl

end Render

def shelf : Tokens := .ofList [("columns", .text "id, %extra"), ("extra", .text "name"),
  ("loop", .text "once more %loop"), ("table", .text "books")]

theorem render_eq_ok_iff_depth_le_shelf :
    (∀ t ∈ shelf.values, t.text?.isSome = true) ∧
      (∀ template ∈ ["SELECT %columns FROM %table", "SELECT %loop"],
        (∀ s ∈ shelf.texts template, ∀ name ∈ namesIn s.toList, name ∈ shelf.keys) ∧
          ∀ s ∈ shelf.texts template, Segment.Apart (Segment.scan s.toList)) ∧
      (∃ r, render shelf 2 "SELECT %columns FROM %table" = .ok r) ∧
      render shelf 1 "SELECT %columns FROM %table" = .error (.passLimit 1) ∧
      ∀ limit, render shelf limit "SELECT %loop" = .error (.passLimit limit) := by
  have htexts : ∀ t ∈ shelf.values, t.text?.isSome = true := by decide +kernel
  have hall : ∀ template ∈ ["SELECT %columns FROM %table", "SELECT %loop"],
      (∀ s ∈ shelf.texts template, ∀ name ∈ namesIn s.toList, name ∈ shelf.keys) ∧
        ∀ s ∈ shelf.texts template, Segment.Apart (Segment.scan s.toList) := by decide +kernel
  obtain ⟨hdefined, hapart⟩ := hall "SELECT %columns FROM %table" (by simp)
  obtain ⟨hdefined', hapart'⟩ := hall "SELECT %loop" (by simp)
  refine ⟨htexts, hall, ?_, ?_, fun limit => ?_⟩
  · rw [(render_eq_ok_iff_depth_le htexts hdefined hapart 2).1, depth_le_iff]
    decide +kernel
  · apply (render_eq_ok_iff_depth_le htexts hdefined hapart 1).2
    rw [depth_le_iff]
    decide +kernel
  · apply (render_eq_ok_iff_depth_le htexts hdefined' hapart' limit).2
    have hcycle : "loop" ∈ namesIn (shelf.valueOf "loop") := by decide +kernel
    have hname : "loop" ∈ namesIn "SELECT %loop".toList := by decide +kernel
    rw [depth_eq_top_iff.2 ⟨"loop", .here hname, .here hcycle⟩]
    exact not_le.2 (ENat.natCast_lt_top limit)

end ClauseWeave
