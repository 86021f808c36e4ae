import ClauseWeave.Proofs.Pruning
import Mathlib.Data.List.Chain

namespace ClauseWeave

inductive Mark where
  | fragment (text : String)
  | opening
  | closing
  | join (c : Connective)
  deriving DecidableEq

namespace Mark

def text : Mark → String
  | fragment text => text
  | opening => "("
  | closing => ")"
  | join c => c.separator

def begins : Mark → Bool
  | fragment _ | opening => true
  | closing | join _ => false

def ends : Mark → Bool
  | fragment _ | closing => true
  | opening | join _ => false

/-- Where a condition ends no other one begins at once, and where none has ended one begins. -/
def Precedes (a b : Mark) : Prop := b.begins = !a.ends

def fragments : Mark → List String
  | fragment text => [text]
  | _ => []

theorem mem_fragments {m : Mark} {text : String} : text ∈ m.fragments ↔ m = fragment text := by
  cases m <;> simp [fragments, eq_comm]

end Mark

def spell (ms : List Mark) : List Char := ms.flatMap fun m => m.text.toList

@[simp]
theorem spell_nil : spell [] = [] := rfl

@[simp]
theorem spell_cons (m : Mark) (ms : List Mark) : spell (m :: ms) = m.text.toList ++ spell ms := rfl

@[simp]
theorem spell_append (ms ns : List Mark) : spell (ms ++ ns) = spell ms ++ spell ns :=
  List.flatMap_append

/-- No group is empty, and no connective stands at an end of a group, or of the whole. -/
def WellGrouped (ms : List Mark) : Prop :=
  (Mark.opening :: ms ++ [Mark.closing]).IsChain Mark.Precedes

structure IsCondition (ms : List Mark) : Prop where
  chain : ms.IsChain Mark.Precedes
  begins : ms.head?.map Mark.begins = some true
  ends : ms.getLast?.map Mark.ends = some true

namespace IsCondition

variable {ms ns : List Mark}

theorem fragment (text : String) : IsCondition [.fragment text] := ⟨.singleton _, rfl, rfl⟩

theorem wellGrouped (h : IsCondition ms) : WellGrouped ms := by
  obtain ⟨first, hfirst, hbegins⟩ := Option.map_eq_some_iff.1 h.begins
  obtain ⟨last, hlast, hends⟩ := Option.map_eq_some_iff.1 h.ends
  refine List.isChain_append.2 ⟨List.isChain_cons.2 ⟨?_, h.chain⟩, .singleton _, ?_⟩
  · simp [hfirst, Mark.Precedes, hbegins, Mark.ends]
  · simp [List.getLast?_cons, hlast, Mark.Precedes, hends, Mark.begins]

theorem paren (h : IsCondition ms) : IsCondition (.opening :: ms ++ [.closing]) :=
  ⟨h.wellGrouped, rfl, by rw [List.getLast?_concat]; rfl⟩

theorem join (h : IsCondition ms) (c : Connective) (hn : IsCondition ns) :
    IsCondition (ms ++ [.join c] ++ ns) := by
  obtain ⟨first, hfirst, hbegins⟩ := Option.map_eq_some_iff.1 h.begins
  obtain ⟨last, hlast, hends⟩ := Option.map_eq_some_iff.1 h.ends
  obtain ⟨first', hfirst', hbegins'⟩ := Option.map_eq_some_iff.1 hn.begins
  obtain ⟨last', hlast', hends'⟩ := Option.map_eq_some_iff.1 hn.ends
  refine ⟨?_, ?_, ?_⟩
  · refine (h.chain.append (.singleton _) ?_).append hn.chain ?_
    · simp [hlast, Mark.Precedes, hends, Mark.begins]
    · simp [hfirst', Mark.Precedes, hbegins', Mark.ends]
  · simp [hfirst, hbegins]
  · rw [List.getLast?_append, hlast']
    exact congrArg some hends'

theorem intercalate (c : Connective) {conditions : List (List Mark)}
    (h : ∀ ms ∈ conditions, IsCondition ms) (hne : conditions ≠ []) :
    IsCondition ([Mark.join c].intercalate conditions) := by
  induction conditions with
  | nil => exact absurd rfl hne
  | cons ms rest ih =>
      cases rest with
      | nil => simpa using h ms (by simp)
      | cons ns rest =>
          rw [List.intercalate_cons_cons]
          exact (h ms (by simp)).join c (ih (fun ns hns => h ns (by simp [hns])) (by simp))

end IsCondition

namespace Tree

mutual

def marks : Tree → List Mark
  | leaf _ text => [.fragment text]
  | join c children => [Mark.join c].intercalate (marksAll children)
  | paren inner => .opening :: inner.marks ++ [.closing]

def marksAll : List Tree → List (List Mark)
  | [] => []
  | t :: rest => t.marks :: marksAll rest

end

@[simp]
theorem marks_leaf (key text : String) : (leaf key text).marks = [.fragment text] := rfl

@[simp]
theorem marks_paren (t : Tree) : (paren t).marks = .opening :: t.marks ++ [.closing] := rfl

theorem marksAll_eq_map (ts : List Tree) : marksAll ts = ts.map marks := by
  induction ts with
  | nil => rfl
  | cons t rest ih => rw [marksAll, ih, List.map_cons]

mutual

theorem toList_render (t : Tree) : t.render.toList = spell t.marks := by
  cases t with
  | leaf key text => simp [render, marks, Mark.text]
  | join c children =>
      rw [render, marks, String.toList_intercalate, map_toList_renderAll, spell, flatMap_intercalate,
        List.flatMap_singleton]
      rfl
  | paren inner => simp [render, marks, Mark.text, toList_render inner]

theorem map_toList_renderAll (ts : List Tree) :
    (renderAll ts).map String.toList = (marksAll ts).map spell := by
  cases ts with
  | nil => rfl
  | cons t rest => simp [renderAll, marksAll, toList_render t, map_toList_renderAll rest]

end

mutual

theorem flatMap_fragments_marks (t : Tree) :
    t.marks.flatMap Mark.fragments = t.leaves.map Prod.snd := by
  cases t with
  | leaf key text => rfl
  | join c children =>
      rw [marks, leaves, flatMap_intercalate, ← flatMap_fragments_marksAll children]
      simp [Mark.fragments, nil_intercalate, List.flatMap_def]
  | paren inner => simp [marks, leaves, Mark.fragments, flatMap_fragments_marks inner]

theorem flatMap_fragments_marksAll (ts : List Tree) :
    (marksAll ts).flatMap (List.flatMap Mark.fragments) = (leavesAll ts).map Prod.snd := by
  cases ts with
  | nil => rfl
  | cons t rest =>
      simp [marksAll, leavesAll, flatMap_fragments_marks t, flatMap_fragments_marksAll rest]

end

theorem fragment_mem_marks {t : Tree} {text : String} :
    .fragment text ∈ t.marks ↔ text ∈ t.leaves.map Prod.snd := by
  rw [← flatMap_fragments_marks, List.mem_flatMap]
  simp [Mark.mem_fragments]

mutual

theorem PartOf.isCondition {part t : Tree} (h : PartOf part t) : IsCondition part.marks := by
  cases h with
  | leaf key text => exact .fragment text
  | join c hparts hne =>
      exact .intercalate c hparts.forall_isCondition (by simpa [marksAll_eq_map] using hne)
  | paren h => exact h.isCondition.paren

theorem PartsOf.forall_isCondition {kept ts : List Tree} (h : PartsOf kept ts) :
    ∀ ms ∈ marksAll kept, IsCondition ms := by
  cases h with
  | nil => simp [marksAll]
  | keep h hrest =>
      intro ms hms
      rw [marksAll] at hms
      rcases List.mem_cons.1 hms with rfl | hms
      · exact h.isCondition
      · exact hrest.forall_isCondition ms hms
  | drop t hrest => exact hrest.forall_isCondition

end

end Tree

/-- No parenthesis is closed before it is opened, and none stays open. -/
def Balanced (s : List Char) : Prop :=
  (∀ n, (s.take n).count ')' ≤ (s.take n).count '(') ∧ s.count ')' = s.count '('

namespace Balanced

variable {s t : List Char}

theorem of_not_mem (hopen : '(' ∉ s) (hclose : ')' ∉ s) : Balanced s := by
  have hnone (n : Nat) : (s.take n).count ')' = 0 :=
    List.count_eq_zero.2 fun h => hclose (List.mem_of_mem_take h)
  refine ⟨fun n => by rw [hnone]; exact Nat.zero_le _, ?_⟩
  rw [List.count_eq_zero.2 hopen, List.count_eq_zero.2 hclose]

theorem append (hs : Balanced s) (ht : Balanced t) : Balanced (s ++ t) := by
  constructor
  · intro n
    rw [List.take_append, List.count_append, List.count_append]
    exact Nat.add_le_add (hs.1 n) (ht.1 (n - s.length))
  · rw [List.count_append, List.count_append, hs.2, ht.2]

theorem paren (hs : Balanced s) : Balanced ('(' :: s ++ [')']) := by
  constructor
  · intro n
    cases n with
    | zero => simp
    | succ n =>
        have hlast : ([')'].take (n - s.length)).count ')' ≤ 1 :=
          (List.count_le_length ..).trans (List.length_take_le' _ _)
        have hle := hs.1 n
        simp only [List.cons_append, List.take_succ_cons, List.take_append, List.count_cons,
          List.count_append] at hlast ⊢
        simp
        omega
  · simp [List.count_append, hs.2]

theorem intercalate (hs : Balanced s) {parts : List (List Char)}
    (h : ∀ part ∈ parts, Balanced part) : Balanced (s.intercalate parts) := by
  induction parts with
  | nil => exact .of_not_mem (by simp) (by simp)
  | cons part rest ih =>
      cases rest with
      | nil => simpa using h part (by simp)
      | cons next rest =>
          rw [List.intercalate_cons_cons]
          exact ((h part (by simp)).append hs).append (ih fun p hp => h p (by simp [hp]))

end Balanced

def Clear (s : String) : Prop := ∀ c ∈ s.toList, c ≠ '(' ∧ c ≠ ')'

instance (s : String) : Decidable (Clear s) :=
  List.decidableBAll (fun c => c ≠ '(' ∧ c ≠ ')') s.toList

namespace Clear

variable {s t : String}

theorem append (hs : Clear s) (ht : Clear t) : Clear (s ++ t) := by
  intro c hc
  rw [String.toList_append, List.mem_append] at hc
  exact hc.elim (hs c) (ht c)

theorem balanced (h : Clear s) : Balanced s.toList :=
  .of_not_mem (fun hmem => (h _ hmem).1 rfl) fun hmem => (h _ hmem).2 rfl

theorem of_isName (h : IsName s) : Clear s := by
  intro c hc
  have hword := h.2 c hc
  constructor
  · rintro rfl
    exact absurd hword (by decide)
  · rintro rfl
    exact absurd hword (by decide)

theorem of_isPath (h : isPath s = true) : Clear s := by
  intro c hc
  rcases (chars_of_isPath h).2 c hc with hword | rfl
  · constructor
    · rintro rfl
      exact absurd hword (by decide)
    · rintro rfl
      exact absurd hword (by decide)
  · decide

end Clear

namespace Phrase

theorem balanced_single {path : String} (hp : isPath path = true) {op : Operator}
    (h : op.arity = 1) {name : String} (hname : IsName name) :
    Balanced (text ⟨path, op, [name]⟩).toList := by
  have hpath := Clear.of_isPath hp
  have hmarker : Clear (":" ++ name) := Clear.append (by decide) (.of_isName hname)
  cases op with
  | compare c =>
      have hsign : Clear (" " ++ c.sign ++ " ") := by cases c <;> decide
      simpa [text] using ((hpath.append hsign).append hmarker).balanced
  | like m => simpa [text] using ((hpath.append (by decide : Clear " LIKE ")).append hmarker).balanced
  | among negated =>
      cases negated with
      | false =>
          simpa [text] using (hpath.append (by decide : Clear " IN")).balanced.append
            hmarker.balanced.paren
      | true =>
          simpa [text] using (hpath.append (by decide : Clear " NOT IN")).balanced.append
            hmarker.balanced.paren
  | between negated => simp [Operator.arity] at h
  | null negated => simp [Operator.arity] at h

theorem balanced_text {p : Phrase} (hp : isPath p.path = true)
    (hcount : p.names.length = p.operator.arity) (hnames : ∀ name ∈ p.names, IsName name) :
    Balanced p.text.toList := by
  cases shape_of_count hcount with
  | single path h name => exact balanced_single hp h (hnames name (by simp))
  | range path negated low high =>
      have hlow : Balanced (text ⟨path, .compare (.low negated), [low]⟩).toList :=
        balanced_single hp rfl (hnames low (by simp))
      have hhigh : Balanced (text ⟨path, .compare (.high negated), [high]⟩).toList :=
        balanced_single hp rfl (hnames high (by simp))
      have hand : Clear Connective.and.separator := by decide
      rw [text_range, String.toList_append, String.toList_append]
      exact (hlow.append hand.balanced).append hhigh
  | null path negated =>
      have hopening : Clear (Operator.null negated).opening := by cases negated <;> decide
      exact ((Clear.of_isPath hp).append hopening).balanced

theorem text_ne_empty {p : Phrase} (hp : isPath p.path = true)
    (hcount : p.names.length = p.operator.arity) : p.text ≠ "" := by
  have hpath := (chars_of_isPath hp).1
  cases shape_of_count hcount with
  | single path h name =>
      rw [text_single path h]
      simp [hpath]
  | range path negated low high =>
      rw [text_range]
      simp [Connective.separator]
  | null path negated =>
      rw [text_null]
      simp [hpath]

end Phrase

namespace Tree

mutual

theorem balanced_render (t : Tree) (h : ∀ leaf ∈ t.leaves, Balanced leaf.2.toList) :
    Balanced t.render.toList := by
  cases t with
  | leaf key text => exact h (key, text) (by simp [leaves])
  | join c children =>
      have hsep : Clear c.separator := by cases c <;> decide
      rw [render, String.toList_intercalate]
      refine hsep.balanced.intercalate ?_
      intro text htext
      obtain ⟨child, hchild, rfl⟩ := List.mem_map.1 htext
      exact balanced_renderAll children h child hchild
  | paren inner => simpa [render] using (balanced_render inner h).paren

theorem balanced_renderAll (ts : List Tree) (h : ∀ leaf ∈ leavesAll ts, Balanced leaf.2.toList) :
    ∀ text ∈ renderAll ts, Balanced text.toList := by
  cases ts with
  | nil => simp [renderAll]
  | cons t rest =>
      rw [leavesAll] at h
      intro text htext
      rw [renderAll] at htext
      rcases List.mem_cons.1 htext with rfl | htext
      · exact balanced_render t fun leaf hleaf => h leaf (List.mem_append_left _ hleaf)
      · exact balanced_renderAll rest (fun leaf hleaf => h leaf (List.mem_append_right _ hleaf)) text
          htext

end

theorem render_ne_empty {t : Tree} (hne : t.leaves ≠ []) (h : ∀ leaf ∈ t.leaves, leaf.2 ≠ "") :
    t.render ≠ "" := by
  obtain ⟨leaf, hleaf⟩ := List.exists_mem_of_ne_nil _ hne
  intro hempty
  have hmarks := t.toList_render
  rw [hempty, eq_comm, String.toList_empty, spell, List.flatMap_eq_nil_iff] at hmarks
  have hmem := fragment_mem_marks.2 (List.mem_map_of_mem hleaf)
  exact h leaf hleaf (String.toList_eq_nil_iff.1 (hmarks _ hmem))

end Tree

end ClauseWeave
