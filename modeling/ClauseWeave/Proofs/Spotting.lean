import ClauseWeave.Proofs.Nesting
import ClauseWeave.Proofs.Places
import Mathlib.Data.String.Basic

namespace ClauseWeave

section Lists

variable {α : Type}

theorem takeWhile_append_of_head? {p : α → Bool} {l r : List α} (hl : ∀ a ∈ l, p a = true)
    (hr : ∀ a ∈ r.head?, p a = false) :
    (l ++ r).takeWhile p = l ∧ (l ++ r).dropWhile p = r := by
  rw [List.takeWhile_append_of_pos hl, List.dropWhile_append_of_pos hl]
  cases r with
  | nil => simp
  | cons a r => simp [hr a rfl]

theorem not_mem_of_mem_splitOn [BEq α] [LawfulBEq α] {a : α} {l part : List α}
    (h : part ∈ l.splitOn a) : a ∉ part := by
  induction l generalizing part with
  | nil =>
      obtain rfl : part = [] := by simpa using h
      exact List.not_mem_nil
  | cons b l ih =>
      rw [List.splitOn_cons_eq_if_modifyHead] at h
      split at h
      next =>
        rcases List.mem_cons.1 h with rfl | hpart
        · exact List.not_mem_nil
        · exact ih hpart
      next hne =>
        obtain ⟨head, rest, hsplit⟩ := List.exists_cons_of_ne_nil (List.splitOn_ne_nil a l)
        rw [hsplit, List.modifyHead_cons] at h
        rw [hsplit] at ih
        rcases List.mem_cons.1 h with rfl | hpart
        · have hba : b ≠ a := by simpa using hne
          simpa [hba.symm] using ih List.mem_cons_self
        · exact ih (List.mem_cons_of_mem _ hpart)

end Lists

namespace Placeholder

/-- One or more items with commas between them, and none of them empty. -/
def IsItems (params : List Char) : Prop :=
  ∃ items : List (List Char), items ≠ [] ∧
    (∀ item ∈ items, item ≠ [] ∧ ∀ c ∈ item, isItemChar c = true) ∧
      params = [','].intercalate items

/-- What is behind the sign begins with the placeholder's name, which goes on for as long as there
are characters of a name. A list of items in braces that follows at once belongs to it; where there
is no such list, the placeholder is the name alone. -/
inductive Reads : List Char → Placeholder → List Char → Prop
  | items {name params rest : List Char} (hname : name ≠ [])
      (hchars : ∀ c ∈ name, isNameChar c = true) (hparams : IsItems params) :
      Reads (name ++ '\x7b' :: (params ++ '\x7d' :: rest)) ⟨name, some params⟩ rest
  | bare {name rest : List Char} (hname : name ≠ [])
      (hchars : ∀ c ∈ name, isNameChar c = true) (hend : ∀ c ∈ rest.head?, isNameChar c = false)
      (hparams : ∀ params after, IsItems params → rest ≠ '\x7b' :: (params ++ '\x7d' :: after)) :
      Reads (name ++ rest) ⟨name, none⟩ rest

theorem isItems_iff {params : List Char} : IsItems params ↔
    (∀ c ∈ params, isListChar c = true) ∧ (params.splitOn ',').any List.isEmpty = false := by
  constructor
  · rintro ⟨items, hne, hitems, rfl⟩
    have hcomma : ∀ item ∈ items, ',' ∉ item :=
      fun item hitem hc => absurd ((hitems item hitem).2 ',' hc) (by decide)
    constructor
    · intro c hc
      rcases mem_of_mem_intercalate hc with hsep | ⟨item, hitem, hmem⟩
      · obtain rfl := List.mem_singleton.1 hsep
        decide
      · simp [isListChar, (hitems item hitem).2 c hmem]
    · rw [List.splitOn_intercalate ',' hcomma hne, List.any_eq_false]
      exact fun item hitem => by simpa using (hitems item hitem).1
  · rintro ⟨hchars, hempty⟩
    refine ⟨params.splitOn ',', List.splitOn_ne_nil _ _, fun item hitem => ⟨?_, fun c hc => ?_⟩,
      (List.intercalate_splitOn ',').symm⟩
    · simpa using List.any_eq_false.1 hempty item hitem
    · have hmem : c ∈ params := by
        rw [← @List.intercalate_splitOn _ params _ _ ',']
        exact mem_intercalate_of_mem hitem hc
      have hne : c ≠ ',' := fun he => not_mem_of_mem_splitOn hitem (he ▸ hc)
      simpa [isListChar, hne] using hchars c hmem

theorem params?_eq_some_iff {s params rest : List Char} : params? s = some (params, rest) ↔
    IsItems params ∧ s = '\x7b' :: (params ++ '\x7d' :: rest) := by
  rw [isItems_iff]
  constructor
  · intro h
    refine ⟨?_, by simpa using append_of_params? h⟩
    unfold params? at h
    split at h
    next s =>
      dsimp only at h
      split at h
      next =>
        split at h
        next => cases h
        next hempty =>
          cases h
          exact ⟨fun c hc => List.mem_takeWhile_imp hc, Bool.eq_false_of_not_eq_true hempty⟩
      next => cases h
    next => cases h
  · rintro ⟨⟨hchars, hempty⟩, rfl⟩
    obtain ⟨htake, hdrop⟩ := takeWhile_append_of_head? (r := '\x7d' :: rest) hchars
      (by rintro _ ⟨⟩; decide)
    simp [params?, htake, hdrop, hempty]

theorem params?_eq_none_iff {s : List Char} : params? s = none ↔
    ∀ params after, IsItems params → s ≠ '\x7b' :: (params ++ '\x7d' :: after) := by
  rw [Option.eq_none_iff_forall_ne_some, Prod.forall]
  simp only [Ne, params?_eq_some_iff, not_and]

theorem ofFront?_eq_some_iff {s rest : List Char} {p : Placeholder} :
    ofFront? s = some (p, rest) ↔ Reads s p rest := by
  constructor
  · intro h
    have hs := List.takeWhile_append_dropWhile (p := isNameChar) (l := s)
    have hchars : ∀ c ∈ s.takeWhile isNameChar, isNameChar c = true :=
      fun c hc => List.mem_takeWhile_imp hc
    have hend : ∀ c ∈ (s.dropWhile isNameChar).head?, isNameChar c = false := by
      intro c hc
      have := List.head?_dropWhile_not isNameChar s
      rw [Option.mem_def.1 hc] at this
      exact this
    unfold ofFront? at h
    dsimp only at h
    split at h
    next => cases h
    next hempty =>
      have hname : s.takeWhile isNameChar ≠ [] := by simpa using hempty
      split at h
      next params after hparams =>
        cases h
        obtain ⟨hitems, hrest⟩ := params?_eq_some_iff.1 hparams
        have hread : Reads _ _ rest := .items hname hchars hitems
        rwa [← hrest, hs] at hread
      next hparams =>
        cases h
        have hbare := Reads.bare hname hchars hend (params?_eq_none_iff.1 hparams)
        rwa [hs] at hbare
  · intro h
    cases h with
    | @items name params rest hname hchars hparams =>
        obtain ⟨htake, hdrop⟩ := takeWhile_append_of_head?
          (r := '\x7b' :: (params ++ '\x7d' :: rest)) hchars (by rintro _ ⟨⟩; decide)
        simp [ofFront?, htake, hdrop, hname, params?_eq_some_iff.2 ⟨hparams, rfl⟩]
    | @bare name rest hname hchars hend hparams =>
        obtain ⟨htake, hdrop⟩ := takeWhile_append_of_head? hchars hend
        simp [ofFront?, htake, hdrop, hname, params?_eq_none_iff.2 hparams]

theorem exists_reads_iff {s : List Char} :
    (∃ p rest, Reads s p rest) ↔ ∃ c ∈ s.head?, isNameChar c = true := by
  simp only [← ofFront?_eq_some_iff]
  cases s with
  | nil => simp [ofFront?]
  | cons c s =>
      cases hc : isNameChar c with
      | false => simp [ofFront?, hc]
      | true =>
          simp only [ofFront?, List.takeWhile_cons, hc, if_true, List.isEmpty_cons,
            Bool.false_eq_true, if_false, List.head?_cons]
          cases params? _ <;> simp [hc]

theorem Reads.unique {s rest rest' : List Char} {p p' : Placeholder} (h : Reads s p rest)
    (h' : Reads s p' rest') : p = p' ∧ rest = rest' := by
  have heq := (ofFront?_eq_some_iff.2 h).symm.trans (ofFront?_eq_some_iff.2 h')
  exact Prod.mk.inj (Option.some.inj heq)

theorem Reads.exists_raw {s rest : List Char} {p : Placeholder} (h : Reads s p rest) :
    ∃ t, p.raw = '%' :: t ∧ '%' ∉ t ∧ s = t ++ rest := by
  have hname {name : List Char} (hchars : ∀ c ∈ name, isNameChar c = true) : '%' ∉ name :=
    fun hc => absurd (hchars _ hc) (by decide)
  cases h with
  | @items name params rest _ hchars hparams =>
      have hparams : '%' ∉ params :=
        fun hc => absurd ((isItems_iff.1 hparams).1 _ hc) (by decide)
      exact ⟨name ++ '\x7b' :: params ++ ['\x7d'], by simp [raw], by simp [hname hchars, hparams],
        by simp⟩
  | @bare name rest _ hchars _ _ => exact ⟨name, by simp [raw], hname hchars, rfl⟩

end Placeholder

theorem Segment.scan_sign {s rest : List Char} {p : Placeholder} (h : Placeholder.Reads s p rest) :
    scan ('%' :: s) = .placeholder p :: scan rest := by
  have hfront := Placeholder.ofFront?_eq_some_iff.2 h
  rw [scan.eq_def]
  simp only [if_true]
  split
  next q after hq =>
    obtain ⟨rfl, rfl⟩ := Prod.mk.inj (Option.some.inj (hq.symm.trans hfront))
    rfl
  next hq => simp [hq] at hfront

section Bytes

theorem byteSize_eq_utf8Len (s : List Char) : byteSize s = String.utf8Len s := by
  induction s with
  | nil => simp [byteSize]
  | cons c s ih => simp [byteSize, ih, Nat.add_comm]

def slice (text : String) (start stop : Nat) : String := String.Pos.Raw.extract text ⟨start⟩ ⟨stop⟩

theorem slice_eq_ofList {text : String} {front middle back : List Char}
    (h : text.toList = front ++ middle ++ back) :
    slice text (byteSize front) (byteSize (front ++ middle)) = String.ofList middle := by
  rw [← String.ofList_toList (s := text), h, slice, byteSize_append, byteSize_eq_utf8Len,
    byteSize_eq_utf8Len]
  exact String.extract_of_valid front middle back

end Bytes

namespace PlacedPlaceholder

/-- A sign of the text, which begins at byte `n`, has the placeholder behind it. -/
def StandsIn (p : PlacedPlaceholder) (n : Nat) (s : List Char) : Prop :=
  ∃ front back rest, s = front ++ '%' :: back ∧ Placeholder.Reads back p.placeholder rest ∧
    p.start = n + byteSize front ∧ p.stop = p.start + byteSize p.placeholder.raw

variable {p : PlacedPlaceholder} {n : Nat} {s : List Char}

theorem not_standsIn_nil : ¬ p.StandsIn n [] := by
  rintro ⟨front, back, rest, hs, -⟩
  simp at hs

theorem standsIn_append {l : List Char} (hl : '%' ∉ l) :
    p.StandsIn n (l ++ s) ↔ p.StandsIn (n + byteSize l) s := by
  constructor
  · rintro ⟨front, back, rest, hs, hread, hstart, hstop⟩
    obtain ⟨a, rfl, rfl⟩ := exists_of_append_eq_of_left hl hs
    exact ⟨a, back, rest, rfl, hread, by rw [hstart, byteSize_append, Nat.add_assoc], hstop⟩
  · rintro ⟨front, back, rest, rfl, hread, hstart, hstop⟩
    exact ⟨l ++ front, back, rest, by simp, hread, by rw [hstart, byteSize_append, Nat.add_assoc],
      hstop⟩

theorem standsIn_sign : p.StandsIn n ('%' :: s) ↔
    (∃ rest, Placeholder.Reads s p.placeholder rest ∧
      p = ⟨p.placeholder, n, n + byteSize p.placeholder.raw⟩) ∨
    p.StandsIn (n + byteSize ['%']) s := by
  constructor
  · rintro ⟨front, back, rest, hs, hread, hstart, hstop⟩
    cases front with
    | nil =>
        obtain ⟨-, rfl⟩ := List.cons.inj hs
        refine .inl ⟨rest, hread, ?_⟩
        cases p
        simp_all [byteSize]
    | cons c front =>
        obtain ⟨rfl, rfl⟩ := List.cons.inj hs
        exact .inr ⟨front, back, rest, rfl, hread, by simp [hstart, byteSize, Nat.add_assoc], hstop⟩
  · rintro (⟨rest, hread, hp⟩ | ⟨front, back, rest, rfl, hread, hstart, hstop⟩)
    · rw [hp]
      exact ⟨[], s, rest, rfl, hread, by simp [byteSize], rfl⟩
    · exact ⟨'%' :: front, back, rest, rfl, hread, by simp [hstart, byteSize, Nat.add_assoc], hstop⟩

theorem mem_collect_scan : p ∈ collect n (Segment.scan s) ↔ p.StandsIn n s := by
  fun_induction Segment.scan s generalizing n with
  | case1 => simp [collect, not_standsIn_nil]
  | case2 back q rest h ih =>
      have hread := Placeholder.ofFront?_eq_some_iff.1 h
      obtain ⟨t, hraw, ht, hback⟩ := hread.exists_raw
      rw [collect, List.mem_cons, ih, standsIn_sign]
      have hskip : p.StandsIn (n + byteSize ['%']) back ↔ p.StandsIn (n + byteSize q.raw) rest := by
        rw [hback, standsIn_append ht, Nat.add_assoc, ← byteSize_append, hraw]
        rfl
      rw [hskip]
      refine or_congr_left ⟨?_, ?_⟩
      · rintro rfl
        exact ⟨rest, hread, rfl⟩
      · rintro ⟨rest', hread', hp⟩
        rw [hp, (hread'.unique hread).1]
        rfl
  | case3 back h ih =>
      rw [collect, ih, standsIn_sign, Segment.chars, or_iff_right]
      rintro ⟨rest, hread, -⟩
      simp [Placeholder.ofFront?_eq_some_iff.2 hread] at h
  | case4 c rest hc ih =>
      have hl : '%' ∉ [c] := by simpa using Ne.symm hc
      rw [collect, ih, Segment.chars]
      exact (standsIn_append hl).symm

theorem pairwise_collect (n : Nat) (segments : List Segment) :
    (∀ p ∈ collect n segments, n ≤ p.start) ∧
      (collect n segments).Pairwise fun p q => p.stop ≤ q.start := by
  induction segments generalizing n with
  | nil => simp [collect]
  | cons seg rest ih =>
      obtain ⟨hle, hpairs⟩ := ih (n + byteSize seg.chars)
      have hle' : ∀ p ∈ collect (n + byteSize seg.chars) rest, n ≤ p.start :=
        fun p hp => (Nat.le_add_right _ _).trans (hle p hp)
      cases seg with
      | plain c => exact ⟨hle', hpairs⟩
      | placeholder q =>
          rw [collect]
          exact ⟨List.forall_mem_cons.2 ⟨le_rfl, hle'⟩, List.pairwise_cons.2 ⟨hle, hpairs⟩⟩

/-- The text written out again: what lies between the placeholders, from byte `n` on, and the
placeholders. -/
def weave (text : String) (n : Nat) : List PlacedPlaceholder → String
  | [] => slice text n text.utf8ByteSize
  | p :: rest => slice text n p.start ++ String.ofList p.placeholder.raw ++ weave text p.stop rest

theorem weave_collect {text : String} {front gap : List Char} {segments : List Segment}
    (h : text.toList = front ++ gap ++ segments.flatMap Segment.chars) :
    weave text (byteSize front) (collect (byteSize (front ++ gap)) segments) =
      String.ofList (gap ++ segments.flatMap Segment.chars) := by
  -- On the segments; plain characters go to the gap, a placeholder closes it.
  induction segments generalizing front gap with
  | nil =>
      have htext : text.toList = front ++ gap ++ [] := by simpa using h
      have hsize : text.utf8ByteSize = byteSize (front ++ gap) := by
        rw [byteSize_eq_utf8Len, ← String.utf8ByteSize_ofList, ← List.append_nil (front ++ gap),
          ← htext, String.ofList_toList]
      rw [collect, weave, hsize, slice_eq_ofList htext]
      simp
  | cons seg rest ih =>
      cases seg with
      | plain c =>
          have hgap : text.toList = front ++ (gap ++ [c]) ++ rest.flatMap Segment.chars := by
            simp [h, Segment.chars]
          have hstop : byteSize (front ++ gap) + byteSize (Segment.plain c).chars =
              byteSize (front ++ (gap ++ [c])) := by
            rw [← byteSize_append, Segment.chars, List.append_assoc]
          rw [collect, hstop, ih hgap]
          simp [Segment.chars]
      | placeholder q =>
          have hraw : text.toList = front ++ gap ++ q.raw ++ [] ++ rest.flatMap Segment.chars := by
            simp [h, Segment.chars]
          have hstop : byteSize (front ++ gap) + byteSize (Segment.placeholder q).chars =
              byteSize (front ++ gap ++ q.raw) := by
            rw [byteSize_append (front ++ gap), Segment.chars]
          have hrest := ih hraw
          rw [List.append_nil] at hrest
          rw [collect, weave, hstop, hrest, slice_eq_ofList h]
          simp [Segment.chars, String.append_assoc]

theorem StandsIn.slice_eq {text : String} (h : p.StandsIn 0 text.toList) :
    p.start < p.stop ∧ slice text p.start p.stop = String.ofList p.placeholder.raw := by
  obtain ⟨front, back, rest, hs, hread, hstart, hstop⟩ := h
  obtain ⟨t, hraw, -, rfl⟩ := hread.exists_raw
  have hne : p.placeholder.raw ≠ [] := by simp [hraw]
  have htext : text.toList = front ++ p.placeholder.raw ++ rest := by simp [hs, hraw]
  rw [Nat.zero_add] at hstart
  rw [hstop, hstart, ← byteSize_append]
  refine ⟨?_, slice_eq_ofList htext⟩
  rw [byteSize_append]
  exact Nat.lt_add_of_pos_right (byteSize_pos hne)

theorem exists_standsIn_iff {front back : List Char} (h : s = front ++ '%' :: back) :
    (∃ p : PlacedPlaceholder, p.StandsIn 0 s ∧ p.start = byteSize front) ↔
      ∃ c ∈ back.head?, Placeholder.isNameChar c = true := by
  rw [← Placeholder.exists_reads_iff]
  constructor
  · rintro ⟨p, ⟨front', back', rest, hs, hread, hstart, -⟩, hstart'⟩
    rw [hstart', Nat.zero_add] at hstart
    obtain ⟨-, hback⟩ := eq_of_byteSize_eq (h.symm.trans hs) hstart
    obtain ⟨-, rfl⟩ := List.cons.inj hback
    exact ⟨_, rest, hread⟩
  · rintro ⟨q, rest, hread⟩
    exact ⟨⟨q, byteSize front, byteSize front + byteSize q.raw⟩,
      ⟨front, back, rest, h, hread, (Nat.zero_add _).symm, rfl⟩, rfl⟩

theorem map_name_collect (n : Nat) (segments : List Segment) :
    (collect n segments).map (fun p => String.ofList p.placeholder.name) =
      segments.filterMap Segment.name? := by
  induction segments generalizing n with
  | nil => rfl
  | cons seg rest ih =>
      cases seg with
      | plain c => exact ih _
      | placeholder q =>
          rw [collect, List.map_cons, ih]
          rfl

end PlacedPlaceholder

theorem placeholders_eq_nil_iff {text : String} :
    placeholders text = [] ↔ namesIn text.toList = [] := by
  rw [namesIn, ← PlacedPlaceholder.map_name_collect 0, List.map_eq_nil_iff]
  rfl

theorem namesIn_of_not_mem {s : List Char} (h : '%' ∉ s) : namesIn s = [] := by
  rw [namesIn, ← PlacedPlaceholder.map_name_collect 0, List.map_eq_nil_iff,
    List.eq_nil_iff_forall_not_mem]
  intro p hp
  obtain ⟨front, back, rest, rfl, -⟩ := PlacedPlaceholder.mem_collect_scan.1 hp
  simp at h

open PlacedPlaceholder in
/-- The placeholders of a text are those of the grammar, each with its own bytes: one for every sign
with a character of a name behind it. From left to right they do not overlap, and with what lies
between them they are the text. -/
theorem placeholders_follow_grammar (text : String) :
    (∀ p : PlacedPlaceholder, p ∈ placeholders text ↔ p.StandsIn 0 text.toList) ∧
      (∀ front back, text.toList = front ++ '%' :: back →
        ((∃ p ∈ placeholders text, p.start = byteSize front) ↔
          ∃ c ∈ back.head?, Placeholder.isNameChar c = true)) ∧
      (∀ p ∈ placeholders text,
        p.start < p.stop ∧ slice text p.start p.stop = String.ofList p.placeholder.raw) ∧
      (placeholders text).Pairwise (fun p q => p.stop ≤ q.start) ∧
      weave text 0 (placeholders text) = text := by
  have hmem : ∀ p : PlacedPlaceholder, p ∈ placeholders text ↔ p.StandsIn 0 text.toList :=
    fun p => mem_collect_scan
  refine ⟨hmem, fun front back hs => ?_, fun p hp => ((hmem p).1 hp).slice_eq,
    (pairwise_collect 0 _).2, ?_⟩
  · simp only [hmem]
    exact exists_standsIn_iff hs
  · have hscan := Segment.flatMap_chars_scan text.toList
    have hweave := @weave_collect text [] [] _ (by simpa using hscan.symm)
    rw [hscan] at hweave
    exact hweave.trans String.ofList_toList

/-- The sign stands at the second byte, behind one character of two bytes. -/
theorem placeholders_follow_grammar_accents :
    "é%.\x7b!c,*\x7d%é".toList = "é".toList ++ '%' :: ".\x7b!c,*\x7d%é".toList ∧
      ∃ p ∈ placeholders "é%.\x7b!c,*\x7d%é", p.start = 2 := by
  have hs : "é%.\x7b!c,*\x7d%é".toList = "é".toList ++ '%' :: ".\x7b!c,*\x7d%é".toList := by decide
  have hplace := (placeholders_follow_grammar "é%.\x7b!c,*\x7d%é").2.1 _ _ hs
  exact ⟨hs, hplace.2 ⟨'.', rfl, by decide⟩⟩

example : (placeholders "%a\x7bb,\x7d é%.\x7b!c,*\x7d%é").map
    (fun p => (String.ofList p.placeholder.raw, p.start, p.stop)) =
      [("%a", 0, 2), ("%.\x7b!c,*\x7d", 9, 17)] := by
  decide +kernel

end ClauseWeave
