import ClauseWeave.Text.Cut
import ClauseWeave.Text.Word

namespace ClauseWeave

/-- `%name`, or `%name` with a list of items in braces behind it. -/
structure Placeholder where
  name : List Char
  params : Option (List Char)
  deriving DecidableEq, Repr

namespace Placeholder

def isNameChar (c : Char) : Bool := Text.isAsciiWord c || c == '.'

def isItemChar (c : Char) : Bool := Text.isAsciiWord c || c == '*' || c == '!'

def isListChar (c : Char) : Bool := isItemChar c || c == ','

def params? (s : List Char) : Option (List Char × List Char) :=
  match s with
  | '\x7b' :: s =>
    let items := s.takeWhile isListChar
    match s.dropWhile isListChar with
    | '\x7d' :: rest => if (items.splitOn ',').any List.isEmpty then none else some (items, rest)
    | _ => none
  | _ => none

/-- The placeholder whose `%` has just been read. Without a name there is none; a list that is not
well formed is text behind the name. -/
def ofFront? (s : List Char) : Option (Placeholder × List Char) :=
  let name := s.takeWhile isNameChar
  let rest := s.dropWhile isNameChar
  if name.isEmpty then none
  else
    match params? rest with
    | some (items, rest) => some (⟨name, some items⟩, rest)
    | none => some (⟨name, none⟩, rest)

def raw (p : Placeholder) : List Char :=
  '%' :: p.name ++
    match p.params with
    | some items => '\x7b' :: items ++ ['\x7d']
    | none => []

theorem append_of_params? {s items rest : List Char} (h : params? s = some (items, rest)) :
    s = '\x7b' :: items ++ '\x7d' :: rest := by
  cases s with
  | nil => simp [params?] at h
  | cons c s =>
    unfold params? at h
    split at h
    · rename_i t ht
      cases ht
      dsimp only at h
      split at h
      · rename_i r hr
        split at h
        · cases h
        · cases h
          have := List.takeWhile_append_dropWhile (p := isListChar) (l := s)
          rw [hr] at this
          simp [this]
      · cases h
    · cases h

theorem append_of_ofFront? {s rest : List Char} {p : Placeholder}
    (h : ofFront? s = some (p, rest)) : '%' :: s = p.raw ++ rest ∧ p.name ≠ [] := by
  have hs := List.takeWhile_append_dropWhile (p := isNameChar) (l := s)
  unfold ofFront? at h
  dsimp only at h
  split at h
  · cases h
  · rename_i hne
    split at h
    · rename_i items r hp
      cases h
      rw [append_of_params? hp] at hs
      exact ⟨by simpa [raw] using hs.symm, by simpa using hne⟩
    · cases h
      exact ⟨by simp [raw, hs], by simpa using hne⟩

end Placeholder

inductive Segment where
  | plain (c : Char)
  | placeholder (p : Placeholder)
  deriving DecidableEq, Repr

namespace Segment

def scan (s : List Char) : List Segment :=
  match s with
  | [] => []
  | c :: rest =>
    if c = '%' then
      match _h : Placeholder.ofFront? rest with
      | some (p, rest) => .placeholder p :: scan rest
      | none => .plain c :: scan rest
    else .plain c :: scan rest
termination_by s.length
decreasing_by
  · obtain ⟨happ, hne⟩ := Placeholder.append_of_ofFront? _h
    have hlen := congrArg List.length happ
    have := List.length_pos_iff.2 hne
    simp only [Placeholder.raw, List.length_cons, List.length_append] at hlen ⊢
    omega
  all_goals simp only [List.length_cons]
  all_goals omega

def chars : Segment → List Char
  | plain c => [c]
  | placeholder p => p.raw

theorem flatMap_chars_scan (s : List Char) : (scan s).flatMap chars = s := by
  fun_induction scan s with
  | case1 => rfl
  | case2 rest p after h ih =>
    simp [chars, ih, (Placeholder.append_of_ofFront? h).1]
  | case3 rest h ih => simp [chars, ih]
  | case4 c rest hc ih => simp [chars, ih]

def isPlaceholder : Segment → Bool
  | plain _ => false
  | placeholder _ => true

end Segment

structure PlacedPlaceholder where
  placeholder : Placeholder
  start : Nat
  stop : Nat

def byteSize : List Char → Nat
  | [] => 0
  | c :: rest => c.utf8Size + byteSize rest

theorem byteSize_append (s t : List Char) : byteSize (s ++ t) = byteSize s + byteSize t := by
  induction s with
  | nil => simp [byteSize]
  | cons c s ih => simp [byteSize, ih, Nat.add_assoc]

theorem byteSize_pos {s : List Char} (h : s ≠ []) : 0 < byteSize s := by
  obtain ⟨c, s, rfl⟩ := List.exists_cons_of_ne_nil h
  exact Nat.add_pos_left c.utf8Size_pos _

theorem eq_of_byteSize_eq {front back front' back' : List Char}
    (h : front ++ back = front' ++ back') (hsize : byteSize front = byteSize front') :
    front = front' ∧ back = back' := by
  have hnil {a : List Char} {n : Nat} (ha : n = n + byteSize a) : a = [] := by
    refine Decidable.byContradiction fun hne => ?_
    have := byteSize_pos hne
    omega
  rcases List.append_eq_append_iff.1 h with ⟨a, rfl, rfl⟩ | ⟨a, rfl, rfl⟩
  · rw [byteSize_append] at hsize
    simp [hnil hsize]
  · rw [byteSize_append] at hsize
    simp [hnil hsize.symm]

def PlacedPlaceholder.collect (start : Nat) : List Segment → List PlacedPlaceholder
  | [] => []
  | seg :: rest =>
    let stop := start + byteSize seg.chars
    match seg with
    | .plain _ => collect stop rest
    | .placeholder p => ⟨p, start, stop⟩ :: collect stop rest

def placeholders (text : String) : List PlacedPlaceholder :=
  PlacedPlaceholder.collect 0 (Segment.scan text.toList)

end ClauseWeave
