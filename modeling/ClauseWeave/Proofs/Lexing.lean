import ClauseWeave.Proofs.Drafting
import ClauseWeave.Proofs.Precedence

namespace ClauseWeave.Sql

inductive Keyword where
  | join (c : Connective)
  | not | like | among | is | null
  deriving DecidableEq

namespace Keyword

def spelling : Keyword → String
  | join c => c.word
  | not => "NOT"
  | like => "LIKE"
  | among => "IN"
  | is => "IS"
  | null => "NULL"

def all : List Keyword := [join .and, join .or, not, like, among, is, null]

def ofWord? (w : List Char) : Option Keyword := all.find? (·.spelling.toList = w.map Char.toUpper)

end Keyword

def signs : List Comparison := [.equal, .notEqual, .greater, .less, .atLeast, .atMost]

def sign? (w : List Char) : Option Comparison := signs.find? (·.sign.toList = w)

inductive Lexeme where
  | opening
  | closing
  | keyword (k : Keyword)
  | sign (c : Comparison)
  | word (s : String)
  | value (v : Value)
  deriving DecidableEq

def Lexeme.ofWord (w : List Char) : Lexeme :=
  match Keyword.ofWord? w, sign? w with
  | some k, _ => .keyword k
  | none, some c => .sign c
  | none, none => .word (String.ofList w)

def mark? : Part → Option Lexeme
  | .value v => some (.value v)
  | .piece (.other '(') => some .opening
  | .piece (.other ')') => some .closing
  | _ => none

def isBreak : Part → Bool
  | .value _ => true
  | .piece (.other c) => c.isWhitespace || c == '(' || c == ')'
  | _ => false

def letters : Part → List Char
  | .piece p => p.chars
  | .value _ => []

def flush (word : List Char) : List Lexeme := if word.isEmpty then [] else [.ofWord word]

/-- The lexemes of a text of which the beginning of a word has been read. -/
def lexFrom (word : List Char) : List Part → List Lexeme
  | [] => flush word
  | p :: rest =>
    if isBreak p then flush word ++ (mark? p).toList ++ lexFrom [] rest
    else lexFrom (word ++ letters p) rest

def lexemes (ps : List Part) : List Lexeme := lexFrom [] ps

theorem lexFrom_append {q : Part} (hq : isBreak q = true) (word : List Char) (ps qs : List Part) :
    lexFrom word (ps ++ q :: qs) = lexFrom word ps ++ lexemes (q :: qs) := by
  induction ps generalizing word with
  | nil => simp [lexFrom, lexemes, hq, flush]
  | cons p rest ih =>
      rw [List.cons_append, lexFrom, lexFrom]
      split
      · rw [ih, List.append_assoc, List.append_assoc, List.append_assoc]
      · exact ih _

theorem lexemes_append {q : Part} (hq : isBreak q = true) (ps qs : List Part) :
    lexemes (ps ++ q :: qs) = lexemes ps ++ lexemes (q :: qs) := lexFrom_append hq [] ps qs

theorem lexemes_break {q : Part} (hq : isBreak q = true) (qs : List Part) :
    lexemes (q :: qs) = (mark? q).toList ++ lexemes qs := by
  rw [lexemes, lexFrom, if_pos hq]
  rfl

theorem lexemes_space (qs : List Part) : lexemes (.char ' ' :: qs) = lexemes qs :=
  lexemes_break rfl qs

theorem lexemes_value (v : Value) (qs : List Part) :
    lexemes (.value v :: qs) = .value v :: lexemes qs :=
  lexemes_break rfl qs

theorem lexemes_append_space (ps qs : List Part) :
    lexemes (ps ++ .char ' ' :: qs) = lexemes ps ++ lexemes qs := by
  rw [lexemes_append rfl, lexemes_space]

theorem lexemes_paren (ps : List Part) :
    lexemes (inParens ps) = .opening :: (lexemes ps ++ [.closing]) := by
  rw [inParens, lexemes_break rfl, lexemes_append rfl]
  rfl

def OneWord (w : String) : Prop := w ≠ "" ∧ ∀ c ∈ w.toList, isBreak (.char c) = false

instance (w : String) : Decidable (OneWord w) :=
  @instDecidableAnd _ _ _ (List.decidableBAll (fun c => isBreak (.char c) = false) w.toList)

theorem lexFrom_letters {w : List Char} (h : ∀ c ∈ w, isBreak (.char c) = false)
    (word : List Char) : lexFrom word (w.map Part.char) = flush (word ++ w) := by
  induction w generalizing word with
  | nil => simp [lexFrom]
  | cons c rest ih =>
      have hc : isBreak (.char c) = false := h c (by simp)
      rw [List.map_cons, lexFrom, hc, if_neg Bool.false_ne_true, ih fun d hd => h d (by simp [hd])]
      simp [letters, Part.char]

theorem OneWord.lexemes {w : String} (h : OneWord w) :
    lexemes (Part.text w) = [.ofWord w.toList] := by
  rw [Sql.lexemes, Part.text, lexFrom_letters h.2, List.nil_append, flush, if_neg]
  simpa using h.1

theorem lexemes_join (c : Connective) (ps qs : List Part) :
    lexemes (ps ++ c.parts ++ qs) = lexemes ps ++ .keyword (.join c) :: lexemes qs := by
  have hword : OneWord c.word := by cases c <;> decide
  have hparts : ps ++ c.parts ++ qs = ps ++ .char ' ' :: (Part.text c.word ++ .char ' ' :: qs) := by
    cases c <;> simp [Connective.parts, Connective.separator, Part.text]
  rw [hparts, lexemes_append_space, lexemes_append_space, hword.lexemes]
  cases c <;> rfl

theorem lexemes_intercalate (c : Connective) (texts : List (List Part)) :
    lexemes (c.parts.intercalate texts) = [.keyword (.join c)].intercalate (texts.map lexemes) := by
  induction texts with
  | nil => rfl
  | cons t rest ih =>
      cases rest with
      | nil => simp
      | cons u rest =>
          rw [List.intercalate_cons_cons, lexemes_join, ih]
          simp

def tokens : List Lexeme → Option (List Token)
  | [] => some []
  | .opening :: rest => (tokens rest).map (.opening :: ·)
  | .closing :: rest => (tokens rest).map (.closing :: ·)
  | .keyword (.join c) :: rest => (tokens rest).map (.join c :: ·)
  | .word p :: .sign c :: .value v :: rest =>
    (tokens rest).map (.atom ⟨p, .compare c, some v⟩ :: ·)
  | .word p :: .keyword .like :: .value v :: rest =>
    (tokens rest).map (.atom ⟨p, .like, some v⟩ :: ·)
  | .word p :: .keyword .among :: .opening :: .value v :: .closing :: rest =>
    (tokens rest).map (.atom ⟨p, .among false, some v⟩ :: ·)
  | .word p :: .keyword .not :: .keyword .among :: .opening :: .value v :: .closing :: rest =>
    (tokens rest).map (.atom ⟨p, .among true, some v⟩ :: ·)
  | .word p :: .keyword .is :: .keyword .null :: rest =>
    (tokens rest).map (.atom ⟨p, .null false, none⟩ :: ·)
  | .word p :: .keyword .is :: .keyword .not :: .keyword .null :: rest =>
    (tokens rest).map (.atom ⟨p, .null true, none⟩ :: ·)
  | _ => none

theorem tokens_append {ls ms : List Lexeme} {ts us : List Token} (hl : tokens ls = some ts)
    (hm : tokens ms = some us) : tokens (ls ++ ms) = some (ts ++ us) := by
  fun_induction tokens ls generalizing ts with
  | case1 =>
      obtain rfl := Option.some.inj hl
      simpa using hm
  | case11 => simp at hl
  | _ =>
      rename_i ih
      obtain ⟨ts, ht, rfl⟩ := Option.map_eq_some_iff.1 hl
      simp [tokens, ih ht]

theorem tokens_intercalate (c : Connective) {lss : List (List Lexeme)} {tss : List (List Token)}
    (h : List.Forall₂ (fun ls ts => tokens ls = some ts) lss tss) :
    tokens ([.keyword (.join c)].intercalate lss) = some ([.join c].intercalate tss) := by
  induction h with
  | nil => rfl
  | cons hl hrest ih =>
      cases hrest with
      | nil => simpa using hl
      | cons hm hmore =>
          rw [List.intercalate_cons_cons, List.intercalate_cons_cons]
          exact tokens_append (tokens_append hl rfl) ih

theorem tokens_paren {ls : List Lexeme} {ts : List Token} (h : tokens ls = some ts) :
    tokens (.opening :: (ls ++ [.closing])) = some (.opening :: (ts ++ [.closing])) := by
  rw [tokens, tokens_append h rfl]
  rfl

end ClauseWeave.Sql

namespace ClauseWeave

/-- An attribute that is not mistaken for a keyword. -/
structure IsAttribute (path : String) : Prop where
  isPath : isPath path = true
  notKeyword : Sql.Keyword.ofWord? path.toList = none

instance : DecidablePred IsAttribute := fun _ =>
  decidable_of_iff' _ ⟨fun h => And.intro h.isPath h.notKeyword, fun h => ⟨h.1, h.2⟩⟩

def Filter.atoms (f : Filter) : List Sql.Atom :=
  match f.operator, f.value with
  | .compare c, v => [⟨f.path, .compare c, some v⟩]
  | .like m, .text s => [⟨f.path, .like, some (.text (m.pattern s))⟩]
  | .among negated, v => [⟨f.path, .among negated, some v⟩]
  | .between negated, .list [low, high] =>
    [⟨f.path, .compare (.low negated), some low⟩, ⟨f.path, .compare (.high negated), some high⟩]
  | .null negated, _ => [⟨f.path, .null negated, none⟩]
  | _, _ => []

def Filter.tokens (f : Filter) : List Sql.Token :=
  [.join .and].intercalate (f.atoms.map fun a => [.atom a])

theorem isBreak_of_isWord {c : Char} (h : Text.isWord c = true) :
    Sql.isBreak (.char c) = false := by
  have hother (d : Char) (hd : Text.isWord d = false) : c ≠ d := by
    rintro rfl
    simp [hd] at h
  simp only [Sql.isBreak, Part.char, Char.isWhitespace, Bool.or_eq_false_iff,
    decide_eq_false_iff_not, beq_eq_false_iff_ne]
  refine ⟨⟨⟨⟨⟨?_, ?_⟩, ?_⟩, ?_⟩, ?_⟩, ?_⟩
  all_goals exact hother _ (by decide +kernel)

namespace IsAttribute

variable {path : String} (h : IsAttribute path)

include h

theorem oneWord : Sql.OneWord path := by
  obtain ⟨hne, hchars⟩ := chars_of_isPath h.isPath
  refine ⟨hne, fun c hc => ?_⟩
  rcases hchars c hc with hw | rfl
  · exact isBreak_of_isWord hw
  · decide

theorem ofWord_eq : Sql.Lexeme.ofWord path.toList = .word path := by
  have hsign : Sql.sign? path.toList = none := by
    rw [Sql.sign?, List.find?_eq_none]
    intro c _ hc
    obtain rfl : c.sign = path := String.toList_inj.1 (by simpa using hc)
    have hpath := h.isPath
    revert hpath
    cases c <;> decide +kernel
  rw [Sql.Lexeme.ofWord, h.notKeyword, hsign]
  simp

theorem lexemes_space (ps : List Part) :
    Sql.lexemes (Part.text path ++ .char ' ' :: ps) = .word path :: Sql.lexemes ps := by
  rw [Sql.lexemes_append_space, h.oneWord.lexemes, h.ofWord_eq]
  rfl

theorem lexemes_comparison (c : Comparison) (v : Value) (ps : List Part) :
    Sql.lexemes (Part.text (path ++ " " ++ c.sign ++ " ") ++ .value v :: ps) =
      .word path :: .sign c :: .value v :: Sql.lexemes ps := by
  have htext : Part.text (path ++ " " ++ c.sign ++ " ") ++ .value v :: ps =
      Part.text path ++ .char ' ' :: (Part.text c.sign ++ .char ' ' :: .value v :: ps) := by
    simp [Part.text]
  have hsign : Sql.OneWord c.sign := by cases c <;> decide
  rw [htext, h.lexemes_space, Sql.lexemes_append_space, hsign.lexemes, Sql.lexemes_value]
  cases c <;> rfl

theorem lexemes_like (v : Value) : Sql.lexemes (Part.text (path ++ " LIKE ") ++ [.value v]) =
    [.word path, .keyword .like, .value v] := by
  have htext : Part.text (path ++ " LIKE ") ++ [.value v] =
      Part.text path ++ .char ' ' :: (Part.text "LIKE" ++ .char ' ' :: [.value v]) := by
    simp [Part.text]
  rw [htext, h.lexemes_space]
  rfl

theorem lexemes_among (negated : Bool) (v : Value) :
    Sql.lexemes (Part.text (path ++ if negated then " NOT IN(" else " IN(") ++
        .value v :: Part.text ")") =
      .word path :: ((if negated then [.keyword .not] else []) ++
        [.keyword .among, .opening, .value v, .closing]) := by
  have htext : Part.text (path ++ if negated then " NOT IN(" else " IN(") ++
      .value v :: Part.text ")" = Part.text path ++ .char ' ' ::
        (Part.text (if negated then "NOT IN(" else "IN(") ++ .value v :: Part.text ")") := by
    cases negated <;> simp [Part.text]
  rw [htext, h.lexemes_space]
  cases negated <;> rfl

theorem lexemes_null (negated : Bool) :
    Sql.lexemes (Part.text (path ++ if negated then " IS NOT NULL" else " IS NULL")) =
      .word path :: .keyword .is :: ((if negated then [.keyword .not] else []) ++
        [.keyword .null]) := by
  have htext : Part.text (path ++ if negated then " IS NOT NULL" else " IS NULL") =
      Part.text path ++ .char ' ' :: Part.text (if negated then "IS NOT NULL" else "IS NULL") := by
    cases negated <;> simp [Part.text]
  rw [htext, h.lexemes_space]
  cases negated <;> rfl

theorem lexemes_range (c d : Comparison) (low high : Value) :
    Sql.lexemes (Part.text (path ++ " " ++ c.sign ++ " ") ++ .value low ::
        (Part.text (" AND " ++ path ++ " " ++ d.sign ++ " ") ++ [.value high])) =
      [.word path, .sign c, .value low, .keyword (.join .and), .word path, .sign d,
        .value high] := by
  have htext : Part.text (" AND " ++ path ++ " " ++ d.sign ++ " ") ++ [.value high] =
      Connective.and.parts ++ (Part.text (path ++ " " ++ d.sign ++ " ") ++ [.value high]) := by
    simp [Part.text, Connective.parts, Connective.separator, Connective.word]
  have hjoin := Sql.lexemes_join .and [] (Part.text (path ++ " " ++ d.sign ++ " ") ++ [.value high])
  rw [List.nil_append] at hjoin
  rw [h.lexemes_comparison, htext, hjoin, h.lexemes_comparison]
  rfl

end IsAttribute

theorem tokens_spelled {f : Filter} (h : IsAttribute f.path) (hfits : f.fits = true) :
    Sql.tokens (Sql.lexemes f.spelled) = some f.tokens := by
  obtain ⟨path, op, v⟩ := f
  dsimp only at h
  cases op with
  | compare c =>
      change Sql.tokens (Sql.lexemes (Part.text (path ++ " " ++ c.sign ++ " ") ++ [.value v])) = _
      rw [h.lexemes_comparison]
      rfl
  | like m =>
      cases v with
      | text s =>
          simp only [Filter.spelled]
          rw [h.lexemes_like]
          rfl
      | _ => simp [Filter.fits] at hfits
  | among negated =>
      simp only [Filter.spelled]
      rw [h.lexemes_among]
      cases negated <;> rfl
  | between negated =>
      obtain ⟨low, high, rfl, -⟩ := Filter.list_of_fits_between hfits
      simp only [Filter.spelled]
      rw [h.lexemes_range]
      rfl
  | null negated =>
      simp only [Filter.spelled]
      rw [h.lexemes_null]
      cases negated <;> rfl

end ClauseWeave
