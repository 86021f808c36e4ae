import ClauseWeave.Proofs.Matching
import ClauseWeave.Proofs.Meaning

namespace ClauseWeave

namespace Comparison

def opposite : Comparison → Comparison
  | equal => notEqual
  | notEqual => equal
  | greater => atMost
  | atMost => greater
  | less => atLeast
  | atLeast => less

def holds (c : Comparison) (x n : Int) : Bool :=
  match c with
  | equal => x = n
  | notEqual => x ≠ n
  | greater => n < x
  | less => x < n
  | atLeast => n ≤ x
  | atMost => x ≤ n

theorem holds_opposite (c : Comparison) (x n : Int) : c.opposite.holds x n = !c.holds x n := by
  rw [Bool.eq_iff_iff]
  cases c <;> simp [opposite, holds]

end Comparison

namespace Operator

def opposite? : Operator → Option Operator
  | compare c => some (compare c.opposite)
  | like _ => none
  | among negated => some (among !negated)
  | between negated => some (between !negated)
  | null negated => some (null !negated)

end Operator

def Value.whole (n : Int) : Value := .number (.whole n)

@[simp] theorem Value.whole_inj {m n : Int} : whole m = whole n ↔ m = n := by simp [whole]

/-- A whole number, a list of them that is not empty, or two of them in order, as the operator
needs it; null checks take any value. -/
def Operator.TakesWhole : Operator → Value → Prop
  | compare _, v => ∃ n, v = .whole n
  | like _, _ => False
  | among _, v => ∃ ns ≠ [], v = .list (ns.map Value.whole)
  | between _, v => ∃ low high, low ≤ high ∧ v = .list [.whole low, .whole high]
  | null _, _ => True

namespace Sql

abbrev Row := String → Value

/-- What a comparison says of a row, for columns of whole numbers and of text. -/
def Atom.holds (row : Row) (a : Atom) : Bool :=
  match a.relation, row a.path, a.operand with
  | .compare c, .number (.whole x), some (.number (.whole n)) => c.holds x n
  | .like, .text x, some (.text p) => like p.toList x.toList
  | .among negated, .number (.whole x), some (.list items) =>
    (items.any (· = .number (.whole x))) != negated
  | .null negated, v, none => (v = .null) != negated
  | _, _, _ => false

end Sql

section Row

variable {row : Sql.Row} {path : String} {x : Int} (hrow : row path = .whole x)

include hrow

theorem Filter.holds_compare (c : Comparison) (n : Int) :
    (Filter.mk path (.compare c) (.whole n)).holds (Sql.Atom.holds row) = c.holds x n := by
  simp [Filter.holds, Filter.atoms, Sql.Atom.holds, hrow, Value.whole]

theorem Filter.holds_among (negated : Bool) (ns : List Int) :
    (Filter.mk path (.among negated) (.list (ns.map Value.whole))).holds (Sql.Atom.holds row) =
      (decide (x ∈ ns) != negated) := by
  have hmem : ((ns.map Value.whole).any (· = .number (.whole x))) = decide (x ∈ ns) := by
    rw [Bool.eq_iff_iff]
    simp [Value.whole]
  simp [Filter.holds, Filter.atoms, Sql.Atom.holds, hrow, Value.whole, ← hmem]

theorem Filter.holds_between (negated : Bool) (low high : Int) :
    (Filter.mk path (.between negated) (.list [.whole low, .whole high])).holds
        (Sql.Atom.holds row) =
      ((Comparison.low negated).holds x low && (Comparison.high negated).holds x high) := by
  simp [Filter.holds, Filter.atoms, Sql.Atom.holds, hrow, Value.whole]

theorem Filter.holds_null (negated : Bool) (v : Value) :
    (Filter.mk path (.null negated) v).holds (Sql.Atom.holds row) = negated := by
  simp [Filter.holds, Filter.atoms, Sql.Atom.holds, hrow, Value.whole]

/-- Of a range and its opposite, which have the same two bounds, one holds and the other does not
just for the numbers in the range, and for these only if the bounds differ. -/
theorem Filter.holds_between_not (negated : Bool) {low high : Int} (hle : low ≤ high) :
    (Filter.mk path (.between !negated) (.list [.whole low, .whole high])).holds
        (Sql.Atom.holds row) =
      (!(Filter.mk path (.between negated) (.list [.whole low, .whole high])).holds
        (Sql.Atom.holds row)) ↔
    low < high ∧ low ≤ x ∧ x ≤ high := by
  rw [holds_between hrow, holds_between hrow, Bool.eq_iff_iff]
  cases negated <;> simp [Comparison.low, Comparison.high, Comparison.holds] <;> omega

theorem Filter.holds_opposite {op op' : Operator} (hop : op.opposite? = some op') {v : Value}
    (hv : op.TakesWhole v) :
    (Filter.mk path op' v).holds (Sql.Atom.holds row) =
      (!(Filter.mk path op v).holds (Sql.Atom.holds row)) ↔
    ∀ negated low high, op = .between negated → v = .list [.whole low, .whole high] →
      low < high ∧ low ≤ x ∧ x ≤ high := by
  cases op with
  | compare c =>
      obtain rfl := Option.some.inj hop
      obtain ⟨n, rfl⟩ := hv
      simp [holds_compare hrow, Comparison.holds_opposite]
  | like m => cases hop
  | among negated =>
      obtain rfl := Option.some.inj hop
      obtain ⟨ns, -, rfl⟩ := hv
      simp [holds_among hrow]
  | between negated =>
      obtain rfl := Option.some.inj hop
      obtain ⟨low, high, hle, rfl⟩ := hv
      rw [holds_between_not hrow negated hle]
      constructor
      · rintro hrange _ low' high' - he
        obtain ⟨rfl, rfl⟩ : low = low' ∧ high = high' := by simpa using he
        exact hrange
      · exact fun h => h negated low high rfl rfl
  | null negated =>
      obtain rfl := Option.some.inj hop
      simp [holds_null hrow]

end Row

theorem Operator.TakesWhole.fits {op op' : Operator} (hop : op.opposite? = some op') {v : Value}
    (hv : op.TakesWhole v) (path : String) :
    (Filter.mk path op v).fits = true ∧ (Filter.mk path op' v).fits = true := by
  cases op with
  | compare c =>
      obtain rfl := Option.some.inj hop
      exact ⟨rfl, rfl⟩
  | like m => cases hop
  | among negated =>
      obtain rfl := Option.some.inj hop
      obtain ⟨ns, -, rfl⟩ := hv
      exact ⟨rfl, rfl⟩
  | between negated =>
      obtain rfl := Option.some.inj hop
      obtain ⟨low, high, -, rfl⟩ := hv
      exact ⟨rfl, rfl⟩
  | null negated =>
      obtain rfl := Option.some.inj hop
      exact ⟨rfl, rfl⟩

theorem exists_value?_single {truth : Sql.Atom → Bool} {f : Filter} (hpath : IsAttribute f.path)
    (hfits : f.fits = true) (c : Connective) :
    ∃ s, Statement.ofFilters c [f] = .ok s ∧ s.value? truth = some (f.holds truth) := by
  obtain ⟨s, hs⟩ := (exists_ofFilters_iff (c := c)).2 (List.forall_mem_singleton.2 hfits)
  refine ⟨s, hs, ?_⟩
  rw [value?_ofFilters (List.forall_mem_singleton.2 hpath) hs]
  cases c <;> simp [Sql.fold?, Sql.fold]

/-- For a row with a whole number under the attribute, exactly one of the clauses of an operator
and its opposite holds; for ranges this is so within the range, if its bounds differ, and nowhere
else. -/
theorem opposite_clauses {op op' : Operator} (hop : op.opposite? = some op') {v : Value}
    (hv : op.TakesWhole v) {path : String} (hpath : IsAttribute path) (c : Connective)
    {row : Sql.Row} {x : Int} (hrow : row path = .whole x) :
    ∃ s s' b b', Statement.ofFilters c [⟨path, op, v⟩] = .ok s ∧
      Statement.ofFilters c [⟨path, op', v⟩] = .ok s' ∧
      s.value? (Sql.Atom.holds row) = some b ∧ s'.value? (Sql.Atom.holds row) = some b' ∧
      (b' = (!b) ↔ ∀ negated low high, op = .between negated →
        v = .list [.whole low, .whole high] → low < high ∧ low ≤ x ∧ x ≤ high) := by
  obtain ⟨hfits, hfits'⟩ := hv.fits hop path
  obtain ⟨s, hs, hvalue⟩ := exists_value?_single (f := ⟨path, op, v⟩) hpath hfits c
  obtain ⟨s', hs', hvalue'⟩ := exists_value?_single (f := ⟨path, op', v⟩) hpath hfits' c
  exact ⟨s, s', _, _, hs, hs', hvalue, hvalue', Filter.holds_opposite hrow hop hv⟩

def guests (negated : Bool) : Filter :=
  ⟨"guest.age", .between negated, .list [.whole 18, .whole 65]⟩

def guestOf (age : Int) : Sql.Row := fun _ => .whole age

theorem opposite_clauses_guests :
    Operator.opposite? (.between false) = some (.between true) ∧
      Operator.TakesWhole (.between false) (.list [.whole 18, .whole 65]) ∧
      IsAttribute "guest.age" ∧
      ∃ s s' b, Statement.ofFilters .and [guests false] = .ok s ∧
        Statement.ofFilters .and [guests true] = .ok s' ∧
        s.value? (Sql.Atom.holds (guestOf 30)) = some b ∧
        s'.value? (Sql.Atom.holds (guestOf 30)) = some (!b) := by
  have hop : Operator.opposite? (.between false) = some (.between true) := rfl
  have htakes : Operator.TakesWhole (.between false) (.list [.whole 18, .whole 65]) :=
    ⟨18, 65, by decide, rfl⟩
  have hpath : IsAttribute "guest.age" := by decide +kernel
  have hrow : guestOf 30 "guest.age" = .whole 30 := rfl
  obtain ⟨s, s', b, b', hs, hs', hb, hb', hiff⟩ :=
    opposite_clauses hop htakes hpath .and hrow
  have hrange : b' = !b := by
    refine hiff.2 fun negated low high _ he => ?_
    obtain ⟨rfl, rfl⟩ : 18 = low ∧ 65 = high := by simpa using he
    decide
  exact ⟨hop, htakes, hpath, s, s', b, hs, hs', hb, hrange ▸ hb'⟩

/-- A guest of nine is neither inside nor outside. -/
theorem opposite_clauses_outside :
    (Statement.ofFilters .and [guests false]).toOption.map (fun s =>
        (s.clause, s.value? (Sql.Atom.holds (guestOf 9)))) =
      some ("guest.age >= :guest_age_1 AND guest.age <= :guest_age_2", some false) ∧
    (Statement.ofFilters .and [guests true]).toOption.map (fun s =>
        (s.clause, s.value? (Sql.Atom.holds (guestOf 9)))) =
      some ("guest.age <= :guest_age_1 AND guest.age >= :guest_age_2", some false) := by
  decide +kernel

end ClauseWeave
