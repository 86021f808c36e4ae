namespace ClauseWeave

/-- Entries in strictly ascending order of their names, so equal maps have equal entries. -/
structure Dict (α : Type) where
  entries : List (String × α)
  ascending : (entries.map Prod.fst).Pairwise (· < ·)

namespace Dict

variable {α β : Type}

def empty : Dict α := ⟨[], .nil⟩

instance : Inhabited (Dict α) := ⟨empty⟩

instance : EmptyCollection (Dict α) := ⟨empty⟩

def keys (d : Dict α) : List String := d.entries.map Prod.fst

def values (d : Dict α) : List α := d.entries.map Prod.snd

def size (d : Dict α) : Nat := d.entries.length

def isEmpty (d : Dict α) : Bool := d.entries.isEmpty

def get? (d : Dict α) (k : String) : Option α := d.entries.lookup k

def contains (d : Dict α) (k : String) : Bool := (d.get? k).isSome

def put (k : String) (v : α) : List (String × α) → List (String × α)
  | [] => [(k, v)]
  | (k', v') :: rest =>
    if k < k' then (k, v) :: (k', v') :: rest
    else if k' < k then (k', v') :: put k v rest
    else (k, v) :: rest

theorem eq_of_not_lt {a b : String} (hab : ¬ a < b) (hba : ¬ b < a) : a = b :=
  String.le_antisymm (String.not_lt.1 hba) (String.not_lt.1 hab)

theorem mem_keys_put {k j : String} {v : α} {l : List (String × α)} :
    j ∈ (put k v l).map Prod.fst ↔ j = k ∨ j ∈ l.map Prod.fst := by
  induction l with
  | nil => simp [put]
  | cons e rest ih =>
    obtain ⟨k', v'⟩ := e
    by_cases hlt : k < k'
    · simp [put, hlt]
    · by_cases hgt : k' < k
      · simp only [put, hlt, hgt, if_true, if_false, List.map_cons, List.mem_cons, ih]
        grind
      · have := eq_of_not_lt hlt hgt
        simp [put, this]

theorem ascending_put (k : String) (v : α) {l : List (String × α)}
    (h : (l.map Prod.fst).Pairwise (· < ·)) : ((put k v l).map Prod.fst).Pairwise (· < ·) := by
  induction l with
  | nil => simp [put]
  | cons e rest ih =>
    obtain ⟨k', v'⟩ := e
    simp only [List.map_cons, List.pairwise_cons] at h
    by_cases hlt : k < k'
    · simp only [put, hlt, if_true, List.map_cons, List.pairwise_cons, List.mem_cons]
      refine ⟨?_, h⟩
      rintro j (rfl | hj)
      · exact hlt
      · exact String.lt_trans hlt (h.1 j hj)
    · by_cases hgt : k' < k
      · simp only [put, hlt, hgt, if_true, if_false, List.map_cons, List.pairwise_cons]
        refine ⟨fun j hj => ?_, ih h.2⟩
        rcases mem_keys_put.1 hj with rfl | hj
        · exact hgt
        · exact h.1 j hj
      · have := eq_of_not_lt hlt hgt
        subst this
        simpa [put, hlt] using h

def insert (d : Dict α) (k : String) (v : α) : Dict α :=
  ⟨put k v d.entries, ascending_put k v d.ascending⟩

/-- The last of repeated names wins. -/
def ofList (l : List (String × α)) : Dict α := l.foldl (fun d e => d.insert e.1 e.2) empty

def map (f : α → β) (d : Dict α) : Dict β :=
  ⟨d.entries.map fun e => (e.1, f e.2), by simpa [List.map_map, Function.comp_def] using d.ascending⟩

theorem lookup_pair_cons (k : String) (v : α) (l : List (String × α)) (j : String) :
    ((k, v) :: l).lookup j = if j = k then some v else l.lookup j := by
  rw [List.lookup_cons]
  by_cases h : j = k
  · simp [h]
  · have : (j == k) = false := beq_eq_false_iff_ne.2 h
    simp [this, h]

theorem lookup_put (k : String) (v : α) (l : List (String × α)) (j : String) :
    (put k v l).lookup j = if j = k then some v else l.lookup j := by
  induction l with
  | nil => exact lookup_pair_cons k v [] j
  | cons e rest ih =>
    obtain ⟨k', v'⟩ := e
    by_cases hlt : k < k'
    · simp only [put, hlt, if_true, lookup_pair_cons]
    · by_cases hgt : k' < k
      · simp only [put, hlt, hgt, if_true, if_false, lookup_pair_cons, ih]
        by_cases hj : j = k'
        · have hne : k' ≠ k := fun he => String.lt_irrefl k (he ▸ hgt)
          simp [hj, hne]
        · simp [hj]
      · have := eq_of_not_lt hlt hgt
        subst this
        by_cases hj : j = k <;> simp [put, lookup_pair_cons, hj]

@[simp]
theorem get?_empty (j : String) : (∅ : Dict α).get? j = none := rfl

@[simp]
theorem get?_insert (d : Dict α) (k : String) (v : α) (j : String) :
    (d.insert k v).get? j = if j = k then some v else d.get? j := lookup_put k v d.entries j

theorem contains_iff {d : Dict α} {k : String} : d.contains k = true ↔ k ∈ d.keys := by
  obtain ⟨l, _⟩ := d
  simp only [contains, get?, keys]
  induction l with
  | nil => simp
  | cons e rest ih =>
    obtain ⟨k', v'⟩ := e
    by_cases hk : k = k' <;> simp_all [lookup_pair_cons]

theorem keys_map (f : α → β) (d : Dict α) : (d.map f).keys = d.keys := by
  simp [keys, map, Function.comp_def]

theorem mem_keys_insert {d : Dict α} {k j : String} {v : α} :
    j ∈ (d.insert k v).keys ↔ j = k ∨ j ∈ d.keys := mem_keys_put

@[ext]
theorem ext {d e : Dict α} (h : d.entries = e.entries) : d = e := by
  cases d
  cases e
  simp_all

end Dict

end ClauseWeave
