import ClauseWeave.Dict
import Mathlib.Data.List.Perm.Basic

namespace ClauseWeave.Dict

variable {α : Type}

@[simp]
theorem keys_empty : (∅ : Dict α).keys = [] := rfl

theorem size_eq_length_keys (d : Dict α) : d.size = d.keys.length := by simp [size, keys]

theorem nodup_keys (d : Dict α) : d.keys.Nodup := by
  refine List.Pairwise.imp (fun {a b} hlt => ?_) d.ascending
  rintro rfl
  exact String.lt_irrefl a hlt

theorem mem_keys_iff {d : Dict α} {k : String} : k ∈ d.keys ↔ ∃ v, d.get? k = some v := by
  rw [← contains_iff, contains, Option.isSome_iff_exists]

theorem get?_eq_none_iff {d : Dict α} {k : String} : d.get? k = none ↔ k ∉ d.keys := by
  rw [← contains_iff, contains, Bool.not_eq_true, Option.isSome_eq_false_iff,
    Option.isNone_iff_eq_none]

theorem mem_keys_of_get? {d : Dict α} {k : String} {v : α} (h : d.get? k = some v) : k ∈ d.keys :=
  mem_keys_iff.2 ⟨v, h⟩

theorem lookup_eq_some_of_mem {l : List (String × α)} (hl : (l.map Prod.fst).Nodup) {k : String}
    {v : α} (h : (k, v) ∈ l) : l.lookup k = some v := by
  induction l with
  | nil => simp at h
  | cons e rest ih =>
      obtain ⟨j, w⟩ := e
      rw [List.map_cons, List.nodup_cons] at hl
      rw [lookup_pair_cons]
      rcases List.mem_cons.1 h with he | hmem
      · obtain ⟨rfl, rfl⟩ := Prod.mk.inj he
        simp
      · have hne : k ≠ j := fun he => hl.1 (List.mem_map.2 ⟨_, hmem, he⟩)
        simp [hne, ih hl.2 hmem]

theorem get?_of_mem {d : Dict α} {k : String} {v : α} (h : (k, v) ∈ d.entries) :
    d.get? k = some v := lookup_eq_some_of_mem d.nodup_keys h

theorem mem_of_lookup_eq_some {l : List (String × α)} {k : String} {v : α}
    (h : l.lookup k = some v) : (k, v) ∈ l := by
  induction l with
  | nil => simp at h
  | cons e rest ih =>
      obtain ⟨j, w⟩ := e
      rw [lookup_pair_cons] at h
      split at h
      next hk => simp_all
      next => exact List.mem_cons_of_mem _ (ih h)

theorem mem_of_get? {d : Dict α} {k : String} {v : α} (h : d.get? k = some v) :
    (k, v) ∈ d.entries := mem_of_lookup_eq_some h

theorem perm_put {k : String} {v : α} {l : List (String × α)} (h : k ∉ l.map Prod.fst) :
    (put k v l).Perm ((k, v) :: l) := by
  induction l with
  | nil => exact .refl _
  | cons e rest ih =>
      obtain ⟨j, w⟩ := e
      rw [List.map_cons, List.mem_cons, not_or] at h
      by_cases hlt : k < j
      · simp [put, hlt]
      · by_cases hgt : j < k
        · simp only [put, hlt, hgt, if_true, if_false]
          exact ((ih h.2).cons _).trans (.swap _ _ _)
        · exact absurd (eq_of_not_lt hlt hgt) h.1

theorem perm_insert {d : Dict α} {k : String} {v : α} (h : k ∉ d.keys) :
    (d.insert k v).entries.Perm ((k, v) :: d.entries) := perm_put h

theorem perm_keys_insert {d : Dict α} {k : String} {v : α} (h : k ∉ d.keys) :
    (d.insert k v).keys.Perm (k :: d.keys) := (perm_insert h).map Prod.fst

theorem exists_perm_put {l : List (String × α)} {k : String} {v : α} (h : l.lookup k = some v)
    (hl : (l.map Prod.fst).Pairwise (· < ·)) :
    ∃ others, l.Perm ((k, v) :: others) ∧ ∀ w, (put k w l).Perm ((k, w) :: others) := by
  induction l with
  | nil => simp at h
  | cons e rest ih =>
      obtain ⟨j, u⟩ := e
      rw [List.map_cons, List.pairwise_cons] at hl
      rw [lookup_pair_cons] at h
      by_cases hk : k = j
      · subst hk
        obtain rfl : u = v := by simpa using h
        have hself : ¬ k < k := String.lt_irrefl k
        exact ⟨rest, .refl _, fun w => by rw [put, if_neg hself, if_neg hself]⟩
      · rw [if_neg hk] at h
        obtain ⟨others, hrest, hput⟩ := ih h hl.2
        have hmem : k ∈ rest.map Prod.fst :=
          List.mem_map.2 ⟨_, hrest.mem_iff.2 List.mem_cons_self, rfl⟩
        have hgt : j < k := hl.1 k hmem
        have hlt : ¬ k < j := fun hlt => String.lt_irrefl _ (String.lt_trans hlt hgt)
        refine ⟨(j, u) :: others, ?_, fun w => ?_⟩
        · exact (hrest.cons _).trans (.swap _ _ _)
        · simp only [put, hlt, hgt, if_true, if_false]
          exact ((hput w).cons _).trans (.swap _ _ _)

theorem exists_perm_insert {d : Dict α} {k : String} {v : α} (h : d.get? k = some v) :
    ∃ others, d.entries.Perm ((k, v) :: others) ∧
      ∀ w, (d.insert k w).entries.Perm ((k, w) :: others) := exists_perm_put h d.ascending

def Extends (d e : Dict α) : Prop := ∀ k v, d.get? k = some v → e.get? k = some v

theorem Extends.refl (d : Dict α) : d.Extends d := fun _ _ h => h

theorem Extends.trans {d e f : Dict α} (hde : d.Extends e) (hef : e.Extends f) : d.Extends f :=
  fun k v h => hef k v (hde k v h)

theorem extends_insert {d : Dict α} {k : String} (v : α) (h : k ∉ d.keys) :
    d.Extends (d.insert k v) := by
  intro j w hj
  have hne : j ≠ k := by
    rintro rfl
    exact h (mem_keys_of_get? hj)
  simp [hne, hj]

theorem get?_foldl_insert (l : List (String × α)) (d : Dict α) (k : String) :
    (l.foldl (fun d e => d.insert e.1 e.2) d).get? k = (l.reverse.lookup k).or (d.get? k) := by
  induction l generalizing d with
  | nil => rfl
  | cons e rest ih =>
      obtain ⟨j, v⟩ := e
      rw [List.foldl_cons, ih, get?_insert, List.reverse_cons, List.lookup_append, Option.or_assoc,
        lookup_pair_cons]
      split <;> rfl

theorem get?_foldl_insert_of_ne {β : Type} {key : β → String} {value : β → α} {l : List β}
    {k : String} (h : ∀ e ∈ l, key e ≠ k) (d : Dict α) :
    (l.foldl (fun d e => d.insert (key e) (value e)) d).get? k = d.get? k := by
  induction l generalizing d with
  | nil => rfl
  | cons e rest ih =>
      have hne : k ≠ key e := (h e List.mem_cons_self).symm
      rw [List.foldl_cons, ih (fun e' he' => h e' (List.mem_cons_of_mem _ he')), get?_insert,
        if_neg hne]

theorem get?_ofList (l : List (String × α)) (k : String) :
    (ofList l).get? k = l.reverse.lookup k := by
  rw [ofList, get?_foldl_insert]
  exact Option.or_none

theorem mem_of_get?_ofList {l : List (String × α)} {k : String} {v : α}
    (h : (ofList l).get? k = some v) : (k, v) ∈ l := by
  rw [get?_ofList] at h
  exact List.mem_reverse.1 (mem_of_lookup_eq_some h)

theorem mem_keys_ofList {l : List (String × α)} {k : String} :
    k ∈ (ofList l).keys ↔ k ∈ l.map Prod.fst := by
  have hrun (d : Dict α) : k ∈ (l.foldl (fun d e => d.insert e.1 e.2) d).keys ↔
      k ∈ d.keys ∨ k ∈ l.map Prod.fst := by
    induction l generalizing d with
    | nil => simp
    | cons e rest ih => simp [ih, mem_keys_insert, or_assoc, or_left_comm]
  exact (hrun ∅).trans (by simp)

end ClauseWeave.Dict
