import ClauseWeave.Proofs.FreshName
import Mathlib.Data.Finset.Card
import Mathlib.Order.Bounds.Basic

namespace ClauseWeave.Name

def baseOf (candidate : String) : String := (splitCounter candidate).1

/-- The counter of a candidate, where none is as good as zero. -/
def counterOf (candidate : String) : Nat := (splitCounter candidate).2.getD 0

theorem split_cases (candidate : String) :
    (splitCounter candidate = (baseOf candidate, none) ∧ baseOf candidate = candidate ∧
        counterOf candidate = 0) ∨
      (splitCounter candidate = (baseOf candidate, some (counterOf candidate)) ∧
        counterOf candidate ≤ greatestCounter) := by
  unfold baseOf counterOf
  rcases hsplit : splitCounter candidate with ⟨base, _ | n⟩
  · exact .inl ⟨rfl, eq_of_splitCounter_eq_none hsplit, rfl⟩
  · have hn := (splitCounter_eq_some_iff.1 hsplit).lt_size
    exact .inr ⟨rfl, Nat.not_lt.1 fun hlt => greatestCounter_lt_iff.1 hlt hn⟩

theorem counterOf_le (candidate : String) : counterOf candidate ≤ greatestCounter := by
  rcases split_cases candidate with ⟨-, -, hzero⟩ | ⟨-, hle⟩
  · exact hzero ▸ Nat.zero_le _
  · exact hle

variable {candidate : String} {used : List String}

theorem numbered_baseOf_ne {n : Nat} (h : counterOf candidate < n) :
    numbered (baseOf candidate) n ≠ candidate := by
  rcases split_cases candidate with ⟨-, hbase, -⟩ | ⟨hsplit, -⟩
  · rw [hbase]
    exact numbered_ne_self candidate n
  · exact numbered_ne_of_splitCounter hsplit h.ne'

theorem attempt_onward {k : Nat} (h : counterOf candidate + k < greatestCounter) :
    attempt candidate (k + 1) = numbered (baseOf candidate) (counterOf candidate + k + 1) := by
  rcases split_cases candidate with ⟨hsplit, hbase, hzero⟩ | ⟨hsplit, -⟩
  · rw [attempt, hsplit, hbase, hzero, Nat.zero_add]
  · rw [attempt, hsplit]
    exact if_pos h

theorem attempt_anew {k : Nat} (h : greatestCounter ≤ counterOf candidate + k)
    (hk : k < greatestCounter) : attempt candidate (k + 1) =
      numbered candidate (counterOf candidate + k + 1 - greatestCounter) := by
  rcases split_cases candidate with ⟨-, -, hzero⟩ | ⟨hsplit, -⟩
  · omega
  · rw [attempt, hsplit]
    exact if_neg (Nat.not_lt.2 h)

/-- All attempts before the fresh one are in use, so they are no more than there are names. -/
theorem exists_fresh_eq_attempt (candidate : String) (used : List String) :
    ∃ i ≤ used.toFinset.card, fresh candidate used = attempt candidate i ∧
      ∀ j < i, attempt candidate j ∈ used := by
  obtain ⟨i, hi, he⟩ := exists_find?_eq_some candidate used
  obtain ⟨-, -, hbefore⟩ := List.find?_range_eq_some.1 hi
  have hused : ∀ j < i, attempt candidate j ∈ used := fun j hj => by simpa using hbefore j hj
  have hsub : (Finset.range i).image (attempt candidate) ⊆ used.toFinset := by
    intro name hname
    obtain ⟨j, hj, rfl⟩ := Finset.mem_image.1 hname
    exact List.mem_toFinset.2 (hused j (Finset.mem_range.1 hj))
  have hcard := Finset.card_le_card hsub
  rw [Finset.card_image_of_injective _ (attempt_injective candidate), Finset.card_range] at hcard
  exact ⟨i, hcard, he, hused⟩

/-- The name tried last, by its base and counter. -/
structure Probe where
  base : String
  counter : UInt64

namespace Probe

def name (p : Probe) : String := numbered p.base p.counter.toNat

def start (candidate : String) : Probe := ⟨baseOf candidate, .ofNat (counterOf candidate)⟩

/-- Behind the greatest counter the whole candidate becomes the base. -/
def next (candidate : String) (p : Probe) : Probe :=
  if p.counter.toNat < greatestCounter then { p with counter := p.counter + 1 } else ⟨candidate, 1⟩

def after (candidate : String) (count : Nat) : Probe := (next candidate)^[count] (start candidate)

theorem after_succ (candidate : String) (count : Nat) :
    after candidate (count + 1) = (after candidate count).next candidate :=
  Function.iterate_succ_apply' ..

theorem toNat_next {p : Probe} (h : p.counter.toNat < greatestCounter) :
    (p.next candidate).counter.toNat = p.counter.toNat + 1 := by
  rw [next, if_pos h, UInt64.toNat_add]
  exact Nat.mod_eq_of_lt (by simpa [greatestCounter] using Nat.add_lt_of_lt_sub h)

theorem toNat_ofNat_counter {n : Nat} (h : n ≤ greatestCounter) : (UInt64.ofNat n).toNat = n :=
  UInt64.toNat_ofNat_of_lt' (Nat.lt_of_le_pred (by decide) h)

theorem next_onward {front : String} {n : Nat} (h : n < greatestCounter) :
    next candidate ⟨front, .ofNat n⟩ = ⟨front, .ofNat (n + 1)⟩ := by
  rw [next, if_pos ((toNat_ofNat_counter h.le).symm ▸ h), UInt64.ofNat_add]
  rfl

theorem next_anew (front : String) :
    next candidate ⟨front, .ofNat greatestCounter⟩ = ⟨candidate, .ofNat 1⟩ :=
  if_neg (toNat_ofNat_counter le_rfl).ge.not_gt

theorem after_onward {count : Nat} (h : counterOf candidate + count ≤ greatestCounter) :
    after candidate count = ⟨baseOf candidate, .ofNat (counterOf candidate + count)⟩ := by
  induction count with
  | zero => rfl
  | succ count ih =>
      have hlt : counterOf candidate + count < greatestCounter := h
      rw [after_succ, ih hlt.le, next_onward hlt, Nat.add_assoc]

theorem after_anew {extra : Nat} (h : extra < greatestCounter) :
    after candidate (greatestCounter - counterOf candidate + (extra + 1)) =
      ⟨candidate, .ofNat (extra + 1)⟩ := by
  rw [← Nat.add_assoc, after_succ]
  induction extra with
  | zero =>
      have hall : counterOf candidate + (greatestCounter - counterOf candidate) = greatestCounter :=
        Nat.add_sub_of_le (counterOf_le candidate)
      rw [Nat.add_zero, after_onward hall.le, hall, next_anew]
  | succ extra ih => rw [← Nat.add_assoc, after_succ, ih (Nat.lt_of_succ_lt h), next_onward h]

theorem name_after {k : Nat} (h : k < greatestCounter) :
    (after candidate (k + 1)).name = attempt candidate (k + 1) := by
  have hle := counterOf_le candidate
  by_cases hk : counterOf candidate + k < greatestCounter
  · have hsucc : counterOf candidate + (k + 1) ≤ greatestCounter := hk
    rw [after_onward hsucc, attempt_onward hk, name, toNat_ofNat_counter hsucc, Nat.add_assoc]
  · obtain ⟨extra, hextra⟩ := Nat.exists_eq_add_of_le (Nat.not_lt.1 hk)
    have hlt : extra < greatestCounter := by omega
    have hcount : k + 1 = greatestCounter - counterOf candidate + (extra + 1) := by omega
    have hnumber : counterOf candidate + k + 1 - greatestCounter = extra + 1 := by omega
    rw [attempt_anew (Nat.not_lt.1 hk) h, hnumber, hcount, after_anew hlt, name,
      toNat_ofNat_counter hlt]

end Probe

/-- The counters behind a bound under which a name of the base is free. -/
def free (used : List String) (base : String) (bound : Nat) : Set Nat :=
  {n | bound < n ∧ numbered base n ∉ used}

/-- The least free counter of the base decides as long as it has 64 bits, and then the least free
counter of the candidate. -/
inductive FirstFit (candidate : String) (used : List String) : String → Prop
  | onward {n : Nat} (h : IsLeast (free used (baseOf candidate) (counterOf candidate)) n)
      (hn : n ≤ greatestCounter) : FirstFit candidate used (numbered (baseOf candidate) n)
  | anew {m : Nat}
      (hall : ∀ n ∈ free used (baseOf candidate) (counterOf candidate), greatestCounter < n)
      (h : IsLeast (free used candidate 0) m) (hm : m ≤ greatestCounter) :
      FirstFit candidate used (numbered candidate m)

section Tried

variable {k : Nat} (hused : ∀ j < k, attempt candidate (j + 1) ∈ used)

include hused

theorem mem_of_tried_onward {n : Nat} (hlow : counterOf candidate < n)
    (hhigh : n ≤ greatestCounter) (hn : n ≤ counterOf candidate + k) :
    numbered (baseOf candidate) n ∈ used := by
  obtain ⟨j, rfl⟩ := Nat.exists_eq_add_of_lt hlow
  rw [← attempt_onward (Nat.lt_of_succ_le hhigh)]
  exact hused j (by omega)

theorem mem_of_tried_anew (hk : k < greatestCounter) {m : Nat} (hlow : 0 < m)
    (hm : greatestCounter + m ≤ counterOf candidate + k) : numbered candidate m ∈ used := by
  have hle := counterOf_le candidate
  obtain ⟨j, hj⟩ : ∃ j, m = counterOf candidate + j + 1 - greatestCounter :=
    ⟨greatestCounter + m - counterOf candidate - 1, by omega⟩
  rw [hj, ← attempt_anew (by omega) (by omega)]
  exact hused j (by omega)

theorem firstFit_attempt (hk : k < greatestCounter) (hfree : attempt candidate (k + 1) ∉ used) :
    FirstFit candidate used (attempt candidate (k + 1)) := by
  have hle := counterOf_le candidate
  by_cases honward : counterOf candidate + k < greatestCounter
  · rw [attempt_onward honward] at hfree ⊢
    refine .onward ⟨⟨by omega, hfree⟩, fun n ⟨hn, hnfree⟩ => ?_⟩ honward
    by_contra hlt
    exact hnfree (mem_of_tried_onward hused hn (by omega) (by omega))
  · rw [attempt_anew (Nat.not_lt.1 honward) hk] at hfree ⊢
    refine .anew (fun n ⟨hn, hnfree⟩ => ?_) ⟨⟨by omega, hfree⟩, fun m ⟨hm, hmfree⟩ => ?_⟩ (by omega)
    · by_contra hlt
      exact hnfree (mem_of_tried_onward hused hn (by omega) (by omega))
    · by_contra hlt
      exact hmfree (mem_of_tried_anew hused hk hm (by omega))

end Tried

section FewNames

variable (hcard : used.toFinset.card < UInt64.size) (hmem : candidate ∈ used)

include hcard hmem

theorem exists_fresh_eq_attempt_succ : ∃ k < used.toFinset.card, k < greatestCounter ∧
    fresh candidate used = attempt candidate (k + 1) ∧
      ∀ j < k, attempt candidate (j + 1) ∈ used := by
  obtain ⟨i, hi, he, hused⟩ := exists_fresh_eq_attempt candidate used
  cases i with
  | zero =>
      have hfree := fresh_not_mem candidate used
      rw [he] at hfree
      exact absurd hmem hfree
  | succ k =>
      have hk : k < greatestCounter := Nat.lt_sub_of_add_lt (hi.trans_lt hcard)
      exact ⟨k, hi, hk, he, fun j hj => hused (j + 1) (Nat.succ_lt_succ hj)⟩

theorem firstFit_fresh : FirstFit candidate used (fresh candidate used) := by
  obtain ⟨k, -, hk, he, hused⟩ := exists_fresh_eq_attempt_succ hcard hmem
  rw [he]
  exact firstFit_attempt hused hk (he ▸ fresh_not_mem candidate used)

theorem exists_name_after_eq_fresh : ∃ k < used.toFinset.card,
    (∀ j < k, (Probe.after candidate (j + 1)).name ∈ used) ∧
      (Probe.after candidate (k + 1)).name = fresh candidate used := by
  obtain ⟨k, hlt, hk, he, hused⟩ := exists_fresh_eq_attempt_succ hcard hmem
  refine ⟨k, hlt, fun j hj => ?_, (Probe.name_after hk).trans he.symm⟩
  rw [Probe.name_after (hj.trans hk)]
  exact hused j hj

end FewNames

/-- The names that a candidate is given when it comes again and again. -/
def issue (candidate : String) (used : List String) : Nat → List String
  | 0 => []
  | count + 1 =>
    fresh candidate used :: issue candidate (fresh candidate used :: used) count

theorem not_mem_of_mem_issue {count : Nat} :
    ∀ name ∈ issue candidate used count, name ∉ used := by
  induction count generalizing used with
  | zero => simp [issue]
  | succ count ih =>
      intro name hname
      rcases List.mem_cons.1 hname with rfl | hname
      · exact fresh_not_mem candidate used
      · exact fun h => ih name hname (List.mem_cons_of_mem _ h)

theorem nodup_issue (candidate : String) (used : List String) (count : Nat) :
    (issue candidate used count).Nodup := by
  induction count generalizing used with
  | zero => exact .nil
  | succ count ih =>
      exact List.nodup_cons.2 ⟨fun h => not_mem_of_mem_issue _ h (by simp), ih _⟩

def Rising (bound : Nat) (ns : List Nat) : Prop :=
  (bound :: ns).Pairwise (· < ·) ∧ ∀ n ∈ ns, n ≤ greatestCounter

theorem Rising.nil (bound : Nat) : Rising bound [] := ⟨List.pairwise_singleton .., by simp⟩

theorem Rising.lt {bound n : Nat} {ns : List Nat} (h : Rising bound ns) (hn : n ∈ ns) : bound < n :=
  List.rel_of_pairwise_cons h.1 hn

theorem Rising.cons {bound n : Nat} {ns : List Nat} (h : Rising bound ns) (hbound : bound < n)
    (hn : n ≤ greatestCounter) (hfirst : ∀ k ∈ ns, n < k) : Rising bound (n :: ns) := by
  obtain ⟨hbelow, hns⟩ := List.pairwise_cons.1 h.1
  refine ⟨List.pairwise_cons.2 ⟨?_, List.pairwise_cons.2 ⟨hfirst, hns⟩⟩, ?_⟩
  · simpa using ⟨hbound, hbelow⟩
  · simpa using ⟨hn, h.2⟩

/-- The names have rising counters of the base, and then rising counters of the candidate, which
do not begin before the base has run out of counters. -/
structure Runs (candidate : String) (used names : List String) (ns ms : List Nat) : Prop where
  names_eq : names = ns.map (numbered (baseOf candidate)) ++ ms.map (numbered candidate)
  onward : Rising (counterOf candidate) ns
  anew : Rising 0 ms
  exhausted : ms ≠ [] → ∀ n, counterOf candidate < n → n ≤ greatestCounter →
    numbered (baseOf candidate) n ∈ used ∨ n ∈ ns

theorem lt_of_isLeast_free {base : String} {bound n k : Nat} (h : IsLeast (free used base bound) n)
    (hk : bound < k) (hfree : numbered base k ∉ numbered base n :: used) : n < k := by
  rw [List.mem_cons, not_or] at hfree
  refine lt_of_le_of_ne (h.2 ⟨hk, hfree.2⟩) ?_
  rintro rfl
  exact hfree.1 rfl

theorem Runs.cons {name : String} {names : List String} {ns ms : List Nat}
    (hname : FirstFit candidate used name) (h : Runs candidate (name :: used) names ns ms)
    (hfree : ∀ other ∈ names, other ∉ name :: used) :
    ∃ ns ms, Runs candidate used (name :: names) ns ms := by
  have hns : ∀ n ∈ ns, numbered (baseOf candidate) n ∉ name :: used := fun n hn =>
    hfree _ (h.names_eq ▸ List.mem_append_left _ (List.mem_map_of_mem hn))
  have hms : ∀ m ∈ ms, numbered candidate m ∉ name :: used := fun m hm =>
    hfree _ (h.names_eq ▸ List.mem_append_right _ (List.mem_map_of_mem hm))
  cases hname with
  | @onward n hleast hn =>
      refine ⟨n :: ns, ms, ⟨by rw [h.names_eq]; rfl, ?_, h.anew, fun hne k hlow hhigh => ?_⟩⟩
      · exact h.onward.cons hleast.1.1 hn fun k hk =>
          lt_of_isLeast_free hleast (h.onward.lt hk) (hns k hk)
      · rcases h.exhausted hne k hlow hhigh with hmem | hmem
        · rcases List.mem_cons.1 hmem with he | hmem
          · exact .inr ((numbered_inj he).2 ▸ List.mem_cons_self)
          · exact .inl hmem
        · exact .inr (List.mem_cons_of_mem _ hmem)
  | @anew m hall hleast hm =>
      -- whatever the base had left would have been found before
      have hnone : ns = [] := by
        refine List.eq_nil_iff_forall_not_mem.2 fun n hn => ?_
        have hgreat := hall n ⟨h.onward.lt hn, fun hmem => hns n hn (List.mem_cons_of_mem _ hmem)⟩
        exact absurd (h.onward.2 n hn) hgreat.not_ge
      refine ⟨[], m :: ms, ⟨by rw [h.names_eq, hnone]; rfl, .nil _, ?_, fun _ n hlow hhigh => ?_⟩⟩
      · exact h.anew.cons hleast.1.1 hm fun k hk =>
          lt_of_isLeast_free hleast (h.anew.lt hk) (hms k hk)
      · by_contra hfree
        exact absurd hhigh (hall n ⟨hlow, fun hmem => hfree (.inl hmem)⟩).not_ge

theorem card_toFinset_cons_le (name : String) (used : List String) :
    (name :: used).toFinset.card ≤ used.toFinset.card + 1 := by
  rw [List.toFinset_cons]
  exact Finset.card_insert_le name used.toFinset

theorem exists_runs_issue {count : Nat} (hcard : used.toFinset.card + count ≤ UInt64.size)
    (hmem : candidate ∈ used) :
    ∃ ns ms, Runs candidate used (issue candidate used count) ns ms := by
  induction count generalizing used with
  | zero => exact ⟨[], [], ⟨rfl, .nil _, .nil _, fun hne => absurd rfl hne⟩⟩
  | succ count ih =>
      have hcons := Nat.add_le_add_right (card_toFinset_cons_le (fresh candidate used) used) count
      obtain ⟨ns, ms, hruns⟩ := ih (hcons.trans (by omega)) (List.mem_cons_of_mem _ hmem)
      exact hruns.cons (firstFit_fresh (by omega) hmem) not_mem_of_mem_issue

theorem exists_issue_eq {count : Nat} (hcard : used.toFinset.card + count ≤ UInt64.size) :
    ∃ names ns ms, issue candidate used count =
        (if candidate ∈ used then [] else [candidate].take count) ++ names ∧
      Runs candidate used names ns ms := by
  split
  next hmem =>
    obtain ⟨ns, ms, hruns⟩ := exists_runs_issue hcard hmem
    exact ⟨_, ns, ms, rfl, hruns⟩
  next hmem =>
    cases count with
    | zero => exact ⟨[], [], [], rfl, ⟨rfl, .nil _, .nil _, fun hne => absurd rfl hne⟩⟩
    | succ count =>
        have hcons := Nat.add_le_add_right (card_toFinset_cons_le candidate used) count
        obtain ⟨ns, ms, hruns⟩ := exists_runs_issue (hcons.trans (by omega)) List.mem_cons_self
        refine ⟨_, ns, ms, ?_, { hruns with exhausted := fun hne n hlow hhigh => ?_ }⟩
        · rw [issue, fresh_eq_self hmem]
          simp
        · refine (hruns.exhausted hne n hlow hhigh).imp_left fun hmem => ?_
          exact (List.mem_cons.1 hmem).resolve_left (numbered_baseOf_ne hlow)

/-- The name for a candidate is not in use. It is the candidate itself if that is free, and else
the first fit, which the search with a 64-bit counter comes to after no more steps than there are
names in use. The counter does not overflow. A candidate that comes again and again is given a new
name each time, with rising counters under its base until they are used up. -/
theorem fresh_first_fit (candidate : String) {used : List String}
    (h : used.toFinset.card < UInt64.size) :
    fresh candidate used ∉ used ∧ (candidate ∉ used → fresh candidate used = candidate) ∧
      (candidate ∈ used → FirstFit candidate used (fresh candidate used) ∧
        ∃ k < used.toFinset.card, (∀ j < k, (Probe.after candidate (j + 1)).name ∈ used) ∧
          (Probe.after candidate (k + 1)).name = fresh candidate used) ∧
      (∀ p : Probe, p.counter.toNat < greatestCounter →
        (p.next candidate).counter.toNat = p.counter.toNat + 1) ∧
      ∀ count, (issue candidate used count).Nodup ∧
        (used.toFinset.card + count ≤ UInt64.size → ∃ names ns ms, issue candidate used count =
            (if candidate ∈ used then [] else [candidate].take count) ++ names ∧
          Runs candidate used names ns ms) := by
  refine ⟨fresh_not_mem candidate used, fresh_eq_self, fun hmem => ?_, fun p => Probe.toNat_next,
    fun count => ⟨nodup_issue candidate used count, exists_issue_eq⟩⟩
  exact ⟨firstFit_fresh h hmem, exists_name_after_eq_fresh h hmem⟩

/-- The candidate has the greatest counter, so it becomes the base itself. -/
theorem fresh_first_fit_greatest : ["n_18446744073709551615"].toFinset.card < UInt64.size ∧
    (Probe.after "n_18446744073709551615" 1).counter = 1 ∧
    fresh "n_18446744073709551615" ["n_18446744073709551615"] = "n_18446744073709551615_1" := by
  have hcard : ["n_18446744073709551615"].toFinset.card < UInt64.size := by decide
  obtain ⟨-, -, hused, -⟩ := fresh_first_fit "n_18446744073709551615" hcard
  obtain ⟨-, k, hk, -, he⟩ := hused (by simp)
  obtain rfl : k = 0 := Nat.lt_one_iff.1 hk
  exact ⟨hcard, by decide +kernel, he.symm.trans (by decide +kernel)⟩

example : issue "age" ["age_2", "name"] 4 = ["age", "age_1", "age_3", "age_4"] := by decide +kernel

end ClauseWeave.Name
