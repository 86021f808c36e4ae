import ClauseWeave.Proofs.Entries
import ClauseWeave.Proofs.Scanning

namespace ClauseWeave

namespace Piece

/-- What stands in front of the first marker, between each two of them, and behind the last. -/
def gaps : List Piece → List (List Char)
  | [] => [[]]
  | marker _ :: rest => [] :: gaps rest
  | p :: rest => (gaps rest).modifyHead (p.chars ++ ·)

theorem gaps_ne_nil (ps : List Piece) : gaps ps ≠ [] := by
  induction ps with
  | nil => simp [gaps]
  | cons p rest ih => cases p <;> simp [gaps, ih]

theorem gaps_map_rename (renames : Dict String) (ps : List Piece) :
    gaps (ps.map (rename renames)) = gaps ps := by
  induction ps with
  | nil => rfl
  | cons p rest ih =>
      cases p with
      | marker name => rw [List.map_cons, rename_marker, gaps, gaps, ih]
      | other c | cast | literal text => simp only [List.map_cons, rename, gaps, ih]

end Piece

/-- The gaps of a text; a cast belongs to the gap in which it stands. -/
def gapsIn (s : String) : List String := (Piece.gaps (scan s)).map String.ofList

def withMarkers : List String → List String → String
  | gap :: gaps, name :: names => gap ++ ":" ++ name ++ withMarkers gaps names
  | gaps, _ => String.join gaps

theorem withMarkers_append (front gap : String) (gaps names : List String) :
    withMarkers ((front ++ gap) :: gaps) names = front ++ withMarkers (gap :: gaps) names := by
  cases names <;> simp [withMarkers, String.append_assoc]

theorem withMarkers_gaps (ps : List Piece) :
    withMarkers ((Piece.gaps ps).map String.ofList) (ps.filterMap Piece.markerName?) =
      String.ofList (ps.flatMap Piece.chars) := by
  induction ps with
  | nil => simp [Piece.gaps, withMarkers]
  | cons p rest ih =>
      cases p with
      | marker name =>
          simp only [Piece.gaps, List.map_cons, List.filterMap_cons, Piece.markerName?_marker,
            withMarkers, ih]
          simp [Piece.chars, String.ofList_append, String.ofList_cons, String.append_assoc]
      | other c | cast | literal text =>
          obtain ⟨gap, others, hgaps⟩ := List.exists_cons_of_ne_nil (Piece.gaps_ne_nil rest)
          rw [hgaps] at ih
          simp only [Piece.gaps, hgaps, List.modifyHead_cons, List.map_cons, List.filterMap_cons,
            Piece.markerName?, String.ofList_append, withMarkers_append, List.flatMap_cons]
          rw [← ih, List.map_cons]

theorem withMarkers_gapsIn (s : String) : withMarkers (gapsIn s) (markersIn s) = s := by
  rw [gapsIn, markersIn_eq, withMarkers_gaps, scan, Piece.flatMap_chars_pieces,
    String.ofList_toList]

section Renaming

variable {renames : Dict String} (hnames : ∀ new ∈ renames.values, IsName new) (s : String)

include hnames

theorem isName_renamed {name : String} (h : IsName name) : IsName (renamed renames name) := by
  cases hnew : renames.get? name with
  | none => simpa [renamed, hnew] using h
  | some new =>
      have hmem : new ∈ renames.values := List.mem_map.2 ⟨_, Dict.mem_of_get? hnew, rfl⟩
      simpa [renamed, hnew] using hnames new hmem

theorem markersIn_relabel_of_values :
    markersIn (relabel renames s) = (markersIn s).map (renamed renames) :=
  markersIn_relabel fun _ hname => isName_renamed hnames (isName_of_mem_markersIn hname)

theorem gapsIn_relabel : gapsIn (relabel renames s) = gapsIn s := by
  rw [gapsIn, gapsIn, scan_relabel fun _ hname =>
    isName_renamed hnames (isName_of_mem_markersIn hname), Piece.gaps_map_rename]

theorem relabel_eq_withMarkers :
    relabel renames s = withMarkers (gapsIn s) ((markersIn s).map (renamed renames)) := by
  rw [← gapsIn_relabel hnames, ← markersIn_relabel_of_values hnames, withMarkers_gapsIn]

end Renaming

def wayBack (renames : Dict String) (names : List String) : Dict String :=
  .ofList (names.filterMap fun name => (renames.get? name).map (·, name))

section WayBack

variable {renames : Dict String} {names : List String} {name new : String}

theorem mem_of_get?_wayBack (h : (wayBack renames names).get? new = some name) :
    name ∈ names ∧ renames.get? name = some new := by
  obtain ⟨other, hother, he⟩ := List.mem_filterMap.1 (Dict.mem_of_get?_ofList h)
  obtain ⟨found, hfound, he⟩ := Option.map_eq_some_iff.1 he
  obtain ⟨rfl, rfl⟩ := Prod.mk.inj he
  exact ⟨hother, hfound⟩

theorem mem_keys_wayBack (hmem : name ∈ names) (h : renames.get? name = some new) :
    new ∈ (wayBack renames names).keys := by
  rw [wayBack, Dict.mem_keys_ofList, List.map_filterMap, List.mem_filterMap]
  exact ⟨name, hmem, by simp [h]⟩

/-- Of the names, no two have one new name, and none takes the name of one that has no new one. -/
structure KeepsApart (renames : Dict String) (names : List String) : Prop where
  inj : ∀ name ∈ names, ∀ other ∈ names, ∀ new,
    renames.get? name = some new → renames.get? other = some new → name = other
  apart : ∀ name ∈ names, ∀ new ∈ names, renames.get? name = some new → new ∈ renames.keys

theorem KeepsApart.renamed_wayBack (h : KeepsApart renames names) (hmem : name ∈ names) :
    renamed (wayBack renames names) (renamed renames name) = name := by
  cases hnew : renames.get? name with
  | some new =>
      obtain ⟨old, hold⟩ := Dict.mem_keys_iff.1 (mem_keys_wayBack hmem hnew)
      obtain ⟨hother, hsame⟩ := mem_of_get?_wayBack hold
      obtain rfl := h.inj name hmem old hother new hnew hsame
      simp [renamed, hnew, hold]
  | none =>
      have hnone : (wayBack renames names).get? name = none := by
        refine Option.eq_none_iff_forall_ne_some.2 fun old hold => ?_
        obtain ⟨hother, htaken⟩ := mem_of_get?_wayBack hold
        exact Dict.get?_eq_none_iff.1 hnew (h.apart old hother name hmem htaken)
      simp [renamed, hnew, hnone]

theorem KeepsApart.of_injOn (h : ∀ name ∈ names, ∀ other ∈ names,
    renamed renames name = renamed renames other → name = other) : KeepsApart renames names := by
  refine ⟨fun name hname other hother new hnew hsame => ?_, fun name hname new hmem hnew => ?_⟩
  · exact h name hname other hother (by simp [renamed, hnew, hsame])
  · by_contra hkeys
    have hnone := Dict.get?_eq_none_iff.2 hkeys
    obtain rfl := h name hname new hmem (by simp [renamed, hnew, hnone])
    simp [hnew] at hnone

end WayBack

/-- A name gives way to its new one in place: what stands around the markers, casts among it, is as
it was, and each marker has the name that its own leads to at once. From there the text comes back
if no two of its markers have one new name and none of these is the name of a marker that kept its
own; otherwise it does not. -/
theorem relabel_and_back {renames : Dict String} (hnames : ∀ new ∈ renames.values, IsName new)
    (s : String) :
    s = withMarkers (gapsIn s) (markersIn s) ∧
      relabel renames s = withMarkers (gapsIn s) ((markersIn s).map (renamed renames)) ∧
      gapsIn (relabel renames s) = gapsIn s ∧
      markersIn (relabel renames s) = (markersIn s).map (renamed renames) ∧
      (relabel (wayBack renames (markersIn s)) (relabel renames s) = s ↔
        KeepsApart renames (markersIn s)) := by
  have hback : ∀ old ∈ (wayBack renames (markersIn s)).values, IsName old := by
    intro old hold
    obtain ⟨e, he, rfl⟩ := List.mem_map.1 hold
    exact isName_of_mem_markersIn (mem_of_get?_wayBack (Dict.get?_of_mem he)).1
  refine ⟨(withMarkers_gapsIn s).symm, relabel_eq_withMarkers hnames s, gapsIn_relabel hnames s,
    markersIn_relabel_of_values hnames s, fun h => ?_, fun h => ?_⟩
  · have hmarkers := congrArg markersIn h
    rw [markersIn_relabel_of_values hback, markersIn_relabel_of_values hnames,
      List.map_map] at hmarkers
    have hself := List.map_inj_left.1 (hmarkers.trans (List.map_id _).symm)
    refine KeepsApart.of_injOn fun name hname other hother he => ?_
    calc
      name = renamed (wayBack renames (markersIn s)) (renamed renames name) :=
        (hself name hname).symm
      _ = other := by rw [he]; exact hself other hother
  · have hself : ((markersIn s).map (renamed renames)).map
        (renamed (wayBack renames (markersIn s))) = markersIn s := by
      rw [List.map_map]
      exact (List.map_congr_left fun _ hname => h.renamed_wayBack hname).trans (List.map_id _)
    rw [relabel_eq_withMarkers hback, gapsIn_relabel hnames, markersIn_relabel_of_values hnames,
      hself, withMarkers_gapsIn]

def crowd : String := ":b:a::a:::c : :a"

theorem relabel_and_back_crowd :
    (∀ new ∈ (Dict.ofList [("a", "b"), ("b", "a")]).values, IsName new) ∧
      gapsIn crowd = ["", "", "::a::", " : ", ""] ∧
      relabel (.ofList [("a", "b"), ("b", "a")]) crowd = ":a:b::a:::c : :b" ∧
      relabel (wayBack (.ofList [("a", "b"), ("b", "a")]) (markersIn crowd)) ":a:b::a:::c : :b" =
        crowd := by
  have hnames : ∀ new ∈ (Dict.ofList [("a", "b"), ("b", "a")]).values, IsName new := by
    decide +kernel
  have hgaps : gapsIn crowd = ["", "", "::a::", " : ", ""] := by decide +kernel
  have hmarkers : markersIn crowd = ["b", "a", "c", "a"] := by decide +kernel
  obtain ⟨-, hrelabel, -, -, hback⟩ := relabel_and_back hnames crowd
  have hnew : relabel (.ofList [("a", "b"), ("b", "a")]) crowd = ":a:b::a:::c : :b" := by
    rw [hrelabel, hgaps, hmarkers]
    decide +kernel
  have hapart : KeepsApart (.ofList [("a", "b"), ("b", "a")]) (markersIn crowd) := by
    rw [hmarkers]
    refine KeepsApart.of_injOn ?_
    decide +kernel
  exact ⟨hnames, hgaps, hnew, hnew ▸ hback.2 hapart⟩

end ClauseWeave
