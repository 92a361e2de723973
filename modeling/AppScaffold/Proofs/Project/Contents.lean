import AppScaffold.Outcome
import AppScaffold.Proofs.Project.Additions
import Mathlib.Data.List.Basic
import Mathlib.Logic.Function.Basic
import Mathlib.Tactic.Common

/-!
# What a new project holds

After requests, a registry of a new project holds an entry for each request that belongs in it, and any
other file holds what the first request made that has such a file. What one more request adds is told
by what the requests before it have made.
-/

namespace AppScaffold

/-- The entries that requests add to a registry, in order. -/
def Aggregator.entriesIn (a : Aggregator) (rs : List Request) : List Script.Entry :=
  rs.filterMap fun r =>
    match r.registration with
    | some e => if e.aggregator = a then some e.entry else none
    | none => none

/-- The file that the first of the requests makes at a place. -/
def firstFile (rs : List Request) (loc : Location) : Option String :=
  (rs.flatMap Request.files).lookup loc

/-- What is at a place below the sources after requests. -/
def contents (rs : List Request) (loc : Location) : Option String :=
  match (rs.filterMap Request.registration).find? fun e => e.aggregator.location = loc with
  | some e => some (e.aggregator.content (e.aggregator.entriesIn rs))
  | none => firstFile rs loc

/-- What becomes of a request in a new project after other requests: it makes the files that none of
them has made, and adds its entry to its registry, which is there if one of them has. -/
def outcomeAfter (root : Path) (qs : List Request) (r : Request) : Outcome where
  archetype := r.archetype
  report :=
    { created := ((r.files.map Prod.fst).filter fun loc => (firstFile qs loc).isNone).map
        (root.join ⟨"src", ·⟩)
      skipped := ((r.files.map Prod.fst).filter fun loc => (firstFile qs loc).isSome).map
        (root.join ⟨"src", ·⟩) }
  materializeProblem := none
  patch := r.registration.map fun e =>
    .patched e.aggregator (root.join ⟨"src", e.aggregator.location⟩)
      (e.aggregator.entriesIn qs).isEmpty

/-- Such a request succeeds. -/
theorem isSuccess_outcomeAfter (root : Path) (qs : List Request) (r : Request) :
    (outcomeAfter root qs r).isSuccess = true := by
  rw [Outcome.isSuccess, outcomeAfter]
  cases r.registration <;> rfl

namespace Aggregator

variable {a : Aggregator} {qs rs : List Request} {r : Request}

/-- The entries of more requests are those of the requests in turn. -/
theorem entriesIn_append (a : Aggregator) (qs rs : List Request) :
    a.entriesIn (qs ++ rs) = a.entriesIn qs ++ a.entriesIn rs :=
  List.filterMap_append

/-- A request adds its entry to its registry, and to no other. -/
theorem entriesIn_concat (a : Aggregator) (qs : List Request) (r : Request) :
    a.entriesIn (qs ++ [r]) = a.entriesIn qs ++
      match r.registration with
      | some e => if e.aggregator = a then [e.entry] else []
      | none => [] := by
  rw [entriesIn_append]
  congr 1
  rw [entriesIn, List.filterMap_cons, List.filterMap_nil]
  cases r.registration with
  | none => rfl
  | some e =>
    simp only
    split_ifs
    · rfl
    · rfl

/-- Entries of requests can be added. -/
theorem takes_of_mem_entriesIn {e : Script.Entry} (h : e ∈ a.entriesIn rs) : a.Takes e := by
  obtain ⟨r, -, hr⟩ := List.mem_filterMap.mp h
  cases hreg : r.registration with
  | none =>
    rw [hreg] at hr
    cases hr
  | some entry =>
    rw [hreg] at hr
    simp only at hr
    split_ifs at hr with ha
    obtain rfl := Option.some.inj hr
    subst ha
    exact Request.takes hreg

/-- A registry with entries belongs to a request. -/
theorem exists_of_entriesIn_ne_nil (h : a.entriesIn rs ≠ []) :
    ∃ r ∈ rs, ∃ e, r.registration = some e ∧ e.aggregator = a := by
  obtain ⟨e, he⟩ := List.exists_mem_of_ne_nil _ h
  obtain ⟨r, hr, hsome⟩ := List.mem_filterMap.mp he
  cases hreg : r.registration with
  | none =>
    rw [hreg] at hsome
    cases hsome
  | some entry =>
    rw [hreg] at hsome
    simp only at hsome
    split_ifs at hsome with ha
    exact ⟨r, hr, entry, hreg, ha⟩

end Aggregator

section Contents

variable {qs rs : List Request} {r : Request} {loc : Location} {t : String}

/-- What is looked up is among the files. -/
theorem mem_of_lookup_eq_some {files : List (Location × String)} (h : files.lookup loc = some t) :
    (loc, t) ∈ files := by
  obtain ⟨before, after, rfl, -⟩ := List.lookup_eq_some_iff.mp h
  exact List.mem_append_right _ List.mem_cons_self

/-- The first file of more requests is that of the first of the requests that have one. -/
theorem firstFile_concat (qs : List Request) (r : Request) (loc : Location) :
    firstFile (qs ++ [r]) loc = (firstFile qs loc).or (r.files.lookup loc) := by
  rw [firstFile, List.flatMap_append, List.lookup_append, firstFile, List.flatMap_singleton]

/-- A first file belongs to a request. -/
theorem exists_of_firstFile_ne_none (h : firstFile rs loc ≠ none) :
    ∃ r ∈ rs, ∃ t, (loc, t) ∈ r.files := by
  obtain ⟨t, ht⟩ := Option.ne_none_iff_exists'.mp h
  obtain ⟨r, hr, hmem⟩ := List.mem_flatMap.mp (mem_of_lookup_eq_some ht)
  exact ⟨r, hr, t, hmem⟩

/-- No file is where a registry is. -/
theorem firstFile_location (rs : List Request) (a : Aggregator) : firstFile rs a.location = none := by
  by_contra h
  obtain ⟨r, -, t, ht⟩ := exists_of_firstFile_ne_none h
  exact Request.location_ne_of_mem_files ht a rfl

/-- A request makes no registry among its files. -/
theorem lookup_location (r : Request) (a : Aggregator) : r.files.lookup a.location = none := by
  by_contra h
  obtain ⟨t, ht⟩ := Option.ne_none_iff_exists'.mp h
  exact Request.location_ne_of_mem_files (mem_of_lookup_eq_some ht) a rfl

/-- A registry holds the entries of the requests; it is missing if there are none. -/
theorem contents_location (rs : List Request) (a : Aggregator) :
    contents rs a.location =
      if a.entriesIn rs = [] then none else some (a.content (a.entriesIn rs)) := by
  rw [contents]
  cases hfind :
    (rs.filterMap Request.registration).find? fun e => e.aggregator.location = a.location with
  | some e =>
    have hloc := List.find?_some hfind
    rw [decide_eq_true_eq] at hloc
    obtain rfl := Aggregator.location_injective hloc
    obtain ⟨r, hr, hreg⟩ := List.mem_filterMap.mp (List.mem_of_find?_eq_some hfind)
    have hmem : e.entry ∈ e.aggregator.entriesIn rs :=
      List.mem_filterMap.mpr ⟨r, hr, by simp [hreg]⟩
    exact (if_neg (List.ne_nil_of_mem hmem)).symm
  | none =>
    rw [firstFile_location, if_pos]
    by_contra hne
    obtain ⟨r, hr, e, hreg, rfl⟩ := Aggregator.exists_of_entriesIn_ne_nil hne
    have hno := List.find?_eq_none.mp hfind e (List.mem_filterMap.mpr ⟨r, hr, hreg⟩)
    exact hno (decide_eq_true rfl)

/-- Where no registry is there is the file that the first request makes. -/
theorem contents_of_ne (rs : List Request) (h : ∀ a : Aggregator, loc ≠ a.location) :
    contents rs loc = firstFile rs loc := by
  have hnone : ((rs.filterMap Request.registration).find? fun e => e.aggregator.location = loc) =
      none := by
    rw [List.find?_eq_none]
    intro e _ heq
    exact h e.aggregator (of_decide_eq_true heq).symm
  rw [contents, hnone]

/-- The files of a request are found as they were made, where no registry is. -/
theorem contents_of_mem_files (qs : List Request) (h : (loc, t) ∈ r.files) :
    contents qs loc = firstFile qs loc :=
  contents_of_ne qs (Request.location_ne_of_mem_files h)

/-- Nothing is there before any request. -/
theorem contents_nil : contents [] = fun _ => none := rfl

/-- A request adds the files that are not there and its entry. -/
theorem contents_concat (qs : List Request) (r : Request) :
    contents (qs ++ [r]) =
      match r.registration with
      | some e =>
        Function.update (fun loc => (contents qs loc).or (r.files.lookup loc)) e.aggregator.location
          (some (e.aggregator.content (e.aggregator.entriesIn qs ++ [e.entry])))
      | none => fun loc => (contents qs loc).or (r.files.lookup loc) := by
  have hother : ∀ loc, (∀ e, r.registration = some e → loc ≠ e.aggregator.location) →
      contents (qs ++ [r]) loc = (contents qs loc).or (r.files.lookup loc) := by
    intro loc hloc
    by_cases ha : ∃ a : Aggregator, loc = a.location
    · obtain ⟨a, rfl⟩ := ha
      have hsame : a.entriesIn (qs ++ [r]) = a.entriesIn qs := by
        rw [Aggregator.entriesIn_concat]
        cases hreg : r.registration with
        | none => exact List.append_nil _
        | some e =>
          have hne : e.aggregator ≠ a := fun heq => hloc e hreg (congrArg _ heq.symm)
          simp only [if_neg hne, List.append_nil]
      rw [lookup_location, contents_location, contents_location, hsame, Option.or_none]
    · rw [not_exists] at ha
      rw [contents_of_ne _ ha, contents_of_ne _ ha, firstFile_concat]
  funext loc
  cases hreg : r.registration with
  | none => exact hother loc (by simp [hreg])
  | some e =>
    simp only
    by_cases hloc : loc = e.aggregator.location
    · subst hloc
      have hadded : e.aggregator.entriesIn (qs ++ [r]) = e.aggregator.entriesIn qs ++ [e.entry] := by
        rw [Aggregator.entriesIn_concat, hreg]
        simp only [if_true]
      rw [Function.update_self, contents_location, hadded, if_neg (by simp)]
    · rw [Function.update_of_ne hloc]
      exact hother loc (by simp [hreg, hloc])

/-- Files and registries are only where they have places. -/
theorem isSite_of_contents_ne_none (h : contents rs loc ≠ none) : IsSite loc := by
  by_cases ha : ∃ a : Aggregator, loc = a.location
  · obtain ⟨a, rfl⟩ := ha
    rw [contents_location] at h
    split_ifs at h with hne
    · exact absurd rfl h
    · obtain ⟨r, -, e, hreg, rfl⟩ := Aggregator.exists_of_entriesIn_ne_nil hne
      exact Aggregator.isSite (Request.isNamed_aggregator hreg)
  · rw [not_exists] at ha
    rw [contents_of_ne _ ha] at h
    obtain ⟨r, -, t, ht⟩ := exists_of_firstFile_ne_none h
    exact Request.isSite_of_mem_files ht

/-- The files that a request adds are only where they have places. -/
theorem isSite_of_or_ne_none (h : (contents qs loc).or (r.files.lookup loc) ≠ none) :
    IsSite loc := by
  cases hfile : contents qs loc with
  | some t => exact @isSite_of_contents_ne_none qs loc (by rw [hfile]; simp)
  | none =>
    rw [hfile, Option.none_or] at h
    obtain ⟨t, ht⟩ := Option.ne_none_iff_exists'.mp h
    exact Request.isSite_of_mem_files (mem_of_lookup_eq_some ht)

end Contents

end AppScaffold
