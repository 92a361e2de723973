import AppScaffold.Generate
import AppScaffold.Proofs.Disk.Making
import AppScaffold.Proofs.Project.Contents
import Mathlib.Data.List.Basic
import Mathlib.Tactic.Common

/-!
# The directory of the sources

All that is generated with the settings that come with the library is below one directory of the
project. In a new project that directory is empty, or it is not there and can be made. Every place
below it is then reached by the paths that the settings give.
-/

namespace AppScaffold

open Disk Volume

/-- The directory of the sources in a project. -/
def sources (root : Path) : Path := root.join ⟨"src", []⟩

/-- A root at which a project can begin: making the directory of the sources turns `v` into `w`, in
which nothing is below that directory, and the path of the root leaves room for those of files. -/
structure Fresh (v : Volume) (root : Path) (w : Volume) (src : Location) : Prop where
  /-- The directory can be made, if it is not there. -/
  made : v.mkdirAll (sources root) = (.ok (), w)
  /-- The path then leads to it. -/
  found : w.disk.locate w.cwd true (sources root) (Disk.steps (sources root)) = .ok (.found src)
  /-- It is a directory. -/
  there : w.disk.get? src = some .dir
  /-- Nothing is in it. -/
  empty : ∀ name names, w.disk.get? (src ++ name :: names) = none
  /-- The path of the root is not too long. -/
  short : root.text.utf8ByteSize ≤ 3669

/-- A project that begins: making the directory of the sources turns `v` into `w`, in which nothing is
below that directory, and there is room in the path for the name of another one. -/
structure Begun (v : Volume) (root : Path) (w : Volume) (src : Location) : Prop
    extends Made v w (sources root) src where
  /-- The directory of the state in lowercase can be looked for. -/
  room : Follows (sources root) ["redux"]

/-- All that a request makes can be reached by paths. -/
structure Request.Reaches (root : Path) (r : Request) : Prop where
  /-- The files can be reached. -/
  files : ∀ loc ∈ r.files.map Prod.fst, Follows (sources root) loc
  /-- The registry can be reached. -/
  registry : ∀ e, r.registration = some e → Follows (sources root) e.aggregator.location

namespace Path

/-- The directory of the sources follows the root, a final slash of which is dropped. -/
theorem join_sources (root : Path) :
    (∀ names, root.join ⟨"src", names⟩ = (sources root).extend names) ∧ (sources root).IsTrimmed ∧
      (sources root).text.utf8ByteSize ≤ root.text.utf8ByteSize + 4 := by
  suffices h : ∃ p : Path, (∀ names, root.join ⟨"src", names⟩ = p.extend names) ∧ p.IsTrimmed ∧
      p.text.utf8ByteSize ≤ root.text.utf8ByteSize + 4 by
    obtain ⟨p, hp, hrest⟩ := h
    have hsame : sources root = p := by rw [sources, hp, extend_nil]
    rw [hsame]
    exact ⟨hp, hrest⟩
  have hname : IsName "src" := by decide
  have habsolute : ∀ names, isAbsolute ⟨"src", names⟩ = false := fun names => by simp [isAbsolute]
  have hlast : ∀ (first : String) (front : List String),
      (⟨first, front ++ ["src"]⟩ : Path).IsTrimmed := by
    intro first front
    refine ⟨fun s hs => ?_, fun hnil => by simp at hnil⟩
    rw [List.getLast?_concat, Option.some.injEq] at hs
    rw [← hs]
    exact idle_of_isName hname
  have hwidth : width ["src"] = 4 := by decide
  by_cases hempty : root = Path.empty
  · refine ⟨⟨"src", []⟩, fun names => ?_, ⟨fun s hs => (by cases hs), fun _ => by decide⟩, ?_⟩
    · rw [join, habsolute, Bool.false_or, if_pos (by simpa using hempty)]
      rfl
    · exact Nat.le_add_left_of_le (show (text ⟨"src", []⟩).utf8ByteSize ≤ 4 by decide)
  · by_cases hslash : root.rest.getLast? = some ""
    · refine ⟨⟨root.first, root.rest.dropLast ++ ["src"]⟩, fun names => ?_, hlast _ _, ?_⟩
      · rw [join, habsolute, Bool.false_or, if_neg (by simpa using hempty), if_pos hslash, extend,
          List.append_assoc]
        rfl
      · have hrest := List.dropLast_append_getLast? "" hslash
        have hsum := congrArg width hrest
        rw [width_append] at hsum
        rw [utf8ByteSize_text, utf8ByteSize_text, width_append, hwidth]
        simp only
        omega
    · refine ⟨⟨root.first, root.rest ++ ["src"]⟩, fun names => ?_, hlast _ _, ?_⟩
      · rw [join, habsolute, Bool.false_or, if_neg (by simpa using hempty), if_neg hslash, extend,
          List.append_assoc]
        rfl
      · rw [utf8ByteSize_text, utf8ByteSize_text, width_append, hwidth]
        simp only
        omega

/-- Paths below the directory of the sources are followed from there. -/
theorem join_src (root : Path) (names : List String) :
    root.join ⟨"src", names⟩ = (sources root).extend names :=
  (join_sources root).1 names

/-- The path of the directory of the sources ends with its name. -/
theorem isTrimmed_sources (root : Path) : (sources root).IsTrimmed := (join_sources root).2.1

/-- Paths below a directory in that of the sources are followed from there. -/
theorem join_join_src (root : Path) {dir : String} (hdir : IsName dir) {q : Path}
    (hq : q.first ≠ "") :
    (root.join ⟨"src", [dir]⟩).join q = root.join ⟨"src", dir :: q.first :: q.rest⟩ := by
  have htrimmed : ((sources root).extend [dir]).IsTrimmed :=
    (isTrimmed_sources root).extend fun s hs => List.mem_singleton.mp hs ▸ hdir
  rw [join_src, join_src, htrimmed.join_eq hq, extend_extend, List.singleton_append]

end Path

namespace Fresh

variable {v w : Volume} {root : Path} {src : Location}

/-- The directory of the sources is made in a new project. -/
theorem toMade (h : Fresh v root w src) : Made v w (sources root) src := by
  have htrimmed := Path.isTrimmed_sources root
  have hfound := h.found
  rw [htrimmed.steps_eq, locate] at hfound
  cases hadmissible : admissible (sources root) with
  | error e =>
    rw [hadmissible] at hfound
    cases hfound
  | ok u =>
    rw [hadmissible] at hfound
    exact ⟨⟨⟨htrimmed, hadmissible, hfound, h.there⟩, h.empty⟩, h.made⟩

/-- Names that are short enough can follow the directory of the sources. -/
theorem follows_of_width (h : Fresh v root w src) {names : List String}
    (hnames : ∀ s ∈ names, IsName s) (hwidth : width names ≤ 422) : Follows (sources root) names := by
  have hsize := (Path.join_sources root).2.2
  have hshort := h.short
  refine ⟨hnames, ?_⟩
  rw [pathLimit]
  omega

/-- Places can be reached from the directory of the sources. -/
theorem follows (h : Fresh v root w src) {loc : Location} (hloc : IsPlace loc) :
    Follows (sources root) loc :=
  h.follows_of_width (fun _ => hloc.isName) hloc.short

/-- The directory of the state in lowercase could be reached. -/
theorem follows_redux (h : Fresh v root w src) : Follows (sources root) ["redux"] := by
  refine h.follows_of_width (fun s hs => ?_) (by decide)
  rw [List.mem_singleton.mp hs]
  decide

/-- A root at which a project can begin is one at which it begins. -/
theorem toBegun (h : Fresh v root w src) : Begun v root w src := ⟨h.toMade, h.follows_redux⟩

/-- What a request with short names makes can be reached. -/
theorem reaches (h : Fresh v root w src) {r : Request} (hr : r.IsShort) : r.Reaches root := by
  refine ⟨fun loc hloc => ?_, fun e he => ?_⟩
  · obtain ⟨file, hfile, rfl⟩ := List.mem_map.mp hloc
    exact h.follows (Request.isPlace_of_mem_files hr hfile)
  · exact h.follows (Aggregator.isPlace (Request.isShort_aggregator hr he))

end Fresh

/-- The directory of the sources can be made in an empty directory, and where an empty directory can be
made. -/
theorem exists_made {v u : Volume} {root : Path} {dir : Location} (h : Made v u root dir)
    (hf : Follows root ["src"]) :
    ∃ w, Made v w (sources root) (dir ++ ["src"]) ∧ Paved u w dir ["src"] := by
  have hsources : sources root = root.extend ["src"] := h.trimmed.join_eq (by decide)
  rw [hsources]
  exact h.exists_extend hf (List.cons_ne_nil _ _)

/-- The name of the directory of the sources can follow a path that is not too long. -/
theorem follows_src {root : Path} (hshort : root.text.utf8ByteSize ≤ 3669) : Follows root ["src"] := by
  have hname : IsName "src" := by decide
  refine ⟨fun s hs => List.mem_singleton.mp hs ▸ hname, ?_⟩
  have hwidth : width ["src"] = 4 := by decide
  rw [hwidth, pathLimit]
  omega

/-- A project can begin at an empty directory, and where an empty directory can be made. -/
theorem exists_fresh {v u : Volume} {root : Path} {dir : Location} (h : Made v u root dir)
    (hshort : root.text.utf8ByteSize ≤ 3669) : ∃ w, Fresh v root w (dir ++ ["src"]) := by
  obtain ⟨w, hmade, -⟩ := exists_made h (follows_src hshort)
  refine ⟨w, hmade.made, ?_, hmade.there, hmade.empty, hshort⟩
  rw [locate, hmade.admissible, hmade.trimmed.steps_eq]
  exact hmade.walk

/-- The directory of a project is there when files have been made below that of the sources. -/
theorem Fresh.leads_root {v u w x : Volume} {root : Path} {dir : Location}
    {files : Location → Option String} (hf : Fresh v root w (dir ++ ["src"]))
    (hmade : Made v u root dir) (h : Shows w (dir ++ ["src"]) files x) : Leads x root dir := by
  obtain ⟨y, hy, hpaved⟩ := exists_made hmade (follows_src hf.short)
  obtain rfl : w = y := congrArg Prod.snd (hf.made.symm.trans hy.made)
  refine hmade.toLeads.mono (fun loc e he => ?_) (h.cwd.trans hpaved.cwd)
  have hoff : ∀ q, q ≠ [] → loc ≠ dir ++ q := by
    rintro q hq rfl
    obtain ⟨name, names, rfl⟩ := List.exists_cons_of_ne_nil hq
    rw [hmade.empty] at he
    cases he
  rw [h.outside loc fun name names => ?_, hpaved.rest loc fun q _ hq => hoff q hq, he]
  rw [List.append_assoc]
  exact hoff _ (List.cons_ne_nil _ _)

end AppScaffold
