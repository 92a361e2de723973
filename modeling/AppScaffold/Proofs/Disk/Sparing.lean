import AppScaffold.Proofs.Disk.Filing
import AppScaffold.Proofs.Disk.Passing

/-!
# Places that are spared

Work on a disk spares a place if no directory comes up there and all directories stay that there are.
Whether a path leads to a directory is then the same before and after the work. Work below one
directory spares the places in other ones, unless a path goes up from what is not there.
-/

namespace AppScaffold

open Disk

namespace Disk

variable {d : Disk} {cur : Location} {todo : List Step}

/-- A way through directories ends where its spelling leads. -/
theorem walk_eq_found {follow : Bool} {links : Nat}
    (hshort : ∀ s, .name s ∈ todo → s.utf8ByteSize ≤ nameLimit)
    (hdirs : ∀ front back, todo = front ++ back → d.get? (destination cur front) = some .dir) :
    d.walk follow links cur todo = .ok (.found (destination cur todo)) := by
  induction todo generalizing cur with
  | nil =>
    rw [walk]
    rfl
  | cons step todo ih =>
    have hrest : d.walk follow links (Step.advance cur step) todo =
        .ok (.found (destination (Step.advance cur step) todo)) :=
      ih (fun s hs => hshort s (List.mem_cons_of_mem _ hs)) fun front back heq =>
        hdirs (step :: front) back (congrArg (step :: ·) heq)
    cases step with
    | name s =>
      have hlimit : ¬nameLimit < s.utf8ByteSize := Nat.not_lt.mpr (hshort s List.mem_cons_self)
      rw [walk_dir hlimit (hdirs [.name s] todo rfl)]
      exact hrest
    | _ =>
      rw [walk]
      exact hrest

end Disk

namespace Volume

variable {u v w : Volume} {root p q : Path} {loc : Location}

/-- A path that goes up only from directories leads to a directory exactly if the file system takes it
and a directory is at its place. -/
theorem isDir_iff (h : v.IsPlain) (hp : v.Grounded p) :
    v.isDir p = true ↔ p.IsPassable ∧ v.disk.get? (v.place p) = some .dir := by
  constructor
  · intro hdir
    unfold isDir at hdir
    split at hdir
    · next hfind => exact ⟨isPassable_of_find? hfind, get?_of_find? h.disk.links hfind⟩
    · cases hdir
  · rintro ⟨hpassable, hdir⟩
    have hshort : ∀ s, .name s ∈ Disk.steps p → s.utf8ByteSize ≤ nameLimit := by
      intro s hs
      refine hpassable.short s ?_
      rcases List.mem_append.mp hs with hs | hs
      · exact hs
      · split_ifs at hs
        · cases List.mem_singleton.mp hs
        · cases hs
    have hwalk : v.disk.walk true linkLimit (v.start p) (Disk.steps p) = .ok (.found (v.place p)) := by
      refine walk_eq_found hshort fun front back hsteps => ?_
      by_cases hup : .up ∈ back
      · refine Disk.Grounded.get?_eq_dir h.disk ?_ hup
        rw [← hsteps]
        exact hp
      · have hbelow : destination (v.start p) front <+: v.place p := by
          have hplace : v.place p = destination (destination (v.start p) front) back := by
            rw [← destination_append, ← hsteps]
            rfl
          rw [hplace]
          exact prefix_destination hup
        by_cases hsame : destination (v.start p) front = v.place p
        · rwa [hsame]
        · exact h.disk.rooted _ _ hdir _ hbelow hsame
    have hlocate : v.disk.locate v.cwd true p (Disk.steps p) = .ok (.found (v.place p)) := by
      rw [locate, hpassable.admissible]
      exact hwalk
    unfold isDir find?
    rw [hlocate]
    simp only [hdir]

/-- Work that spares a place: all directories stay, and none comes up at the place. -/
structure Spares (v w : Volume) (loc : Location) : Prop where
  /-- There are no links, and the directories above each entry are there. -/
  plain : w.IsPlain
  /-- Relative paths start where they did. -/
  cwd : w.cwd = v.cwd
  /-- Directories stay. -/
  dirs : ∀ other, v.disk.get? other = some .dir → w.disk.get? other = some .dir
  /-- A directory at the place was there before. -/
  spared : w.disk.get? loc = some .dir → v.disk.get? loc = some .dir

namespace Spares

/-- Nothing is done. -/
theorem refl (h : v.IsPlain) (loc : Location) : Spares v v loc := ⟨h, rfl, fun _ => id, id⟩

/-- Work is done in two parts. -/
theorem trans (h : Spares u v loc) (h' : Spares v w loc) : Spares u w loc where
  plain := h'.plain
  cwd := h'.cwd.trans h.cwd
  dirs other hother := h'.dirs other (h.dirs other hother)
  spared hloc := h.spared (h'.spared hloc)

/-- Paths start where they started before the work. -/
theorem start_eq (h : Spares v w loc) (p : Path) : w.start p = v.start p := by
  rw [start, start, h.cwd]

/-- Paths lead where they led before the work. -/
theorem place_eq (h : Spares v w loc) (p : Path) : w.place p = v.place p := by
  rw [place, place, h.cwd]

/-- A path still goes up only from directories. -/
theorem grounded (h : Spares v w loc) (hp : v.Grounded p) : w.Grounded p := by
  intro front back hsteps
  rw [h.start_eq]
  exact h.dirs _ (hp front back hsteps)

/-- A path that led to a directory still does. -/
theorem isDir (h : Spares v w loc) (hv : v.IsPlain) (hp : v.Grounded p) (hdir : v.isDir p = true) :
    w.isDir p = true := by
  rw [isDir_iff hv hp] at hdir
  rw [isDir_iff h.plain (h.grounded hp), h.place_eq]
  exact ⟨hdir.1, h.dirs _ hdir.2⟩

/-- Whether there is a directory at the place is the same before and after the work. -/
theorem isDir_eq (h : Spares v w (v.place p)) (hv : v.IsPlain) (hp : v.Grounded p) :
    w.isDir p = v.isDir p := by
  refine Bool.eq_iff_iff.mpr ⟨fun hdir => ?_, h.isDir hv hp⟩
  rw [isDir_iff h.plain (h.grounded hp), h.place_eq] at hdir
  exact (isDir_iff hv hp).mpr ⟨hdir.1, h.spared hdir.2⟩

end Spares

/-- What is added spares the places where no directory may be added. -/
theorem Added.spares {allowed : Location → Entry → Prop} (h : Added allowed v w)
    (hloc : v.disk.get? loc = none → ¬allowed loc .dir) : Spares v w loc where
  plain := h.plain
  cwd := h.cwd
  dirs other := h.within other .dir
  spared hdir := by
    cases hbefore : v.disk.get? loc with
    | none => exact absurd (h.only loc .dir hbefore hdir) (hloc hbefore)
    | some e => rw [← hdir, h.within loc e hbefore]

/-- What is added spares the root. -/
theorem Added.spares_root {allowed : Location → Entry → Prop} (h : Added allowed v w) :
    Spares v w [] := h.spares nofun

/-- A file in the place of an older one leaves all directories as they are. -/
theorem get?_set_file_eq_dir_iff {old new : Content} (hold : v.disk.get? loc = some (.file old))
    (other : Location) :
    (v.set loc (.file new)).disk.get? other = some .dir ↔ v.disk.get? other = some .dir := by
  have hne : loc ≠ [] := by
    rintro rfl
    cases hold
  rw [Volume.set, get?_set _ _ _ _ hne]
  split_ifs with hsame
  · rw [hsame, hold]
    simp
  · exact Iff.rfl

/-- A file in the place of an older one spares all places. -/
theorem set_file_spares (h : v.IsPlain) {old new : Content} {place : Location}
    (hold : v.disk.get? place = some (.file old)) (loc : Location) :
    Spares v (v.set place (.file new)) loc := by
  have hne : place ≠ [] := by
    rintro rfl
    cases hold
  have hdirs : ∀ other, (v.set place (.file new)).disk.get? other = some .dir ↔
      v.disk.get? other = some .dir := get?_set_file_eq_dir_iff hold
  have hrooted : ∀ other e, (v.set place (.file new)).disk.get? other = some e →
      v.disk.Rooted other := by
    intro other e he
    rw [Volume.set, get?_set _ _ _ _ hne] at he
    split_ifs at he with hsame
    · rw [hsame]
      exact h.disk.rooted _ _ hold
    · exact h.disk.rooted _ _ he
  have hlinks : (v.set place (.file new)).disk.LinkFree := h.disk.links.set hne (by simp)
  refine ⟨⟨⟨hlinks, fun other e he above habove hother => ?_⟩, (hdirs _).mpr h.cwd⟩, rfl,
    fun other => (hdirs other).mpr, (hdirs loc).mp⟩
  exact (hdirs above).mpr (hrooted other e he above habove hother)

/-- The writing of a file spares all places. -/
theorem writeFile_spares (h : v.IsPlain) (p : Path) (s : String) (loc : Location) :
    Spares v (v.writeFile p s).2 loc := by
  rw [writeFile]
  split_ifs
  · exact .refl h loc
  · split
    · next dir name hlocate =>
      have hadded : Added (fun _ e => e = .file (.text s)) v
          (v.set (dir ++ [name]) (.file (.text s))) :=
        added_set h hlocate (by simp) rfl
      exact hadded.spares fun _ => by simp
    · exact .refl h loc
    · split
      · next hold => exact set_file_spares h hold loc
      · exact .refl h loc
    · exact .refl h loc

end Volume

/-- A path that leads from another one into a directory of a directory, and does not go up from
there. -/
structure Path.Descends (root : Path) (above dir : String) (p : Path) : Prop where
  /-- Both paths start from the same directory. -/
  start : p.isAbsolute = root.isAbsolute
  /-- The steps into the directories come behind those of the other path. -/
  bare : ∃ below, bareSteps p = bareSteps root ++ .name above :: .name dir :: below ∧ .up ∉ below

/-- A final slash makes no difference to a descending path. -/
theorem Path.Descends.exists_steps {root p : Path} {above dir : String}
    (h : Path.Descends root above dir p) :
    ∃ below, Disk.steps p = bareSteps root ++ .name above :: .name dir :: below ∧ .up ∉ below := by
  obtain ⟨below, hbare, hup⟩ := h.bare
  refine ⟨below ++ if endsWithSlash p then [.slash] else [], ?_, ?_⟩
  · rw [Disk.steps, hbare, List.append_assoc, List.cons_append, List.cons_append]
  · rw [List.mem_append, not_or]
    refine ⟨hup, ?_⟩
    split_ifs <;> simp

namespace Volume

variable {v w : Volume} {root p : Path} {above dir other : String}

/-- A final slash does not lead on. -/
theorem place_eq_destination (v : Volume) (p : Path) :
    v.place p = destination (v.start p) (bareSteps p) := by
  have hplace : v.place p = destination (v.start p) (Disk.steps p) := rfl
  rw [hplace, Disk.steps, destination_append]
  split_ifs <;> rfl

/-- A path that goes up only from directories still does when steps follow it that do not go up. -/
theorem Grounded.of_steps {more : List Step} (hroot : v.Grounded root)
    (hstart : p.isAbsolute = root.isAbsolute) (hsteps : Disk.steps p = bareSteps root ++ more)
    (hup : .up ∉ more) : v.Grounded p := by
  intro front back hsplit
  have hsame : v.start p = v.start root := by rw [start, start, hstart]
  rw [hsteps] at hsplit
  rw [hsame]
  rcases List.append_eq_append_iff.mp hsplit with ⟨rest, -, hrest⟩ | ⟨rest, hroots, hrest⟩
  · rw [hrest] at hup
    exact absurd (List.mem_append_right _ List.mem_cons_self) hup
  · cases rest with
    | nil =>
      rw [List.nil_append] at hrest
      rw [← hrest] at hup
      exact absurd List.mem_cons_self hup
    | cons step rest =>
      obtain rfl : .up = step := (List.cons.inj hrest).1
      refine hroot front (rest ++ if endsWithSlash root then [.slash] else []) ?_
      rw [Disk.steps, hroots, List.append_assoc, List.cons_append]

/-- A path that goes up only from directories still does when a descending path follows it. -/
theorem Grounded.descends (hroot : v.Grounded root) (hp : Path.Descends root above dir p) :
    v.Grounded p := by
  obtain ⟨below, hbelow, hup⟩ := hp.exists_steps
  exact hroot.of_steps hp.start hbelow (by simpa using hup)

/-- What is new on the way of a descending path is not the place of another directory. -/
theorem Grounded.not_above (h : v.IsPlain) (hroot : v.Grounded root)
    (hp : Path.Descends root above dir p) (hother : other ≠ dir)
    (hfree : v.disk.get? (v.place root ++ [above, other]) = none) :
    ¬v.Above p (v.place root ++ [above, other]) := by
  rintro ⟨front, back, hsteps, -, hloc⟩
  obtain ⟨below, hbelow, hup⟩ := hp.exists_steps
  have hstart : v.start p = v.start root := by rw [start, start, hp.start]
  rw [hbelow] at hsteps
  rw [hstart] at hloc
  rcases List.append_eq_append_iff.mp hsteps with ⟨more, rfl, hmore⟩ | ⟨more, hroots, -⟩
  · rw [destination_append, ← place_eq_destination] at hloc
    rcases more with _ | ⟨step, _ | ⟨next, more⟩⟩
    · simp [destination] at hloc
    · obtain ⟨rfl, -⟩ := List.cons.inj hmore
      simp [destination, Step.advance] at hloc
    · rw [List.cons_append, List.cons_append, List.cons.injEq, List.cons.injEq] at hmore
      obtain ⟨rfl, rfl, rfl⟩ := hmore
      have hno : .up ∉ more := fun hmem => hup (List.mem_append_left _ hmem)
      have hpref : v.place root ++ [above, dir] <+: v.place root ++ [above, other] := by
        have hway : v.place root ++ [above] ++ [dir] <+:
            destination (v.place root ++ [above] ++ [dir]) more := prefix_destination hno
        rw [← hloc, List.append_cons]
        exact hway
      have hsame := hpref.eq_of_length (by simp)
      exact hother (by simpa using hsame.symm)
  · have hgrounded : v.disk.Grounded (v.start root)
        (front ++ (more ++ if endsWithSlash root then [.slash] else [])) := by
      rw [← List.append_assoc, ← hroots]
      exact hroot
    by_cases hmem : .up ∈ more
    · have hdir := hgrounded.get?_eq_dir h.disk (List.mem_append_left _ hmem)
      rw [hloc, hfree] at hdir
      cases hdir
    · have hbelow : destination (v.start root) front <+: v.place root := by
        rw [place_eq_destination, hroots, destination_append]
        exact prefix_destination hmem
      have hlength := hbelow.length_le
      rw [hloc] at hlength
      simp only [List.length_append, List.length_cons, List.length_nil] at hlength
      omega

/-- The placing of files spares the directories beside that in which they are. -/
theorem placeFiles_spares (h : v.IsPlain) (hroot : v.Grounded root) {base : Path}
    {files : List GeneratedFile}
    (hfiles : ∀ f ∈ files, Path.Descends root above dir (base.join f.path)) (hother : other ≠ dir) :
    Spares v (v.placeFiles base files).2 (v.place root ++ [above, other]) := by
  have hfiled := placeFiles_filed h base files
  refine ⟨hfiled.added.plain, hfiled.added.cwd, fun loc => hfiled.added.within loc .dir, ?_⟩
  intro hdir
  cases hbefore : v.disk.get? (v.place root ++ [above, other]) with
  | some e => rw [← hdir, hfiled.added.within _ e hbefore]
  | none =>
    rcases hfiled.added.only _ _ hbefore hdir with ⟨-, f, hf, habove⟩ | ⟨p, hp, hplace⟩
    · exact absurd habove (hroot.not_above h (hfiles f hf) hother hbefore)
    · obtain ⟨f, -, -, -, htext⟩ := hfiled.created p hp
      rw [hplace, hdir] at htext
      cases htext

/-- The writing of a file spares the directories beside that in which it is. -/
theorem mkdirParent_spares (h : v.IsPlain) (hroot : v.Grounded root)
    (hp : Path.Descends root above dir p) (hother : other ≠ dir) :
    Spares v (v.mkdirParent p).2 (v.place root ++ [above, other]) :=
  (mkdirParent_added h p).spares fun hfree hnew => hroot.not_above h hp hother hfree hnew.2

end Volume

end AppScaffold
