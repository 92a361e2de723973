import AppScaffold.Disk.Walk
import Mathlib.Data.List.Basic
import Mathlib.Tactic.Common

/-!
# Where paths lead

A path leads to an entry, or to a free name in a directory. On a disk without links the place is
settled by the spelling of the path alone, whether anything is there or not. A way that leads to an
entry still leads there when entries have been added.

A relative path that is joined to another one goes on where that one ends: its steps come behind the
others, and a final slash between them is of no account.
-/

namespace AppScaffold.Disk

/-- No entry is a link. -/
def LinkFree (d : Disk) : Prop := ∀ loc target, d.get? loc ≠ some (.link target)

/-- All entries of one disk are on the other one, unchanged. -/
def Within (d d' : Disk) : Prop := ∀ loc e, d.get? loc = some e → d'.get? loc = some e

/-- The place to which a step leads by its spelling. -/
def Step.advance (cur : Location) : Step → Location
  | .name s => cur ++ [s]
  | .up => cur.dropLast
  | .stay | .slash => cur

/-- A step that leads on: into an entry, or to the directory above. -/
def Step.Moves : Step → Prop
  | .name _ | .up => True
  | .stay | .slash => False

/-- The place to which steps lead by their spelling. -/
def destination (cur : Location) (todo : List Step) : Location := todo.foldl Step.advance cur

/-- The location of a place. -/
def Place.location : Place → Location
  | .found loc => loc
  | .free dir name _ => dir ++ [name]

/-- Every disk is within itself. -/
theorem Within.refl (d : Disk) : Within d d := fun _ _ h => h

/-- What is within a disk is within all larger ones. -/
theorem Within.trans {d d' d'' : Disk} (h : Within d d') (h' : Within d' d'') : Within d d'' :=
  fun loc e he => h' loc e (h loc e he)

/-- An entry at a free name leaves all others as they are. -/
theorem within_set {d : Disk} {loc : Location} (hfree : d.get? loc = none) (e : Entry) :
    Within d (d.set loc e) := by
  intro other f hf
  have hne : loc ≠ [] := by
    rintro rfl
    cases hfree
  rw [get?_set d loc other e hne, if_neg]
  · exact hf
  · rintro rfl
    rw [hfree] at hf
    cases hf

/-- A disk without links has none when something else has been set. -/
theorem LinkFree.set {d : Disk} (hd : d.LinkFree) {loc : Location} (hloc : loc ≠ []) {e : Entry}
    (he : ∀ target, e ≠ .link target) : (d.set loc e).LinkFree := by
  intro other target h
  rw [get?_set d loc other e hloc] at h
  split_ifs at h
  · exact he target (Option.some.inj h)
  · exact hd other target h

section Step

variable {d : Disk} {follow : Bool} {links : Nat} {cur : Location} {s : String} {rest : List Step}

/-- A step into a directory leads there. -/
theorem walk_dir (hlimit : ¬nameLimit < s.utf8ByteSize) (hdir : d.get? (cur ++ [s]) = some .dir) :
    d.walk follow links cur (.name s :: rest) = d.walk follow links (cur ++ [s]) rest := by
  rw [walk.eq_def]
  simp only [if_neg hlimit, hdir]

/-- A step into a file ends the way. -/
theorem walk_file {c : Content} (hlimit : ¬nameLimit < s.utf8ByteSize)
    (hfile : d.get? (cur ++ [s]) = some (.file c)) :
    d.walk follow links cur (.name s :: rest) =
      if rest.isEmpty then .ok (.found (cur ++ [s])) else .error .notDirectory := by
  rw [walk.eq_def]
  simp only [if_neg hlimit, hfile]

/-- A step into a link leads on to its target, unless the way ends with a link that is not followed. -/
theorem walk_link {target : Path} (hlimit : ¬nameLimit < s.utf8ByteSize)
    (hlink : d.get? (cur ++ [s]) = some (.link target)) :
    d.walk follow links cur (.name s :: rest) =
      if rest.isEmpty && !follow then .ok (.found (cur ++ [s]))
      else match links with
        | 0 => .error .tooManyLinks
        | links + 1 =>
          if target = Path.empty then .error .notFound
          else d.walk follow links (if target.isAbsolute then [] else cur) (steps target ++ rest) := by
  cases links with
  | zero =>
    rw [walk.eq_def]
    simp only [if_neg hlimit, hlink]
  | succ links =>
    rw [walk.eq_def]
    simp only [if_neg hlimit, hlink]

end Step

/-- A name at which a way ends is free. -/
theorem get?_of_walk_free {d : Disk} {follow : Bool} {links : Nat} {cur dir : Location}
    {todo : List Step} {name : String} {slash : Bool}
    (h : d.walk follow links cur todo = .ok (.free dir name slash)) :
    d.get? (dir ++ [name]) = none := by
  fun_induction walk d follow links cur todo with
  | case6 _ _ _ _ hnone | case7 _ _ _ _ hnone =>
    simp only [Except.ok.injEq, Place.free.injEq] at h
    rw [← h.1, ← h.2.1]
    exact hnone
  | case2 _ _ _ ih | case3 _ _ _ ih | case4 _ _ _ ih => exact ih h
  | case9 _ _ _ _ _ _ ih | case15 _ _ _ _ _ _ _ _ _ ih => exact ih h
  | _ => cases h

/-- Without links a way ends where its spelling leads. -/
theorem LinkFree.location_eq {d : Disk} (hd : d.LinkFree) {follow : Bool} {links : Nat}
    {cur : Location} {todo : List Step} {place : Place}
    (h : d.walk follow links cur todo = .ok place) : place.location = destination cur todo := by
  fun_induction walk d follow links cur todo with
  | case1 | case6 | case7 =>
    cases h
    rfl
  | case2 _ _ _ ih | case3 _ _ _ ih | case4 _ _ _ ih => exact ih h
  | case9 _ _ _ _ _ _ ih => exact ih h
  | case10 _ _ _ _ _ _ _ hrest =>
    rw [List.isEmpty_iff.mp hrest]
    cases h
    rfl
  | case12 _ _ _ _ _ _ hlink | case15 _ _ _ _ _ hlink => exact absurd hlink (hd _ _)
  | _ => cases h

/-- A way that leads to an entry leads there also when other entries have been added. -/
theorem Within.walk_found {d d' : Disk} (hd : Within d d') {follow : Bool} {links : Nat}
    {cur loc : Location} {todo : List Step}
    (h : d.walk follow links cur todo = .ok (.found loc)) :
    d'.walk follow links cur todo = .ok (.found loc) := by
  fun_induction walk d follow links cur todo with
  | case1 => rwa [walk]
  | case2 _ _ _ ih | case3 _ _ _ ih | case4 _ _ _ ih =>
    rw [walk]
    exact ih h
  | case9 _ _ _ _ hlimit hdir ih =>
    rw [walk_dir hlimit (hd _ _ hdir)]
    exact ih h
  | case10 _ _ _ _ hlimit _ hfile hrest =>
    rw [walk_file hlimit (hd _ _ hfile), if_pos hrest]
    exact h
  | case12 _ _ _ _ hlimit _ hlink hrest =>
    rw [walk_link hlimit (hd _ _ hlink), if_pos hrest]
    exact h
  | case15 _ _ _ hlimit _ hlink hrest _ hempty ih =>
    rw [walk_link hlimit (hd _ _ hlink), if_neg hrest]
    simp only [hempty, if_false]
    exact ih h
  | _ => cases h

/-- A way does not depend on what is in a file. -/
theorem walk_set_file {d : Disk} {loc : Location} {c c' : Content}
    (hfile : d.get? loc = some (.file c)) (follow : Bool) (links : Nat) (cur : Location)
    (todo : List Step) :
    (d.set loc (.file c')).walk follow links cur todo = d.walk follow links cur todo := by
  have hne : loc ≠ [] := by
    rintro rfl
    cases hfile
  have hother : ∀ {other e}, d.get? other = e → (∀ c, e ≠ some (.file c)) →
      (d.set loc (.file c')).get? other = e := by
    intro other e he hno
    rw [get?_set _ _ _ _ hne, if_neg, he]
    rintro rfl
    exact hno c (he.symm.trans hfile)
  have hany : ∀ {other c}, d.get? other = some (.file c) →
      ∃ c, (d.set loc (.file c')).get? other = some (.file c) := by
    intro other c hc
    rw [get?_set _ _ _ _ hne]
    split_ifs
    · exact ⟨c', rfl⟩
    · exact ⟨c, hc⟩
  fun_induction walk d follow links cur todo with
  | case1 => rw [walk]
  | case2 _ _ _ ih | case3 _ _ _ ih | case4 _ _ _ ih => rw [walk, ih]
  | case5 _ _ _ _ hlimit =>
    rw [walk.eq_def]
    simp only [hlimit, if_true]
  | case6 _ _ _ hlimit hnone | case7 _ _ _ hlimit hnone | case8 _ _ _ _ hlimit hnone =>
    rw [walk.eq_def]
    simp only [if_neg hlimit, hother hnone nofun]
  | case9 _ _ _ _ hlimit hdir ih => rw [walk_dir hlimit (hother hdir nofun), ih]
  | case10 _ _ _ _ hlimit _ hentry hrest =>
    obtain ⟨c, hc⟩ := hany hentry
    rw [walk_file hlimit hc, if_pos hrest]
  | case11 _ _ _ _ hlimit _ hentry hrest =>
    obtain ⟨c, hc⟩ := hany hentry
    rw [walk_file hlimit hc, if_neg hrest]
  | case12 _ _ _ _ hlimit _ hlink hrest =>
    rw [walk_link hlimit (hother hlink nofun), if_pos hrest]
  | case13 _ _ _ hlimit _ hlink hrest => rw [walk_link hlimit (hother hlink nofun), if_neg hrest]
  | case14 _ _ _ hlimit hrest _ hlink =>
    rw [walk_link hlimit (hother hlink nofun), if_neg hrest]
    simp only [if_true]
  | case15 _ _ _ hlimit _ hlink hrest _ hempty ih =>
    rw [walk_link hlimit (hother hlink nofun), if_neg hrest]
    simp only [hempty, if_false]
    exact ih

/-- All directories above a location are there. -/
def Rooted (d : Disk) (loc : Location) : Prop := ∀ dir, dir <+: loc → dir ≠ loc → d.get? dir = some .dir

/-- A disk without links, on which every entry lies in directories. -/
structure Plain (d : Disk) : Prop where
  /-- No entry is a link. -/
  links : d.LinkFree
  /-- The directories above each entry are there. -/
  rooted : ∀ loc e, d.get? loc = some e → d.Rooted loc

/-- Without steps upwards the destination lies below the start. -/
theorem prefix_destination {cur : Location} {todo : List Step} (hup : .up ∉ todo) :
    cur <+: destination cur todo := by
  induction todo generalizing cur with
  | nil => exact List.prefix_rfl
  | cons step todo ih =>
    rw [List.mem_cons, not_or] at hup
    have hrest := @ih (Step.advance cur step) hup.2
    refine List.IsPrefix.trans ?_ hrest
    cases step with
    | name s => exact List.prefix_append ..
    | up => exact absurd rfl hup.1
    | _ => exact List.prefix_rfl

/-- A way that leads to a file does so already before other entries are added, if the file is there, and
also what the way goes through before it goes up. -/
theorem Within.walk_back {d d' : Disk} (hd : Within d d') (hlinks : d'.LinkFree) {follow : Bool}
    {links : Nat} {cur loc : Location} {todo : List Step}
    (hup : ∀ front back, todo = front ++ back → .up ∈ back →
      d.get? (destination cur front) = some .dir)
    {c : Content} (hfile : d.get? loc = some (.file c)) (hrooted : d.Rooted loc)
    (h : d'.walk follow links cur todo = .ok (.found loc)) :
    d.walk follow links cur todo = .ok (.found loc) := by
  have hplace := hlinks.location_eq h
  fun_induction walk d' follow links cur todo with
  | case1 => rwa [walk]
  | case2 _ _ _ ih | case3 _ _ _ ih | case4 _ _ _ ih =>
    rw [walk]
    exact ih (fun front back heq => hup (_ :: front) back (congrArg _ heq)) h hplace
  | case9 _ cur s rest hlimit hdir ih =>
    have hrest : ∀ front back, rest = front ++ back → .up ∈ back →
        d.get? (destination (cur ++ [s]) front) = some .dir :=
      fun front back heq => hup (.name s :: front) back (congrArg _ heq)
    have hthere : d.get? (cur ++ [s]) = some .dir := by
      by_cases hmem : .up ∈ rest
      · exact hrest [] rest rfl hmem
      · have hpref : cur ++ [s] <+: loc := by
          rw [show loc = destination (cur ++ [s]) rest from hplace]
          exact prefix_destination hmem
        refine hrooted _ hpref ?_
        rintro rfl
        rw [hd _ _ hfile] at hdir
        cases hdir
    rw [walk_dir hlimit hthere]
    exact ih hrest h hplace
  | case10 _ _ _ _ hlimit _ hentry hrest =>
    cases h
    rw [Disk.walk_file hlimit hfile, if_pos hrest]
  | case12 _ _ _ _ _ _ hlink | case15 _ _ _ _ _ hlink => exact absurd hlink (hlinks _ _)
  | _ => cases h

/-- A way without steps upwards that leads to a file does so already before other entries are added,
if the file is there. -/
theorem Within.walk_file {d d' : Disk} (hd : Within d d') (hlinks : d'.LinkFree) {follow : Bool}
    {links : Nat} {cur loc : Location} {todo : List Step} (hup : .up ∉ todo) {c : Content}
    (hfile : d.get? loc = some (.file c)) (hrooted : d.Rooted loc)
    (h : d'.walk follow links cur todo = .ok (.found loc)) :
    d.walk follow links cur todo = .ok (.found loc) := by
  refine hd.walk_back hlinks (fun front back heq hmem => absurd ?_ hup) hfile hrooted h
  rw [heq]
  exact List.mem_append_right _ hmem

end AppScaffold.Disk

namespace AppScaffold.Path

open Disk

variable {p q : Path}

/-- A path that begins with a segment of its own is relative. -/
theorem isAbsolute_of_first (hq : q.first ≠ "") : q.isAbsolute = false := by
  simp [isAbsolute, hq]

/-- What is joined to a path takes the place of an empty segment at the end. -/
theorem exists_join_eq (hp : p ≠ empty) (hq : q.isAbsolute = false) :
    ∃ kept, p.join q = ⟨p.first, kept ++ q.first :: q.rest⟩ ∧
      (p.rest = kept ∨ p.rest = kept ++ [""]) := by
  rw [join, hq, Bool.false_or, if_neg (by simpa using hp)]
  split_ifs with hlast
  · exact ⟨p.rest.dropLast, rfl, .inr (List.dropLast_append_getLast? _ hlast).symm⟩
  · exact ⟨p.rest, rfl, .inl rfl⟩

/-- Joined to the empty path, a path stays as it is. -/
theorem empty_join (q : Path) : empty.join q = q := by
  rw [join, decide_eq_true rfl, Bool.or_true, if_pos rfl]

/-- The steps of joined paths are taken one after the other. -/
theorem bareSteps_join (hq : q.isAbsolute = false) :
    bareSteps (p.join q) = bareSteps p ++ bareSteps q := by
  by_cases hp : p = empty
  · rw [hp, empty_join]
    rfl
  · obtain ⟨kept, hjoin, hrest⟩ := exists_join_eq hp hq
    have hkept : kept.filterMap segmentStep = p.rest.filterMap segmentStep := by
      have hempty : segmentStep "" = none := rfl
      rcases hrest with hrest | hrest <;> simp [hrest, hempty]
    rw [hjoin, bareSteps, bareSteps, bareSteps]
    dsimp only
    rw [← List.cons_append, List.filterMap_append, List.filterMap_cons, hkept, ← List.filterMap_cons]

/-- Joined paths start where the first one does. -/
theorem isAbsolute_join (hq : q.isAbsolute = false) : (p.join q).isAbsolute = p.isAbsolute := by
  by_cases hp : p = empty
  · rw [hp, empty_join, hq]
    rfl
  · obtain ⟨kept, hjoin, -⟩ := exists_join_eq hp hq
    rw [hjoin]
    obtain ⟨first, rest⟩ := p
    by_cases hfirst : first = ""
    · have hrest : rest ≠ [] := by
        rintro rfl
        exact hp (by rw [hfirst, empty])
      have hkept : kept ++ q.first :: q.rest ≠ [] :=
        List.append_ne_nil_of_right_ne_nil _ (List.cons_ne_nil _ _)
      rw [isAbsolute, isAbsolute, List.isEmpty_eq_false_iff.mpr hkept,
        List.isEmpty_eq_false_iff.mpr hrest]
    · rw [isAbsolute_of_first hfirst, isAbsolute_of_first hfirst]

/-- Joined paths end as the second one does. -/
theorem endsWithSlash_join (hq : q.first ≠ "") : endsWithSlash (p.join q) = endsWithSlash q := by
  by_cases hp : p = empty
  · rw [hp, empty_join]
  · obtain ⟨kept, hjoin, -⟩ := exists_join_eq hp (isAbsolute_of_first hq)
    rw [hjoin, endsWithSlash, endsWithSlash]
    cases hrest : q.rest with
    | nil => simp [hq]
    | cons s rest =>
      dsimp only
      rw [List.getLast?_append_cons, List.getLast?_cons_cons]

/-- The steps of joined paths, with a final slash if there is one. -/
theorem steps_join (hq : q.first ≠ "") : Disk.steps (p.join q) = bareSteps p ++ Disk.steps q := by
  rw [Disk.steps, Disk.steps, bareSteps_join (isAbsolute_of_first hq), endsWithSlash_join hq,
    List.append_assoc]

end AppScaffold.Path
