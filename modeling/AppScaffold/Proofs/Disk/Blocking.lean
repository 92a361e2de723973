import AppScaffold.Proofs.Disk.Occupied
import AppScaffold.Proofs.Disk.Reporting
import Mathlib.Data.List.Basic
import Mathlib.Tactic.Common

/-!
# What is in the way of a directory

A directory cannot be made at a path at which something is already, nor below something that is no
directory. The fault tells which: that something is there, or where the way ends that goes on through it.
The making of a chain of directories comes upon the one or the other, and what is met then is told by
`exists_taken`, `mkdirChain_of_taken` and `Blocks.mkdirChain_eq`.
-/

namespace AppScaffold

open Disk

namespace Disk

variable {d : Disk} {follow : Bool} {links : Nat} {cur : Location} {xs ys : List Step}

/-- A way that ends with a fault ends with the same fault when it is followed on. -/
theorem walk_append_of_error {e : Fault} (h : d.walk follow links cur xs = .error e) (hys : ys ≠ [])
    (follow' : Bool) : d.walk follow' links cur (xs ++ ys) = .error e := by
  have hmore : ∀ rest : List Step, (rest ++ ys).isEmpty = false := by simp [hys]
  fun_induction walk d follow links cur xs with
  | case1 => cases h
  | case2 _ _ _ ih | case3 _ _ _ ih | case4 _ _ _ ih =>
    rw [List.cons_append, walk]
    exact ih h
  | case5 _ _ _ _ hlimit =>
    rw [List.cons_append, walk.eq_def]
    simp only [hlimit, if_true]
    exact h
  | case8 _ _ s rest hlimit hnone hnil hslash =>
    rw [List.cons_append, walk.eq_def]
    simp only [if_neg hlimit, hnone]
    split
    · next heq => simp [hys] at heq
    · next heq =>
      rcases List.append_eq_singleton_iff.mp heq with ⟨rfl, -⟩ | ⟨hrest, -⟩
      · exact absurd rfl hnil
      · exact absurd hrest hslash
    · exact h
  | case9 _ _ _ _ hlimit hdir ih =>
    rw [List.cons_append, walk_dir hlimit hdir]
    exact ih h
  | case11 _ _ _ _ hlimit _ hfile =>
    rw [List.cons_append, walk_file hlimit hfile, hmore]
    exact h
  | case13 _ _ _ hlimit _ hlink | case14 _ _ _ hlimit _ _ hlink =>
    rw [List.cons_append, walk_link hlimit hlink, hmore, Bool.false_and, if_neg (by decide)]
    exact h
  | case15 _ _ _ hlimit _ hlink _ _ hempty ih =>
    rw [List.cons_append, walk_link hlimit hlink, hmore, Bool.false_and, if_neg (by decide)]
    simp only [hempty, if_false]
    rw [← List.append_assoc]
    exact ih h
  | _ => cases h

/-- A way that leads to something else than a directory ends there when it is followed on. -/
theorem walk_append_of_not_dir (hd : d.Nested) (hcur : d.get? cur = some .dir) {loc : Location}
    (h : d.walk true links cur xs = .ok (.found loc)) (hnot : d.get? loc ≠ some .dir) (hys : ys ≠ [])
    (follow : Bool) : d.walk follow links cur (xs ++ ys) = .error .notDirectory := by
  have hmore : ∀ rest : List Step, (rest ++ ys).isEmpty = false := by simp [hys]
  fun_induction walk d true links cur xs with
  | case1 =>
    cases h
    exact absurd hcur hnot
  | case2 _ _ _ ih | case3 _ _ _ ih =>
    rw [List.cons_append, walk]
    exact ih hcur h
  | case4 _ _ _ ih =>
    rw [List.cons_append, walk]
    exact ih (hd.get?_dropLast hcur) h
  | case9 _ _ _ _ hlimit hdir ih =>
    rw [List.cons_append, walk_dir hlimit hdir]
    exact ih hdir h
  | case10 _ _ _ _ hlimit _ hfile =>
    rw [List.cons_append, walk_file hlimit hfile, hmore]
    rfl
  | case12 _ _ _ _ _ _ _ hrest => simp at hrest
  | case15 _ _ _ hlimit _ hlink _ _ hempty ih =>
    rw [List.cons_append, walk_link hlimit hlink, hmore, Bool.false_and, if_neg (by decide)]
    simp only [hempty, if_false]
    rw [← List.append_assoc]
    refine ih ?_ h
    split_ifs
    · rfl
    · exact hcur
  | _ => cases h

end Disk

/-- The text of a path begins with that of its parent. -/
theorem Path.text_parent {p q : Path} (hparent : p.parent = some q) (hq : q ≠ Path.empty) :
    ∃ more, p.text = q.text ++ String.ofList more := by
  suffices hchars : q.text.toList <+: p.text.toList by
    obtain ⟨more, hmore⟩ := hchars
    refine ⟨more, String.toList_injective ?_⟩
    rw [String.toList_append, String.toList_ofList, hmore]
  unfold parent at hparent
  split at hparent
  · next s before hdrop =>
    cases hparent
    obtain ⟨idles, hrest⟩ := exists_rest_eq hdrop
    rw [toList_text p, hrest]
    unfold ofReversed
    split
    · next hfirst _ =>
      rw [hfirst]
      cases before.reverse <;> simp [text]
    · rw [toList_text]
      have hkept : before.reverse =
          (before.dropWhile idle).reverse ++ (before.takeWhile idle).reverse := by
        rw [← List.reverse_append, List.takeWhile_append_dropWhile]
      rw [hkept, List.append_assoc, List.flatMap_append, ← List.append_assoc]
      exact List.prefix_append ..
  · split_ifs at hparent
    cases hparent
    exact absurd rfl hq

/-- The parent of a path can be handed to the file system if the path can. -/
theorem Path.admissible_parent {p q : Path} (hp : admissible p = .ok ()) (hparent : p.parent = some q)
    (hq : q ≠ Path.empty) : admissible q = .ok () := by
  obtain ⟨more, htext⟩ := p.text_parent hparent hq
  unfold admissible at hp ⊢
  split_ifs at hp with hzero hempty hlong
  rw [htext, String.toList_append, List.any_append, Bool.or_eq_true, not_or] at hzero
  rw [htext, String.utf8ByteSize_append] at hlong
  rw [if_neg hzero.1, if_neg hq, if_neg (by omega)]

/-- The path `q` is above `p`: it is the parent of `p`, or above that. -/
inductive Path.IsAbove (q : Path) : Path → Prop where
  /-- It is the parent. -/
  | parent {p : Path} (hparent : p.parent = some q) : IsAbove q p
  /-- It is above the parent. -/
  | above {p between : Path} (hparent : p.parent = some between) (h : IsAbove q between) : IsAbove q p

/-- Nothing is above the empty path. -/
theorem Path.IsAbove.ne_empty {p q : Path} (h : IsAbove q p) : p ≠ Path.empty := by
  have hnone : Path.empty.parent = none := by decide
  rintro rfl
  cases h with
  | parent hparent | above hparent =>
    rw [hnone] at hparent
    cases hparent

namespace Volume

variable {v w : Volume} {p q above : Path} {n : ℕ} {e : Fault}

/-- A path that can be followed to a directory leads to it, also with a final slash. -/
theorem isDir_of_walk (hp : admissible p = .ok ()) {loc : Location}
    (h : v.disk.walk true linkLimit (v.start p) (bareSteps p) = .ok (.found loc))
    (hdir : v.disk.get? loc = some .dir) : v.isDir p = true := by
  have hwalk : v.disk.walk true linkLimit (v.start p) (Disk.steps p) = .ok (.found loc) := by
    rw [Disk.steps]
    split_ifs
    · obtain ⟨links, hslash⟩ := walk_append h hdir (List.cons_ne_nil Step.slash []) true
      rw [hslash, walk, walk]
    · rwa [List.append_nil]
  rw [Volume.isDir, Volume.find?, locate_eq_walk hp, hwalk]
  simp only [hdir]

/-- A directory that cannot be made leaves everything as it was. -/
theorem eq_of_mkdir (h : v.mkdir p = (.error e, w)) : w = v := by
  unfold mkdir at h
  split at h <;> cases h <;> rfl

/-- A directory that cannot be made leaves everything as it is. -/
theorem mkdir_eq_of_error (h : (v.mkdir p).1 = .error e) : v.mkdir p = (.error e, v) := by
  cases hmade : v.mkdir p with
  | mk outcome w =>
    rw [hmade] at h
    subst h
    rw [eq_of_mkdir hmade]

/-- There is no directory where one cannot be made for another reason than that something is there. -/
theorem isDir_eq_false (he : e ≠ .exists) (h : (v.mkdir p).1 = .error e) : v.isDir p = false := by
  rw [Bool.eq_false_iff]
  intro hdir
  rw [mkdir_of_isDir hdir] at h
  exact he (Except.error.inj h).symm

/-- A path to which something leads, or would lead, can be handed to the file system. -/
theorem admissible_of_mkdir (hp : p ≠ Path.empty)
    (h : (v.mkdir p).1 = .error .exists ∨ (v.mkdir p).1 = .error .notFound) :
    admissible p = .ok () := by
  cases hadmissible : admissible p with
  | ok _ => rfl
  | error f =>
    rw [mkdir, locate, hadmissible] at h
    unfold admissible at hadmissible
    split_ifs at hadmissible <;> cases hadmissible <;> simp at h

/-- A directory is not made at a path of which the parent cannot be followed. -/
theorem mkdir_of_parent (hp : admissible p = .ok ()) (hparent : p.parent = some q)
    (hq : q ≠ Path.empty) (he : e ≠ .exists) (hfailed : (w.mkdir q).1 = .error e) :
    (w.mkdir p).1 = .error e := by
  obtain ⟨hheads, hempty | ⟨back, hback, step, hstep, -⟩⟩ := Path.heads_of_parent hparent
  · exact absurd hempty hq
  have hwalk : w.disk.walk false linkLimit (w.start q) (bareSteps q) = .error e := by
    rw [← locate_eq_walk (Path.admissible_parent hp hparent hq)]
    unfold mkdir at hfailed
    split at hfailed
    · cases hfailed
    · cases hfailed
      exact absurd rfl he
    · next hlocate =>
      cases hfailed
      exact hlocate
  have hstart : w.start p = w.start q := by rw [start, start, hheads.start]
  rw [mkdir, locate_eq_walk hp, hback, hstart,
    walk_append_of_error hwalk (List.ne_nil_of_mem hstep)]

/-- The fault with which a way ends that leads on from a path at which no directory is: that of the way
to the path, or that nothing is there, or that something else is there. -/
def faultThrough (v : Volume) (p : Path) : Fault :=
  match v.disk.locate v.cwd true p (bareSteps p) with
  | .error e => e
  | .ok (.free ..) => .notFound
  | .ok (.found _) => .notDirectory

/-- What is at a path above `p` is no directory, so that no directory can be made at `p`. -/
structure Blocks (v : Volume) (above p : Path) : Prop where
  /-- The path is above the other one. -/
  isAbove : above.IsAbove p
  /-- Something is there. -/
  taken : (v.mkdir above).1 = .error .exists
  /-- It is no directory, and leads to none. -/
  notDir : v.isDir above = false

/-- The empty path leads nowhere. -/
theorem ne_empty_of_mkdir (h : (v.mkdir p).1 = .error .exists) : p ≠ Path.empty := by
  rintro rfl
  have hempty : admissible Path.empty = .error .notFound := by decide
  rw [mkdir, locate, hempty] at h
  cases h

/-- That something is there is no fault of a way that leads on from it. -/
theorem faultThrough_ne_exists (v : Volume) (p : Path) : v.faultThrough p ≠ .exists := by
  unfold faultThrough
  split
  · next hlocate =>
    rintro rfl
    exact locate_ne_exists _ _ _ _ _ hlocate
  · decide
  · decide

/-- A directory is not made at a path of which the parent is no directory. -/
theorem mkdir_of_parent_not_dir (h : v.IsNested) (hp : admissible p = .ok ())
    (hparent : p.parent = some q) (hq : q ≠ Path.empty) (hdir : v.isDir q = false) :
    (v.mkdir p).1 = .error (v.faultThrough q) := by
  have hadmissible := Path.admissible_parent hp hparent hq
  obtain ⟨hheads, hempty | ⟨back, hback, step, hstep, hmoves⟩⟩ := Path.heads_of_parent hparent
  · exact absurd hempty hq
  have hne : back ≠ [] := List.ne_nil_of_mem hstep
  have hstart : v.start p = v.start q := by rw [start, start, hheads.start]
  have hwalk : v.disk.walk false linkLimit (v.start q) (bareSteps q ++ back) =
      .error (v.faultThrough q) := by
    rw [faultThrough, locate_eq_walk hadmissible]
    cases hplace : v.disk.walk true linkLimit (v.start q) (bareSteps q) with
    | error f => exact walk_append_of_error hplace hne false
    | ok place =>
      cases place with
      | free dir name slash =>
        have hmissing : Missing (v.disk.walk true linkLimit (v.start q) (bareSteps q)) := by
          rw [hplace]
          trivial
        exact walk_append_of_missing hmissing ⟨step, hstep, hmoves⟩ false
      | found loc =>
        refine walk_append_of_not_dir h.disk (h.get?_start q) hplace (fun hthere => ?_) hne false
        rw [isDir_of_walk hadmissible hplace hthere] at hdir
        cases hdir
  rw [mkdir, locate_eq_walk hp, hback, hstart, hwalk]

/-- A directory is not made below something else, and the fault is that of the way through it. -/
theorem Blocks.mkdir_eq (hv : v.IsNested) (h : v.Blocks above p) (hp : admissible p = .ok ()) :
    v.mkdir p = (.error (v.faultThrough above), v) := by
  refine mkdir_eq_of_error ?_
  obtain ⟨habove, htaken, hdir⟩ := h
  induction habove with
  | parent hparent =>
    exact mkdir_of_parent_not_dir hv hp hparent (ne_empty_of_mkdir htaken) hdir
  | above hparent habove ih =>
    have hne := habove.ne_empty
    exact mkdir_of_parent hp hparent hne (v.faultThrough_ne_exists above)
      (ih (Path.admissible_parent hp hparent hne))

/-- Above a path at which something is, there is a directory. -/
theorem isDir_parent (h : v.IsNested) (hparent : p.parent = some q) (hq : q ≠ Path.empty)
    (htaken : (v.mkdir p).1 = .error .exists) : v.isDir q = true := by
  by_contra hdir
  have hp := admissible_of_mkdir (ne_empty_of_mkdir htaken) (.inl htaken)
  rw [mkdir_of_parent_not_dir h hp hparent hq (Bool.eq_false_iff.mpr hdir)] at htaken
  exact v.faultThrough_ne_exists q (Except.error.inj htaken)

/-- A directory that is not made at the head of a chain cannot be made at once, or its parents cannot be
made, or it cannot be made in them; nothing but the parents is new. -/
theorem mkdirChain_cons_failure {parents : List Path}
    (h : v.mkdirChain (p :: parents) = (.error e, w)) : p ≠ Path.empty ∧
      (v.mkdir p = (.error e, v) ∧ w = v ∨
        v.mkdir p = (.error .notFound, v) ∧
          (v.mkdirChain parents = (.error e, w) ∨
            v.mkdirChain parents = (.ok (), w) ∧ w.mkdir p = (.error e, w) ∧ w.isDir p = false)) := by
  cases mkdirChain_eq_iff.mp h with
  | barred hp hmade =>
    obtain rfl := eq_of_mkdir hmade
    exact ⟨hp, .inl ⟨hmade, rfl⟩⟩
  | unpaved hp hmissing hparents =>
    obtain rfl := eq_of_mkdir hmissing
    exact ⟨hp, .inr ⟨hmissing, .inl (mkdirChain_eq_iff.mpr hparents)⟩⟩
  | barredAfter hp hmissing hparents hagain hdir =>
    obtain rfl := eq_of_mkdir hmissing
    obtain rfl := eq_of_mkdir hagain
    exact ⟨hp, .inr ⟨hmissing, .inr ⟨mkdirChain_eq_iff.mpr hparents, hagain, hdir⟩⟩⟩

/-- The members of a chain are its path and what is above it. -/
theorem isAbove_of_mem_chain (h : q ∈ chain n p) : q = p ∨ q.IsAbove p := by
  induction n using Nat.strongRecOn generalizing p with
  | ind n ih =>
    obtain ⟨parents, hchain, hnext⟩ := chain_eq n p
    rw [hchain] at h
    rcases List.mem_cons.mp h with hsame | hmem
    · exact .inl hsame
    rcases hnext with rfl | ⟨m, hm, between, hparent, rfl⟩
    · cases hmem
    · rcases ih m hm hmem with rfl | habove
      · exact .inr (.parent hparent)
      · exact .inr (.above hparent habove)

/-- If a chain cannot be made because something is in the way, its path can be handed to the file
system. -/
theorem admissible_of_mkdirChain {parents : List Path}
    (hfailed : v.mkdirChain (p :: parents) = (.error .exists, w)) : admissible p = .ok () := by
  obtain ⟨hp, ⟨hmade, -⟩ | ⟨hmissing, -⟩⟩ := mkdirChain_cons_failure hfailed
  · exact admissible_of_mkdir hp (.inl (by rw [hmade]))
  · exact admissible_of_mkdir hp (.inr (by rw [hmissing]))

/-- If a chain cannot be made because something is in the way, something that is no directory is at one
of its paths. Nothing has been made then, unless this path goes up and led nowhere before. -/
theorem exists_taken (h : v.IsNested) (hfailed : v.mkdirChain (chain n p) = (.error .exists, w)) :
    ∃ above ∈ chain n p, (w.mkdir above).1 = .error .exists ∧ w.isDir above = false ∧
      (w = v ∨ .up ∈ bareSteps above ∧ (v.mkdir above).1 = .error .notFound) := by
  induction n using Nat.strongRecOn generalizing p with
  | ind n ih =>
    obtain ⟨parents, hchain, hnext⟩ := chain_eq n p
    rw [hchain] at hfailed ⊢
    cases mkdirChain_eq_iff.mp hfailed with
    | barred _ hmade _ hdir =>
      exact ⟨p, List.mem_cons_self, by rw [hmade], hdir, .inl rfl⟩
    | unpaved _ _ hparents =>
      rcases hnext with rfl | ⟨m, hm, q, -, rfl⟩
      · cases hparents
      · obtain ⟨above, hmem, hrest⟩ := ih m hm (mkdirChain_eq_iff.mpr hparents)
        exact ⟨above, List.mem_cons_of_mem _ hmem, hrest⟩
    | barredAfter _ hmissing hparents hagain hdir =>
      refine ⟨p, List.mem_cons_self, by rw [hagain], hdir, ?_⟩
      by_cases hup : .up ∈ bareSteps p
      · exact .inr ⟨hup, by rw [hmissing]⟩
      rcases hnext with rfl | ⟨m, hm, q, hparent, rfl⟩
      · cases hparents
      have hupq : .up ∉ bareSteps q := fun hmem =>
        hup ((Path.heads_of_parent hparent).1.steps.subset hmem)
      refine .inl ((eq_or_leadsToEmpty_of_mkdirChain h hupq
        (mkdirChain_eq_iff.mpr hparents)).resolve_right fun hempty => ?_)
      unfold mkdir at hagain
      split at hagain
      · cases hagain
      · next hfound =>
        exact hempty.locate_ne_found hparent hup List.not_mem_nil _ (by rwa [List.append_nil])
      · next hfault =>
        cases hagain
        exact locate_ne_exists _ _ _ _ _ hfault

/-- What ends the way to a path, and not because it is missing, ends the making of its chain. -/
theorem Blocks.mkdirChain_eq (hv : v.IsNested) (h : v.Blocks above p) (hp : admissible p = .ok ())
    (hother : v.faultThrough above ≠ .notFound) (n : ℕ) :
    v.mkdirChain (chain n p) = (.error (v.faultThrough above), v) := by
  have hmade := h.mkdir_eq hv hp
  have hdir := isDir_eq_false (v.faultThrough_ne_exists above) (congrArg Prod.fst hmade)
  obtain ⟨parents, hchain, -⟩ := chain_eq n p
  rw [hchain]
  exact mkdirChain_eq_iff.mpr (.barred h.isAbove.ne_empty hmade hother hdir)

/-- What is at a path of a chain is in the way if the chain comes to it, as it does from below if the way
through it leads nowhere. -/
theorem mkdirChain_of_taken (hv : v.IsNested) (hp : admissible p = .ok ()) (hmem : above ∈ chain n p)
    (htaken : (v.mkdir above).1 = .error .exists) (hdir : v.isDir above = false)
    (h : above = p ∨ v.faultThrough above = .notFound) :
    v.mkdirChain (chain n p) = (.error .exists, v) := by
  induction n using Nat.strongRecOn generalizing p with
  | ind n ih =>
    obtain ⟨parents, hchain, hnext⟩ := chain_eq n p
    by_cases hsame : above = p
    · subst hsame
      rw [hchain]
      exact mkdirChain_eq_iff.mpr
        (.barred (ne_empty_of_mkdir htaken) (mkdir_eq_of_error htaken) (by decide) hdir)
    have hmissing := h.resolve_left hsame
    have habove := (isAbove_of_mem_chain hmem).resolve_left hsame
    have hmade := Blocks.mkdir_eq hv ⟨habove, htaken, hdir⟩ hp
    rw [hmissing] at hmade
    rw [hchain] at hmem ⊢
    have hmem := (List.mem_cons.mp hmem).resolve_left hsame
    rcases hnext with rfl | ⟨m, hm, q, hparent, rfl⟩
    · cases hmem
    have hq : q ≠ Path.empty := by
      rcases isAbove_of_mem_chain hmem with rfl | hbetween
      · exact ne_empty_of_mkdir htaken
      · exact hbetween.ne_empty
    have hparents := ih m hm (Path.admissible_parent hp hparent hq) hmem (.inr hmissing)
    exact mkdirChain_eq_iff.mpr
      (.unpaved habove.ne_empty hmade (mkdirChain_eq_iff.mp hparents))

end Volume

end AppScaffold
