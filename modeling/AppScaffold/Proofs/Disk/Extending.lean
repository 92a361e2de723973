import AppScaffold.Proofs.Disk.Growing
import Mathlib.Data.List.Basic
import Mathlib.Tactic.Common

/-!
# Paths below a directory

A path that leads to a directory can be followed by names. Where the longer path leads is then
settled by the entries below the directory alone, whatever links the path itself goes through. The
directories on the way can be made if nothing but directories is there.
-/

namespace AppScaffold

open Disk

/-- A text that names an entry of a directory. -/
structure IsName (s : String) : Prop where
  /-- It is a step into the entry. -/
  step : segmentStep s = some (.name s)
  /-- The character zero is not in it. -/
  zero : ∀ c ∈ s.toList, c.toNat ≠ 0
  /-- It is not too long. -/
  short : s.utf8ByteSize ≤ nameLimit

/-- Characters among which the character zero is not found. -/
theorem ne_zero_of_all {cs : List Char} (h : (cs.all fun c => c.toNat != 0) = true) :
    ∀ c ∈ cs, c.toNat ≠ 0 := fun c hc => by
  have hne := List.all_eq_true.mp h c hc
  rwa [bne_iff_ne] at hne

instance (s : String) : Decidable (IsName s) :=
  decidable_of_iff (segmentStep s = some (.name s) ∧ (s.toList.all fun c => c.toNat != 0) = true ∧
      s.utf8ByteSize ≤ nameLimit)
    ⟨fun h => ⟨h.1, ne_zero_of_all h.2.1, h.2.2⟩,
      fun h => ⟨h.step, List.all_eq_true.mpr fun c hc => bne_iff_ne.mpr (h.zero c hc), h.short⟩⟩

/-- The octets that names take in a path, each with the slash before it. -/
def width : List String → Nat
  | [] => 0
  | s :: names => s.utf8ByteSize + 1 + width names

/-- More names take more octets. -/
@[simp] theorem width_append (names names' : List String) :
    width (names ++ names') = width names + width names' := by
  induction names with
  | nil => rw [List.nil_append, width, Nat.zero_add]
  | cons s names ih =>
    rw [List.cons_append, width, width, ih]
    omega

namespace Path

/-- The path followed by names. -/
def extend (p : Path) (names : List String) : Path := ⟨p.first, p.rest ++ names⟩

/-- The path ends with a segment that means something. -/
structure IsTrimmed (p : Path) : Prop where
  /-- The last segment is not idle. -/
  last : ∀ s, p.rest.getLast? = some s → idle s = false
  /-- A path of one segment is not empty. -/
  first : p.rest = [] → p.first ≠ ""

/-- A name is not idle. -/
theorem idle_of_isName {s : String} (h : IsName s) : idle s = false := by
  have hempty : s ≠ "" := by
    rintro rfl
    exact absurd h.step (by decide)
  have hdot : s ≠ "." := by
    rintro rfl
    exact absurd h.step (by decide)
  rw [idle, Bool.or_eq_false_iff, decide_eq_false_iff_not, decide_eq_false_iff_not]
  exact ⟨hempty, hdot⟩

/-- What is followed by no names stays. -/
@[simp] theorem extend_nil (p : Path) : p.extend [] = p := by
  rw [extend, List.append_nil]

/-- Names follow names. -/
theorem extend_extend (p : Path) (names names' : List String) :
    (p.extend names).extend names' = p.extend (names ++ names') := by
  rw [extend, extend, extend, List.append_assoc]

/-- The characters of the text of a path. -/
theorem toList_text (p : Path) :
    p.text.toList = p.first.toList ++ p.rest.flatMap fun s => '/' :: s.toList := by
  obtain ⟨first, rest⟩ := p
  rw [text]
  induction rest generalizing first with
  | nil => simp
  | cons s rest ih =>
    have hrest := ih (first ++ "/" ++ s)
    simp only at hrest ⊢
    rw [List.foldl_cons, hrest]
    simp

/-- The size of the text of a path. -/
theorem utf8ByteSize_text (p : Path) :
    p.text.utf8ByteSize = p.first.utf8ByteSize + width p.rest := by
  obtain ⟨first, rest⟩ := p
  rw [text]
  induction rest generalizing first with
  | nil => rfl
  | cons s rest ih =>
    have hrest := ih (first ++ "/" ++ s)
    have hslash : "/".utf8ByteSize = 1 := by decide
    simp only at hrest ⊢
    rw [List.foldl_cons, hrest, String.utf8ByteSize_append, String.utf8ByteSize_append, hslash, width]
    omega

/-- The names that follow a path add their octets. -/
theorem utf8ByteSize_text_extend (p : Path) (names : List String) :
    (p.extend names).text.utf8ByteSize = p.text.utf8ByteSize + width names := by
  rw [utf8ByteSize_text, utf8ByteSize_text, extend, width_append, Nat.add_assoc]

namespace IsTrimmed

variable {p : Path}

/-- A trimmed path is not empty. -/
theorem ne_empty (h : p.IsTrimmed) : p ≠ Path.empty := by
  rintro rfl
  exact h.first rfl rfl

/-- A trimmed path does not end with a slash. -/
theorem endsWithSlash (h : p.IsTrimmed) : Disk.endsWithSlash p = false := by
  rw [Disk.endsWithSlash, decide_eq_false_iff_not]
  intro hlast
  exact absurd (h.last "" hlast) (by decide)

/-- All steps of a trimmed path are those of its segments. -/
theorem steps_eq (h : p.IsTrimmed) : Disk.steps p = bareSteps p := by
  rw [Disk.steps, h.endsWithSlash]
  exact List.append_nil _

/-- A path stays trimmed when names follow it. -/
theorem extend (h : p.IsTrimmed) {names : List String} (hnames : ∀ s ∈ names, IsName s) :
    (p.extend names).IsTrimmed := by
  refine ⟨fun s hs => ?_, fun hnil => h.first (List.append_eq_nil_iff.mp hnil).1⟩
  rw [Path.extend, List.getLast?_append, Option.or_eq_some_iff] at hs
  rcases hs with hs | ⟨-, hs⟩
  · exact idle_of_isName (hnames s (List.mem_of_getLast? hs))
  · exact h.last s hs

/-- The parent of a path that ends with a name is the path without it. -/
theorem parent_extend (h : p.IsTrimmed) {names : List String} (hnames : ∀ s ∈ names, IsName s)
    {s : String} (hs : IsName s) : (p.extend (names ++ [s])).parent = some (p.extend names) := by
  have htrimmed := h.extend hnames
  have hreverse : (p.extend (names ++ [s])).rest.reverse = s :: (p.extend names).rest.reverse := by
    simp [Path.extend]
  have hdrop : ∀ rest : List String, (s :: rest).dropWhile idle = s :: rest := fun rest =>
    List.dropWhile_cons_of_neg (by rw [idle_of_isName hs]; decide)
  have hfirst : (p.extend (names ++ [s])).first = (p.extend names).first := rfl
  rw [parent, hreverse, hdrop, hfirst]
  simp only [Option.some.injEq]
  generalize p.extend names = q at htrimmed ⊢
  obtain ⟨first, rest⟩ := q
  rcases List.eq_nil_or_concat' rest with rfl | ⟨front, t, rfl⟩
  · rw [ofReversed]
    · rfl
    · intro hfirst
      exact absurd hfirst (htrimmed.first rfl)
  · have ht := htrimmed.last t (List.getLast?_concat ..)
    have hkept : ((front ++ [t]).reverse).dropWhile idle = t :: front.reverse := by
      rw [List.reverse_concat, List.dropWhile_cons_of_neg (by rw [ht]; decide)]
    rw [ofReversed, hkept]
    · simp
    · intro _ hnil
      rw [hkept] at hnil
      cases hnil

/-- A path starts from the same directory when names follow it. -/
theorem isAbsolute_extend (h : p.IsTrimmed) (names : List String) :
    (p.extend names).isAbsolute = p.isAbsolute := by
  obtain ⟨first, rest⟩ := p
  cases rest with
  | nil =>
    have hfirst : first ≠ "" := h.first rfl
    simp [isAbsolute, Path.extend, hfirst]
  | cons s rest => rfl

/-- The steps of a path that is followed by names are its own and those into the names. -/
theorem steps_extend (h : p.IsTrimmed) {names : List String} (hnames : ∀ s ∈ names, IsName s) :
    bareSteps (p.extend names) = bareSteps p ++ names.map .name ∧
      Disk.steps (p.extend names) = bareSteps p ++ names.map .name := by
  have hbare : bareSteps (p.extend names) = bareSteps p ++ names.map .name := by
    have hmap : names.filterMap segmentStep = names.map .name := by
      rw [← List.filterMap_eq_map]
      exact List.filterMap_congr fun s hs => (hnames s hs).step
    rw [bareSteps, bareSteps, Path.extend, ← List.cons_append, List.filterMap_append, hmap]
  exact ⟨hbare, (h.extend hnames).steps_eq.trans hbare⟩

/-- What is joined to a path that ends with a segment that means something follows it. -/
theorem join_eq (h : p.IsTrimmed) {q : Path} (hq : q.first ≠ "") :
    p.join q = p.extend (q.first :: q.rest) := by
  have habsolute : q.isAbsolute = false := by simp [isAbsolute, hq]
  have hlast : p.rest.getLast? ≠ some "" := fun hlast => absurd (h.last "" hlast) (by decide)
  rw [join, habsolute, Bool.false_or, if_neg (by simpa using h.ne_empty), if_neg hlast]
  rfl

end IsTrimmed

end Path

/-- Names that can follow a path without making it too long. -/
structure Follows (p : Path) (names : List String) : Prop where
  /-- They are names. -/
  proper : ∀ s ∈ names, IsName s
  /-- The whole path is not too long. -/
  short : p.text.utf8ByteSize + width names < pathLimit

namespace Follows

variable {p : Path}

/-- The first of the names can follow the path alone. -/
theorem of_append {names names' : List String} (h : Follows p (names ++ names')) :
    Follows p names := by
  have hshort := h.short
  rw [width_append] at hshort
  exact ⟨fun s hs => h.proper s (List.mem_append_left _ hs), by omega⟩

/-- The longer path can be handed to the file system if the shorter one can. -/
theorem admissible_extend {names : List String} (h : Follows p names) (htrimmed : p.IsTrimmed)
    (hp : admissible p = .ok ()) : admissible (p.extend names) = .ok () := by
  have hzero : ¬p.text.toList.any (·.toNat = 0) = true := by
    intro hany
    rw [admissible, if_pos hany] at hp
    cases hp
  have hzero' : ¬(p.extend names).text.toList.any (·.toNat = 0) = true := by
    rw [List.any_eq_true] at hzero ⊢
    rintro ⟨c, hc, hc0⟩
    have htext : (p.extend names).text.toList =
        p.text.toList ++ names.flatMap fun s => '/' :: s.toList := by
      rw [Path.toList_text, Path.toList_text, Path.extend, List.flatMap_append, List.append_assoc]
    rw [htext, List.mem_append, List.mem_flatMap] at hc
    rcases hc with hc | ⟨s, hs, hc⟩
    · exact hzero ⟨c, hc, hc0⟩
    · rw [decide_eq_true_eq] at hc0
      rcases List.mem_cons.mp hc with rfl | hc
      · exact absurd hc0 (by decide)
      · exact (h.proper s hs).zero c hc hc0
  have hsize : ¬pathLimit ≤ (p.extend names).text.utf8ByteSize := by
    rw [Path.utf8ByteSize_text_extend]
    exact Nat.not_le_of_lt h.short
  rw [admissible, if_neg hzero', if_neg (htrimmed.extend h.proper).ne_empty, if_neg hsize]

end Follows

/-- A path that is too long cannot be handed to the file system. -/
theorem exists_fault_of_long {p : Path} (hp : p ≠ Path.empty)
    (h : pathLimit ≤ p.text.utf8ByteSize) : ∃ e, e ≠ .notFound ∧ admissible p = .error e := by
  rw [admissible, if_neg hp, if_pos h]
  split_ifs
  · exact ⟨_, by decide, rfl⟩
  · exact ⟨_, by decide, rfl⟩

namespace Disk

variable {d : Disk} {links : Nat} {cur : Location} {xs : List Step}

/-- A way that leads to a directory can be followed on from there. -/
theorem walk_append {loc : Location} (h : d.walk true links cur xs = .ok (.found loc))
    (hdir : d.get? loc = some .dir) {ys : List Step} (hys : ys ≠ []) (follow : Bool) :
    ∃ links', d.walk follow links cur (xs ++ ys) = d.walk follow links' loc ys := by
  fun_induction walk d true links cur xs with
  | case1 =>
    cases h
    exact ⟨_, rfl⟩
  | case2 _ _ _ ih | case3 _ _ _ ih | case4 _ _ _ ih =>
    obtain ⟨links', hwalk⟩ := ih h
    exact ⟨links', by rw [List.cons_append, walk, hwalk]⟩
  | case9 _ _ _ _ hlimit hentry ih =>
    obtain ⟨links', hwalk⟩ := ih h
    exact ⟨links', by rw [List.cons_append, walk_dir hlimit hentry, hwalk]⟩
  | case10 _ _ _ _ _ _ hfile =>
    cases h
    rw [hfile] at hdir
    cases hdir
  | case12 _ _ _ _ _ _ _ hrest =>
    rw [Bool.not_true, Bool.and_false] at hrest
    cases hrest
  | case15 _ _ rest hlimit target hlink _ links hempty ih =>
    obtain ⟨links', hwalk⟩ := ih h
    refine ⟨links', ?_⟩
    have hrest : ¬((rest ++ ys).isEmpty && !follow) = true := by
      have hne : (rest ++ ys).isEmpty = false := by simp [hys]
      rw [hne, Bool.false_and]
      decide
    rw [List.cons_append, walk_link hlimit hlink, if_neg hrest]
    simp only [hempty, if_false]
    rw [← List.append_assoc]
    exact hwalk
  | _ => cases h

/-- The way leads nowhere, or to a free name. -/
def Missing : Except Fault Place → Prop
  | .error .notFound | .ok (.free ..) => True
  | _ => False

/-- A step into a missing entry leads nowhere when the way leads on. -/
theorem walk_none {follow : Bool} {s : String} {rest : List Step}
    (hlimit : ¬nameLimit < s.utf8ByteSize) (hnone : d.get? (cur ++ [s]) = none)
    (hrest : ∃ step ∈ rest, step.Moves) :
    d.walk follow links cur (.name s :: rest) = .error .notFound := by
  obtain ⟨step, hstep, hmoves⟩ := hrest
  rw [walk.eq_def]
  simp only [if_neg hlimit, hnone]
  split
  · cases hstep
  · rw [List.mem_singleton.mp hstep] at hmoves
    exact hmoves.elim
  · rfl

/-- A way that leads nowhere, or to a free name, leads nowhere when it leads on. -/
theorem walk_append_of_missing {follow : Bool} (h : Missing (d.walk follow links cur xs))
    {ys : List Step} (hys : ∃ step ∈ ys, step.Moves) (follow' : Bool) :
    d.walk follow' links cur (xs ++ ys) = .error .notFound := by
  obtain ⟨step, hstep, hmoves⟩ := hys
  have hmem : ∀ rest : List Step, ∃ step ∈ rest ++ ys, step.Moves := fun rest =>
    ⟨step, List.mem_append_right _ hstep, hmoves⟩
  have hmore : ∀ rest : List Step, (rest ++ ys).isEmpty = false := by
    simp [List.ne_nil_of_mem hstep]
  fun_induction walk d follow links cur xs with
  | case2 _ _ _ ih | case3 _ _ _ ih | case4 _ _ _ ih =>
    rw [List.cons_append, walk]
    exact ih h
  | case6 _ _ _ hlimit hnone | case7 _ _ _ hlimit hnone =>
    rw [List.cons_append]
    exact walk_none hlimit hnone (hmem _)
  | case8 _ _ _ _ hlimit hnone =>
    rw [List.cons_append]
    exact walk_none hlimit hnone (hmem _)
  | case9 _ _ _ _ hlimit hentry ih =>
    rw [List.cons_append, walk_dir hlimit hentry]
    exact ih h
  | case14 _ _ _ hlimit _ _ hlink =>
    rw [List.cons_append, walk_link hlimit hlink, hmore, Bool.false_and, if_neg (by decide)]
    rfl
  | case15 _ _ _ hlimit _ hlink _ _ hempty ih =>
    rw [List.cons_append, walk_link hlimit hlink, hmore, Bool.false_and, if_neg (by decide)]
    simp only [hempty, if_false]
    rw [← List.append_assoc]
    exact ih h
  | _ => exact h.elim

/-- Directories lead on to what follows them. -/
theorem walk_dirs {follow : Bool} {names : List String}
    (hnames : ∀ s ∈ names, s.utf8ByteSize ≤ nameLimit)
    (hdirs : ∀ p, p <+: names → p ≠ [] → d.get? (cur ++ p) = some .dir) (rest : List Step) :
    d.walk follow links cur (names.map .name ++ rest) = d.walk follow links (cur ++ names) rest := by
  induction names generalizing cur with
  | nil => rw [List.map_nil, List.nil_append, List.append_nil]
  | cons s names ih =>
    have hlimit : ¬nameLimit < s.utf8ByteSize := Nat.not_lt_of_le (hnames s List.mem_cons_self)
    have hdir := hdirs [s] (List.prefix_append [s] names) (List.cons_ne_nil _ _)
    rw [List.map_cons, List.cons_append, walk_dir hlimit hdir, ih, List.append_assoc,
      List.singleton_append]
    · exact fun t ht => hnames t (List.mem_cons_of_mem _ ht)
    · intro p hp _
      have hmore := hdirs (s :: p) (List.prefix_cons_inj s |>.mpr hp) (List.cons_ne_nil _ _)
      rwa [List.append_assoc, List.singleton_append]

/-- A way into a missing directory leads nowhere. -/
theorem walk_missing {follow : Bool} {names : List String}
    (hnames : ∀ s ∈ names, s.utf8ByteSize ≤ nameLimit)
    (hfree : ∀ p, p <+: names → p ≠ [] → d.get? (cur ++ p) = none ∨ d.get? (cur ++ p) = some .dir)
    (hmissing : ∃ p, p <+: names ∧ p ≠ [] ∧ d.get? (cur ++ p) = none) {s : String} :
    d.walk follow links cur (names.map .name ++ [.name s]) = .error .notFound := by
  induction names generalizing cur with
  | nil =>
    obtain ⟨p, hp, hne, -⟩ := hmissing
    exact absurd (List.prefix_nil.mp hp) hne
  | cons t names ih =>
    have hlimit : ¬nameLimit < t.utf8ByteSize := Nat.not_lt_of_le (hnames t List.mem_cons_self)
    rw [List.map_cons, List.cons_append]
    rcases hfree [t] (List.prefix_append [t] names) (List.cons_ne_nil _ _) with hnone | hdir
    · exact walk_none hlimit hnone ⟨.name s, List.mem_append_right _ List.mem_cons_self, trivial⟩
    · rw [walk_dir hlimit hdir]
      refine ih (fun u hu => hnames u (List.mem_cons_of_mem _ hu)) (fun p hp _ => ?_) ?_
      · have hmore := hfree (t :: p) (List.prefix_cons_inj t |>.mpr hp) (List.cons_ne_nil _ _)
        rwa [List.append_assoc, List.singleton_append]
      · obtain ⟨p, hp, hne, hnone⟩ := hmissing
        obtain ⟨u, p, rfl⟩ := List.exists_cons_of_ne_nil hne
        obtain ⟨rfl, hmore⟩ := List.cons_prefix_cons.mp hp
        refine ⟨p, hmore, ?_, ?_⟩
        · rintro rfl
          rw [hnone] at hdir
          cases hdir
        · rwa [List.append_assoc, List.singleton_append]

end Disk

end AppScaffold
