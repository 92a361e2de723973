import AppScaffold.Proofs.Path.Components
import AppScaffold.Proofs.Project.Registries

/-!
# Where specifiers lead

A script names another one in an import or a re-export: `from` and, in quotes, a specifier. A
specifier that begins with a dot is a way from the directory of the script, and following it segment
by segment gives a place. The specifier that the library writes for a target leads from the
directory of the file to that target.
-/

namespace AppScaffold

namespace Specifier

/-- The place to which segments lead from a directory: idle segments stay, two dots go up, and
there is no way up from the root. -/
def follow : List String → List String → Option (List String)
  | dir, [] => some dir
  | dir, s :: segments =>
    match Component.ofSegment s with
    | none => follow dir segments
    | some .up => if dir = [] then none else follow dir.dropLast segments
    | some c => follow (dir ++ [c.text]) segments

/-- The place to which a specifier leads in a script of the directory. -/
def resolve (dir : List String) (specifier : String) : Option (List String) :=
  follow dir (Text.split '/' specifier)

variable {dir names segments : List String}

/-- Ways are followed one after the other. -/
theorem follow_append (dir segments segments' : List String) :
    follow dir (segments ++ segments') = (follow dir segments).bind (follow · segments') := by
  induction segments generalizing dir with
  | nil => rfl
  | cons s segments ih =>
    rw [List.cons_append, follow, follow]
    split
    · exact ih dir
    · split_ifs
      · rfl
      · exact ih _
    · exact ih _

/-- A way through names leads to the place below. -/
theorem follow_names (h : ∀ s ∈ names, IsSegment s) : follow dir names = some (dir ++ names) := by
  induction names generalizing dir with
  | nil => rw [follow, List.append_nil]
  | cons s names ih =>
    rw [follow, h s List.mem_cons_self]
    dsimp only
    rw [ih fun t ht => h t (List.mem_cons_of_mem _ ht), Component.text, List.append_assoc]
    rfl

/-- A way of double dots leads to the place above. -/
theorem follow_ups {n : Nat} (hn : n ≤ dir.length) :
    follow dir (List.replicate n "..") = some (dir.take (dir.length - n)) := by
  induction n generalizing dir with
  | zero => simp [follow]
  | succ n ih =>
    have hne : dir ≠ [] := by
      rintro rfl
      simp at hn
    have hup : Component.ofSegment ".." = some .up := by decide
    have hlength : n ≤ dir.dropLast.length := by
      rw [List.length_dropLast]
      omega
    rw [List.replicate_succ, follow, hup]
    dsimp only
    rw [if_neg hne, ih hlength, List.dropLast_eq_take, List.length_take, List.take_take]
    congr 2
    omega

end Specifier

namespace Path

/-- Two lists of components agree on their common part. -/
theorem take_commonLength (as bs : List Component) :
    as.take (commonLength as bs) = bs.take (commonLength as bs) ∧
      commonLength as bs ≤ as.length := by
  induction as generalizing bs with
  | nil => simp [commonLength]
  | cons a as ih =>
    cases bs with
    | nil => simp [commonLength]
    | cons b bs =>
      unfold commonLength
      split_ifs with heq
      · subst heq
        simpa using ih bs
      · simp

/-- The way from a directory to a target leads where the steps of the target lead from the root. -/
theorem follow_wayBetween {dir : List String} (hdir : ∀ s ∈ dir, IsSegment s)
    (target : List Component) :
    Specifier.follow dir (wayBetween (dir.map .name) target) =
      Specifier.follow [] (target.map Component.text) := by
  obtain ⟨htake, hlength⟩ := take_commonLength (dir.map .name) target
  rw [List.length_map] at hlength
  have hnames : ∀ s ∈ dir.take (commonLength (dir.map .name) target), IsSegment s :=
    fun s hs => hdir s (List.mem_of_mem_take hs)
  have hcommon : (target.take (commonLength (dir.map .name) target)).map Component.text =
      dir.take (commonLength (dir.map .name) target) := by
    rw [← htake, ← List.map_take, List.map_map]
    exact List.map_id _
  have hback : Specifier.follow dir
      (if (dir.map Component.name).length = commonLength (dir.map .name) target then ["."]
        else List.replicate ((dir.map Component.name).length - commonLength (dir.map .name) target)
          "..") =
        some (dir.take (commonLength (dir.map .name) target)) := by
    rw [List.length_map]
    split_ifs with heq
    · rw [← heq, List.take_length]
      rfl
    · rw [Specifier.follow_ups (Nat.sub_le _ _), Nat.sub_sub_self hlength]
  rw [wayBetween, Specifier.follow_append, hback, Option.bind_some, List.map_drop, ← hcommon]
  conv_rhs => rw [← List.take_append_drop (commonLength (dir.map .name) target) target,
    List.map_append, Specifier.follow_append, hcommon, Specifier.follow_names hnames]
  rw [List.nil_append, Option.bind_some, ← hcommon, List.map_drop]

/-- A way is made of dots and of what its target is made of. -/
theorem mem_wayBetween {dir target : List Component} {s : String} (h : s ∈ wayBetween dir target) :
    s = "." ∨ s = ".." ∨ ∃ c ∈ target, c.text = s := by
  unfold wayBetween at h
  rcases List.mem_append.mp h with h | h
  · split_ifs at h
    · exact .inl (List.mem_singleton.mp h)
    · exact .inr (.inl (List.eq_of_mem_replicate h))
  · obtain ⟨c, hc, rfl⟩ := List.mem_map.mp h
    exact .inr (.inr ⟨c, List.mem_of_mem_drop hc, rfl⟩)

/-- A way is never empty. -/
theorem wayBetween_ne_nil (dir target : List Component) : wayBetween dir target ≠ [] := by
  unfold wayBetween
  intro hnil
  have hback := (List.append_eq_nil_iff.mp hnil).1
  split_ifs at hback with heq
  have hzero := congrArg List.length hback
  rw [List.length_replicate, List.length_nil] at hzero
  have hlength := (take_commonLength dir target).2
  omega

/-- The characters of a specifier are dots, slashes, and those of the steps of its target. -/
theorem forall_mem_moduleSpecifier {P : Char → Prop} (hdot : P '.') (hslash : P '/')
    {target : Path} (htarget : ∀ c ∈ target.steps, ∀ d ∈ c.text.toList, P d) (file : Path) :
    ∀ d ∈ (moduleSpecifier file target).toList, P d := by
  intro d hd
  rcases Text.mem_toList_join hd with hd | ⟨s, hs, hd⟩
  · have heq : d = '/' := by simpa using hd
    rwa [heq]
  · rcases mem_wayBetween hs with rfl | rfl | ⟨c, hc, rfl⟩
    · have heq : d = '.' := by simpa using hd
      rwa [heq]
    · have heq : d = '.' := by simpa using hd
      rwa [heq]
    · exact htarget c hc d hd

/-- Leading dots do not matter on a way. -/
theorem follow_steps (dir : List String) (p : Path) :
    Specifier.follow dir (p.steps.map Component.text) = Specifier.follow dir p.names := by
  unfold steps names
  induction p.components generalizing dir with
  | nil => rfl
  | cons c cs ih =>
    cases c with
    | here =>
      have hidle : Component.ofSegment "." = none := by decide
      rw [List.filter_cons_of_neg (by simp), List.map_cons, Component.text, ih, Specifier.follow,
        hidle]
    | root | up | name =>
      rw [List.filter_cons_of_pos (by simp), List.map_cons, List.map_cons, Specifier.follow,
        Specifier.follow]
      split
      · exact ih _
      · split_ifs
        · rfl
        · exact ih _
      · exact ih _

/-- The specifier of a target leads to it from the directory of the file. -/
theorem resolve_moduleSpecifier {file target : Path} {dir : List String}
    (hfile : (file.parent.map steps).getD [] = dir.map .name) (hdir : ∀ s ∈ dir, IsSegment s)
    (htarget : ∀ c ∈ target.steps, '/' ∉ c.text.toList) :
    Specifier.resolve dir (moduleSpecifier file target) = Specifier.follow [] target.names := by
  have hsplit : Text.split '/' (moduleSpecifier file target) =
      wayBetween (dir.map .name) target.steps := by
    rw [moduleSpecifier, hfile]
    refine Text.split_join (wayBetween_ne_nil _ _) fun s hs => ?_
    rcases mem_wayBetween hs with rfl | rfl | ⟨c, hc, rfl⟩
    · decide
    · decide
    · exact htarget c hc
  rw [Specifier.resolve, hsplit, follow_wayBetween hdir, follow_steps]

end Path

namespace Script

/-- The specifier in a line that imports or passes on: what stands in quotes after `from`. -/
def specifierOf (line : String) : Option String :=
  match Text.split '\x27' line with
  | before :: specifier :: _ :: _ =>
    if "from ".toList.isSuffixOf before.toList then some specifier else none
  | _ => none

/-- The specifiers in the lines of a text. -/
def specifiers (text : String) : List String := (Text.split '\n' text).filterMap specifierOf

/-- The lines of a text of lines are found again. -/
theorem split_text {lines : List String} (h : ∀ line ∈ lines, '\n' ∉ line.toList) :
    Text.split '\n' (Skeleton.text lines) = lines ++ [""] := by
  induction lines with
  | nil => rfl
  | cons line lines ih =>
    have hrest := ih fun l hl => h l (List.mem_cons_of_mem _ hl)
    have htext : (Skeleton.text (line :: lines)).toList =
        line.toList ++ '\n' :: (Skeleton.text lines).toList := by
      simp [Skeleton.text]
    rw [Text.split] at hrest
    rw [Text.split, htext, Text.splitChars_append (h line List.mem_cons_self), List.map_cons, hrest,
      String.ofList_toList, List.cons_append]

/-- The first quoted text of a line is its specifier if it stands after `from`. -/
theorem specifierOf_quoted {before quoted : String} (hbefore : '\x27' ∉ before.toList)
    (hquoted : '\x27' ∉ quoted.toList) (after : String) :
    specifierOf (before ++ "'" ++ quoted ++ "'" ++ after) =
      if "from ".toList.isSuffixOf before.toList then some quoted else none := by
  have hline : (before ++ "'" ++ quoted ++ "'" ++ after).toList =
      before.toList ++ '\x27' :: (quoted.toList ++ '\x27' :: after.toList) := by
    simp
  unfold specifierOf Text.split
  rw [hline, Text.splitChars_append hbefore, Text.splitChars_append hquoted, List.map_cons,
    List.map_cons, String.ofList_toList, String.ofList_toList]
  cases hafter : Text.splitChars '\x27' after.toList with
  | nil =>
    have hlength := Text.length_splitChars '\x27' after.toList
    rw [hafter] at hlength
    simp at hlength
  | cons piece pieces => rfl

/-- A line with a quoted text after `from` has that text as its specifier. -/
theorem specifierOf_from {before specifier : String} (hbefore : '\x27' ∉ before.toList)
    (hspecifier : '\x27' ∉ specifier.toList) (after : String) :
    specifierOf (before ++ "from '" ++ specifier ++ "'" ++ after) = some specifier := by
  have hquote : '\x27' ∉ (before ++ "from ").toList := by
    simp [hbefore]
  have hsuffix : "from ".toList.isSuffixOf (before ++ "from ").toList = true := by
    rw [List.isSuffixOf_iff_suffix, String.toList_append]
    exact List.suffix_append _ _
  have hfrom : before ++ "from '" = before ++ "from " ++ "'" := by
    rw [String.append_assoc]
    rfl
  rw [hfrom, specifierOf_quoted hquote hspecifier, if_pos hsuffix]

/-- A line without a second quote has no specifier. -/
theorem specifierOf_of_notMem {line : String} (h : '\x27' ∉ line.toList) :
    specifierOf line = none := by
  unfold specifierOf Text.split
  rw [Text.splitChars_of_notMem h]
  rfl

/-- The import of a default export has the specifier of the module. -/
theorem specifierOf_importDefault {name specifier : String} (hname : '\x27' ∉ name.toList)
    (hspecifier : '\x27' ∉ specifier.toList) :
    specifierOf (Skeleton.importDefault name specifier) = some specifier := by
  have hbefore : '\x27' ∉ ("import " ++ name ++ " ").toList := by
    simp [hname]
  have hline : Skeleton.importDefault name specifier =
      "import " ++ name ++ " " ++ "from '" ++ specifier ++ "'" ++ ";" := by
    simp [Skeleton.importDefault, String.append_assoc]
  rw [hline, specifierOf_from hbefore hspecifier]

end Script

end AppScaffold
