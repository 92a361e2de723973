import AppScaffold.Proofs.Project.ApartPlaces
import AppScaffold.Proofs.Script.OpenImport

/-!
# Import lines of screens and slices

A registry in a directory apart from the artifacts imports them by the way to their directory and the
name. The names of directories are put between quotes as they are, so that an import line can leave a
string open. Whether it does so depends on the layout alone and not on the screen. The lines of slices
never do. A list or table stays one that can be patched as long as the lines leave nothing open, and
the first line that does takes its declaration out of the code.
-/

namespace AppScaffold

/-- One more piece is joined behind a separator. -/
theorem Text.join_concat (sep : String) {pieces : List String} (h : pieces ≠ []) (piece : String) :
    Text.join sep (pieces ++ [piece]) = Text.join sep pieces ++ sep ++ piece := by
  have hcons : ∀ first rest, rest ≠ [] →
      Text.join sep (first :: rest) = first ++ sep ++ Text.join sep rest := by
    intro first rest hrest
    rw [Text.join]
    exact hrest
  induction pieces with
  | nil => exact absurd rfl h
  | cons first pieces ih =>
    cases pieces with
    | nil => rfl
    | cons next pieces =>
      rw [List.cons_append, hcons _ _ (by simp), ih (List.cons_ne_nil _ _),
        hcons _ _ (List.cons_ne_nil _ _)]
      simp only [String.append_assoc]

namespace Path

/-- What is behind a target that a directory is not inside of has nothing to do with the common part. -/
theorem commonLength_append_of_not_prefix {dir target : List Component} (h : ¬target <+: dir)
    (more : List Component) :
    commonLength dir (target ++ more) = commonLength dir target ∧
      commonLength dir target ≤ target.length := by
  induction target generalizing dir with
  | nil => exact absurd List.nil_prefix h
  | cons c target ih =>
    cases dir with
    | nil => exact ⟨rfl, Nat.zero_le _⟩
    | cons d dir =>
      rw [List.cons_append, commonLength, commonLength]
      split_ifs with hsame
      · rw [hsame, List.prefix_cons_inj] at h
        obtain ⟨heq, hle⟩ := ih h
        exact ⟨congrArg (· + 1) heq, Nat.succ_le_succ hle⟩
      · exact ⟨rfl, Nat.zero_le _⟩

/-- The way to what is in a target goes through the target, from a directory that is not inside it. -/
theorem wayBetween_concat {dir target : List Component} (h : ¬target <+: dir) (c : Component) :
    wayBetween dir (target ++ [c]) = wayBetween dir target ++ [c.text] := by
  obtain ⟨hcommon, hle⟩ := commonLength_append_of_not_prefix h [c]
  rw [wayBetween, wayBetween, hcommon, List.drop_append_of_le_length hle, List.map_append,
    List.map_singleton, List.append_assoc]

/-- A file that is not inside a directory names what is in the directory by the way to it. -/
theorem moduleSpecifier_join_name {file dir : Path} (hfile : file.IsDownward)
    (hne : file.components ≠ []) (hdir : dir.IsDownward) (hapart : ¬dir.names <+: file.names)
    {name : String} (hname : IsEntryName name) :
    moduleSpecifier file (dir.join (.ofText name)) = moduleSpecifier file dir ++ "/" ++ name := by
  have hjoin : (dir.join ⟨name, []⟩).components = (dir.names ++ [name]).map .name :=
    hdir.components_join hname.segment rfl
  have hsteps : (dir.join ⟨name, []⟩).steps = dir.steps ++ [.name name] := by
    have hdown := hdir.join_ofText hname
    rw [ofText_of_notMem hname.slash] at hdown
    rw [hdown.steps_eq, hjoin, hdir.steps_eq, hdir.components, List.map_append, List.map_singleton]
  have hbeside : ¬dir.steps <+: file.names.dropLast.map .name := by
    intro hpref
    have hback : (file.names.dropLast.map Component.name).map Component.text = file.names.dropLast := by
      rw [List.map_map]
      exact List.map_id _
    have hnames := hpref.map Component.text
    rw [hdir.steps_eq, hback] at hnames
    exact hapart (hnames.trans (List.dropLast_prefix file.names))
  rw [moduleSpecifier, moduleSpecifier, (hfile.isPlaced hne).parent, ofText_of_notMem hname.slash,
    hsteps, wayBetween_concat hbeside, Text.join_concat _ (wayBetween_ne_nil _ _)]
  rfl

end Path

namespace Script

variable {i : ImportLine} {file : Path} {c : Char}

/-- Characters of identifiers make up words, and words can be bound. -/
theorem isWordly_of_isIdentifierTail (h : Name.isIdentifierTail c = true) :
    isWordly c = true ∧ c ≠ '=' ∧ isBindingCharacter c = true := by
  obtain ⟨hplain, -, -, hline, hback, hequals⟩ := plain_of_isIdentifierTail h
  have hstar : c ≠ '*' := by
    rintro rfl
    exact absurd h (by decide)
  refine ⟨?_, hequals, ?_⟩
  · simp [isWordly, hplain, hstar, hback, hline]
  · simp [isBindingCharacter, hplain, hequals]

/-- An import of a name is rendered as an import from a module in quotes. -/
theorem isQuotedImport_render (hname : ∀ c ∈ i.binding.name.toList, isBindingCharacter c = true) :
    IsQuotedImport (i.render file).toList := by
  obtain ⟨names, hnames, heq⟩ := toList_render i file
  exact ⟨names, _, heq, forall_mem_names hnames hname (List.all_eq_true.mp (by decide))⟩

end Script

namespace Aggregator

variable {a : Aggregator} {t : String}

/-- The text of a list or table that was made from its seed and only ever patched. -/
def Holds (a : Aggregator) (t : String) : Prop :=
  ∃ parts r, a.anchor.parts = some parts ∧ Script.Registry.Sound parts r ∧ t.toList = r.text

/-- A list or table has the same seed in every layout. -/
theorem seed_eq (ha : a.frame ≠ none) (layout : Layout) (file : Path) :
    a.seed layout file = a.seed {} ⟨"src", a.location⟩ := by
  cases a with
  | screenRegistry | loginRegistry | reducerRegistry => rfl
  | apiFunctions | screenApi _ => exact absurd rfl ha

/-- The declaration of a list or table holds no quotes and no stars up to its only equals sign. -/
theorem isBare_registry {lead : List String} {opening closing : String}
    (h : a.frame = some (lead, opening, closing)) : (a.registry lead opening closing []).IsBare := by
  have hbare : ∀ front back : String, opening.toList = front.toList ++ '=' :: back.toList →
      (front.toList.all fun c => !Script.isQuote c && c != '*') = true → '=' ∉ back.toList →
        '=' ∉ closing.toList → (a.registry lead opening closing []).IsBare := by
    intro front back hopening hfront hback hclosing
    refine ⟨⟨_, _, hopening, fun c hc => ?_, hback⟩, List.forall_mem_nil _, hclosing⟩
    simpa using List.all_eq_true.mp hfront c hc
  cases a with
  | screenRegistry =>
    obtain ⟨rfl, hrest⟩ := Prod.mk.inj (Option.some.inj h)
    obtain ⟨rfl, rfl⟩ := Prod.mk.inj hrest
    exact hbare "export const stackScreens " " [" (by decide) (by decide) (by decide) (by decide)
  | loginRegistry =>
    obtain ⟨rfl, hrest⟩ := Prod.mk.inj (Option.some.inj h)
    obtain ⟨rfl, rfl⟩ := Prod.mk.inj hrest
    exact hbare "export const loginScreens " " [" (by decide) (by decide) (by decide) (by decide)
  | reducerRegistry =>
    obtain ⟨rfl, hrest⟩ := Prod.mk.inj (Option.some.inj h)
    obtain ⟨rfl, rfl⟩ := Prod.mk.inj hrest
    exact hbare "export const rootReducer " " combineReducers(\x7b" (by decide) (by decide) (by decide)
      (by decide)
  | apiFunctions | screenApi _ => cases h

/-- What is looked for in a list or table, and the registry without entries whose text is its seed. -/
theorem exists_seed_eq (ha : a.frame ≠ none) (layout : Layout) (file : Path) :
    ∃ mark parts, ∃ r : Script.Registry, a.anchor.parts = some parts ∧
      Script.IsDeclaration mark parts ∧ a.anchor ≠ .fileEnd ∧ r.Sound parts ∧ r.IsBare ∧
      (Skeleton.text (a.seed layout file)).toList = r.text := by
  obtain ⟨⟨lead, opening, closing⟩, hframe⟩ := Option.ne_none_iff_exists'.mp ha
  obtain ⟨mark, parts, hparts, hd⟩ := (framed hframe).named.exists_parts
  have hanchor : a.anchor ≠ .fileEnd := by
    intro hend
    rw [hend] at hparts
    cases hparts
  refine ⟨mark, parts, a.registry lead opening closing [], hparts, hd, hanchor,
    registry_sound hframe (List.forall_mem_nil _) hparts, isBare_registry hframe, ?_⟩
  rw [seed_eq ha, ← toList_current hframe (List.forall_mem_nil _)]
  rfl

/-- A list or table begins as one. -/
theorem holds_seed (ha : a.frame ≠ none) (layout : Layout) (file : Path) :
    a.Holds (Skeleton.text (a.seed layout file)) := by
  obtain ⟨mark, parts, r, hparts, -, -, hsound, -, htext⟩ := exists_seed_eq ha layout file
  exact ⟨parts, r, hparts, hsound, htext⟩

end Aggregator

namespace Settings

/-- The list of screens that a registry is. -/
def listPath (s : Settings) : Aggregator → Option Path
  | .screenRegistry => some s.layout.screenRegistry
  | .loginRegistry => some s.layout.loginRegistry
  | .reducerRegistry | .apiFunctions | .screenApi _ => none

/-- The lists of screens are lists. -/
theorem frame_ne_none_of_listPath {s : Settings} {a : Aggregator} {registry : Path}
    (h : s.listPath a = some registry) : a.frame ≠ none := by
  cases a with
  | screenRegistry | loginRegistry => simp [Aggregator.frame]
  | reducerRegistry | apiFunctions | screenApi _ => cases h

/-- The import line of a screen in a registry. -/
def screenLine (s : Settings) (registry : Path) (name : String) : String :=
  Script.ImportLine.render ⟨.default name, s.layout.screensDir.join (.ofText name)⟩ registry

/-- The import lines of screens in a list leave a string or a comment open. -/
def LeavesOpen (s : Settings) (a : Aggregator) : Prop :=
  ∃ registry ∈ s.listPath a, ∃ name, Name.isIdentifier name = true ∧
    ¬Script.IsSteady (s.screenLine registry name).toList

/-- No declaration of a list begins in the code of an import line of a screen. -/
def IsQuiet (s : Settings) : Prop :=
  ∀ a, ∀ registry ∈ s.listPath a, ∀ name, Name.isIdentifier name = true →
    a.anchor.declarationStart ((s.screenLine registry name).toList ++ ['\n']) = none

/-- An entry that a registry gets at a path. -/
structure Adds (s : Settings) (a : Aggregator) (file : Path) (entry : Script.Entry) : Prop where
  /-- It ends with a comma. -/
  closed : Script.IsEntry entry.fragment.toList
  /-- There is no equals sign in it. -/
  equals : '=' ∉ entry.fragment.toList
  /-- It has an import, in one line without a declaration of the registry in its code. The line leaves
  nothing open if the lines of the registry do not. -/
  line : ∃ i, entry.importLine = some i ∧ Script.IsQuotedImport (i.render file).toList ∧
    '\n' ∉ (i.render file).toList ∧
    (∀ parts, a.anchor.parts = some parts →
      Script.findDeclaration ((i.render file).toList ++ ['\n']) parts = none) ∧
    (Script.IsSteady (i.render file).toList ↔ ¬s.LeavesOpen a)

namespace Adds

variable {s : Settings} {a : Aggregator} {file : Path} {entry : Script.Entry} {t : String}

/-- A registry whose lines leave nothing open can be patched, and stays such a registry. -/
theorem exists_holds (h : s.Adds a file entry) (ha : a.frame ≠ none) (hopen : ¬s.LeavesOpen a)
    (ht : a.Holds t) : ∃ t', a.withEntry file entry t = some t' ∧ a.Holds t' := by
  obtain ⟨mark, parts, -, hparts, hd, hanchor, -⟩ := Aggregator.exists_seed_eq ha s.layout file
  obtain ⟨parts', r, hparts', hsound, htext⟩ := ht
  obtain rfl := Option.some.inj (hparts.symm.trans hparts')
  obtain ⟨i, hi, hshape, hsingle, hquiet, hsteady⟩ := h.line
  have hpasses : Script.Passes parts (i.render file).toList :=
    ⟨hshape, hsingle, hsteady.mpr hopen, hquiet parts hparts⟩
  rw [Aggregator.withEntry, hi, Option.map_some, htext, hsound.applyPatch_eq hparts hd hanchor]
  refine ⟨_, rfl, parts, _, hparts, hsound.add h.closed hpasses, ?_⟩
  rw [String.toList_ofList]

/-- The first line that leaves something open takes the declaration of the registry out of the code. -/
theorem exists_lost (h : s.Adds a file entry) (ha : a.frame ≠ none) (hopen : s.LeavesOpen a)
    (layout : Layout) (file' : Path) :
    ∃ t', a.withEntry file entry (Skeleton.text (a.seed layout file')) = some t' ∧
      a.anchor.locate t'.toList = none := by
  obtain ⟨mark, parts, r, hparts, hd, hanchor, hsound, hbare, htext⟩ :=
    Aggregator.exists_seed_eq ha layout file'
  obtain ⟨i, hi, hshape, -, hquiet, hsteady⟩ := h.line
  rw [Aggregator.withEntry, hi, Option.map_some, htext, hsound.applyPatch_eq hparts hd hanchor]
  refine ⟨_, rfl, ?_⟩
  rw [String.toList_ofList]
  exact hsound.locate_add_eq_none hparts hd hbare h.equals hshape (hquiet parts hparts)
    fun h => hsteady.mp h hopen

end Adds

namespace IsApart

variable {s : Settings} {a : Aggregator} {registry dir : Path} {name : String}

/-- The lists of screens have names, and they are outside the directory of the screens. -/
theorem listPath (h : s.IsApart) (hlist : s.listPath a = some registry) :
    registry.IsDownward ∧ registry.components ≠ [] ∧
      ¬s.layout.screensDir.names <+: registry.names := by
  have hmem : registry ∈ [s.layout.screenRegistry, s.layout.loginRegistry] := by
    cases a with
    | screenRegistry | loginRegistry => simp [← Option.some.inj hlist]
    | reducerRegistry | apiFunctions | screenApi _ => cases hlist
  have hapart := (List.pairwise_cons.mp h.apart).1 registry (List.mem_cons_of_mem _ hmem)
  refine ⟨h.downward.paths registry ?_, fun hnil => hapart.2 ?_, hapart.1⟩
  · simp only [List.mem_cons, List.not_mem_nil, or_false] at hmem
    rcases hmem with rfl | rfl <;> simp [Layout.paths]
  · rw [Path.names, hnil]
    exact List.nil_prefix

/-- A screen is imported by the way to the directory of the screens and its name. -/
theorem toList_screenLine (h : s.IsApart) (hlist : s.listPath a = some registry)
    (hname : Name.isIdentifier name = true) :
    (s.screenLine registry name).toList = ("import ".toList ++ name.toList ++ " from ".toList) ++
      '\x27' :: (((Path.moduleSpecifier registry s.layout.screensDir).toList ++ '/' :: name.toList) ++
        '\x27' :: [';']) := by
  obtain ⟨hregistry, hne, hapart⟩ := h.listPath hlist
  have hscreens : s.layout.screensDir.IsDownward := h.downward.paths _ (by simp [Layout.paths])
  have hmodule := Path.moduleSpecifier_join_name hregistry hne hscreens hapart
    (IsEntryName.of_isIdentifier hname)
  rw [screenLine, Script.ImportLine.render]
  dsimp only
  rw [hmodule, Skeleton.importDefault]
  simp

/-- The characters of the way to the directory of the screens are dots, slashes and those of its names. -/
theorem forall_mem_specifier (h : s.IsApart) {P : Char → Prop} (hdot : P '.') (hslash : P '/')
    (hnames : ∀ t ∈ s.layout.screensDir.names, ∀ c ∈ t.toList, P c) (registry : Path) :
    ∀ c ∈ (Path.moduleSpecifier registry s.layout.screensDir).toList, P c := by
  have hscreens : s.layout.screensDir.IsDownward := h.downward.paths _ (by simp [Layout.paths])
  refine Path.forall_mem_moduleSpecifier hdot hslash ?_ registry
  rw [hscreens.steps_eq, hscreens.components]
  intro c hc d hd
  obtain ⟨t, ht, rfl⟩ := List.mem_map.mp hc
  exact hnames t ht d hd

/-- Whether the import line of a screen leaves something open does not depend on the screen. -/
theorem isSteady_iff (h : s.IsApart) (hlist : s.listPath a = some registry)
    (hname : Name.isIdentifier name = true) :
    Script.IsSteady (s.screenLine registry name).toList ↔ ¬s.LeavesOpen a := by
  have hword : ∀ name, Name.isIdentifier name = true →
      name.toList ≠ [] ∧ ∀ c ∈ name.toList, Script.isWordly c = true ∧ c ≠ '=' := by
    intro name hname
    obtain ⟨c, hc, -⟩ := exists_mem_of_isIdentifier hname
    refine ⟨List.ne_nil_of_mem hc, fun c hc => ?_⟩
    have hall := Script.isWordly_of_isIdentifierTail (Script.isIdentifierTail_of_mem hname hc)
    exact ⟨hall.1, hall.2.1⟩
  have hall : ∀ other, Name.isIdentifier other = true →
      (Script.IsSteady (s.screenLine registry other).toList ↔
        Script.IsSteady (s.screenLine registry name).toList) := by
    intro other hother
    rw [h.toList_screenLine hlist hother, h.toList_screenLine hlist hname]
    exact Script.isSteady_import_congr (hword other hother).1 (hword name hname).1
      (hword other hother).2 (hword name hname).2 _
  constructor
  · rintro hsteady ⟨registry', hlist', other, hother, hopen⟩
    obtain rfl := Option.some.inj (hlist.symm.trans hlist')
    exact hopen ((hall other hother).mpr hsteady)
  · intro hno
    by_contra hopen
    exact hno ⟨registry, hlist, name, hname, hopen⟩

/-- No declaration begins in the lines if there is no equals sign in the names of the directory of the
screens. -/
theorem isQuiet (h : s.IsApart) (hequals : ∀ t ∈ s.layout.screensDir.names, '=' ∉ t.toList) :
    s.IsQuiet := by
  intro a registry hlist name hname
  have htail : '=' ∉ name.toList := fun hmem =>
    absurd (Script.isIdentifierTail_of_mem hname hmem) (by decide)
  have hmodule : '=' ∉ (Path.moduleSpecifier registry s.layout.screensDir).toList := fun hmem =>
    h.forall_mem_specifier (P := fun c => c ≠ '=') (by decide) (by decide)
      (fun t ht c hc heq => hequals t ht (heq ▸ hc)) registry '=' hmem rfl
  obtain ⟨mark, parts, -, hparts, hd, -⟩ :=
    Aggregator.exists_seed_eq (frame_ne_none_of_listPath hlist) s.layout registry
  rw [Script.Anchor.declarationStart, hparts]
  refine Option.map_eq_none_iff.mpr (hd.findDeclaration_eq_none_of_notMem ?_)
  rw [h.toList_screenLine hlist hname]
  simp [htail, hmodule]

/-- Without quotes and backslashes in the names of the directory of the screens, the lines leave nothing
open and no declaration begins in them. -/
theorem isQuiet_of_plain (h : s.IsApart)
    (hplain : ∀ t ∈ s.layout.screensDir.names, ∀ c ∈ t.toList, Script.isQuote c = false ∧ c ≠ '\\') :
    s.IsQuiet ∧ ∀ a, ¬s.LeavesOpen a := by
  have hpasses : ∀ a, ∀ registry ∈ s.listPath a, ∀ name, Name.isIdentifier name = true →
      ∃ parts, a.anchor.parts = some parts ∧
        Script.Passes parts (s.screenLine registry name).toList := by
    intro a registry hlist name hname
    obtain ⟨mark, parts, -, hparts, hd, -⟩ :=
      Aggregator.exists_seed_eq (frame_ne_none_of_listPath hlist) s.layout registry
    refine ⟨parts, hparts, Script.IsWholeImport.passes ?_ hd⟩
    have hword : ∀ c ∈ name.toList, Script.isBindingCharacter c = true ∧
        Script.isQuote c = false ∧ c ≠ '\\' ∧ c ≠ '\n' := by
      intro c hc
      have htail := Script.isIdentifierTail_of_mem hname hc
      obtain ⟨hquote, -, -, hline, hback, -⟩ := plain_of_isIdentifierTail htail
      rw [Script.isPlain, Bool.and_eq_true, Bool.not_eq_true'] at hquote
      exact ⟨(Script.isWordly_of_isIdentifierTail htail).2.2, hquote.1, hback, hline⟩
    have hmodule := h.forall_mem_specifier
      (P := fun c => Script.isQuote c = false ∧ c ≠ '\\' ∧ c ≠ '\n') (by decide) (by decide)
      (fun t ht c hc => ⟨(hplain t ht c hc).1, (hplain t ht c hc).2, fun heq => h.lines t ht (heq ▸ hc)⟩)
      registry
    rw [h.toList_screenLine hlist hname]
    refine Script.isWholeImport_of_spelled (fun c hc => ⟨(hword c hc).1, (hword c hc).2.2.2⟩) ?_
    intro c hc
    rcases List.mem_append.mp hc with hc | hc
    · exact hmodule c hc
    · rcases List.mem_cons.mp hc with rfl | hc
      · decide
      · exact (hword c hc).2
  refine ⟨fun a registry hlist name hname => ?_, ?_⟩
  · obtain ⟨parts, hparts, hline⟩ := hpasses a registry hlist name hname
    rw [Script.Anchor.declarationStart, hparts]
    exact Option.map_eq_none_iff.mpr hline.quiet
  · rintro a ⟨registry, hlist, name, hname, hopen⟩
    obtain ⟨parts, -, hline⟩ := hpasses a registry hlist name hname
    exact hopen hline.steady

/-- The entry of a screen and its import line. -/
theorem adds_screen (h : s.IsApart) (hquiet : s.IsQuiet) (hlist : s.listPath a = some registry)
    (hname : Name.isIdentifier name = true) :
    s.Adds a registry ((Template.screenEntry a name).entry.rootedAt s.layout.screensDir) := by
  have htail := fun c hc => Script.isIdentifierTail_of_mem (c := c) hname hc
  have hword := fun c hc => Script.isWordly_of_isIdentifierTail (htail c hc)
  refine ⟨Script.isEntry_screen hname, ?_,
    ⟨.default name, s.layout.screensDir.join (.ofText name)⟩, rfl, ?_, ?_, fun parts hparts => ?_,
    h.isSteady_iff hlist hname⟩
  · have hequals : '=' ∉ name.toList := fun hmem => (hword _ hmem).2.1 rfl
    simp [Template.screenEntry, Script.Entry.rootedAt, Skeleton.screenEntry, Skeleton.braced, Text.join,
      hequals]
  · exact Script.isQuotedImport_render fun c hc => (hword c hc).2.2
  · have hline : '\n' ∉ name.toList := fun hmem => absurd (htail _ hmem) (by decide)
    have hmodule : '\n' ∉ (Path.moduleSpecifier registry s.layout.screensDir).toList := fun hmem =>
      h.forall_mem_specifier (P := fun c => c ≠ '\n') (by decide) (by decide)
        (fun t ht c hc heq => h.lines t ht (heq ▸ hc)) registry '\n' hmem rfl
    change '\n' ∉ (s.screenLine registry name).toList
    rw [h.toList_screenLine hlist hname]
    simp [hline, hmodule]
  · have hnone := hquiet a registry hlist name hname
    rw [Script.Anchor.declarationStart, hparts] at hnone
    exact Option.map_eq_none_iff.mp hnone

/-- The entry of a slice and its import line. -/
theorem adds_slice (h : s.IsApart) (hdir : dir.IsDownward) (hname : Name.isIdentifier name = true) :
    s.Adds .reducerRegistry (Aggregator.reducerRegistry.path s dir)
      ((Template.reducerEntry name).entry.rootedAt dir) := by
  have hslice : ∀ c ∈ (Name.camel name).toList, Name.isIdentifierTail c = true := fun c hc =>
    isIdentifierTail_of_mem_camel hname hc
  -- the line is that in a new project
  have hwhole : Script.IsWholeImport (Skeleton.importNamed (Name.camel name ++ "Reducer")
      ("./" ++ name ++ "/" ++ name ++ "-reducer")).toList := by
    obtain ⟨-, i, hi, hwhole⟩ := (Template.takes_reducerEntry hname).literal (by decide)
    obtain rfl := Option.some.inj hi
    have hhome : (⟨"src", ["Redux"]⟩ : Path).IsDownward := Path.IsOrdinary.isDownward (by decide)
    have hslash : '/' ∉ ({} : Settings).extensions.script.toList := by decide
    rw [← render_slice hhome hslash hname]
    exact hwhole
  obtain ⟨mark, parts, -, hparts, hd, -⟩ :=
    Aggregator.exists_seed_eq (show Aggregator.reducerRegistry.frame ≠ none by decide) {} dir
  have hpasses := hwhole.passes hd
  have hline := render_slice hdir (h.downward.extensions s.extensions.script (by simp)) hname
  refine ⟨Script.isEntry_reducer hslice, ?_, _, rfl, ?_⟩
  · have hequals : '=' ∉ (Name.camel name).toList := fun hmem => absurd (hslice _ hmem) (by decide)
    simp [Template.reducerEntry, Script.Entry.rootedAt, Skeleton.reducerEntry, hequals]
  · rw [Aggregator.path, hline]
    refine ⟨hpasses.shape, hpasses.single, fun parts' hparts' => ?_, fun _ => ?_, fun _ => hpasses.steady⟩
    · obtain rfl := Option.some.inj (hparts.symm.trans hparts')
      exact hpasses.quiet
    · rintro ⟨registry, hlist, -⟩
      cases hlist

end IsApart

end Settings

end AppScaffold
