import AppScaffold.Text.Split

/-!
# Paths

A path is kept as the segments between its slashes, so that its spelling is never lost. Paths are
compared by their components, which leave out empty segments and single dots inside a path.
-/

namespace AppScaffold

/-- A path as it is spelled. -/
structure Path where
  /-- The text before the first slash. -/
  first : String
  /-- The texts after each slash. -/
  rest : List String
deriving DecidableEq, Inhabited

/-- What one segment means when the path is followed. -/
inductive Component where
  /-- The root of the file system. -/
  | root
  /-- A leading dot. -/
  | here
  /-- Two dots: the parent. -/
  | up
  /-- The name of an entry. -/
  | name (text : String)
deriving DecidableEq, Inhabited

namespace Component

/-- The component as it is written. -/
def text : Component → String
  | root => "/"
  | here => "."
  | up => ".."
  | name s => s

/-- What a segment after a slash means; empty segments and single dots mean nothing. -/
def ofSegment (s : String) : Option Component :=
  if s = "" || s = "." then none else if s = ".." then some up else some (name s)

end Component

namespace Path

/-- The path that a text spells. -/
def ofText (s : String) : Path :=
  match Text.split '/' s with
  | [] => ⟨"", []⟩
  | first :: rest => ⟨first, rest⟩

/-- A text without slashes is a path of one segment. -/
theorem ofText_of_notMem {s : String} (h : '/' ∉ s.toList) : ofText s = ⟨s, []⟩ := by
  rw [ofText, Text.split, Text.splitChars_of_notMem h, List.map_singleton, String.ofList_toList]

/-- The spelling of the path. -/
def text (p : Path) : String := p.rest.foldl (fun s segment => s ++ "/" ++ segment) p.first

instance : Coe String Path := ⟨ofText⟩

/-- The path without any segment. -/
def empty : Path := ⟨"", []⟩

/-- The path begins with a slash. -/
def isAbsolute (p : Path) : Bool := p.first = "" && !p.rest.isEmpty

/-- The segment means nothing after a slash. -/
def idle (s : String) : Bool := s = "" || s = "."

/-- What the part before the first slash means. -/
def lead (p : Path) : List Component :=
  if p.first = "" then (if p.rest.isEmpty then [] else [.root])
  else if p.first = "." then [.here]
  else if p.first = ".." then [.up]
  else [.name p.first]

/-- The components of the path. -/
def components (p : Path) : List Component := p.lead ++ p.rest.filterMap Component.ofSegment

/-- Two paths with the same components are alike, whatever their spelling. -/
def alike (p q : Path) : Bool := p.components == q.components

/-- Follow `q` from `p`: an absolute path starts anew, and an empty one leaves a final slash. -/
def join (p q : Path) : Path :=
  if q.isAbsolute || p = empty then q
  else if p.rest.getLast? = some "" then ⟨p.first, p.rest.dropLast ++ q.first :: q.rest⟩
  else ⟨p.first, p.rest ++ q.first :: q.rest⟩

/-- A first segment with the later segments, these listed from the last to the first and their idle
end taken away; the root keeps its slash. -/
def ofReversed (first : String) (reversed : List String) : Path :=
  match first, reversed.dropWhile idle with
  | "", [] => ⟨"", [""]⟩
  | first, kept => ⟨first, kept.reverse⟩

/-- The path that holds the last component; the root and the empty path have none. -/
def parent (p : Path) : Option Path :=
  match p.rest.reverse.dropWhile idle with
  | _ :: before => some (ofReversed p.first before)
  | [] => if p.first = "" then none else some empty

/-- The last component, if it is a name. -/
def fileName (p : Path) : Option String :=
  match p.components.getLast? with
  | some (.name s) => some s
  | _ => none

/-- The path with another last name. -/
def withFileName (p : Path) (name : String) : Path :=
  match p.fileName, p.parent with
  | some _, some dir => dir.join name
  | _, _ => p.join name

/-- The text before the last dot and the text after it; a leading dot does not count. -/
def splitExtension (name : String) : String × Option String :=
  if name = ".." then (name, none)
  else
    let reversed := name.toList.reverse
    let after := reversed.takeWhile (· ≠ '.')
    match reversed.dropWhile (· ≠ '.') with
    | _ :: before@(_ :: _) => (String.ofList before.reverse, some (String.ofList after.reverse))
    | _ => (name, none)

/-- The last name without its extension. -/
def fileStem (p : Path) : Option String := p.fileName.map fun name => (splitExtension name).1

/-- The path up to and including the stem of its last name. A name of two dots and an extension is
cut to two dots, which name the parent. -/
def withoutExtension (p : Path) : Path :=
  match p.fileName with
  | none => p
  | some name =>
    let cut := match splitExtension name with
      | (".", some _) => if p.rest.getLast? = some name || p.rest.isEmpty then ".." else "."
      | (stem, _) => stem
    match p.rest.reverse.dropWhile idle with
    | _ :: before => ⟨p.first, before.reverse ++ [cut]⟩
    | [] => ⟨cut, []⟩

/-- The segments that are left when the components have been followed, idle segments passed over. -/
def follow : List Component → List String → Option (List String)
  | [], segments => some segments
  | c :: cs, segments =>
    match segments.dropWhile idle with
    | [] => none
    | segment :: segments =>
      if Component.ofSegment segment = some c then follow cs segments else none

/-- The part of the path below `base`, if the path begins with the components of `base`. -/
def below (base p : Path) : Option Path :=
  match base.components with
  | [] => some (if p = empty then empty else ofReversed p.first p.rest.reverse)
  | c :: cs =>
    if p.lead ≠ [c] then none
    else (follow cs p.rest).map fun segments =>
      match segments.dropWhile idle with
      | [] => empty
      | first :: rest => ⟨first, (rest.reverse.dropWhile idle).reverse⟩

end Path

end AppScaffold
