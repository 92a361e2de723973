import AppScaffold.Disk.Basic
import AppScaffold.Disk.Fault

/-!
# Following paths on the disk

A path is followed name by name. Two dots lead to the directory above, a link leads on to its
target, and at most forty links are followed. A final slash asks for a directory.
-/

namespace AppScaffold.Disk

/-- One step on the way. -/
inductive Step where
  /-- Into the entry with a name. -/
  | name (s : String)
  /-- To the directory above. -/
  | up
  /-- Nowhere, from a directory. -/
  | stay
  /-- A final slash. -/
  | slash
deriving DecidableEq

/-- Where a way ends. -/
inductive Place where
  /-- At an entry. -/
  | found (loc : Location)
  /-- At a name that is free in an existing directory; a slash follows it or not. -/
  | free (dir : Location) (name : String) (slash : Bool)
deriving DecidableEq

/-- What one segment of a path means as a step. -/
def segmentStep (s : String) : Option Step :=
  if s = "" then none
  else if s = "." then some .stay
  else if s = ".." then some .up
  else some (.name s)

/-- The steps of a path without its final slash. -/
def bareSteps (p : Path) : List Step := (p.first :: p.rest).filterMap segmentStep

/-- The path ends with a slash. -/
def endsWithSlash (p : Path) : Bool := p.rest.getLast? = some ""

/-- The steps of a path. -/
def steps (p : Path) : List Step := bareSteps p ++ if endsWithSlash p then [.slash] else []

/-- The greatest number of octets of a name. -/
def nameLimit : Nat := 255

/-- The number of octets that a path stays below. -/
def pathLimit : Nat := 4096

/-- The number of links that are followed on one way. -/
def linkLimit : Nat := 40

/-- Follow steps from a directory. A link at the end is followed only if `follow` says so. -/
def walk (d : Disk) (follow : Bool) (links : Nat) (cur : Location) (todo : List Step) :
    Except Fault Place :=
  match todo with
  | [] => .ok (.found cur)
  | .stay :: rest => walk d follow links cur rest
  | .slash :: rest => walk d follow links cur rest
  | .up :: rest => walk d follow links cur.dropLast rest
  | .name s :: rest =>
    if nameLimit < s.utf8ByteSize then .error .nameTooLong
    else match d.get? (cur ++ [s]) with
      | none =>
        match rest with
        | [] => .ok (.free cur s false)
        | [.slash] => .ok (.free cur s true)
        | _ => .error .notFound
      | some .dir => walk d follow links (cur ++ [s]) rest
      | some (.file _) => if rest.isEmpty then .ok (.found (cur ++ [s])) else .error .notDirectory
      | some (.link target) =>
        if rest.isEmpty && !follow then .ok (.found (cur ++ [s]))
        else match links with
          | 0 => .error .tooManyLinks
          | links + 1 =>
            if target = Path.empty then .error .notFound
            else walk d follow links (if target.isAbsolute then [] else cur) (steps target ++ rest)
termination_by (links, todo.length)

/-- The path can be handed to the file system at all. -/
def admissible (p : Path) : Except Fault Unit :=
  if p.text.toList.any (·.toNat = 0) then .error .zeroInName
  else if p = Path.empty then .error .notFound
  else if pathLimit ≤ p.text.utf8ByteSize then .error .nameTooLong
  else .ok ()

/-- Where a path leads; relative paths start from `cwd`. -/
def locate (d : Disk) (cwd : Location) (follow : Bool) (p : Path) (todo : List Step) :
    Except Fault Place :=
  match admissible p with
  | .error e => .error e
  | .ok () => walk d follow linkLimit (if p.isAbsolute then [] else cwd) todo

end AppScaffold.Disk
