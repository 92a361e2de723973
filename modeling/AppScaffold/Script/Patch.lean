import AppScaffold.Script.Anchor
import AppScaffold.Script.ImportBlock

/-!
# Patching a script

A patch adds one entry at an anchor and, if the entry needs it, one import line behind the imports
that stand before the anchor. Everything else stays as it was.
-/

namespace AppScaffold.Script

/-- Put characters in at a place. -/
def insertAt (cs : List Char) (index : Nat) (insertion : List Char) : List Char :=
  cs.take index ++ insertion ++ cs.drop index

/-- Put two texts in at places of the same text; at one place `second` comes first. -/
def insertBoth (cs : List Char) (p : Nat) (first : List Char) (q : Nat) (second : List Char) :
    List Char :=
  if q ≤ p then insertAt (insertAt cs p first) q second
  else insertAt (insertAt cs q second) p first

/-- What is put in for an entry: a separator where one is needed, a new line in a literal, and the
entry. -/
def entryBlock (anchor : Anchor) (needsSeparator : Bool) (fragment : List Char) : List Char :=
  if anchor = .fileEnd then (if needsSeparator then ['\n'] else []) ++ fragment
  else (if needsSeparator then [','] else []) ++ '\n' :: fragment

/-- Where an import line goes and what is put in for it: a line of its own behind the last import,
or at the top with an empty line behind it. -/
def importBlock (cs : List Char) (limit : Nat) (line : List Char) : Nat × List Char :=
  match importBlockEnd cs limit with
  | some stop =>
    if (cs.take stop).getLast? = some '\n' then (stop, line ++ ['\n']) else (stop, '\n' :: line)
  | none => (0, line ++ ['\n', '\n'])

/-- The script with an entry and its import line; nothing if the anchor is missing. -/
def applyPatch (cs : List Char) (anchor : Anchor) (fragment : List Char)
    (importLine : Option (List Char)) : Option (List Char) :=
  (anchor.locate cs).map fun point =>
    let entry := entryBlock anchor point.needsSeparator fragment
    match importLine with
    | none => insertAt cs point.index entry
    | some line =>
      let (q, block) := importBlock cs ((anchor.declarationStart cs).getD cs.length) line
      insertBoth cs point.index entry q block

end AppScaffold.Script
