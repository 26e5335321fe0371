import UnitScript.Bytes

/-!
# Paths

Paths are byte strings with slashes between their parts. The functions here only look at the text of
a path; what it leads to is a matter of the file tree.
-/

namespace UnitScript

abbrev Path := Bytes

namespace Path

def slash : UInt8 := 47

def parts (p : Path) : List Name := Bytes.splitOn slash p

def isAbsolute (p : Path) : Bool := p.head? = some slash

def dot : Name := [46]

def dotDot : Name := [46, 46]

/-- Takes one part of a path into account. `stack` holds the parts so far, the last one first; `..`
takes away the part before it, and vanishes at the root. -/
def step (rooted : Bool) (stack : List Name) (part : Name) : List Name :=
  if part = [] ∨ part = dot then stack
  else if part = dotDot then
    match stack with
    | [] => if rooted then [] else [part]
    | top :: rest => if top = dotDot then part :: stack else rest
  else part :: stack

/-- The shortest path that leads to the same place: no repeated slashes, no `.`, and `..` only in
front of a relative path. -/
def clean (p : Path) : Path :=
  let stack := (parts p).foldl (step (isAbsolute p)) []
  let body := Bytes.join [slash] stack.reverse
  if isAbsolute p then slash :: body
  else if body = [] then dot
  else body

/-- One path behind the other, cleaned; empty elements do not count. -/
def join (elements : List Path) : Path :=
  match elements.dropWhile List.isEmpty with
  | [] => []
  | rest => clean (Bytes.join [slash] rest)

/-- What follows the last slash. -/
def lastPart (p : Path) : Name := (parts p).getLastD []

/-- The folder that a path lies in. -/
def folder (p : Path) : Path := clean (p.take (p.length - (lastPart p).length))

/-- The path without the slashes at its end. -/
def dropSlashes (p : Path) : Path := (p.reverse.dropWhile (· = slash)).reverse

/-- The last part of a path. -/
def base (p : Path) : Name :=
  if p = [] then dot
  else if dropSlashes p = [] then [slash]
  else lastPart (dropSlashes p)

/-- The last part from its last dot on; none without a dot. -/
def extensionOf (name : Name) : Name :=
  let tail := name.reverse.takeWhile (· ≠ 46)
  if tail.length = name.length then [] else 46 :: tail.reverse

def extension (p : Path) : Name := extensionOf (lastPart p)

/-- A path without the text `tail` at its end. -/
def dropTail (tail : Bytes) (p : Path) : Path :=
  if tail.isSuffixOf p then p.take (p.length - tail.length) else p

/-- The path from the root on, for a path as seen from `workDir`. -/
def absolute (workDir p : Path) : Path := if isAbsolute p then clean p else join [workDir, p]

/-- The path itself, the folder it lies in, and so on up to the root. -/
def upwardsWithin : Nat → Path → List Path
  | 0, p => [p]
  | n + 1, p => if folder p = p then [p] else p :: upwardsWithin n (folder p)

/-- A clean path has fewer parts than bytes. -/
def upwards (p : Path) : List Path := upwardsWithin p.length p

end Path

end UnitScript
