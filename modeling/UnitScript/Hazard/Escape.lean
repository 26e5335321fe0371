import UnitScript.Hazard

/-!
# Escaped names and self calls

A walk over a program in the order of its text keeps the names declared in the open blocks and those
of closed ones. A use of a name of a closed block has escaped; each name is reported once. A use of a
name that is not declared at all, but is that of a function whose body is being walked, is a self call.
-/

namespace UnitScript

namespace Escape

/-- The names of the open blocks, innermost first; the names of closed blocks that no open block
declares; the names reported as escaped; and the hazards found, latest first. -/
structure Walk where
  blocks : List (List Name)
  closed : List Name
  reported : List Name
  found : List Hazard

namespace Walk

def start : Walk := ⟨[[]], [], [], []⟩

def isOpen (w : Walk) (name : Name) : Bool := w.blocks.any (name ∈ ·)

def enter (w : Walk) : Walk := { w with blocks := [] :: w.blocks }

def leave (w : Walk) : Walk :=
  match w.blocks with
  | [] => w
  | block :: outer =>
    let w := { w with blocks := outer }
    { w with closed := block.filter (fun name => !w.isOpen name) ++ w.closed }

def declare (w : Walk) (name : Name) : Walk :=
  { w with
    blocks :=
      match w.blocks with
      | [] => [[name]]
      | block :: outer => (name :: block) :: outer
    closed := w.closed.filter (· ≠ name) }

def declareAll (w : Walk) : List Name → Walk
  | [] => w
  | name :: rest => (w.declare name).declareAll rest

/-- A use inside the bodies of `functions`. -/
def use (prelude : Prelude) (functions : List Name) (w : Walk) (u : Use) : Walk :=
  if w.isOpen u.name || prelude.contains u.name || u.name ∈ w.reported then w
  else if u.name ∈ w.closed then
    { w with
      closed := w.closed.filter (· ≠ u.name)
      reported := u.name :: w.reported
      found := .escaped u.name u.pos :: w.found }
  else if u.name ∈ functions then { w with found := .self u.name u.pos :: w.found }
  else w

def useAll (prelude : Prelude) (functions : List Name) (w : Walk) (us : List Use) : Walk :=
  us.foldl (use prelude functions) w

end Walk

mutual

def stmt (prelude : Prelude) (functions : List Name) (w : Walk) : Node → Walk
  | .binary _ .declare left right _ =>
    let w := w.useAll prelude functions right.uses
    match left with
    | .ident _ name => w.declare name
    | _ => w
  | .func _ name params _ body =>
    let w := w.enter.declareAll (params.map Param.name)
    (block prelude (name :: functions) w body).leave.declare name
  | .cond _ test yes no =>
    let w := w.useAll prelude functions test.uses
    let w := (block prelude functions w.enter yes).leave
    (block prelude functions w.enter no).leave
  | .loop _ test body =>
    let w := w.useAll prelude functions test.uses
    (block prelude functions w.enter body).leave
  | n => w.useAll prelude functions n.uses

def block (prelude : Prelude) (functions : List Name) (w : Walk) : List Node → Walk
  | [] => w
  | n :: rest => block prelude functions (stmt prelude functions w n) rest

end

/-- The escaped names and self calls of a program, in the order of the walk. -/
def hazards (prelude : Prelude) (body : List Node) : List Hazard :=
  (block prelude [] .start body).found.reverse

end Escape

end UnitScript
