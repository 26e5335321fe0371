import UnitScript.Proofs.Syntax.Words
import UnitScript.Syntax.Parser

/-!
# The names in a program

The names of cells, functions and parameters in a syntax tree, and the lengths of its array literals.
-/

namespace UnitScript

namespace Node

mutual

/-- The names of cells, functions and parameters in a tree. -/
def names : Node → List Name
  | ident _ name => [name]
  | array _ elements => namesAll elements
  | binary _ _ left right _ => left.names ++ right.names
  | index _ name i => name :: i.names
  | property _ object member => object.names ++ member.names
  | call _ callee args => callee.names ++ namesAll args
  | cond _ test yes no => test.names ++ namesAll yes ++ namesAll no
  | loop _ test body => test.names ++ namesAll body
  | ret _ value => value.names
  | func _ name params _ body => name :: params.map (·.name) ++ namesAll body
  | param p => [p.name]
  | program body => namesAll body
  | number .. | string .. | pass _ | importUnit .. | type _ | missing => []

def namesAll : List Node → List Name
  | [] => []
  | n :: rest => n.names ++ namesAll rest

end

def Dotless (n : Node) : Prop := ∀ x ∈ n.names, 46 ∉ x

theorem mem_namesAll {x : Name} {ns : List Node} : x ∈ namesAll ns ↔ ∃ n ∈ ns, x ∈ n.names := by
  induction ns with
  | nil => simp [namesAll]
  | cons n rest ih => simp [namesAll, ih]

mutual

/-- The lengths of the array literals in a tree. -/
def sizes : Node → List Nat
  | array _ elements => elements.length :: sizesAll elements
  | binary _ _ left right _ => left.sizes ++ right.sizes
  | index _ _ i => i.sizes
  | property _ object member => object.sizes ++ member.sizes
  | call _ callee args => callee.sizes ++ sizesAll args
  | cond _ test yes no => test.sizes ++ sizesAll yes ++ sizesAll no
  | loop _ test body => test.sizes ++ sizesAll body
  | ret _ value => value.sizes
  | func _ _ _ _ body => sizesAll body
  | program body => sizesAll body
  | number .. | string .. | ident .. | pass _ | importUnit .. | param _ | type _ | missing => []

def sizesAll : List Node → List Nat
  | [] => []
  | n :: rest => n.sizes ++ sizesAll rest

end

theorem mem_sizesAll {k : Nat} {ns : List Node} : k ∈ sizesAll ns ↔ ∃ n ∈ ns, k ∈ n.sizes := by
  induction ns with
  | nil => simp [sizesAll]
  | cons n rest ih => simp [sizesAll, ih]

/-- All names in the tree have a property, and no array literal is longer than a bound. -/
structure Built (W : Name → Prop) (N : Nat) (n : Node) : Prop where
  names : ∀ x ∈ n.names, W x
  sizes : ∀ k ∈ n.sizes, k ≤ N

abbrev AllBuilt (W : Name → Prop) (N : Nat) (ns : List Node) : Prop := ∀ n ∈ ns, n.Built W N

theorem AllBuilt.names {W : Name → Prop} {N : Nat} {ns : List Node} (h : AllBuilt W N ns) :
    ∀ x ∈ namesAll ns, W x := by
  intro x hx
  obtain ⟨n, hn, hx⟩ := mem_namesAll.1 hx
  exact (h n hn).names x hx

theorem AllBuilt.sizes {W : Name → Prop} {N : Nat} {ns : List Node} (h : AllBuilt W N ns) :
    ∀ k ∈ sizesAll ns, k ≤ N := by
  intro k hk
  obtain ⟨n, hn, hk⟩ := mem_sizesAll.1 hk
  exact (h n hn).sizes k hk

end Node

def Parser.head (s : ParseState) : Token := s.rest.head?.getD (Token.eofAt s.eof)

end UnitScript
