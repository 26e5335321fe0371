import UnitScript.Text.Decomposition
import UnitScript.Text.CombiningClass

/-!
# Composed form

Normalization form C: characters are taken apart canonically, marks are put in canonical order, and
what can be composed is composed. A run of more than thirty non-starters is broken by a grapheme
joiner, as the stream-safe text format asks.
-/

namespace UnitScript.Text

namespace Hangul

def syllableBase : Nat := 0xAC00
def leadBase : Nat := 0x1100
def vowelBase : Nat := 0x1161
def trailBase : Nat := 0x11A7
def leadCount : Nat := 19
def vowelCount : Nat := 21
def trailCount : Nat := 28
def syllableCount : Nat := leadCount * vowelCount * trailCount

def isSyllable (n : Nat) : Bool := syllableBase ≤ n && n < syllableBase + syllableCount
def isLead (n : Nat) : Bool := leadBase ≤ n && n < leadBase + leadCount
def isVowel (n : Nat) : Bool := vowelBase ≤ n && n < vowelBase + vowelCount
def isTrail (n : Nat) : Bool := trailBase < n && n < trailBase + trailCount

/-- Lead, vowel and, if there is one, trail of a syllable. -/
def decompose (n : Nat) : List Nat :=
  let i := n - syllableBase
  let lead := leadBase + i / (vowelCount * trailCount)
  let vowel := vowelBase + i % (vowelCount * trailCount) / trailCount
  if i % trailCount = 0 then [lead, vowel] else [lead, vowel, trailBase + i % trailCount]

/-- Lead and vowel give a syllable, and a syllable without a trail takes one. -/
def compose? (a b : Nat) : Option Nat :=
  if isLead a && isVowel b then
    some (syllableBase + ((a - leadBase) * vowelCount + (b - vowelBase)) * trailCount)
  else if isSyllable a && (a - syllableBase) % trailCount == 0 && isTrail b then
    some (a + (b - trailBase))
  else none

end Hangul

/-- One step of canonical decomposition, for code points other than syllables. -/
def decomposeOnce? (n : Nat) : Option (List Nat) :=
  match composites.find? (·.1 == n) with
  | some (_, a, b) => some [a, b]
  | none =>
    match oneWayPairs.find? (·.1 == n) with
    | some (_, a, b) => some [a, b]
    | none => (singletons.find? (·.1 == n)).map fun e => [e.2]

/-- Decomposition repeated at most `depth` times. -/
def decomposeWithin : (depth : Nat) → Nat → List Nat
  | 0, n => [n]
  | depth + 1, n =>
    match decomposeOnce? n with
    | some parts => parts.flatMap (decomposeWithin depth)
    | none => [n]

/-- The full canonical decomposition; no mapping is nested more than three deep. -/
def decompose (n : Nat) : List Nat :=
  if n < 0xC0 then [n]
  else if Hangul.isSyllable n then Hangul.decompose n
  else decomposeWithin 3 n

/-- The code point that a pair composes into. -/
def compose? (a b : Nat) : Option Nat :=
  match Hangul.compose? a b with
  | some s => some s
  | none => (composites.find? fun e => e.2.1 == a && e.2.2 == b).map (·.1)

/-- Whether a code point can be the second of a composing pair. -/
def combinesBackward (n : Nat) : Bool :=
  Hangul.isVowel n || n == Hangul.trailBase || Hangul.isTrail n || composites.any (·.2.2 == n)

/-- Counts towards a run of non-starters: a mark, or what composes with something before it. -/
def isNonStarter (n : Nat) : Bool := combiningClass n != 0 || combinesBackward n

/-- The non-starters that a character begins with. -/
def leadingNonStarters (n : Nat) : Nat :=
  if Hangul.isSyllable n then 0 else ((decompose n).takeWhile isNonStarter).length

/-- The non-starters that a character ends with. -/
def trailingNonStarters (n : Nat) : Nat := ((decompose n).reverse.takeWhile isNonStarter).length

def graphemeJoiner : Nat := 0x034F

/-- Puts a grapheme joiner before each character that would make a run of non-starters longer than
thirty; `run` is the length of the run so far. -/
def streamSafe : (run : Nat) → List Nat → List Nat
  | _, [] => []
  | run, n :: rest =>
    let lead := leadingNonStarters n
    if 30 < run + lead then graphemeJoiner :: n :: streamSafe lead rest
    else if lead = 0 then n :: streamSafe (trailingNonStarters n) rest
    else n :: streamSafe (run + lead) rest

/-- Puts a mark in front of a list whose marks are in order. -/
def insertMark (n : Nat) : List Nat → List Nat
  | [] => [n]
  | m :: ms =>
    if combiningClass m != 0 && combiningClass m < combiningClass n then m :: insertMark n ms
    else n :: m :: ms

/-- Canonical order: between two starters the marks stand by increasing class, equal classes as
they came. -/
def orderMarks (ns : List Nat) : List Nat :=
  ns.foldr (fun n acc => if combiningClass n = 0 then n :: acc else insertMark n acc) []

/-- Composes what follows `starter`. The marks in `skipped`, last first, did not compose; the last
of them blocks a following mark of the same or a lower class. -/
def composeFrom (starter : Nat) (skipped : List Nat) : List Nat → List Nat
  | [] => starter :: skipped.reverse
  | n :: rest =>
    let blocked :=
      match skipped with
      | [] => false
      | m :: _ => combiningClass n ≤ combiningClass m
    match (if blocked then none else compose? starter n) with
    | some s => composeFrom s skipped rest
    | none =>
      if combiningClass n = 0 then starter :: skipped.reverse ++ composeFrom n [] rest
      else composeFrom starter (n :: skipped) rest

def composeAll : List Nat → List Nat
  | [] => []
  | n :: rest => composeFrom n [] rest

/-- The composed form of a text. Below `0x300` there are no marks and every text is composed. -/
def composed (cs : List Char) : List Char :=
  if cs.all (·.toNat < 0x300) then cs
  else
    (composeAll (orderMarks ((streamSafe 0 (cs.map Char.toNat)).flatMap decompose))).map Char.ofNat

end UnitScript.Text
