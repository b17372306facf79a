import Conform.CharSet.Basic

namespace Conform

/-- A condition on a place between two characters. -/
inductive Anchor where
  | textStart | textEnd
  | lineStart | lineEnd
  | lineStartAnyBreak | lineEndAnyBreak
  | boundary (word : CharSet)
  | noBoundary (word : CharSet)
  | wordStart (word : CharSet)
  | wordEnd (word : CharSet)
  | halfStart (word : CharSet)
  | halfEnd (word : CharSet)
  deriving DecidableEq, Repr

namespace Anchor

def holds (before after : Option Char) : Anchor → Bool
  | textStart => before.isNone
  | textEnd => after.isNone
  | lineStart => before.isNone || before = some '\n'
  | lineEnd => after.isNone || after = some '\n'
  | lineStartAnyBreak =>
    before.isNone || before = some '\n' || (before = some '\r' && after ≠ some '\n')
  | lineEndAnyBreak =>
    after.isNone || after = some '\r' || (after = some '\n' && before ≠ some '\r')
  | boundary word => before.any word.contains != after.any word.contains
  | noBoundary word => before.any word.contains == after.any word.contains
  | wordStart word => !before.any word.contains && after.any word.contains
  | wordEnd word => before.any word.contains && !after.any word.contains
  | halfStart word => !before.any word.contains
  | halfEnd word => !after.any word.contains

end Anchor

inductive Pattern where
  | empty
  | literal (text : List Char)
  | oneOf (s : CharSet)
  | anchor (a : Anchor)
  | group (index : Nat) (p : Pattern)
  /-- At least so many times, and at most so many if there is a bound; `greedy` prefers many over
  few, which does not change what matches. -/
  | times (least : Nat) (most : Option Nat) (greedy : Bool) (p : Pattern)
  | seq (left right : Pattern)
  | alt (left right : Pattern)
  deriving DecidableEq, Repr, Inhabited

/-- The places of a text where a search stands are the bits of a number. -/
abbrev Places := Nat

namespace Places

def ofChars (test : Char → Bool) (text : Array Char) : Places :=
  text.foldr (fun c places => 2 * places + (test c).toNat) 0

/-- The places, from the first to the one past the last character, that satisfy a test of the
characters around them. -/
def ofGaps (test : Option Char → Option Char → Bool) (text : Array Char) : Places :=
  (List.range (text.size + 1)).foldr
    (fun i places => 2 * places + (test (if i = 0 then none else text[i - 1]?) text[i]?).toNat) 0

/-- The places after a character that satisfies a test, from some places before it. -/
def step (text : Array Char) (test : Char → Bool) (s : Places) : Places :=
  (s &&& ofChars test text) <<< 1

/-- The places that are reached by any number of steps up to `fuel`. -/
def closure (step : Places → Places) : Nat → Places → Places
  | 0, s => s
  | fuel + 1, s =>
    let t := s ||| step s
    if t = s then s else closure step fuel t

def iterate (step : Places → Places) : Nat → Places → Places
  | 0, s => s
  | n + 1, s => if s = 0 then 0 else iterate step n (step s)

end Places

namespace Pattern

/-- The places where matches end that start at some of the given ones. No closure needs more steps
than there are places. -/
def reach (text : Array Char) : Pattern → Places → Places
  | empty, s => s
  | literal cs, s => cs.foldl (fun s c => Places.step text (· = c) s) s
  | oneOf cs, s => Places.step text cs.contains s
  | anchor a, s => s &&& Places.ofGaps (fun before after => a.holds before after) text
  | group _ p, s => p.reach text s
  | times least most _ p, s =>
    let fuel := most.elim (text.size + 1) fun most => min (most - least) (text.size + 1)
    Places.closure (p.reach text) fuel (Places.iterate (p.reach text) least s)
  | seq l r, s => r.reach text (l.reach text s)
  | alt l r, s => l.reach text s ||| r.reach text s

def isMatch (p : Pattern) (s : String) : Bool :=
  let text := s.toList.toArray
  p.reach text ((1 <<< (text.size + 1)) - 1) != 0

end Pattern

end Conform
