import Conform.Pattern.Normal
import Conform.Pattern.SetStore
import Conform.Pattern.WordTree

namespace Conform.Pattern

open Building

/-- How a part of an automaton is built: by itself, or as the last branches after a first one. The
first branch is known by whether its last state branches. The answer is whether the last state of
the part branches. -/
structure Builder where
  whole : Building Bool
  later : Option Bool → Building Bool

/-- Joins a branch to those before it. The second one brings the state that branches. -/
def joinBranch (first : Option Bool) (branching : Bool) : Building Unit := do
  match first with
  | some firstBranching =>
    addPlain
    addPlain
    leadOn true
    leadOn firstBranching
  | none => pure ()
  leadOn true
  leadOn branching

namespace Builder

/-- A part that is no alternative. -/
def ofPart (whole : Building Bool) : Builder where
  whole
  later first := do
    joinBranch first (← whole)
    return false

def after (build : Building Bool) (branching : Bool) : Building Bool := do
  let last ← build
  leadOn branching
  return last

def timesAfter (build : Building Bool) : Nat → Bool → Building Bool
  | 0, branching => return branching
  | n + 1, branching => do timesAfter build n (← after build branching)

def exactly (build : Building Bool) : Nat → Building Bool
  | 0 => do
    addPlain
    return false
  | n + 1 => do timesAfter build n (← build)

/-- A part that may be left out, so many times after another; what leaves out leads to a common
end. -/
def optionally (build : Building Bool) : Nat → Bool → Building Bool
  | 0, branching => return branching
  | n + 1, branching => do
    addPlain
    let last ← build
    leadOn branching
    leadOn true
    leadOn true
    optionally build n last

/-- A part any number of times; one that may match the empty text takes two more states. -/
def star (build : Building Bool) (mayBeEmpty : Bool) : Building Bool := do
  if mayBeEmpty then
    leadOn (← build)
    addPlain
    addPlain
    addPlain
    (List.range 4).forM fun _ => leadOn true
    return false
  else
    addPlain
    let last ← build
    leadOn true
    leadOn last
    return true

def repeated (build : Building Bool) (mayBeEmpty : Bool) : Nat → Option Nat → Building Bool
  | 0, none => star build mayBeEmpty
  | least + 1, none => do
    let last ← timesAfter build least (← build)
    addPlain
    leadOn last
    leadOn true
    return true
  | 0, some 1 => do
    addPlain
    let last ← build
    addPlain
    leadOn true
    leadOn true
    leadOn last
    return false
  | least, some most => do
    let last ← exactly build least
    if most ≤ least then return last
    else
      addPlain
      leadOn (← optionally build (most - least) last)
      return false

end Builder

def literals? (p : Pattern) : Option (List (List Char)) :=
  p.branches.mapM fun
    | literal cs => some cs
    | _ => none

def textBytes (cs : List Char) : List Nat :=
  cs.flatMap fun c => utf8 c.toNat

def buildTexts (backward : Bool) (texts : List (List Char)) : Building Bool := do
  let words := texts.map fun cs => if backward then (textBytes cs).reverse else textBytes cs
  addPlain
  buildWords (words.foldl (fun length word => length + word.length) 0) words
  return false

/-- Can a pattern match the empty text, or is it not known how short its texts are? -/
def mayBeEmpty (p : Pattern) : Bool :=
  p.width.least.all (· = 0)

/-- How the automaton of a pattern is built, read forwards or backwards. Only forwards it notes
where groups start and end. -/
def builder (backward : Bool) : Pattern → Builder
  | empty | anchor _ => .ofPart do
    addPlain
    return false
  | literal cs =>
    let size := (textBytes cs).length
    .ofPart do
      (List.range size).forM fun _ => addPlain
      return false
  | oneOf s => .ofPart do
    buildSet backward s
    return false
  | group _ p =>
    let inside := (p.builder backward).whole
    .ofPart do
      if backward then inside
      else
        addPlain
        let last ← inside
        addPlain
        leadOn last
        return false
  | times least most _ p =>
    let inside := (p.builder backward).whole
    let mayBeEmpty := p.mayBeEmpty
    .ofPart (Builder.repeated inside mayBeEmpty least most)
  | seq l r =>
    let left := (l.builder backward).whole
    let right := (r.builder backward).whole
    .ofPart do
      if backward then Builder.after left (← right) else Builder.after right (← left)
  | alt l r =>
    let first := (l.builder backward).whole
    let rest := (r.builder backward).later
    { whole :=
        match literals? (alt l r) with
        | some texts => buildTexts backward texts
        | none => do rest (some (← first))
      later := fun before => do
        joinBranch before (← first)
        rest none }

/-- Do all matches have to start, or read backwards to end, where a condition holds? -/
def holdsFirst (backward : Bool) (a : Anchor) : Pattern → Bool
  | anchor b => a = b
  | group _ p => p.holdsFirst backward a
  | times least _ _ p => 0 < least && p.holdsFirst backward a
  | seq l r =>
    if backward then r.holdsFirst backward a || (r.isWidthless && l.holdsFirst backward a)
    else l.holdsFirst backward a || (l.isWidthless && r.holdsFirst backward a)
  | alt l r => l.holdsFirst backward a && r.holdsFirst backward a
  | _ => false

/-- The automaton that finds the matches of a pattern. In front of a pattern that may match
anywhere it passes any bytes. -/
def buildSearch (backward : Bool) (p : Pattern) : Building Unit := do
  let anywhere := !p.holdsFirst backward (if backward then .textEnd else .textStart)
  addPlain
  if anywhere then
    addPlain
    let _ ← addState 1
    leadOn true
  let last ← ((group 0 p).builder backward).whole
  addPlain
  leadOn last
  leadOn anywhere

/-- Do the automata of a pattern, which read forwards and backwards, take up too much? -/
def isTooLarge (p : Pattern) : Bool :=
  ((buildSearch false p).run {}).isNone || ((buildSearch true p).run {}).isNone

end Conform.Pattern
