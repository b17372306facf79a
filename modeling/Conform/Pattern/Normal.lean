import Conform.Pattern.Basic

namespace Conform.Pattern

/-- The fewest and the most bytes of what a pattern matches; none if nothing matches or, for the
most, if there is no bound. -/
structure Width where
  least : Option Nat
  most : Option Nat

def byteCount (n : Nat) : Nat :=
  if n < 0x80 then 1 else if n < 0x800 then 2 else if n < 0x10000 then 3 else 4

def bothBounds (f : Nat → Nat → Nat) (a b : Option Nat) : Option Nat :=
  a.bind fun a => b.map (f a)

/-- The bounds of two parts, each pair joined in its way. -/
def Width.both (least most : Nat → Nat → Nat) (v w : Width) : Width :=
  ⟨bothBounds least v.least w.least, bothBounds most v.most w.most⟩

def width : Pattern → Width
  | empty | anchor _ => ⟨some 0, some 0⟩
  | literal cs =>
    let n := (cs.map fun c => byteCount c.toNat).sum
    ⟨some n, some n⟩
  | oneOf s => ⟨s.ranges[0]?.map fun r => byteCount r.1, s.ranges.back?.map fun r => byteCount r.2⟩
  | group _ p => p.width
  | times least most _ p =>
    let w := p.width
    ⟨w.least.map (least * ·), bothBounds (· * ·) most w.most⟩
  | seq l r => l.width.both (· + ·) (· + ·) r.width
  | alt l r => l.width.both min max r.width

/-- Is what a pattern matches at most the empty text? -/
def isWidthless (p : Pattern) : Bool :=
  p.width.most = some 0

def parts : Pattern → List Pattern
  | empty => []
  | seq l r => l :: r.parts
  | p => [p]

def branches : Pattern → List Pattern
  | alt l r => l :: r.branches
  | p => [p]

/-- Puts a part in front of others; literals become one. -/
def addPart : Pattern → List Pattern → List Pattern
  | literal s, literal t :: ps => literal (s ++ t) :: ps
  | p, ps => p :: ps

def chain : List Pattern → Pattern
  | [] => empty
  | [p] => p
  | p :: ps => seq p (chain ps)

def concat (ps : List Pattern) : Pattern :=
  chain ((ps.flatMap parts).foldr addPart [])

def fork : List Pattern → Pattern
  | [] => oneOf .none
  | [p] => p
  | p :: ps => alt p (fork ps)

/-- One character of a set; a set of one character is a literal. -/
def ofSet (s : CharSet) : Pattern :=
  match s.single? with
  | some c => literal [c]
  | none => oneOf s

def singleChar? : Pattern → Option Char
  | literal [c] => some c
  | _ => none

def charSet? : Pattern → Option CharSet
  | oneOf s => some s
  | _ => none

/-- Branches that all match a single character, as one set. -/
def mergedSet? (ps : List Pattern) : Option CharSet :=
  ((ps.mapM singleChar?).map fun cs => .ofRanges (cs.map fun c => (c.toNat, c.toNat))).or
    ((ps.mapM charSet?).map .unions)

def commonStart : List Pattern → List Pattern → List Pattern
  | p :: ps, q :: qs => if p = q then p :: commonStart ps qs else []
  | _, _ => []

def sequence? : Pattern → Option (List Pattern)
  | seq l r => some (l :: r.parts)
  | _ => none

/-- The parts with which all branches start, and what is left of each. -/
def sharedStart? (ps : List Pattern) : Option (List Pattern × List Pattern) :=
  (ps.mapM sequence?).bind fun
    | [] => none
    | first :: rest =>
      let start := rest.foldl commonStart first
      if start.isEmpty then none
      else some (start, (first :: rest).map fun parts => chain (parts.drop start.length))

/-- Patterns of which one is to match. -/
def anyOf (ps : List Pattern) : Pattern :=
  match ps.flatMap branches with
  | [] => oneOf .none
  | [p] => p
  | ps => (mergedSet? ps).elim (fork ps) ofSet

/-- Patterns of which one is to match; what all start with is taken out in front. -/
def choice (ps : List Pattern) : Pattern :=
  match anyOf ps with
  | alt l r =>
    match sharedStart? (l :: r.branches) with
    | some (start, ends) => concat (start ++ [anyOf ends])
    | none => alt l r
  | p => p

/-- A pattern repeated. One that matches at most the empty text need not be repeated. -/
def repeated (least : Nat) (most : Option Nat) (greedy : Bool) (p : Pattern) : Pattern :=
  let (least, most) :=
    if p.isWidthless then (min least 1, some (most.elim 1 (min · 1))) else (least, most)
  match least, most with
  | 0, some 0 => empty
  | 1, some 1 => p
  | least, most => times least most greedy p

end Conform.Pattern
