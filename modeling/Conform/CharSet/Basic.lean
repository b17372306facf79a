namespace Conform

/-- A set of characters: closed ranges of code points, in order and apart from each other. The first
and the last code point of a range stand for characters; those between that do not are never asked
for. -/
structure CharSet where
  ranges : Array (Nat × Nat)
  deriving DecidableEq, Repr, Inhabited

namespace CharSet

/-- The character before one, past the gap in which no code point stands for one. -/
def before (n : Nat) : Nat :=
  if n = 0xE000 then 0xD7FF else n - 1

/-- The character after one. -/
def after (n : Nat) : Nat :=
  if n = 0xD7FF then 0xE000 else n + 1

/-- Ranges in order of their starts, joined where they meet. -/
def join : List (Nat × Nat) → List (Nat × Nat)
  | [] => []
  | [r] => [r]
  | (a, b) :: (c, d) :: rs =>
    if c ≤ b + 1 then join ((a, max b d) :: rs) else (a, b) :: join ((c, d) :: rs)
termination_by rs => rs.length

/-- What two lists of ranges have in common. -/
def meet : List (Nat × Nat) → List (Nat × Nat) → List (Nat × Nat)
  | [], _ | _, [] => []
  | (a, b) :: rs, (c, d) :: ss =>
    let rest := if b < d then meet rs ((c, d) :: ss) else meet ((a, b) :: rs) ss
    if max a c ≤ min b d then (max a c, min b d) :: rest else rest
termination_by rs ss => rs.length + ss.length

/-- What the first list of ranges has and the second has not. -/
def without : List (Nat × Nat) → List (Nat × Nat) → List (Nat × Nat)
  | [], _ => []
  | rs, [] => rs
  | (a, b) :: rs, (c, d) :: ss =>
    if d < a then without ((a, b) :: rs) ss
    else if b < c then (a, b) :: without rs ((c, d) :: ss)
    else
      let rest := if d < b then without ((after d, b) :: rs) ss else without rs ((c, d) :: ss)
      if a < c then (a, before c) :: rest else rest
termination_by rs ss => rs.length + ss.length

/-- The gaps between ranges. Between two ranges that only the gap without characters keeps apart
stands a range of its two ends. -/
def gaps : List (Nat × Nat) → List (Nat × Nat)
  | (_, b) :: (c, d) :: rs =>
    (min (after b) (before c), max (after b) (before c)) :: gaps ((c, d) :: rs)
  | [(_, b)] => if b < 0x10FFFF then [(after b, 0x10FFFF)] else []
  | [] => [(0, 0x10FFFF)]

/-- The least set with these ranges. -/
def ofRanges (rs : List (Nat × Nat)) : CharSet :=
  ⟨(join (rs.mergeSort fun r s => r.1 ≤ s.1)).toArray⟩

def none : CharSet := ⟨#[]⟩

def all : CharSet := ⟨#[(0, 0x10FFFF)]⟩

def range (first last : Nat) : CharSet := ⟨#[(first, last)]⟩

def one (c : Char) : CharSet := range c.toNat c.toNat

def union (s t : CharSet) : CharSet :=
  ⟨(join (s.ranges.toList.merge t.ranges.toList fun r q => r.1 ≤ q.1)).toArray⟩

def inter (s t : CharSet) : CharSet :=
  ⟨(meet s.ranges.toList t.ranges.toList).toArray⟩

def diff (s t : CharSet) : CharSet :=
  ⟨(without s.ranges.toList t.ranges.toList).toArray⟩

/-- All characters that are not in a set. -/
def compl (s : CharSet) : CharSet :=
  match s.ranges.toList with
  | [] => all
  | (a, b) :: rs =>
    ⟨(if 0 < a then (0, before a) :: gaps ((a, b) :: rs) else gaps ((a, b) :: rs)).toArray⟩

instance : Union CharSet := ⟨union⟩
instance : Inter CharSet := ⟨inter⟩
instance : SDiff CharSet := ⟨diff⟩

/-- What is in one of two sets and not in both. -/
def symmDiff (s t : CharSet) : CharSet :=
  (s ∪ t) \ (s ∩ t)

/-- What is in one of some sets. -/
def unions (sets : List CharSet) : CharSet :=
  .ofRanges (sets.flatMap fun s => s.ranges.toList)

/-- The number of ranges that start at or before `n`, if the answer lies between two bounds. -/
def rank (s : CharSet) (n low high : Nat) : Nat :=
  if low < high then
    let middle := (low + high) / 2
    match s.ranges[middle]? with
    | some (first, _) => if first ≤ n then s.rank n (middle + 1) high else s.rank n low middle
    | Option.none => low
  else low
termination_by high - low

/-- Is a code point in one of the ranges? Only the last one that starts at or before it can hold
it. -/
def covers (s : CharSet) (n : Nat) : Bool :=
  match s.rank n 0 s.ranges.size with
  | 0 => false
  | i + 1 => s.ranges[i]?.any fun r => n ≤ r.2

def contains (s : CharSet) (c : Char) : Bool :=
  s.covers c.toNat

/-- The only member of a set. -/
def single? (s : CharSet) : Option Char :=
  match s.ranges with
  | #[(a, b)] => if a = b then some (Char.ofNat a) else Option.none
  | _ => Option.none

/-- Are all members below a bound? -/
def isBelow (s : CharSet) (bound : Nat) : Bool :=
  s.ranges.all fun r => r.2 < bound

end CharSet

end Conform
