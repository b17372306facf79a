import Conform.Pattern.Escape

namespace Conform.Pattern

open Reading

/-- Patterns that are nested deeper are refused. -/
def nestLimit : Nat := 250

def asciiSets : List NamedSet := [
  (["alnum"], .written "30-39 41-5A 61-7A"), (["alpha"], .written "41-5A 61-7A"),
  (["ascii"], .written "0-7F"), (["blank"], .written "9 20"), (["cntrl"], .written "0-1F 7F"),
  (["digit"], .written "30-39"), (["graph"], .written "21-7E"), (["lower"], .written "61-7A"),
  (["print"], .written "20-7E"), (["punct"], .written "21-2F 3A-40 5B-60 7B-7E"),
  (["space"], .written "9-D 20"), (["upper"], .written "41-5A"), (["word"], asciiWord),
  (["xdigit"], .written "30-39 41-46 61-66")]

/-- A named ASCII set, written with colons inside a set of characters. -/
def asciiSet? (flags : Flags) : Reading (Option CharSet) := do
  let rest := (← get).rest
  match rest with
  | '[' :: ':' :: after =>
    let (negated, after) := match after with
      | '^' :: after => (true, after)
      | after => (false, after)
    let name := after.takeWhile (· ≠ ':')
    match after.drop name.length, NamedSet.find? asciiSets (String.ofList name) with
    | ':' :: ']' :: left, some s =>
      modify fun s => { s with rest := left }
      let s := caseFold flags s
      return some (← if negated then complement flags s else pure s)
    | _, _ => return none
  | _ => return none

/-- One end of a range, or a whole item. -/
def setItem : Reading Escape := do
  let c ← next
  if c = '\\' then escape else return .char c

/-- A range of characters, all of them ASCII outside the Unicode mode. -/
def rangeSet (flags : Flags) (a b : Char) : Reading CharSet :=
  if a.toNat ≤ b.toNat && (flags.unicode || b.toNat < 0x80) then return .range a.toNat b.toNat
  else refuse

/-- An item of a set of characters: a range if a hyphen follows that is not the last character and
not doubled. -/
def setRange (flags : Flags) : Reading CharSet := do
  let first ← setItem
  let after ← peekSpace?
  let isRange ← do
    if after = some '-' then
      let following ← second?
      pure (following ≠ some ']' && following ≠ some '-')
    else pure false
  if after.isNone then refuse
  else if isRange then
    advance
    let last ← setItem
    match first, last with
    | .char a, .char b => rangeSet flags a b
    | _, _ => refuse
  else
    match first with
    | .char c => rangeSet flags c c
    | .set s => return s
    | .anchor _ => refuse

inductive SetOperator where
  | inter | diff | symmetric

def setOperator? : Reading (Option SetOperator) := do
  if ← accept "&&" then return some .inter
  else if ← accept "--" then return some .diff
  else if ← accept "~~" then return some .symmetric
  else return none

def SetOperator.apply (flags : Flags) (left right : CharSet) (operator : SetOperator) : CharSet :=
  let (l, r) := (caseFold flags left, caseFold flags right)
  match operator with
  | .inter => l ∩ r
  | .diff => l \ r
  | .symmetric => l.symmDiff r

/-- A set of characters as far as it has been read: how many items it has, and how deep sets are
nested in it. -/
structure SetUnion where
  set : CharSet := .none
  count : Nat := 0
  depth : Nat := 0

namespace SetUnion

def add (u : SetUnion) (s : CharSet) (depth : Nat) : SetUnion :=
  ⟨u.set ∪ s, u.count + 1, max u.depth depth⟩

/-- Several items are one level by themselves. -/
def nesting (u : SetUnion) : Nat :=
  if u.count ≤ 1 then u.depth else u.depth + 1

end SetUnion

structure LeftSide where
  set : CharSet
  depth : Nat
  operator : SetOperator

def joinSides (flags : Flags) (left : Option LeftSide) (right : SetUnion) : CharSet × Nat :=
  match left with
  | none => (right.set, right.nesting)
  | some l => (l.operator.apply flags l.set right.set, max l.depth right.nesting + 1)

/-- Hyphens at the start of a set stand for themselves. -/
def leadingHyphens : Nat → SetUnion → Reading SetUnion
  | 0, u => return u
  | fuel + 1, u => do
    if (← peek?) = some '-' then
      advance
      leadingHyphens fuel (u.add (.one '-') 0)
    else return u

mutual

/-- A set of characters after its opening bracket, with the depth of its nesting, which may be
`level` less. -/
def bracket (flags : Flags) (level : Nat) : Nat → Reading (CharSet × Nat)
  | 0 => refuse
  | fuel + 1 => do
    if nestLimit < level then refuse
    else
      space
      let negated := (← peek?) = some '^'
      if negated then advance
      let start ← leadingHyphens (← get).rest.length {}
      let start ← do
        if start.count = 0 && (← peek?) = some ']' then
          advance
          pure (start.add (.one ']') 0)
        else pure start
      let (s, depth) ← bracketItems flags level fuel none start
      let s := caseFold flags s
      return (← if negated then complement flags s else pure s, depth + 1)

/-- The items of a set up to its closing bracket. What stands on the left of the last operator is
`left`, what has been read since then is `right`. -/
def bracketItems (flags : Flags) (level : Nat) :
    Nat → Option LeftSide → SetUnion → Reading (CharSet × Nat)
  | 0, _, _ => refuse
  | fuel + 1, left, right => do
    match ← peekSpace? with
    | none => refuse
    | some ']' =>
      skip 1
      return joinSides flags left right
    | some '[' =>
      match ← asciiSet? flags with
      | some s => bracketItems flags level fuel left (right.add s 0)
      | none =>
        skip 1
        let (s, depth) ← bracket flags (level + 1) fuel
        bracketItems flags level fuel left (right.add s depth)
    | some _ =>
      match ← setOperator? with
      | some operator =>
        let (s, depth) := joinSides flags left right
        bracketItems flags level fuel (some ⟨s, depth, operator⟩) {}
      | none =>
        let s ← setRange flags
        bracketItems flags level fuel left (right.add s 0)

end

end Conform.Pattern
