import Conform.Pattern.Bracket
import Conform.Pattern.Name
import Conform.Pattern.Size

namespace Conform.Pattern

open Reading

/-- The bounds of a counted repetition are less than this. -/
def countLimit : Nat := 1 <<< 32

/-- A number of a counted repetition, with blanks around it. -/
def count : Reading Nat := do
  let trim := modify fun (s : Scan) => { s with rest := Unicode.trimLeft s.rest }
  trim
  let digits ← allSpaced Char.isDigit
  trim
  space
  let n := digits.foldl (fun n c => 10 * n + (c.toNat - 48)) 0
  if digits.isEmpty || countLimit ≤ n then refuse else return n

def bounds : Reading (Nat × Option Nat) := do
  space
  let least ← count
  let range ← do
    if (← peek?) = some ',' then
      advance
      if (← peek?) = some '\x7d' then pure (least, none)
      else
        let most ← count
        pure (least, some most)
    else pure (least, some least)
  if (← next) ≠ '\x7d' then refuse
  else if range.2.any (· < range.1) then refuse
  else return range

def dot (flags : Flags) : Reading Pattern :=
  if !flags.unicode then refuse
  else if flags.dotAll then return .oneOf .all
  else if flags.anyBreak then return .oneOf (.all \ .written "A D")
  else return .oneOf (.all \ .one '\n')

def caret (flags : Flags) : Anchor :=
  if !flags.multiLine then .textStart
  else if flags.anyBreak then .lineStartAnyBreak
  else .lineStart

def dollar (flags : Flags) : Anchor :=
  if !flags.multiLine then .textEnd
  else if flags.anyBreak then .lineEndAnyBreak
  else .lineEnd

def Flags.put? (flags : Flags) (letter : Char) (on : Bool) : Option Flags :=
  match letter with
  | 'i' => some { flags with ignoreCase := on }
  | 'm' => some { flags with multiLine := on }
  | 's' => some { flags with dotAll := on }
  | 'R' => some { flags with anyBreak := on }
  | 'U' => some { flags with fewFirst := on }
  | 'u' => some { flags with unicode := on }
  | 'x' => some { flags with verbose := on }
  | _ => none

/-- The letters of flags up to a colon or the closing parenthesis, and which of the two it is. Each
letter stands at most once, and so does the hyphen before those to be turned off. -/
def flagLetters (flags : Flags) (seen : List Char) : List Char → Option (Flags × Char × List Char)
  | [] => none
  | c :: rest =>
    if c = ':' ∨ c = ')' then
      if seen.head? = some '-' then none
      else if c = ')' ∧ seen.isEmpty then none
      else some (flags, c, rest)
    else if seen.contains c then none
    else if c = '-' then flagLetters flags (c :: seen) rest
    else (flags.put? c (!seen.contains '-')).bind fun flags => flagLetters flags (c :: seen) rest

def groupName : Reading Unit := do
  let rest := (← get).rest
  let name := rest.takeWhile (· ≠ '>')
  if name.length = rest.length || !isGroupName name then refuse
  else if (← get).names.contains name then refuse
  else
    skip (name.length + 1)
    modify fun s => { s with names := name :: s.names }

/-- An item of a sequence, with the depth of nesting in its text. What only sets flags matches the
empty text and cannot be repeated. -/
structure Item where
  pattern : Pattern
  depth : Nat := 0
  isFlags : Bool := false

namespace Item

/-- Several items, put together, are a level of nesting by themselves. -/
def join (put : List Pattern → Pattern) : List Item → Item
  | [item] => { item with isFlags := false }
  | items =>
    { pattern := put (items.map pattern)
      depth := if items.isEmpty then 0 else (items.map depth).foldl max 0 + 1 }

def repeated (least : Nat) (most : Option Nat) (greedy : Bool) (item : Item) : Item :=
  { pattern := item.pattern.repeated least most greedy, depth := item.depth + 1 }

end Item

/-- Puts a repetition on the last item. The mark after it reverses which of few and many comes
first. -/
def repeatLast (least : Nat) (most : Option Nat) : List Item → Reading (List Item)
  | item :: items => do
    if item.isFlags then refuse
    else
      let marked ← accept "?"
      return item.repeated least most (marked = (← get).flags.fewFirst) :: items
  | [] => refuse

def simpleItem (flags : Flags) : Reading Item := do
  match ← next with
  | '\\' =>
    match ← escape with
    | .char c => return { pattern := literalPattern flags c }
    | .set s => return { pattern := ofSet s }
    | .anchor a => return { pattern := .anchor a }
  | '.' => return { pattern := ← dot flags }
  | '^' => return { pattern := .anchor (caret flags) }
  | '$' => return { pattern := .anchor (dollar flags) }
  | c => return { pattern := literalPattern flags c }

mutual

/-- Alternatives up to the end of the text or a closing parenthesis, which is left. -/
def alternatives (level : Nat) : Nat → Reading (List Item)
  | 0 => refuse
  | fuel + 1 => do
    if nestLimit < level then refuse
    else
      let first ← items level fuel []
      if ← accept "|" then return first :: (← alternatives level fuel) else return [first]

/-- A sequence; the items read so far come last first. -/
def items (level : Nat) : Nat → List Item → Reading Item
  | 0, _ => refuse
  | fuel + 1, done => do
    let next? ← peekSpace?
    let flags := (← get).flags
    match next? with
    | none | some '|' | some ')' => return Item.join concat done.reverse
    | some '(' =>
      skip 1
      items level fuel ((← groupItem level fuel) :: done)
    | some '[' =>
      skip 1
      let (s, depth) ← bracket flags level (2 * (← get).rest.length + 2)
      items level fuel ({ pattern := ofSet s, depth } :: done)
    | some '?' =>
      skip 1
      items level fuel (← repeatLast 0 (some 1) done)
    | some '*' =>
      skip 1
      items level fuel (← repeatLast 0 none done)
    | some '+' =>
      skip 1
      items level fuel (← repeatLast 1 none done)
    | some '\x7b' =>
      skip 1
      let (least, most) ← bounds
      space
      items level fuel (← repeatLast least most done)
    | some _ => items level fuel ((← simpleItem flags) :: done)

/-- A group, after its opening parenthesis; flags set inside end with it. -/
def groupItem (level : Nat) : Nat → Reading Item
  | 0 => refuse
  | fuel + 1 => do
    space
    let outer := (← get).flags
    let rest := (← get).rest
    if ["?=", "?!", "?<=", "?<!"].any fun mark => mark.toList.isPrefixOf rest then refuse
    else if (← accept "?P<") || (← accept "?<") then
      groupName
      numberedGroup level fuel outer
    else if ← accept "?" then
      match flagLetters outer [] (← get).rest with
      | none => refuse
      | some (flags, mark, rest) =>
        modify fun s => { s with rest, flags }
        if mark = ')' then return { pattern := .empty, isFlags := true }
        else groupBody level fuel outer
    else numberedGroup level fuel outer

def numberedGroup (level : Nat) : Nat → Flags → Reading Item
  | 0, _ => refuse
  | fuel + 1, outer => do
    let index := (← get).groups + 1
    modify fun s => { s with groups := index }
    let item ← groupBody level fuel outer
    return { item with pattern := .group index item.pattern }

def groupBody (level : Nat) : Nat → Flags → Reading Item
  | 0, _ => refuse
  | fuel + 1, outer => do
    let item := Item.join choice (← alternatives (level + 1) fuel)
    if ← accept ")" then
      modify fun s => { s with flags := outer }
      return { item with depth := item.depth + 1 }
    else refuse

end

/-- A pattern from its text, unless it is nested too deep or too large. -/
def ofString? (s : String) : Option Pattern :=
  match (alternatives 0 (5 * s.length + 5)).run { rest := s.toList } with
  | some (branches, scan) =>
    let item := Item.join choice branches
    if scan.rest.isEmpty && item.depth ≤ nestLimit && !item.pattern.isTooLarge then
      some item.pattern
    else none
  | none => none

end Conform.Pattern
