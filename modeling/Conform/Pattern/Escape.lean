import Conform.Pattern.Scan
import Conform.Unicode.Property

namespace Conform.Pattern

open Reading

inductive Escape where
  | char (c : Char)
  | set (s : CharSet)
  | anchor (a : Anchor)

def hexDigit? (c : Char) : Option Nat :=
  if c.isDigit then some (c.toNat - 48)
  else if 'a' ≤ c ∧ c ≤ 'f' then some (c.toNat - 87)
  else if 'A' ≤ c ∧ c ≤ 'F' then some (c.toNat - 55)
  else none

def codePoint (digits : List Char) : Reading Char := do
  let values ← digits.mapM fun c => StateT.lift (hexDigit? c)
  if values.isEmpty then refuse
  else
    let n := values.foldl (fun n d => 16 * n + d) 0
    if n.isValidChar then return Char.ofNat n else refuse

/-- A character by its number: so many digits, or any number of them in braces. -/
def hexEscape (width : Nat) : Reading Char := do
  space
  let isHex (c : Char) := (hexDigit? c).isSome
  if (← peek?) = some '\x7b' then
    advance
    let digits ← allSpaced isHex
    if (← peek?) = some '\x7d' then
      advance
      codePoint digits
    else refuse
  else
    let digits ← spacedWhile isHex width
    if digits.length < width then refuse else codePoint digits

/-- A character by two digits or by digits in braces. Outside the Unicode mode two digits give a
byte, which must be a character by itself. -/
def byteEscape (flags : Flags) : Reading Char := do
  let braced := (← peekSpace?) = some '\x7b'
  let c ← hexEscape 2
  if flags.unicode || braced || c.toNat < 0x80 then return c else refuse

def splitAt? (mark : List Char) : List Char → Option (List Char × List Char)
  | [] => none
  | c :: cs =>
    if mark.isPrefixOf (c :: cs) then some ([], (c :: cs).drop mark.length)
    else (splitAt? mark cs).map fun (before, after) => (c :: before, after)

/-- The set of a property by its name, and whether the name asks for the others. -/
def propertySet? (cs : List Char) : Option (CharSet × Bool) :=
  let value? (parts : List Char × List Char) :=
    Unicode.ofValue? (String.ofList parts.1) (String.ofList parts.2)
  match splitAt? ['!', '='] cs, splitAt? [':'] cs, splitAt? ['='] cs with
  | some parts, _, _ => (value? parts).map (·, true)
  | none, some parts, _ | none, none, some parts => (value? parts).map (·, false)
  | none, none, none => (Unicode.ofName? (String.ofList cs)).map (·, false)

def propertyEscape (flags : Flags) (negated : Bool) : Reading CharSet := do
  space
  if !flags.unicode then refuse
  else
    let name ← if (← peek?) = some '\x7b' then do
        advance
        let name ← allSpaced (· ≠ '\x7d')
        if (← next) = '\x7d' then pure name else refuse
      else do
        match ← peek? with
        | none | some '\\' => refuse
        | some c =>
          advance
          pure [c]
    let (s, others) ← StateT.lift (propertySet? name)
    let s := caseFold flags s
    return if negated != others then s.compl else s

/-- The boundaries named in braces; braces that do not start with a letter are not part of the
escape. -/
def boundaryEscape (flags : Flags) : Reading Anchor := do
  let word := wordSet flags
  let isLetter (c : Char) := c.isAlpha || c = '-'
  let saved ← get
  if (← peek?) ≠ some '\x7b' then return .boundary word
  else
    advance
    match ← peek? with
    | none => refuse
    | some c =>
      if !isLetter c then
        set saved
        return .boundary word
      else
        let name ← allSpaced isLetter
        if (← next) ≠ '\x7d' then refuse
        else
          match String.ofList name with
          | "start" => return .wordStart word
          | "end" => return .wordEnd word
          | "start-half" => return .halfStart word
          | "end-half" => return .halfEnd word
          | _ => refuse

def escape : Reading Escape := do
  let flags := (← get).flags
  let c ← next
  match c with
  | 'x' => return .char (← byteEscape flags)
  | 'u' => return .char (← hexEscape 4)
  | 'U' => return .char (← hexEscape 8)
  | 'p' => return .set (← propertyEscape flags false)
  | 'P' => return .set (← propertyEscape flags true)
  | 'd' => return .set (digitSet flags)
  | 's' => return .set (blankSet flags)
  | 'w' => return .set (wordSet flags)
  | 'D' => return .set (← complement flags (digitSet flags))
  | 'S' => return .set (← complement flags (blankSet flags))
  | 'W' => return .set (← complement flags (wordSet flags))
  | 'a' => return .char '\x07'
  | 'f' => return .char '\x0c'
  | 't' => return .char '\t'
  | 'n' => return .char '\n'
  | 'r' => return .char '\r'
  | 'v' => return .char '\x0b'
  | 'A' => return .anchor .textStart
  | 'z' => return .anchor .textEnd
  | 'b' => return .anchor (← boundaryEscape flags)
  | 'B' => return .anchor (.noBoundary (wordSet flags))
  | '<' => return .anchor (.wordStart (wordSet flags))
  | '>' => return .anchor (.wordEnd (wordSet flags))
  | c => if c.toNat < 0x80 ∧ !c.isAlphanum then return .char c else refuse

end Conform.Pattern
