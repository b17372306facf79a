import Conform.Pattern.Normal
import Conform.Unicode.Blank
import Conform.Unicode.Derived
import Conform.Unicode.Folding

namespace Conform.Pattern

structure Flags where
  ignoreCase : Bool := false
  multiLine : Bool := false
  dotAll : Bool := false
  anyBreak : Bool := false
  /-- Repetitions prefer few over many, and a mark reverses that. -/
  fewFirst : Bool := false
  unicode : Bool := true
  verbose : Bool := false
  deriving DecidableEq, Repr

/-- What is left to read, and how; the names and the number of the groups so far. -/
structure Scan where
  rest : List Char
  flags : Flags := {}
  names : List (List Char) := []
  groups : Nat := 0

abbrev Reading := StateT Scan Option

namespace Reading

def refuse {α : Type} : Reading α :=
  failure

def peek? : Reading (Option Char) :=
  return (← get).rest.head?

def skip (n : Nat) : Reading Unit :=
  modify fun s => { s with rest := s.rest.drop n }

def next : Reading Char := do
  match (← get).rest with
  | c :: rest => modify fun s => { s with rest }; return c
  | [] => refuse

def accept (text : String) : Reading Bool := do
  if text.toList.isPrefixOf (← get).rest then
    skip text.length
    return true
  else return false

/-- Blanks and comments of the verbose style. -/
def dropSpace : Nat → List Char → List Char
  | 0, cs => cs
  | fuel + 1, cs =>
    match cs.dropWhile Unicode.isBlank with
    | '#' :: rest => dropSpace fuel (rest.dropWhile (· ≠ '\n'))
    | rest => rest

def space : Reading Unit :=
  modify fun s =>
    if s.flags.verbose then { s with rest := dropSpace s.rest.length s.rest } else s

def peekSpace? : Reading (Option Char) := do
  space
  peek?

/-- Passes a character and what the verbose style ignores after it. -/
def advance : Reading Unit := do
  skip 1
  space

/-- The character after the next one. The verbose style leaves out blanks and the mark of one
comment, but not its text. -/
def second? : Reading (Option Char) := do
  let s ← get
  let rest := s.rest.drop 1
  if s.flags.verbose then
    match rest.dropWhile Unicode.isBlank with
    | '#' :: rest => return (rest.dropWhile Unicode.isBlank).head?
    | rest => return rest.head?
  else return rest.head?

/-- At most so many characters that satisfy a test, each with what the verbose style ignores. -/
def spacedWhile (test : Char → Bool) : Nat → Reading (List Char)
  | 0 => return []
  | fuel + 1 => do
    match ← peek? with
    | some c =>
      if test c then
        advance
        return c :: (← spacedWhile test fuel)
      else return []
    | none => return []

def allSpaced (test : Char → Bool) : Reading (List Char) := do
  spacedWhile test (← get).rest.length

end Reading

open Reading

def asciiWord : CharSet :=
  .written "30-39 41-5A 5F 61-7A"

def wordSet (flags : Flags) : CharSet :=
  if flags.unicode then Unicode.wordChars else asciiWord

def digitSet (flags : Flags) : CharSet :=
  if flags.unicode then Unicode.digits else .range 0x30 0x39

def blankSet (flags : Flags) : CharSet :=
  if flags.unicode then Unicode.blanks else .written "9-D 20"

/-- Outside the Unicode mode a set must not hold halves of characters, so none is a complement. -/
def complement (flags : Flags) (s : CharSet) : Reading CharSet :=
  if flags.unicode then return s.compl else refuse

/-- Outside the Unicode mode only ASCII letters come in two cases. -/
def caseFold (flags : Flags) (s : CharSet) : CharSet :=
  if !flags.ignoreCase then s
  else if flags.unicode then Unicode.folded s
  else Unicode.foldedAscii s

def literalPattern (flags : Flags) (c : Char) : Pattern :=
  ofSet (if flags.unicode || c.toNat < 0x80 then caseFold flags (.one c) else .one c)

end Conform.Pattern
