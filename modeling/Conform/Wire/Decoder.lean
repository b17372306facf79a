import Conform.Wire.Token

namespace Conform.Wire

/-- A decoder takes a value from the start of some tokens. -/
abbrev Decoder (α : Type) := List Token → Option (α × List Token)

/-- How tokens are read: as they come, with so many levels of collections left, or after they have
been held back until it was known what they mean. -/
inductive Reading where
  | direct (levels : Nat)
  | held
  deriving DecidableEq, Repr

def maxLevels : Nat := 1023

namespace Reading

def enter : Reading → Option Reading
  | direct 0 => none
  | direct (levels + 1) => some (direct levels)
  | held => some held

/-- The levels left; what was held back has been found to fit. -/
def levels : Reading → Nat
  | direct levels => levels
  | held => maxLevels

end Reading

namespace Decoder

variable {α β σ : Type}

def map (f : α → β) (d : Decoder α) : Decoder β := fun ts =>
  (d ts).map fun (a, rest) => (f a, rest)

def times (d : Decoder α) : Nat → Decoder (List α)
  | 0, ts => some ([], ts)
  | n + 1, ts => do
    let (a, ts) ← d ts
    let (as, ts) ← times d n ts
    return (a :: as, ts)

def one (f : Token → Option α) : Decoder α
  | [] => none
  | t :: ts => (f t).map fun a => (a, ts)

end Decoder

/-- Passes over a value of any kind, with so many levels of collections left. An extension is a
collection of its kind and its bytes. -/
def skip : Nat → Decoder Unit
  | _, [] => none
  | 0, t :: ts =>
    match t with
    | .array _ | .map _ | .extension _ _ => none
    | _ => some ((), ts)
  | levels + 1, t :: ts =>
    match t with
    | .array size => (Decoder.times (skip levels) size).map (fun _ => ()) ts
    | .map size => (Decoder.times (skip levels) (2 * size)).map (fun _ => ()) ts
    | _ => some ((), ts)

/-- A text, or bytes that are one. -/
def text : Decoder String :=
  Decoder.one fun
    | .text s => some s
    | .blob content => ofUtf8? content
    | _ => none

def parsed {α : Type} (read : String → Option α) : Decoder α :=
  Decoder.one fun
    | .text s => read s
    | _ => none

def bool : Decoder Bool :=
  Decoder.one fun
    | .bool b => some b
    | _ => none

def wholeNumber? : Token → Option Int
  | .uint _ n => some n
  | .sint n => some n
  | _ => none

def int : Decoder Int64 :=
  Decoder.one fun t => do
    let n ← wholeNumber? t
    if Int64.minValue.toInt ≤ n ∧ n ≤ Int64.maxValue.toInt then some (Int64.ofInt n) else none

/-- A float; an integer is rounded. -/
def float : Decoder Binary64 :=
  Decoder.one fun
    | .float x => some x
    | t => (wholeNumber? t).map Binary64.ofInt

/-- The items of an array. Where tokens are read as they come, no bytes are no items. -/
def items {α : Type} (r : Reading) (d : Reading → Decoder α) : Decoder (List α)
  | .array size :: ts => do Decoder.times (d (← r.enter)) size ts
  | .blob [] :: ts => if r = .held then none else some ([], ts)
  | _ => none

def pair {α β : Type} (r : Reading) (first : Reading → Decoder α) (second : Reading → Decoder β) :
    Decoder (α × β)
  | .array 2 :: ts => do
    let r ← r.enter
    let (a, ts) ← first r ts
    let (b, ts) ← second r ts
    return ((a, b), ts)
  | _ => none

/-- The index of a name, given by itself or by the index; what is held back may have no index in two
or four bytes. There is no index for a name that is not among the given ones. -/
def label (r : Reading) (names : List String) : Decoder (Option Nat) :=
  Decoder.one fun
    | .uint width n =>
      if r = .held ∧ (width = 2 ∨ width = 4) then none
      else some (if n < names.length then some n else none)
    | .text s => some (names.idxOf? s)
    | .blob content => some ((ofUtf8? content).bind names.idxOf?)
    | _ => none

/-- What a name stands for: itself, or a value with data that follow. -/
inductive Variant (α : Type) where
  | unit (a : α)
  | data (d : Decoder α)

/-- No data: nil, or what was held back and is empty. -/
def nothing (r : Reading) : Decoder Unit :=
  Decoder.one fun
    | .nil => some ()
    | .map 0 => if r = .held then some () else none
    | _ => none

/-- A name alone, or a name and its data after the head of a map of one. -/
def variant {α : Type} (r : Reading) (variants : List (String × Variant α)) : Decoder α
  | [] => none
  | t :: ts =>
    match t with
    | .map 1 => marked ts
    | .map _ => none
    | t => if isName t then alone (t :: ts) else none
where
  find (ts : List Token) : Option (Variant α × List Token) := do
    let (index, ts) ← label r (variants.map Prod.fst) ts
    let (_, v) ← variants[← index]?
    return (v, ts)
  marked (ts : List Token) : Option (α × List Token) := do
    match ← find ts with
    | (.unit a, ts) => (nothing r).map (fun _ => a) ts
    | (.data d, ts) => d ts
  alone (ts : List Token) : Option (α × List Token) := do
    match ← find ts with
    | (.unit a, ts) => return (a, ts)
    | (.data _, _) => none
  isName : Token → Bool
    | .text _ => true
    | _ => r ≠ .held

/-- Passes over the entries of a map up to the first with one of the given names: its index, and how
many entries are left. -/
def seek (r : Reading) (names : List String) : Nat → Decoder (Option (Nat × Nat))
  | 0, ts => some (none, ts)
  | n + 1, ts => do
    match ← label r names ts with
    | (some index, ts) => return (some (index, n), ts)
    | (none, ts) => seek r names n (← skip r.levels ts).2

/-- A field of a record: its name, and how what it holds is added to what is known. -/
abbrev Field (σ : Type) := String × (σ → Decoder σ)

/-- Fields by name, each at most once; others are passed over. -/
def namedFields {σ : Type} (r : Reading) (fields : List (Field σ)) : Nat → List Nat → σ → Decoder σ
  | 0, _, known, ts => some (known, ts)
  | n + 1, seen, known, ts => do
    match ← label r (fields.map Prod.fst) ts with
    | (some index, ts) =>
      if index ∈ seen then none
      else
        let (_, d) ← fields[index]?
        let (known, ts) ← d known ts
        namedFields r fields n (index :: seen) known ts
    | (none, ts) => namedFields r fields n seen known (← skip r.levels ts).2

def orderedFields {σ : Type} : List (Field σ) → σ → Decoder σ
  | [], known, ts => some (known, ts)
  | (_, d) :: fields, known, ts => do
    let (known, ts) ← d known ts
    orderedFields fields known ts

def mapRecord {σ : Type} (r : Reading) (fields : Reading → List (Field σ)) (start : σ) : Decoder σ
  | .map size :: ts => do
    let r ← r.enter
    namedFields r (fields r) size [] start ts
  | _ => none

/-- A record as a map, or as an array of all its fields. -/
def record {σ : Type} (r : Reading) (fields : Reading → List (Field σ)) (start : σ) : Decoder σ
  | .array size :: ts => do
    let r ← r.enter
    if size = (fields r).length then orderedFields (fields r) start ts else none
  | ts => mapRecord r fields start ts

end Conform.Wire
