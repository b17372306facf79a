import Conform.Pattern.ByteRange
import Conform.Pattern.Store
import Std.Data.HashMap

namespace Conform.Pattern

def slot (size : Nat) (numbers : List Nat) : Nat :=
  let hash := numbers.foldl (fun (h : UInt64) n => (h ^^^ n.toUInt64) * 1099511628211)
    14695981039346656037
  hash.toNat % size

/-- States that may be shared, each in the place of the numbers it is known by. A new one drives out
what was in its place. -/
abbrev Shared := Std.HashMap Nat (List Nat × Nat)

def share (size transitions : Nat) (numbers : List Nat) : StateT Shared Building Nat := do
  let place := slot size numbers
  match (← get)[place]? with
  | some (known, state) => if known = numbers then return state
  | none => pure ()
  let state ← StateT.lift (Building.addState transitions)
  modify fun shared => shared.insert place (numbers, state)
  return state

namespace Forward

/-- Products in groups of equal first ranges, each range with what follows it. -/
def groups (products : List (List ByteRange)) : List (ByteRange × List (List ByteRange)) :=
  (products.splitBy fun p q => p.head? = q.head?).filterMap fun group =>
    group.head?.bind List.head? |>.map fun range => (range, group.map List.tail)

/-- The state from which some products lead to a last state. States that lead on alike are one, as
far as the places allow. -/
def state (last : Nat) : Nat → List (List ByteRange) → StateT Shared Building Nat
  | 0, _ => return last
  | depth + 1, products => do
    let transitions ← (groups products).mapM fun (range, rests) => do
      let next ← if rests.all List.isEmpty then pure last else state last depth rests
      return [range.1, range.2, next]
    share 10000 transitions.length transitions.flatten

end Forward

namespace Backward

/-- The state from which a product, read from its end, leads to the last state. States are shared
between products that start alike. -/
def state (last : Nat) (product : List ByteRange) : StateT Shared Building Nat :=
  product.foldlM (fun next range => share 1000 0 [next, range.1, range.2]) last

end Backward

/-- The part of an automaton that reads one character of a set; it ends in a plain state. -/
def buildSet (backward : Bool) (s : CharSet) : Building Unit :=
  if s.isBelow 0x80 then do
    Building.addPlain
    let _ ← Building.addState s.ranges.size
  else
    let products := setProducts s
    if backward then do
      Building.addPlain
      let last ← Building.addState 0
      let build : StateT Shared Building Unit := products.forM fun product => do
        let _ ← Backward.state last product
        StateT.lift (Building.leadOn true)
      let _ ← build.run {}
    else do
      let last ← Building.addState 0
      let _ ← (Forward.state last 4 products).run {}

end Conform.Pattern
