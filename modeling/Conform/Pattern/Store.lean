namespace Conform.Pattern

/-- What an automaton takes up: its states, and the bytes of the lists that some states have. -/
structure Store where
  states : Nat := 0
  listBytes : Nat := 0

def stateBytes : Nat := 32

def transitionBytes : Nat := 8

def branchBytes : Nat := 4

namespace Store

def limit : Nat := 10 <<< 20

def bytes (s : Store) : Nat :=
  stateBytes * s.states + s.listBytes

def checked (s : Store) : Option Store :=
  if s.bytes ≤ limit then some s else none

end Store

/-- Counts what it takes to build a part of an automaton. There is no answer once the limit is
passed. -/
abbrev Building := StateT Store Option

namespace Building

/-- A new state with so many transitions in a list; the answer is its number. -/
def addState (transitions : Nat) : Building Nat := do
  let s ← get
  let new ← StateT.lift
    (Store.checked ⟨s.states + 1, s.listBytes + transitionBytes * transitions⟩)
  set new
  return s.states

def addPlain : Building Unit := do
  let _ ← addState 0

/-- Leads on from a state, which takes a branch if the state is one that branches. -/
def leadOn (branching : Bool) : Building Unit := do
  if branching then
    let s ← get
    set (← StateT.lift (Store.checked { s with listBytes := s.listBytes + branchBytes }))

end Building

end Conform.Pattern
