import Conform.Error

namespace Conform

/-- A conversion with a handle, under which written types refer to it. -/
structure Func where
  handle : String
  call : Value → Result Value

namespace Func

/-- Functions are told apart by their handles only. -/
instance : BEq Func := ⟨fun f g => f.handle == g.handle⟩

def text (f : Func) : String :=
  "Func(" ++ f.handle ++ ")"

end Func

/-- The functions known by their handles. -/
structure FuncTable where
  functions : List Func := []
  /-- How many functions have got a handle of their own making. -/
  anonymous : Nat := 0

namespace FuncTable

def find? (table : FuncTable) (handle : String) : Option Func :=
  table.functions.find? fun f => f.handle = handle

def get (table : FuncTable) (handle : String) : Result Func :=
  match table.find? handle with
  | some f => .ok f
  | none => .error (.of (.unknownFunction handle))

def contains (table : FuncTable) (handle : String) : Bool :=
  (table.find? handle).isSome

def register (table : FuncTable) (f : Func) : Result (Func × FuncTable) :=
  if table.contains f.handle then
    .error (.invalidArgument ("function handle already registered: " ++ f.handle))
  else .ok (f, { table with functions := f :: table.functions })

/-- The function of a handle; the given one is added if there is none. -/
def fetchOrRegister (table : FuncTable) (f : Func) : Func × FuncTable :=
  match table.find? f.handle with
  | some known => (known, table)
  | none => (f, { table with functions := f :: table.functions })

def fetch (f : Func) : StateM FuncTable Func :=
  modifyGet fun table => table.fetchOrRegister f

/-- Adds a function under the next handle of the table's own making, whatever is there. -/
def add (table : FuncTable) (call : Value → Result Value) : Func × FuncTable :=
  let f : Func := ⟨"fn#" ++ toString table.anonymous, call⟩
  (f, ⟨f :: table.functions.filter (fun g => g.handle ≠ f.handle), table.anonymous + 1⟩)

end FuncTable

end Conform
