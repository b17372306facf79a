import Conform.Ast.Compile

namespace Conform

/-- The registries that still have an owner. -/
structure World where
  registries : List Registry := []
  /-- The number of the next registry. -/
  next : Nat := 0
  /-- How the hashes that evaluations build iterate. -/
  iteration : Iteration := .inserted

namespace World

def registry? (w : World) (number : Nat) : Option Registry :=
  w.registries.find? fun r => r.number = number

def update (w : World) (r : Registry) : World :=
  { w with registries := w.registries.map fun s => if s.number = r.number then r else s }

def create (w : World) (predicates : PredicateSet) : Registry × World :=
  let r : Registry := { number := w.next, predicates }
  (r, { w with registries := r :: w.registries, next := w.next + 1 })

/-- Gives a registry up; references to its entries lead nowhere from then on. -/
def drop (w : World) (number : Nat) : World :=
  { w with registries := w.registries.filter fun r => r.number ≠ number }

def dropped (identifier : String) : Error :=
  .internal ("registry holding " ++ identifier ++ " was dropped")

def get (w : World) (number : Nat) (identifier : String) : Result Ty × World :=
  match w.registry? number with
  | none => (.error (dropped identifier), w)
  | some r =>
    let (ty, r) := r.get identifier
    (ty, w.update r)

/-- What the entries of the registries are at present. -/
def scope (w : World) : Scope where
  find number identifier := .ok (w.get number identifier).1
  iteration := w.iteration

/-- What has been found out about some entries, and nothing else. -/
def partialScope (iteration : Iteration) (found : List ((Nat × String) × Result Ty)) : Scope where
  find number identifier :=
    match found.lookup (number, identifier) with
    | some ty => .ok ty
    | none => .error (.lookup number identifier)
  iteration := iteration

/-- Evaluates, looking up each entry when it is first needed, so that exactly those are kept. -/
def answer {α : Type} (run : Scope → Run α) :
    Nat → List ((Nat × String) × Result Ty) → World → Option α × World
  | 0, _, w => (none, w)
  | fuel + 1, found, w =>
    match run (partialScope w.iteration found) with
    | .ok a => (some a, w)
    | .error .depth => (none, w)
    | .error (.lookup number identifier) =>
      let (ty, w) := w.get number identifier
      answer run fuel (((number, identifier), ty) :: found) w

/-- Compiles a written type. Whether the type of a key may be left out is found out, though the key
says itself whether it is required; so entries that this depends on are kept, also when compiling
fails later. The result counts only if all of this has an end, which is told as well. -/
def compile (w : World) (table : FuncTable) (r : Registry) (a : Ast) (depth lookups : Nat) :
    Result Ty × World × Bool :=
  (a.compileWith declare table r).run (w, true)
where
  declare (type : Ty) : ExceptT Error (StateM (World × Bool)) Unit :=
    modify fun s =>
      let found := answer (fun scope => type.info scope depth) lookups [] s.1
      (found.2, s.2 && found.1.isSome)

/-- Converts a value by the type of an identifier; an error of the type names it. -/
def build (w : World) (number : Nat) (identifier : String) (input : Value) (depth lookups : Nat) :
    Option (Result Value) × World :=
  match w.get number identifier with
  | (.error e, w) => (some (.error e), w)
  | (.ok ty, w) =>
    let (result, w) := answer (fun scope => ty.coerce scope depth input) lookups [] w
    (result.map fun r => r.mapError (Error.inStruct identifier), w)

end World

end Conform
