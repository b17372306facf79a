import Conform.Family.Json
import Conform.World

/-!
The families of types that a registry starts with, under identifiers such as `params.integer`,
`optional.params.integer` and `maybe.params.integer`.
-/

namespace Conform

/-- Which families are wanted, and which variants of them. -/
structure FamilyOptions where
  nominal : Bool := true
  strict : Bool := true
  coercible : Bool := true
  params : Bool := true
  json : Bool := true
  optional : Bool := true
  maybe : Bool := true
  deriving DecidableEq, Repr

namespace FamilyOptions

def minimal : FamilyOptions :=
  { coercible := false, params := false, json := false, optional := false, maybe := false }

/-- Turns families or variants of one name on or off. -/
def set? (options : FamilyOptions) (name : String) (on : Bool) : Option FamilyOptions :=
  match name with
  | "nominal" => some { options with nominal := on }
  | "strict" => some { options with strict := on }
  | "coercible" => some { options with coercible := on }
  | "params" => some { options with params := on }
  | "json" => some { options with json := on }
  | "optional" => some { options with optional := on }
  | "maybe" => some { options with maybe := on }
  | _ => none

def flags (options : FamilyOptions) : List Bool :=
  [options.nominal, options.strict, options.coercible, options.params, options.json,
   options.optional, options.maybe]

end FamilyOptions

/-- The conversion to a class as a function with a handle. -/
def conversionFunc (family : String) (p : Primitive) (call : Value → Result Value) : Func :=
  ⟨family ++ ".to_" ++ p.name, call⟩

def converting : List (String × Conversions) :=
  [("coercible", Coercible.conversions), ("params", Params.conversions),
   ("json", Json.conversions)]

def standardFunctions : List Func :=
  converting.flatMap fun (family, table) =>
    table.map fun (p, call) => conversionFunc family p call

/-- Types for some classes under one prefix. -/
structure Family where
  label : String
  types : List (Primitive × Ty)

namespace Family

/-- The type that converts to a class, by the function that has the handle of the conversion. -/
def convertedType (label : String) (p : Primitive) (call : Value → Result Value) :
    StateM FuncTable (Primitive × Ty) := do
  return (p, .converted (.nominal p {}) [← FuncTable.fetch (conversionFunc label p call)])

/-- Types that convert to some classes, and class checks for others. -/
def converted (label : String) (table : Conversions) (checked : List Primitive) :
    StateM FuncTable Family := do
  let types ← table.mapM fun (p, call) => convertedType label p call
  return ⟨label, types ++ checked.map fun p => (p, Ty.strict p)⟩

def strict : Family :=
  ⟨"strict", (Primitive.all.filter (· ≠ .any)).map fun p => (p, Ty.strict p)⟩

def nilType (f : Family) : Ty :=
  (f.types.lookup .nil).getD (Ty.strict .nil)

/-- The types of a family and their variants, by identifier. -/
def entries (options : FamilyOptions) (f : Family) : List (String × Ty) :=
  let present := f.types.filter fun t => t.1 ≠ .nil
  let identifier (variant : String) (p : Primitive) := variant ++ f.label ++ "." ++ p.name
  f.types.map (fun (p, t) => (identifier "" p, t)) ++
    (if options.optional then
      present.map fun (p, t) => (identifier "optional." p, .sum f.nilType t {})
    else []) ++
    (if options.maybe then present.map fun (p, t) => (identifier "maybe." p, t.toMaybe) else [])

end Family

namespace FamilyOptions

/-- The families that convert which are wanted: label, conversions, and classes that are checked. -/
def wanted (options : FamilyOptions) : List (String × Conversions × List Primitive) :=
  (if options.coercible then [("coercible", Coercible.conversions, [])] else []) ++
    (if options.params then [("params", Params.conversions, [])] else []) ++
    (if options.json then [("json", Json.conversions, Json.native)] else [])

def families (options : FamilyOptions) : StateM FuncTable (List Family) := do
  let converting ← options.wanted.mapM fun (label, table, checked) =>
    Family.converted label table checked
  return (if options.strict then [Family.strict] else []) ++ converting

def checks (options : FamilyOptions) : List (String × Ty) :=
  (if options.nominal then
    ("any", .nominal .any {}) ::
      Primitive.all.map fun p => ("nominal." ++ p.name, .nominal p {})
  else []) ++
    (if options.strict then Family.strict.types.map fun (p, t) => (p.name, t) else [])

end FamilyOptions

namespace Registry

/-- Adds types in order up to the first whose identifier is taken. -/
def registerAll (r : Registry) : List (String × Ty) → Option Error × Registry
  | [] => (none, r)
  | (identifier, ty) :: rest =>
    match r.register identifier ty with
    | .ok r => r.registerAll rest
    | .error e => (some e, r)

/-- Adds the families that are wanted. Their conversions get handles unless an identifier outside of
all families is taken. -/
def addFamilies (r : Registry) (options : FamilyOptions) (functions : FuncTable) :
    (Option Error × Registry) × FuncTable :=
  match r.registerAll options.checks with
  | (some e, r) => ((some e, r), functions)
  | (none, r) =>
    let (families, functions) := options.families.run functions
    (r.registerAll (families.flatMap (Family.entries options)), functions)

end Registry

namespace World

def createStandard (w : World) (functions : FuncTable) : (Registry × World) × FuncTable :=
  let (r, w) := w.create Standard.predicates
  let ((_, r), functions) := r.addFamilies {} functions
  ((r, w.update r), functions)

end World

end Conform
