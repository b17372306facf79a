import Conform.Ast.Basic
import Conform.Wire.Rule

namespace Conform

def Primitive.wireName : Primitive → String
  | .any => "any"
  | .nil => "nil"
  | .bool => "bool"
  | .int => "int"
  | .float => "float"
  | .string => "string"
  | .symbol => "symbol"
  | .date => "date"
  | .dateTime => "date_time"
  | .array => "array"
  | .hash => "hash"

def Fallback.tokens : Fallback String → List Wire.Token
  | .literal v => Wire.tagged "literal" v.tokens
  | .callable handle => Wire.tagged "callable" [.text handle]

def KeyTransform.tokens : KeyTransform String → List Wire.Token
  | .identity => [.text "identity"]
  | .symbolize => [.text "symbolize"]
  | .stringify => [.text "stringify"]
  | .custom handle => Wire.tagged "custom" [.text handle]

namespace Wire

/-- Metadata as the last field of a record, left out when empty. -/
def infoField (info : Metadata) : List Token :=
  if info.isEmpty then [] else .text "meta" :: info.tokens

/-- So many fields, and metadata if there are any. -/
def payloadHead (fields : Nat) (info : Metadata) : Token :=
  .map (if info.isEmpty then fields else fields + 1)

/-- A node of a written type: its kind and its fields. -/
def node (kind : String) (payload : List Token) : List Token :=
  .map 2 :: .text "tag" :: .text kind :: .text "payload" :: payload

end Wire

mutual

def Ast.tokens : Ast → List Wire.Token
  | .nominal p info =>
    Wire.node "nominal"
      (Wire.payloadHead 1 info :: .text "primitive" :: .text p.wireName :: Wire.infoField info)
  | .any info => Wire.node "any" (Wire.payloadHead 0 info :: Wire.infoField info)
  | .constrained type rule =>
    Wire.node "constrained"
      (.map 2 :: .text "type" :: type.tokens ++ .text "rule" :: rule.tokens)
  | .converted type functions =>
    Wire.node "constructor"
      (.map 2 :: .text "type" :: type.tokens ++
        .text "functions" :: .array functions.length :: functions.map .text)
  | .sum left right info =>
    Wire.node "sum"
      (Wire.payloadHead 2 info :: .text "left" :: left.tokens ++ .text "right" :: right.tokens ++
        Wire.infoField info)
  | .defaulted type value =>
    Wire.node "default" (.map 2 :: .text "type" :: type.tokens ++ .text "value" :: value.tokens)
  | .enum type values =>
    Wire.node "enum"
      (.map 2 :: .text "type" :: type.tokens ++
        .text "values" :: .array values.length :: Value.itemTokens values)
  | .array member info =>
    Wire.node "array"
      (Wire.payloadHead 1 info :: .text "member" :: member.tokens ++ Wire.infoField info)
  | .map key value info =>
    Wire.node "map"
      (Wire.payloadHead 2 info :: .text "key" :: key.tokens ++ .text "value" :: value.tokens ++
        Wire.infoField info)
  | .schema s =>
    Wire.node "schema"
      (Wire.payloadHead 4 s.info :: .text "keys" :: .array s.keys.length :: keyTokens s.keys ++
        .text "strict" :: .bool s.strict ::
        .text "always_resolve_defaults" :: .bool s.alwaysDefaults ::
        .text "transform" :: s.transform.tokens ++ Wire.infoField s.info)
  | .safe type => Wire.node "safe" (.map 1 :: .text "type" :: type.tokens)
  | .lax type => Wire.node "lax" (.map 1 :: .text "type" :: type.tokens)
  | .maybe type => Wire.node "maybe" (.map 1 :: .text "type" :: type.tokens)
  | .named identifier info =>
    Wire.node "named"
      (Wire.payloadHead 1 info :: .text "identifier" :: .text identifier :: Wire.infoField info)

def keyTokens : List (Key Ast) → List Wire.Token
  | [] => []
  | k :: ks =>
    .map 3 :: .text "name" :: k.name.tokens ++ .text "required" :: .bool k.required ::
      .text "type" :: k.type.tokens ++ keyTokens ks

end

namespace Wire

def primitive (r : Reading) : Decoder Primitive :=
  variant r (Primitive.all.map fun p => (p.wireName, .unit p))

def fallback (r : Reading) : Decoder (Fallback String) :=
  variant r [("literal", .data ((value r).map .literal)), ("callable", .data (text.map .callable))]

def transform (r : Reading) : Decoder (KeyTransform String) :=
  variant r
    [("identity", .unit .identity), ("symbolize", .unit .symbolize),
     ("stringify", .unit .stringify), ("custom", .data (text.map .custom))]

/-- The fields of a key, as far as known. -/
structure KeyParts where
  name : Option Value := none
  required : Option Bool := none
  type : Option Ast := none

def keyFields (type : Reading → Decoder Ast) (r : Reading) : List (Field KeyParts) :=
  [("name", fun known => (value r).map fun name => { known with name := some name }),
   ("required", fun known => bool.map fun required => { known with required := some required }),
   ("type", fun known => (type r).map fun type => { known with type := some type })]

/-- A key of a schema, given how to decode its type. -/
def key (type : Reading → Decoder Ast) (r : Reading) : Decoder (Key Ast) := fun ts => do
  let (known, ts) ← record r (keyFields type) {} ts
  return (⟨← known.name, ← known.type, ← known.required⟩, ts)

inductive NodeKind where
  | nominal | any | constrained | converted | sum | defaulted | enum | array | map | schema | safe
  | lax | maybe | named
  deriving DecidableEq, Repr

def nodeKinds : List (String × Variant NodeKind) :=
  [("nominal", .unit .nominal), ("any", .unit .any), ("constrained", .unit .constrained),
   ("constructor", .unit .converted), ("sum", .unit .sum), ("default", .unit .defaulted),
   ("enum", .unit .enum), ("array", .unit .array), ("map", .unit .map), ("schema", .unit .schema),
   ("safe", .unit .safe), ("lax", .unit .lax), ("maybe", .unit .maybe), ("named", .unit .named)]

/-- The fields of a node, as far as known. The first of its types is the type it is about, and the
second the right one of a sum or that of the values of a map. -/
structure NodeParts where
  primitive : Option Primitive := none
  first : Option Ast := none
  second : Option Ast := none
  rule : Option Rule := none
  functions : Option (List String) := none
  fallback : Option (Fallback String) := none
  values : Option (List Value) := none
  keys : Option (List (Key Ast)) := none
  strict : Option Bool := none
  alwaysDefaults : Bool := false
  transform : KeyTransform String := .identity
  identifier : Option String := none
  info : Metadata := {}

namespace NodeKind

def fields (ast : Reading → Decoder Ast) (r : Reading) : NodeKind → List (Field NodeParts)
  | nominal =>
    [("primitive", fun known =>
       (Wire.primitive r).map fun p => { known with primitive := some p }),
     info]
  | any => [info]
  | constrained =>
    [first "type",
     ("rule", fun known => (Wire.rule r).map fun rule => { known with rule := some rule })]
  | converted =>
    [first "type",
     ("functions", fun known =>
       (items r fun _ => text).map fun names => { known with functions := some names })]
  | sum => [first "left", second "right", info]
  | defaulted =>
    [first "type",
     ("value", fun known =>
       (Wire.fallback r).map fun value => { known with fallback := some value })]
  | enum =>
    [first "type",
     ("values", fun known =>
       (items r Wire.value).map fun values => { known with values := some values })]
  | array => [first "member", info]
  | map => [first "key", second "value", info]
  | schema =>
    [("keys", fun known =>
       (items r (Wire.key ast)).map fun keys => { known with keys := some keys }),
     ("strict", fun known => Wire.bool.map fun strict => { known with strict := some strict }),
     ("always_resolve_defaults", fun known =>
       Wire.bool.map fun alwaysDefaults => { known with alwaysDefaults }),
     ("transform", fun known =>
       (Wire.transform r).map fun transform => { known with transform }),
     info]
  | safe | lax | maybe => [first "type"]
  | named =>
    [("identifier", fun known => text.map fun name => { known with identifier := some name }),
     info]
where
  first (name : String) : Field NodeParts :=
    (name, fun known => (ast r).map fun a => { known with first := some a })
  second (name : String) : Field NodeParts :=
    (name, fun known => (ast r).map fun a => { known with second := some a })
  info : Field NodeParts :=
    ("meta", fun known => (metadata r).map fun info => { known with info })

/-- The node of its fields, if none is missing. -/
def build (known : NodeParts) : NodeKind → Option Ast
  | nominal => return .nominal (← known.primitive) known.info
  | any => return .any known.info
  | constrained => return .constrained (← known.first) (← known.rule)
  | converted => return .converted (← known.first) (← known.functions)
  | sum => return .sum (← known.first) (← known.second) known.info
  | defaulted => return .defaulted (← known.first) (← known.fallback)
  | enum => return .enum (← known.first) (← known.values)
  | array => return .array (← known.first) known.info
  | map => return .map (← known.first) (← known.second) known.info
  | schema =>
    return .schema
      { keys := ← known.keys
        strict := ← known.strict
        alwaysDefaults := known.alwaysDefaults
        transform := known.transform
        info := known.info }
  | safe => return .safe (← known.first)
  | lax => return .lax (← known.first)
  | maybe => return .maybe (← known.first)
  | named => return .named (← known.identifier) known.info

def payload (ast : Reading → Decoder Ast) (r : Reading) (kind : NodeKind) : Decoder Ast :=
  fun ts => do
    let (known, ts) ← mapRecord r (fun r => kind.fields ast r) {} ts
    return (← kind.build known, ts)

end NodeKind

def nodeFields : List String :=
  ["tag", "payload"]

/-- Passes over the rest of a map, which holds none of the two fields again. -/
def finish (r : Reading) (left : Nat) : Decoder Unit := fun ts => do
  match ← seek r nodeFields left ts with
  | (none, ts) => return ((), ts)
  | (some _, _) => none

/-- A node as a map of so many entries. What comes before its kind is held back. -/
def nodeOfMap (ast : Reading → Decoder Ast) (r : Reading) (size : Nat) : Decoder Ast := fun ts => do
  match ← seek r nodeFields size ts with
  | (some (0, left), ts) =>
    let (kind, ts) ← variant r nodeKinds ts
    match ← seek r nodeFields left ts with
    | (some (1, left), ts) =>
      let (node, ts) ← kind.payload ast r ts
      let ((), ts) ← finish r left ts
      return (node, ts)
    | _ => none
  | (some (1, left), content) =>
    let ((), ts) ← skip r.levels content
    match ← seek r nodeFields left ts with
    | (some (0, left), ts) =>
      let (kind, ts) ← variant r nodeKinds ts
      let (node, _) ← kind.payload ast .held content
      let ((), ts) ← finish r left ts
      return (node, ts)
    | _ => none
  | _ => none

/-- A node as a map of its two fields or as an array of them, given how to decode types. -/
def nodeOf (ast : Reading → Decoder Ast) (r : Reading) : Decoder Ast
  | .map size :: ts => do nodeOfMap ast (← r.enter) size ts
  | .array 2 :: ts => do
    let r ← r.enter
    let (kind, ts) ← variant r nodeKinds ts
    kind.payload ast r ts
  | _ => none

/-- A written type whose parts are nested at most `fuel` deep. -/
def astWithin : Nat → Reading → Decoder Ast
  | 0, _, _ => none
  | fuel + 1, r, ts => nodeOf (astWithin fuel) r ts

/-- A written type; each of its parts has fewer tokens. -/
def ast (r : Reading) : Decoder Ast := fun ts =>
  astWithin ts.length r ts

end Wire

namespace Ast

def toBytes (ast : Ast) : List UInt8 :=
  Wire.bytes ast.tokens

def ofBytes? : List UInt8 → Option Ast :=
  Wire.decode Wire.ast

end Ast

end Conform
