import Conform.Calendar.Reader
import Conform.Metadata
import Conform.Wire.Decoder

namespace Conform

namespace Wire

def tagged (name : String) (data : List Token) : List Token :=
  .map 1 :: .text name :: data

end Wire

namespace Value

mutual

/-- The tokens of a value: the name of its class and what it consists of. -/
def tokens : Value → List Wire.Token
  | undefined => [.text "undefined"]
  | nil => [.text "nil"]
  | bool b => Wire.tagged "bool" [.bool b]
  | int n => Wire.tagged "int" [.ofInt n.toInt]
  | float x => Wire.tagged "float" [.float x]
  | string s => Wire.tagged "string" [.text s]
  | symbol s => Wire.tagged "symbol" [.text s]
  | date d => Wire.tagged "date" [.text d.text]
  | dateTime m => Wire.tagged "date_time" [.text m.shortText]
  | array items => Wire.tagged "array" (.array items.length :: itemTokens items)
  | hash entries => Wire.tagged "hash" (.array entries.length :: entryTokens entries)

def itemTokens : List Value → List Wire.Token
  | [] => []
  | item :: items => tokens item ++ itemTokens items

def entryTokens : List (Value × Value) → List Wire.Token
  | [] => []
  | (key, value) :: entries => .array 2 :: tokens key ++ tokens value ++ entryTokens entries

end

end Value

/-- The tokens of metadata: a map of names to values. -/
def Metadata.tokens (m : Metadata) : List Wire.Token :=
  .map m.size :: m.entries.flatMap fun e => .text e.1 :: e.2.tokens

namespace Wire

/-- The values by the names of their classes, given how to decode what is inside. -/
def valueVariants (r : Reading) (value : Reading → Decoder Value) :
    List (String × Variant Value) :=
  [("undefined", .unit .undefined),
   ("nil", .unit .nil),
   ("bool", .data (bool.map .bool)),
   ("int", .data (int.map .int)),
   ("float", .data (float.map .float)),
   ("string", .data (text.map .string)),
   ("symbol", .data (text.map .symbol)),
   ("date", .data ((parsed Calendar.wireDate?).map .date)),
   ("date_time", .data ((parsed Calendar.wireMoment?).map .dateTime)),
   ("array", .data ((items r value).map .array)),
   ("hash", .data ((items r fun r => pair r value value).map fun es => .hash (Entries.ofPairs es)))]

/-- A value whose parts are nested at most `fuel` deep. -/
def valueWithin : Nat → Reading → Decoder Value
  | 0, _, _ => none
  | fuel + 1, r, ts => variant r (valueVariants r (valueWithin fuel)) ts

/-- A value; each of its parts has fewer tokens. -/
def value (r : Reading) : Decoder Value := fun ts =>
  valueWithin ts.length r ts

def note (r : Reading) : Decoder (String × Value) := fun ts => do
  let (name, ts) ← text ts
  let (v, ts) ← value r ts
  return ((name, v), ts)

/-- Of two notes with one name, the later counts. -/
def metadata (r : Reading) : Decoder Metadata
  | .map size :: ts => do
    (Decoder.times (note (← r.enter)) size).map .ofList ts
  | _ => none

/-- What the bytes hold from their start; what follows is not looked at. -/
def decode {α : Type} (d : Reading → Decoder α) (bytes : List UInt8) : Option α :=
  (d (.direct maxLevels) (tokens bytes)).map Prod.fst

end Wire

namespace Value

def toBytes (v : Value) : List UInt8 :=
  Wire.bytes v.tokens

def ofBytes? : List UInt8 → Option Value :=
  Wire.decode Wire.value

end Value

end Conform
