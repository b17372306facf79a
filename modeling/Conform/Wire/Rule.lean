import Conform.Rule.Basic
import Conform.Wire.Value

namespace Conform

def Predicate.tokens (p : Predicate) : List Wire.Token :=
  .map 2 :: .text "name" :: .text p.name :: .text "args" :: .array p.args.length ::
    Value.itemTokens p.args

def Rule.tokens : Rule → List Wire.Token
  | predicate p => Wire.tagged "predicate" p.tokens
  | and l r => Wire.tagged "and" (.array 2 :: l.tokens ++ r.tokens)
  | or l r => Wire.tagged "or" (.array 2 :: l.tokens ++ r.tokens)

namespace Wire

/-- The fields of a predicate, as far as known. -/
structure PredicateParts where
  name : Option String := none
  args : Option (List Value) := none

def predicateFields (r : Reading) : List (Field PredicateParts) :=
  [("name", fun known => text.map fun name => { known with name := some name }),
   ("args", fun known => (items r value).map fun args => { known with args := some args })]

def predicate (r : Reading) : Decoder Predicate := fun ts => do
  let (known, ts) ← record r predicateFields {} ts
  return (⟨← known.name, ← known.args⟩, ts)

/-- The rules by kind, given how to decode what is inside. -/
def ruleVariants (r : Reading) (rule : Reading → Decoder Rule) : List (String × Variant Rule) :=
  [("predicate", .data ((predicate r).map .predicate)),
   ("and", .data ((pair r rule rule).map fun (left, right) => .and left right)),
   ("or", .data ((pair r rule rule).map fun (left, right) => .or left right))]

/-- A rule whose parts are nested at most `fuel` deep. -/
def ruleWithin : Nat → Reading → Decoder Rule
  | 0, _, _ => none
  | fuel + 1, r, ts => variant r (ruleVariants r (ruleWithin fuel)) ts

/-- A rule; each of its parts has fewer tokens. -/
def rule (r : Reading) : Decoder Rule := fun ts =>
  ruleWithin ts.length r ts

end Wire

namespace Rule

def toBytes (rule : Rule) : List UInt8 :=
  Wire.bytes rule.tokens

def ofBytes? : List UInt8 → Option Rule :=
  Wire.decode Wire.rule

end Rule

end Conform
