import Conform.Ty.Equality
import Conform.Outcome

namespace Conform

/-- A type written as plain data: functions are given by their handles and references by their
identifiers. -/
inductive Ast where
  | nominal (p : Primitive) (info : Metadata)
  | any (info : Metadata)
  | constrained (type : Ast) (rule : Rule)
  | converted (type : Ast) (functions : List String)
  | sum (left right : Ast) (info : Metadata)
  | defaulted (type : Ast) (value : Fallback String)
  | enum (type : Ast) (values : List Value)
  | array (member : Ast) (info : Metadata)
  | map (key value : Ast) (info : Metadata)
  | schema (s : Schema Ast String)
  | safe (type : Ast)
  | lax (type : Ast)
  | maybe (type : Ast)
  | named (identifier : String) (info : Metadata)

instance : Inhabited Ast := ⟨.any {}⟩

namespace Ast

/-- The kind of a node. -/
def tag : Ast → String
  | nominal _ _ => "nominal"
  | any _ => "any"
  | constrained _ _ => "constrained"
  | converted _ _ => "constructor"
  | sum _ _ _ => "sum"
  | defaulted _ _ => "default"
  | enum _ _ => "enum"
  | array _ _ => "array"
  | map _ _ _ => "map"
  | schema _ => "schema"
  | safe _ => "safe"
  | lax _ => "lax"
  | maybe _ => "maybe"
  | named _ _ => "named"

mutual

/-- Equality of written types, metadata included. -/
def beq : Ast → Ast → Bool
  | nominal p m, nominal q n => p == q && m == n
  | any m, any n => m == n
  | constrained t r, constrained u s => t.beq u && r == s
  | converted t fs, converted u gs => t.beq u && fs == gs
  | sum l r m, sum l' r' n => l.beq l' && r.beq r' && m == n
  | defaulted t v, defaulted u w => t.beq u && v == w
  | enum t vs, enum u ws => t.beq u && Value.beqItems vs ws
  | array t m, array u n => t.beq u && m == n
  | map k v m, map k' v' n => k.beq k' && v.beq v' && m == n
  | schema s, schema t =>
    beqKeys s.keys t.keys && s.strict == t.strict && s.alwaysDefaults == t.alwaysDefaults &&
      s.transform == t.transform && s.info == t.info
  | safe t, safe u => t.beq u
  | lax t, lax u => t.beq u
  | maybe t, maybe u => t.beq u
  | named i m, named j n => i == j && m == n
  | _, _ => false

def beqKeys : List (Key Ast) → List (Key Ast) → Bool
  | [], [] => true
  | k :: ks, l :: ls =>
    k.name == l.name && k.type.beq l.type && k.required == l.required && beqKeys ks ls
  | _, _ => false

end

instance : BEq Ast := ⟨beq⟩

end Ast

mutual

/-- A type written down, with its metadata or without. -/
def Ty.toAst (keepInfo : Bool) : Ty → Ast
  | .nominal p info =>
    let info := if keepInfo then info else {}
    if p = .any then .any info else .nominal p info
  | .constrained inner rule _ => .constrained (inner.toAst keepInfo) rule
  | .converted inner functions =>
    .converted (inner.toAst keepInfo) (functions.map Func.handle)
  | .sum left right info =>
    .sum (left.toAst keepInfo) (right.toAst keepInfo) (if keepInfo then info else {})
  | .defaulted inner value => .defaulted (inner.toAst keepInfo) (value.map Func.handle)
  | .enum inner values => .enum (inner.toAst keepInfo) values
  | .array member info => .array (member.toAst keepInfo) (if keepInfo then info else {})
  | .map key value info =>
    .map (key.toAst keepInfo) (value.toAst keepInfo) (if keepInfo then info else {})
  | .schema s =>
    .schema
      { keys := keysToAst keepInfo s.keys
        strict := s.strict
        alwaysDefaults := s.alwaysDefaults
        transform := s.transform.map Func.handle
        info := if keepInfo then s.info else {} }
  | .safe inner => .safe (inner.toAst keepInfo)
  | .lax inner => .lax (inner.toAst keepInfo)
  | .maybe inner => .maybe (inner.toAst keepInfo)
  | .reference r => .named r.identifier (if keepInfo then r.info else {})

def keysToAst (keepInfo : Bool) : List (Key Ty) → List (Key Ast)
  | [] => []
  | k :: ks => ⟨k.name, k.type.toAst keepInfo, k.required⟩ :: keysToAst keepInfo ks

end

end Conform
