import Conform.Ast.Basic
import Conform.Registry.Basic

namespace Conform.Ast

/-- Are all predicates of a rule known to a vocabulary, with their first arguments? -/
def checkRule (set : PredicateSet) (rule : Rule) : Result Unit :=
  rule.predicates.forM fun p => do
    let _ ← set.compile p.name (p.args.head?.getD (.bool true))

def compileFallback (table : FuncTable) : Fallback String → Result (Fallback Func)
  | .literal v => .ok (.literal v)
  | .callable handle => return .callable (← table.get handle)

def compileTransform (table : FuncTable) : KeyTransform String → Result (KeyTransform Func)
  | .identity => .ok .identity
  | .symbolize => .ok .symbolize
  | .stringify => .ok .stringify
  | .custom handle => return .custom (← table.get handle)

section

variable {m : Type → Type} [Monad m] [MonadExcept Error m]

mutual

/-- The type that a written type stands for, with the functions of a table and in a registry, whose
vocabulary its rules have and whose entries its names refer to. What is done about the type of each
key, once it is known, is given. -/
def compileWith (declare : Ty → m Unit) (table : FuncTable) (r : Registry) : Ast → m Ty
  | nominal p info => return .nominal p info
  | any info => return .nominal .any info
  | constrained type rule => do
    MonadExcept.ofExcept (checkRule r.predicates rule)
    return .constrained (← type.compileWith declare table r) rule r.predicates
  | converted type handles => do
    if handles.isEmpty then throw (.of (.invalidAst "constructor without functions"))
    else
      let functions ← MonadExcept.ofExcept (handles.mapM table.get)
      return .converted (← type.compileWith declare table r) functions
  | sum left right info => do
    let left ← left.compileWith declare table r
    let right ← right.compileWith declare table r
    return .sum left right info
  | defaulted type value => do
    let value ← MonadExcept.ofExcept (compileFallback table value)
    return .defaulted (← type.compileWith declare table r) value
  | enum type values => do
    if values.isEmpty then throw (.of (.invalidAst "enum without values"))
    else return .enum (← type.compileWith declare table r) values
  | array member info => return .array (← member.compileWith declare table r) info
  | map key value info => do
    let key ← key.compileWith declare table r
    let value ← value.compileWith declare table r
    return .map key value info
  | schema s => do
    let keys ← compileKeysWith declare table r s.keys
    let transform ← MonadExcept.ofExcept (compileTransform table s.transform)
    return .schema
      { (Schema.ofKeys keys : Schema Ty Func) with
        strict := s.strict, alwaysDefaults := s.alwaysDefaults, transform, info := s.info }
  | safe type => return .safe (← type.compileWith declare table r)
  | lax type => return .lax (← type.compileWith declare table r).strip
  | maybe type => return .maybe (← type.compileWith declare table r)
  | named identifier info => return .reference { registry := r.number, identifier, info }

def compileKeysWith (declare : Ty → m Unit) (table : FuncTable) (r : Registry) :
    List (Key Ast) → m (List (Key Ty))
  | [] => return []
  | k :: ks => do
    let type ← k.type.compileWith declare table r
    declare type
    let keys ← compileKeysWith declare table r ks
    return ⟨k.name, type, k.required⟩ :: keys

end

end

/-- The type that a written type stands for. -/
def compile (table : FuncTable) (r : Registry) (a : Ast) : Result Ty :=
  a.compileWith (fun _ => .ok ()) table r

end Conform.Ast
