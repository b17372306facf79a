import Conform.Ty.Basic

namespace Conform

namespace Fallback

def beq {φ : Type} [BEq φ] : Fallback φ → Fallback φ → Bool
  | literal a, literal b => a == b
  | callable f, callable g => f == g
  | _, _ => false

instance {φ : Type} [BEq φ] : BEq (Fallback φ) := ⟨beq⟩

def map {φ ψ : Type} (g : φ → ψ) : Fallback φ → Fallback ψ
  | literal v => literal v
  | callable f => callable (g f)

end Fallback

namespace KeyTransform

def beq {φ : Type} [BEq φ] : KeyTransform φ → KeyTransform φ → Bool
  | identity, identity => true
  | symbolize, symbolize => true
  | stringify, stringify => true
  | custom f, custom g => f == g
  | _, _ => false

instance {φ : Type} [BEq φ] : BEq (KeyTransform φ) := ⟨beq⟩

def map {φ ψ : Type} (g : φ → ψ) : KeyTransform φ → KeyTransform ψ
  | identity => identity
  | symbolize => symbolize
  | stringify => stringify
  | custom f => custom (g f)

end KeyTransform

mutual

/-- Equality of types: their metadata does not count, and neither do the vocabularies of their rules
nor the registries of their references. -/
def Ty.beq : Ty → Ty → Bool
  | .nominal p _, .nominal q _ => p == q
  | .constrained t r _, .constrained u s _ => t.beq u && r == s
  | .converted t fs, .converted u gs => t.beq u && fs == gs
  | .sum l r _, .sum l' r' _ => l.beq l' && r.beq r'
  | .defaulted t v, .defaulted u w => t.beq u && v == w
  | .enum t vs, .enum u ws => t.beq u && Value.beqItems vs ws
  | .array t _, .array u _ => t.beq u
  | .map k v _, .map k' v' _ => k.beq k' && v.beq v'
  | .schema s, .schema t =>
    keysBeq s.keys t.keys && s.strict == t.strict && s.alwaysDefaults == t.alwaysDefaults &&
      s.transform == t.transform
  | .safe t, .safe u => t.beq u
  | .lax t, .lax u => t.beq u
  | .maybe t, .maybe u => t.beq u
  | .reference r, .reference s => r.identifier == s.identifier
  | _, _ => false

def keysBeq : List (Key Ty) → List (Key Ty) → Bool
  | [], [] => true
  | k :: ks, l :: ls =>
    k.name == l.name && k.type.beq l.type && k.required == l.required && keysBeq ks ls
  | _, _ => false

end

instance : BEq Ty := ⟨Ty.beq⟩

end Conform
