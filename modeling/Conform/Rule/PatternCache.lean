import Conform.Rule.Standard

namespace Conform.Standard

/-- The patterns that were asked for, by their texts. -/
structure PatternCache (π : Type) where
  patterns : List (String × π) := []

namespace PatternCache

variable {π : Type}

def size (cache : PatternCache π) : Nat :=
  cache.patterns.length

/-- A pattern from the cache, or a new one, which the cache then holds; what is no pattern is not
kept. -/
def fetch (formats : Formats π) (cache : PatternCache π) (source : String) :
    Option π × PatternCache π :=
  match cache.patterns.lookup source with
  | some p => (some p, cache)
  | none =>
    match formats.read source with
    | some p => (some p, ⟨(source, p) :: cache.patterns⟩)
    | none => (none, cache)

/-- Judges a predicate with the patterns of the cache. Only a format that meets a string asks for
one. -/
def judge (formats : Formats π) (cache : PatternCache π) (p : Predicate) (input : Value) :
    Bool × PatternCache π :=
  match p.name, p.args.head?, input with
  | "format?", some (.string source), .string text =>
    let (pattern, cache) := cache.fetch formats source
    (pattern.any fun q => formats.isMatch q text, cache)
  | _, _, _ => (formats.vocabulary.holds p input, cache)

def judgeAll (formats : Formats π) (p : Predicate) :
    List Value → PatternCache π → List Bool × PatternCache π
  | [], cache => ([], cache)
  | v :: vs, cache =>
    let (verdict, cache) := cache.judge formats p v
    let (verdicts, cache) := judgeAll formats p vs cache
    (verdict :: verdicts, cache)

def text (cache : PatternCache π) : String :=
  "StandardPredicates \x7b cached_patterns: " ++ toString cache.size ++ " \x7d"

end PatternCache

end Conform.Standard
