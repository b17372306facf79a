import Conform.Pattern.Reader
import Conform.Rule.Basic
import Conform.Value.Order

namespace Conform.Standard

/-- The standard predicates and how many arguments each takes. -/
def arities : List (String × Nat) :=
  [("type?", 1), ("nil?", 0), ("filled?", 0), ("empty?", 0), ("eql?", 1), ("not_eql?", 1),
   ("included_in?", 1), ("excluded_from?", 1), ("gt?", 1), ("gteq?", 1), ("lt?", 1), ("lteq?", 1),
   ("size?", 1), ("min_size?", 1), ("max_size?", 1), ("format?", 1), ("odd?", 0), ("even?", 0),
   ("true?", 0), ("false?", 0), ("bool?", 0), ("int?", 0), ("str?", 0)]

def arity? (name : String) : Option Nat :=
  arities.lookup name

def predicateName (option : String) : String :=
  if option.toList.getLast? = some '?' then option else option ++ "?"

/-- What is said of an argument that is not as expected. -/
def refusal (name expected : String) (arg : Value) : String :=
  name ++ " expects " ++ expected ++ ", got " ++ arg.text

/-- What is wrong with the argument of a predicate, given which texts are patterns. -/
def refusal? (valid : String → Bool) (name : String) (arg : Value) : Option String :=
  if name = "type?" then
    if (arg.string?.bind Primitive.ofName?).isSome then none
    else some (refusal name "a primitive name" arg)
  else if name = "format?" then
    if arg.string?.any valid then none else some (refusal name "a valid pattern" arg)
  else if name = "included_in?" || name = "excluded_from?" then
    if arg.array?.isSome then none else some (refusal name "an array" arg)
  else if name = "size?" || name = "min_size?" || name = "max_size?" then
    if arg.int?.any fun n => 0 ≤ n.toInt then none
    else some (refusal name "a non-negative integer" arg)
  else none

/-- The rule of an option. A predicate without arguments is asked for with `true`. -/
def compileWith (valid : String → Bool) (option : String) (arg : Value) : Result Rule :=
  let name := predicateName option
  match arity? name with
  | none => .error (.of (.unknownPredicate name))
  | some 0 =>
    if arg == .bool true then .ok (.predicate ⟨name, []⟩)
    else .error (.invalidArgument (name ++ " takes no argument, pass true to enable it"))
  | some _ =>
    match refusal? valid name arg with
    | some message => .error (.invalidArgument message)
    | none => .ok (.predicate ⟨name, [arg]⟩)

def ordered (input bound : Value) (pass : Ordering → Bool) : Bool :=
  (input.compare? bound).any pass

def sized (input : Value) (pass : Int → Bool) : Bool :=
  input.size?.any fun n => pass n

/-- The meaning of each predicate, given how to judge formats. -/
def holdsWith (format : String → String → Bool) (p : Predicate) (input : Value) : Bool :=
  match p.name, p.args.head? with
  | "type?", some name => ((name.string?).bind Primitive.ofName?).any fun c => c.admits input
  | "nil?", _ => input.isNil
  | "filled?", _ => !input.isAbsent && input.size?.all (0 < ·)
  | "empty?", _ => input.isNil || input.size? = some 0
  | "eql?", some expected => input == expected
  | "not_eql?", some expected => !(input == expected)
  | "included_in?", some (.array items) => items.any (· == input)
  | "excluded_from?", some (.array items) => !items.any (· == input)
  | "gt?", some bound => ordered input bound (·.isGT)
  | "gteq?", some bound => ordered input bound (·.isGE)
  | "lt?", some bound => ordered input bound (·.isLT)
  | "lteq?", some bound => ordered input bound (·.isLE)
  | "size?", some (.int n) => sized input (· = n.toInt)
  | "min_size?", some (.int n) => sized input (n.toInt ≤ ·)
  | "max_size?", some (.int n) => sized input (· ≤ n.toInt)
  | "format?", some (.string source) => input.string?.any (format source)
  | "odd?", _ => input.int?.any fun n => n.toInt % 2 ≠ 0
  | "even?", _ => input.int?.any fun n => n.toInt % 2 = 0
  | "true?", _ => input == .bool true
  | "false?", _ => input == .bool false
  | "bool?", _ => input.bool?.isSome
  | "int?", _ => input.int?.isSome
  | "str?", _ => input.string?.isSome
  | _, _ => false

/-- How patterns are read, and texts matched with them. -/
structure Formats (π : Type) where
  read : String → Option π
  isMatch : π → String → Bool

namespace Formats

variable {π : Type}

def valid (formats : Formats π) (source : String) : Bool :=
  (formats.read source).isSome

/-- Is a text of this pattern? A text that is no pattern matches nothing. -/
def formatted (formats : Formats π) (source text : String) : Bool :=
  (formats.read source).any fun p => formats.isMatch p text

/-- The vocabulary over some kind of patterns. -/
def vocabulary (formats : Formats π) : PredicateSet where
  name := "standard"
  compile := compileWith formats.valid
  holds := holdsWith formats.formatted

def standard : Formats Pattern :=
  ⟨Pattern.ofString?, Pattern.isMatch⟩

end Formats

def predicates : PredicateSet :=
  Formats.standard.vocabulary

def compile : String → Value → Result Rule :=
  compileWith Formats.standard.valid

def holds : Predicate → Value → Bool :=
  holdsWith Formats.standard.formatted

end Conform.Standard
