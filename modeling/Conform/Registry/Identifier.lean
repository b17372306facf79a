import Conform.Unicode.Blank

namespace Conform.Identifier

/-- The parts of a text between the commas that stand in no angle brackets, without the blanks
around them. The characters read so far of the current part come last first. -/
def splitParams : Nat → List Char → List Char → List (List Char)
  | _, part, [] => [Unicode.trim part.reverse]
  | depth, part, c :: rest =>
    if c = ',' ∧ depth = 0 then Unicode.trim part.reverse :: splitParams 0 [] rest
    else
      let depth := if c = '<' then depth + 1 else if c = '>' then depth - 1 else depth
      splitParams depth (c :: part) rest

/-- An identifier with parameters: its base and the parameters, neither of them blank. -/
def params? (identifier : String) : Option (String × List String) :=
  let cs := identifier.toList
  let base := cs.takeWhile (· ≠ '<')
  match cs.drop base.length with
  | [] => none
  | _ :: body =>
    if body.getLast? = some '>' then
      let base := Unicode.trim base
      let inside := Unicode.trim body.dropLast
      if base.isEmpty || inside.isEmpty then none
      else some (String.ofList base, (splitParams 0 [] inside).map String.ofList)
    else none

end Conform.Identifier
