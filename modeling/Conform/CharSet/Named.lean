import Conform.CharSet.Basic

namespace Conform

/-- A set of characters with its names in plain form. -/
abbrev NamedSet := List String × CharSet

/-- The first set that has a name. -/
def NamedSet.find? (sets : List NamedSet) (name : String) : Option CharSet :=
  (sets.find? fun s => s.1.contains name).map Prod.snd

end Conform
