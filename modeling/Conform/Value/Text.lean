import Conform.Binary64.Text
import Conform.Text.Quoted
import Conform.Value.Basic

namespace Conform

def sortTexts (texts : List String) : List String :=
  texts.mergeSort fun a b => decide (a ≤ b)

namespace Value

mutual

/-- The text of a value. The texts of the entries of a hash are put in order by `arrange`. -/
def render (arrange : List String → List String) : Value → String
  | undefined => "undefined"
  | nil => "nil"
  | bool b => if b then "true" else "false"
  | int n => toString n.toInt
  | float x => x.text
  | string s => Text.quoted s
  | symbol s => ":" ++ s
  | date d => d.text
  | dateTime m => m.text
  | array items => "[" ++ ", ".intercalate (renderItems arrange items) ++ "]"
  | hash entries =>
    "\x7b" ++ ", ".intercalate (arrange (renderEntries arrange entries)) ++ "\x7d"

def renderItems (arrange : List String → List String) : List Value → List String
  | [] => []
  | item :: items => render arrange item :: renderItems arrange items

def renderEntries (arrange : List String → List String) : List (Value × Value) → List String
  | [] => []
  | (key, value) :: entries =>
    (render arrange key ++ " => " ++ render arrange value) :: renderEntries arrange entries

end

/-- The text that entries are sorted by: hashes stand in it as they iterate, so two texts of equal
hashes may differ. -/
def debug (v : Value) : String :=
  v.render id

/-- The text in messages, where the entries of a hash are sorted. -/
def text (v : Value) : String :=
  v.render sortTexts

/-- A value as it stands in running text: strings and symbols without any mark. -/
def plain : Value → String
  | string s | symbol s => s
  | v => v.text

end Value

namespace Entries

/-- The entries in braces, sorted by their texts, with a colon after each key. -/
def text (es : List (Value × Value)) : String :=
  "\x7b" ++ ", ".intercalate (sortTexts (es.map fun e => e.1.text ++ ": " ++ e.2.text)) ++ "\x7d"

end Entries

end Conform
