import Conform.Text.Hex
import Conform.Unicode.Invisible

namespace Conform.Text

/-- One character inside double quotes: a few have short names, those without a glyph are written by
code point, and all others stand for themselves. -/
def quoteChar (c : Char) : String :=
  match c with
  | '\x00' => "\\0"
  | '\t' => "\\t"
  | '\n' => "\\n"
  | '\r' => "\\r"
  | '"' => "\\\""
  | '\\' => "\\\\"
  | c => if Unicode.isInvisible c then "\\u\x7b" ++ hex c.toNat ++ "\x7d" else c.toString

/-- A text in double quotes. -/
def quoted (s : String) : String :=
  "\"" ++ String.join (s.toList.map quoteChar) ++ "\""

end Conform.Text
