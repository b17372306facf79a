import Conform.Text.Quoted

/-!
What stands between double quotes. Each character can be read back from its text, which never starts
with a quote, so the text between the quotes tells where it ends.
-/

namespace Conform.Text

end Conform.Text
