import Conform.Proofs.Binary64.Text
import Conform.Proofs.Calendar.Wire
import Conform.Proofs.Value.Equality
import Conform.Value.Text

/-!
The texts of values that are written without quotes and brackets. A text tells the class of such a
value, and within a class the value.
-/

namespace Conform

/-- A text is made of digits and of some other characters. -/
def DigitsOr (others cs : List Char) : Prop :=
  ∀ c ∈ cs, c.isDigit = true ∨ c ∈ others

namespace DigitsOr

variable {others more cs ds : List Char} {c : Char}

theorem of_digits (h : ∀ c ∈ cs, c.isDigit = true) : DigitsOr others cs :=
  fun c hc => Or.inl (h c hc)

theorem nil : DigitsOr others [] :=
  List.forall_mem_nil _

theorem cons (hc : c ∈ others) (h : DigitsOr others cs) : DigitsOr others (c :: cs) :=
  List.forall_mem_cons.mpr ⟨Or.inr hc, h⟩

theorem append (h : DigitsOr others cs) (h' : DigitsOr others ds) : DigitsOr others (cs ++ ds) :=
  List.forall_mem_append.mpr ⟨h, h'⟩

theorem mono (h : DigitsOr others cs) (hsub : others ⊆ more) : DigitsOr more cs :=
  fun c hc => (h c hc).imp_right fun ho => hsub ho

end DigitsOr

namespace Binary64

/-- The characters of numbers other than digits. -/
def marks : List Char :=
  ['.', 'e', '-', 'i', 'n', 'f']

end Binary64

namespace Calendar

open Text

variable {others : List Char}

theorem digitsOr_padded (width n : Nat) : DigitsOr others (paddedDigits width n) :=
  .of_digits fun _ => isDigit_of_mem_paddedDigits

theorem yearChars_cons (year : Int) :
    ∃ c cs, yearChars year = c :: cs ∧ c ≠ ':' ∧ DigitsOr ['-', '+'] (c :: cs) := by
  unfold yearChars
  split
  · obtain ⟨c, cs, h⟩ := List.exists_cons_of_ne_nil (paddedDigits_ne_nil 4 year.toNat)
    have hc : c.isDigit = true := isDigit_of_mem_paddedDigits (h ▸ List.mem_cons_self)
    refine ⟨c, cs, h, ?_, h ▸ digitsOr_padded 4 _⟩
    rintro rfl
    cases hc
  · split
    · exact ⟨'-', _, rfl, by decide, .cons (by simp) (digitsOr_padded 4 _)⟩
    · exact ⟨'+', _, rfl, by decide, .cons (by simp) (digitsOr_padded 4 _)⟩

/-- A date has a hyphen after its year. -/
theorem digitsOr_dateText (d : Date) : DigitsOr ['-', '+'] d.text.toList ∧
    d.text.toList.head? ≠ some ':' ∧ '-' ∈ d.text.toList.tail := by
  obtain ⟨c, cs, h, hc, hchars⟩ := yearChars_cons d.year
  rw [toList_dateText, h]
  refine ⟨hchars.append ?_, by simpa using hc, by simp [dateTail]⟩
  exact .cons (by simp) ((digitsOr_padded 2 _).append (.cons (by simp) (digitsOr_padded 2 _)))

theorem toList_momentText (m : Moment) : m.text.toList =
    m.date.text.toList ++ 'T' :: (clockChars m ++ (Moment.offsetText m.offset).toList) := by
  simp [Moment.text, Moment.localText, clockChars, toList_padded]

/-- The characters of moments other than digits. -/
def marks : List Char :=
  ['-', '+', 'T', ':', '.']

theorem digitsOr_fractionText (nano : Nat) :
    DigitsOr marks (Moment.fractionText nano).toList := by
  have hpoint : ∀ width n, DigitsOr marks ("." ++ padded width n).toList := by
    intro width n
    rw [String.toList_append, toList_padded]
    exact .cons (by decide) (digitsOr_padded width n)
  unfold Moment.fractionText
  split
  · exact .nil
  · split
    · exact hpoint _ _
    · split
      · exact hpoint _ _
      · exact hpoint _ _

theorem digitsOr_clockChars (m : Moment) : DigitsOr marks (clockChars m) :=
  (digitsOr_padded 2 _).append (.cons (by decide) ((digitsOr_padded 2 _).append
    (.cons (by decide) ((digitsOr_padded 2 _).append (digitsOr_fractionText _)))))

theorem digitsOr_offsetText (offset : Int) :
    DigitsOr marks (Moment.offsetText offset).toList := by
  rw [toList_offsetText]
  refine .cons ?_ ((digitsOr_padded 2 _).append (.cons (by decide) (digitsOr_padded 2 _)))
  split <;> decide

theorem digitsOr_momentText (m : Moment) : DigitsOr marks m.text.toList ∧
    m.text.toList.head? ≠ some ':' ∧ 'T' ∈ m.text.toList := by
  obtain ⟨hchars, hhead, htail⟩ := digitsOr_dateText m.date
  have hdate : DigitsOr marks m.date.text.toList := hchars.mono (by simp [marks])
  rw [toList_momentText]
  refine ⟨hdate.append (.cons (by decide)
    ((digitsOr_clockChars m).append (digitsOr_offsetText _))), ?_, by simp⟩
  cases htext : m.date.text.toList with
  | nil =>
    rw [htext] at htail
    cases htail
  | cons c cs =>
    rw [htext] at hhead
    exact hhead

end Calendar

namespace Value

end Value

end Conform
