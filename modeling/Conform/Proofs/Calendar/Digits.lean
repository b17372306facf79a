import Conform.Calendar.Layout
import Mathlib.Algebra.Order.Ring.Nat

namespace Conform

theorem Unicode.isBlank_of_graphic {c : Char} (h : 33 ≤ c.toNat ∧ c.toNat < 127) :
    isBlank c = false := by
  have hall : ∀ n < 127, 33 ≤ n → isBlank (Char.ofNat n) = false := by decide +kernel
  have hchar := hall c.toNat h.2 h.1
  rwa [Char.ofNat_toNat] at hchar

theorem Unicode.isBlank_of_isDigit {c : Char} (h : c.isDigit = true) : isBlank c = false := by
  have hrange : 48 ≤ c.toNat ∧ c.toNat ≤ 57 := by
    simpa [Char.isDigit, UInt32.le_iff_toNat_le] using h
  exact isBlank_of_graphic (by omega)

theorem Unicode.isUpper_iff {c : Char} : c.isUpper = true ↔ 65 ≤ c.toNat ∧ c.toNat ≤ 90 := by
  have hdef : c.isUpper = decide (c.val ≥ 'A'.val ∧ c.val ≤ 'Z'.val) := rfl
  rw [hdef]
  simp [UInt32.le_iff_toNat_le]

theorem Unicode.isLower_iff {c : Char} : c.isLower = true ↔ 97 ≤ c.toNat ∧ c.toNat ≤ 122 := by
  have hdef : c.isLower = (decide (c.val ≥ 'a'.val) && decide (c.val ≤ 'z'.val)) := rfl
  rw [hdef]
  simp [UInt32.le_iff_toNat_le]

theorem Unicode.isAlpha_iff {c : Char} :
    c.isAlpha = true ↔ c.isUpper = true ∨ c.isLower = true :=
  Bool.or_eq_true_iff

namespace Text

/-- The digits of a number at a width, with zeros in front. -/
def paddedDigits (width n : Nat) : List Char :=
  List.replicate (width - (Nat.toDigits 10 n).length) '0' ++ Nat.toDigits 10 n

theorem toList_padded (width n : Nat) : (padded width n).toList = paddedDigits width n := by
  simp [padded, paddedDigits]

theorem isDigit_of_mem_paddedDigits {width n : Nat} {c : Char} (h : c ∈ paddedDigits width n) :
    c.isDigit = true := by
  rcases List.mem_append.mp h with h | h
  · obtain rfl := List.eq_of_mem_replicate h
    rfl
  · exact Nat.isDigit_of_mem_toDigits (by omega) (by omega) h

theorem ofDigitChars_paddedDigits (width n : Nat) :
    Nat.ofDigitChars 10 (paddedDigits width n) 0 = n := by
  rw [paddedDigits, Nat.ofDigitChars_append, Nat.ofDigitChars_replicate_zero, Nat.mul_zero,
    Nat.ofDigitChars_ten_toDigits]

theorem paddedDigits_ne_nil (width n : Nat) : paddedDigits width n ≠ [] := by
  simp [paddedDigits, Nat.toDigits_ne_nil]

theorem length_paddedDigits {width n : Nat} (hw : 0 < width) (h : n < 10 ^ width) :
    (paddedDigits width n).length = width := by
  have hlen : (Nat.toDigits 10 n).length ≤ width :=
    (Nat.length_toDigits_le_iff (by omega) hw).mpr h
  rw [paddedDigits, List.length_append, List.length_replicate]
  omega

end Text

namespace Calendar

open Text

/-- A text does not start with a digit. -/
def NoDigit (cs : List Char) : Prop :=
  cs.takeWhile Char.isDigit = []

theorem noDigit_cons {c : Char} (h : c.isDigit = false) (cs : List Char) : NoDigit (c :: cs) := by
  simp [NoDigit, h]

theorem takeWhile_digits {ds rest : List Char} (hds : ∀ c ∈ ds, c.isDigit = true)
    (hrest : NoDigit rest) : (ds ++ rest).takeWhile Char.isDigit = ds := by
  rw [List.takeWhile_append_of_pos hds, hrest, List.append_nil]

theorem number_digits {least most : Nat} {ds rest : List Char}
    (hds : ∀ c ∈ ds, c.isDigit = true) (hrest : NoDigit rest) (hleast : least ≤ ds.length)
    (hmost : ds.length ≤ most) :
    number least most (ds ++ rest) = some (Nat.ofDigitChars 10 ds 0, rest) := by
  unfold number
  rw [takeWhile_digits hds hrest, List.take_of_length_le hmost]
  dsimp only
  rw [if_neg (by omega), List.drop_left]
  rfl

/-- A number of a fixed width is read back. -/
theorem number_padded {least most width n : Nat} (hw : 0 < width) (hn : n < 10 ^ width)
    (hleast : least ≤ width) (hmost : width ≤ most) {rest : List Char} (hrest : NoDigit rest) :
    number least most (paddedDigits width n ++ rest) = some (n, rest) := by
  have hlen := length_paddedDigits hw hn
  rw [number_digits (fun _ hc => isDigit_of_mem_paddedDigits hc) hrest (by omega) (by omega),
    ofDigitChars_paddedDigits]

theorem digits_padded (width n : Nat) {rest : List Char} (hrest : NoDigit rest) :
    digits (paddedDigits width n ++ rest) = some (n, rest) := by
  have hpos := List.length_pos_iff.mpr (paddedDigits_ne_nil width n)
  unfold digits
  rw [number_digits (fun _ hc => isDigit_of_mem_paddedDigits hc) hrest (by omega) (by simp),
    ofDigitChars_paddedDigits]

theorem trimLeft_digits {ds : List Char} (hne : ds ≠ []) (hds : ∀ c ∈ ds, c.isDigit = true)
    (rest : List Char) : Unicode.trimLeft (ds ++ rest) = ds ++ rest := by
  obtain ⟨c, cs, rfl⟩ := List.exists_cons_of_ne_nil hne
  have hc := Unicode.isBlank_of_isDigit (hds c List.mem_cons_self)
  simp [Unicode.trimLeft, hc]

theorem trimLeft_padded (width n : Nat) (rest : List Char) :
    Unicode.trimLeft (paddedDigits width n ++ rest) = paddedDigits width n ++ rest :=
  trimLeft_digits (paddedDigits_ne_nil width n) (fun _ hc => isDigit_of_mem_paddedDigits hc) rest

theorem trimLeft_cons {c : Char} (h : Unicode.isBlank c = false) (cs : List Char) :
    Unicode.trimLeft (c :: cs) = c :: cs := by
  simp [Unicode.trimLeft, h]

/-- Two digits after which there is no other. -/
theorem number_two {n : Nat} (hn : n < 100) {rest : List Char} (hrest : NoDigit rest) :
    number 1 2 (Unicode.trimLeft (paddedDigits 2 n ++ rest)) = some (n, rest) := by
  rw [trimLeft_padded]
  exact number_padded (by omega) hn (by omega) (by omega) hrest

end Calendar

end Conform
