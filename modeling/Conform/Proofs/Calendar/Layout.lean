import Conform.Calendar.Layout
import Conform.Proofs.Calendar.Digits

namespace Conform.Calendar

open Text

theorem trimLeft_hyphen (cs : List Char) : Unicode.trimLeft ('-' :: cs) = '-' :: cs :=
  trimLeft_cons (Unicode.isBlank_of_graphic (by decide)) cs

theorem trimLeft_plus (cs : List Char) : Unicode.trimLeft ('+' :: cs) = '+' :: cs :=
  trimLeft_cons (Unicode.isBlank_of_graphic (by decide)) cs

theorem trimLeft_colon (cs : List Char) : Unicode.trimLeft (':' :: cs) = ':' :: cs :=
  trimLeft_cons (Unicode.isBlank_of_graphic (by decide)) cs

/-- The characters of a written year. -/
def yearChars (year : Int) : List Char :=
  if 0 ≤ year ∧ year ≤ 9999 then paddedDigits 4 year.toNat
  else (if year < 0 then '-' else '+') :: paddedDigits 4 year.natAbs

theorem toList_yearText (year : Int) : (Date.yearText year).toList = yearChars year := by
  unfold Date.yearText yearChars
  split
  · rw [toList_padded]
  · split <;> simp [toList_padded]

theorem year_of_isDigit {c : Char} (hc : c.isDigit = true) (cs : List Char) :
    year (c :: cs) = (number 1 4 (c :: cs)).map fun (n, rest) => ((n : Int), rest) := by
  unfold year
  split
  next heq =>
    obtain ⟨rfl, -⟩ := List.cons.inj heq
    exact absurd hc (by decide)
  next heq =>
    obtain ⟨rfl, -⟩ := List.cons.inj heq
    exact absurd hc (by decide)
  next => rfl

theorem year_yearChars (y : Int) {rest : List Char} (hrest : NoDigit rest) :
    year (Unicode.trimLeft (yearChars y ++ rest)) = some (y, rest) := by
  unfold yearChars
  split
  next hy =>
    have hdigits : ∀ c ∈ paddedDigits 4 y.toNat, c.isDigit = true :=
      fun _ hc => isDigit_of_mem_paddedDigits hc
    have hnumber : number 1 4 (paddedDigits 4 y.toNat ++ rest) = some (y.toNat, rest) :=
      number_padded (by omega) (by omega) (by omega) (by omega) hrest
    rw [trimLeft_padded]
    obtain ⟨c, cs, hcs⟩ := List.exists_cons_of_ne_nil (paddedDigits_ne_nil 4 y.toNat)
    rw [hcs] at hdigits hnumber ⊢
    rw [List.cons_append] at hnumber ⊢
    rw [year_of_isDigit (hdigits c List.mem_cons_self), hnumber]
    simp [Int.toNat_of_nonneg hy.1]
  next hy =>
    have hdigits := digits_padded 4 y.natAbs hrest
    rw [List.cons_append]
    split
    next hneg =>
      have hvalue : -(y.natAbs : Int) = y := by omega
      simp only [trimLeft_hyphen, year, hdigits, Option.map_some, hvalue]
    next hpos =>
      have hvalue : (y.natAbs : Int) = y := by omega
      simp only [trimLeft_plus, year, hdigits, Option.map_some, hvalue]

theorem noDigit_nil : NoDigit [] :=
  rfl

theorem noDigit_hyphen (cs : List Char) : NoDigit ('-' :: cs) :=
  noDigit_cons rfl cs

theorem noDigit_colon (cs : List Char) : NoDigit (':' :: cs) :=
  noDigit_cons rfl cs

/-- The days of a month have two digits, and so have the months. -/
theorem lt_of_daysInMonth {year : Int} {month day : Nat}
    (h : 1 ≤ day ∧ day ≤ daysInMonth year month) : month < 100 ∧ day < 100 := by
  unfold daysInMonth at h
  split at h
  · split at h <;> omega
  · split at h
    · omega
    · split at h <;> omega

/-- What a written date has after its year. -/
def dateTail (d : Date) : List Char :=
  '-' :: paddedDigits 2 d.month ++ '-' :: paddedDigits 2 d.day

theorem toList_dateText (d : Date) : d.text.toList = yearChars d.year ++ dateTail d := by
  simp [Date.text, dateTail, toList_yearText, toList_padded]

section

variable {fields : Fields} {parts : List Part} {cs : List Char}

theorem readParts_cons {part : Part} {fields' : Fields} {rest : List Char}
    (h : part.read fields cs = some (fields', rest)) :
    readParts (part :: parts) fields cs = readParts parts fields' rest := by
  rw [readParts, h]
  rfl

theorem read_hyphen : (Part.text "-").read fields ('-' :: cs) = some (fields, cs) := by
  simp [Part.read, literal]

theorem read_colon : (Part.text ":").read fields (':' :: cs) = some (fields, cs) := by
  simp [Part.read, literal]

theorem read_blank (h : Unicode.trimLeft cs = cs) :
    Part.blank.read fields cs = some (fields, cs) := by
  rw [Part.read, h]

theorem read_year (y : Int) (hrest : NoDigit cs) :
    Part.year.read fields (yearChars y ++ cs) = some ({ fields with year := y }, cs) := by
  simp only [Part.read, year_yearChars y hrest, Option.map_some]

theorem read_month {n : Nat} (hn : n < 100) (hrest : NoDigit cs) :
    Part.month.read fields (paddedDigits 2 n ++ cs) = some ({ fields with month := n }, cs) := by
  simp only [Part.read, number_two hn hrest, Option.map_some]

theorem read_day {n : Nat} (hn : n < 100) (hrest : NoDigit cs) :
    Part.day.read fields (paddedDigits 2 n ++ cs) = some ({ fields with day := n }, cs) := by
  simp only [Part.read, number_two hn hrest, Option.map_some]

theorem read_hour {n : Nat} (hn : n < 100) (hrest : NoDigit cs) :
    Part.hour.read fields (paddedDigits 2 n ++ cs) = some ({ fields with hour := n }, cs) := by
  simp only [Part.read, number_two hn hrest, Option.map_some]

theorem read_minute {n : Nat} (hn : n < 100) (hrest : NoDigit cs) :
    Part.minute.read fields (paddedDigits 2 n ++ cs) = some ({ fields with minute := n }, cs) := by
  simp only [Part.read, number_two hn hrest, Option.map_some]

theorem read_second {n : Nat} (hn : n < 100) (hrest : NoDigit cs) :
    Part.second.read fields (paddedDigits 2 n ++ cs) = some ({ fields with second := n }, cs) := by
  simp only [Part.read, number_two hn hrest, Option.map_some]

/-- The fields of a date are read from its text, whatever comes after it. -/
theorem readParts_dateText (d : Date) (hrest : NoDigit cs) :
    readParts (.year :: .blank :: .text "-" :: .month :: .blank :: .text "-" :: .day :: parts)
      fields (d.text.toList ++ cs) =
        readParts parts { fields with year := d.year, month := d.month, day := d.day } cs := by
  obtain ⟨hmonth, hday⟩ := lt_of_daysInMonth d.day_mem
  rw [toList_dateText, dateTail, List.append_assoc, List.append_assoc, List.cons_append,
    List.cons_append, readParts_cons (read_year d.year (noDigit_hyphen _)),
    readParts_cons (read_blank (trimLeft_hyphen _)), readParts_cons read_hyphen,
    readParts_cons (read_month hmonth (noDigit_hyphen _)),
    readParts_cons (read_blank (trimLeft_hyphen _)),
    readParts_cons read_hyphen, readParts_cons (read_day hday hrest)]

end

theorem date_of? (d : Date) : Date.of? d.year d.month d.day = some d := by
  rw [Date.of?, dif_pos d.year_mem, dif_pos d.day_mem]

end Conform.Calendar
