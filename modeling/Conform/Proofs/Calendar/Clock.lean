import Conform.Proofs.Calendar.Layout

namespace Conform.Calendar

open Text

theorem nanoseconds_padded {width n : Nat} (hw : 0 < width) (hle : width ≤ 9) (hn : n < 10 ^ width)
    {rest : List Char} (hrest : NoDigit rest) :
    nanoseconds (paddedDigits width n ++ rest) = some (n * 10 ^ (9 - width), rest) := by
  have hlen := length_paddedDigits hw hn
  have hall : (paddedDigits width n ++ rest).takeWhile Char.isDigit = paddedDigits width n :=
    takeWhile_digits (fun _ hc => isDigit_of_mem_paddedDigits hc) hrest
  have hne : (paddedDigits width n).isEmpty = false := by
    simpa using paddedDigits_ne_nil width n
  unfold nanoseconds
  rw [hall]
  dsimp only
  rw [hne, if_neg Bool.false_ne_true, List.take_of_length_le (by omega), List.drop_left, hlen]
  change some (Nat.ofDigitChars 10 (paddedDigits width n) 0 * 10 ^ (9 - width), rest) = _
  rw [ofDigitChars_paddedDigits]

theorem fraction_of_noPoint {c : Char} (hc : c ≠ '.') (cs : List Char) :
    fraction (c :: cs) = some (0, c :: cs) := by
  unfold fraction
  split
  next heq => exact absurd (List.cons.inj heq).1 hc
  next => rfl

/-- Nanoseconds are read back from a fraction that something other than a digit or a point ends. -/
theorem fraction_fractionText {nano : Nat} (hn : nano < 1000000000) {c : Char} {cs : List Char}
    (hc : c.isDigit = false ∧ c ≠ '.') :
    fraction ((Moment.fractionText nano).toList ++ c :: cs) = some (nano, c :: cs) := by
  have hrest : NoDigit (c :: cs) := noDigit_cons hc.1 cs
  have hpoint : ∀ width n, 0 < width → width ≤ 9 → n < 10 ^ width → n * 10 ^ (9 - width) = nano →
      fraction (("." ++ padded width n).toList ++ c :: cs) = some (nano, c :: cs) := by
    intro width n hw hle hlt heq
    have hread : fraction (("." ++ padded width n).toList ++ c :: cs) =
        nanoseconds (paddedDigits width n ++ c :: cs) := by
      simp [toList_padded, fraction]
    rw [hread, nanoseconds_padded hw hle hlt hrest, heq]
  unfold Moment.fractionText
  split
  next h =>
    subst h
    exact fraction_of_noPoint hc.2 cs
  next =>
    split
    next => exact hpoint 3 _ (by omega) (by omega) (by omega) (by omega)
    next =>
      split
      next => exact hpoint 6 _ (by omega) (by omega) (by omega) (by omega)
      next => exact hpoint 9 _ (by omega) (by omega) (by omega) (by omega)

theorem read_fraction {fields : Fields} {nano : Nat} (hn : nano < 1000000000) {c : Char}
    {cs : List Char} (hc : c.isDigit = false ∧ c ≠ '.') :
    Part.fraction.read fields ((Moment.fractionText nano).toList ++ c :: cs) =
      some ({ fields with nano := nano }, c :: cs) := by
  simp only [Part.read, fraction_fractionText hn hc, Option.map_some]

/-- The characters of an offset. -/
def offsetChars (offset : Int) : List Char :=
  if offset = 0 then ['Z']
  else (if offset < 0 then '-' else '+') :: paddedDigits 2 (Moment.minutes offset / 60) ++
    ':' :: paddedDigits 2 (Moment.minutes offset % 60)

theorem looseColon_colon {c : Char} (hc : c.isDigit = true) (cs : List Char) :
    looseColon (':' :: c :: cs) = some ((), c :: cs) := by
  have hblank := Unicode.isBlank_of_isDigit hc
  have hcolon : c ≠ ':' := by
    rintro rfl
    exact absurd hc (by decide)
  simp [looseColon, hblank, hcolon]

/-- Hours and minutes are read back where a colon between them is. -/
theorem signedOffset_chars {separator : Reader Unit}
    (hs : ∀ {c : Char}, c.isDigit = true → ∀ cs, separator (':' :: c :: cs) = some ((), c :: cs))
    (negative : Bool) {hours minutes : Nat} (hh : hours < 100) (hm : minutes < 60) :
    signedOffset separator ((if negative then '-' else '+') :: paddedDigits 2 hours ++
      ':' :: paddedDigits 2 minutes) =
        some (if negative then -((hours * 60 + minutes) * 60 : Int)
          else (hours * 60 + minutes) * 60, []) := by
  have hhours : number 2 2 (paddedDigits 2 hours ++ ':' :: paddedDigits 2 minutes) =
      some (hours, ':' :: paddedDigits 2 minutes) :=
    number_padded (by omega) hh (by omega) (by omega) (noDigit_colon _)
  have hminutes : number 2 2 (paddedDigits 2 minutes ++ []) = some (minutes, []) :=
    number_padded (by omega) (by omega) (by omega) (by omega) noDigit_nil
  have hcolon : separator (':' :: paddedDigits 2 minutes) = some ((), paddedDigits 2 minutes) := by
    have hdigits : ∀ c ∈ paddedDigits 2 minutes, c.isDigit = true :=
      fun _ hc => isDigit_of_mem_paddedDigits hc
    obtain ⟨c, cs, hcs⟩ := List.exists_cons_of_ne_nil (paddedDigits_ne_nil 2 minutes)
    rw [hcs] at hdigits ⊢
    exact hs (hdigits c List.mem_cons_self) cs
  rw [List.append_nil] at hminutes
  cases negative with
  | true => simp [signedOffset, hhours, hcolon, hminutes, hm]
  | false => simp [signedOffset, hhours, hcolon, hminutes, hm]

theorem seconds_of_minutes {offset : Int} (h : offset % 60 = 0) :
    ((Moment.minutes offset / 60 : Nat) * 60 + (Moment.minutes offset % 60 : Nat) : Int) * 60 =
      offset.natAbs := by
  unfold Moment.minutes
  omega

/-- An offset of whole minutes is read back from its sign, its hours and its minutes. -/
theorem signedOffset_offset {separator : Reader Unit}
    (hs : ∀ {c : Char}, c.isDigit = true → ∀ cs, separator (':' :: c :: cs) = some ((), c :: cs))
    {offset : Int} (h : -86400 < offset ∧ offset < 86400) (hminute : offset % 60 = 0) :
    signedOffset separator ((if offset < 0 then '-' else '+') ::
      paddedDigits 2 (Moment.minutes offset / 60) ++
        ':' :: paddedDigits 2 (Moment.minutes offset % 60)) = some (offset, []) := by
  have hseconds := seconds_of_minutes hminute
  have hhours : Moment.minutes offset / 60 < 100 := by
    unfold Moment.minutes
    omega
  have hminutes : Moment.minutes offset % 60 < 60 := Nat.mod_lt _ (by omega)
  split
  next hneg =>
    have htotal : -(((Moment.minutes offset / 60 : Nat) * 60 +
        (Moment.minutes offset % 60 : Nat)) * 60 : Int) = offset := by omega
    have hsigned := signedOffset_chars hs true hhours hminutes
    rwa [if_pos rfl, if_pos rfl, htotal] at hsigned
  next hpos =>
    have htotal : ((Moment.minutes offset / 60 : Nat) * 60 +
        (Moment.minutes offset % 60 : Nat) : Int) * 60 = offset := by omega
    have hsigned := signedOffset_chars hs false hhours hminutes
    rwa [if_neg Bool.false_ne_true, if_neg Bool.false_ne_true, htotal] at hsigned

theorem offsetOrZulu_sign (separator : Reader Unit) (offset : Int) (cs : List Char) :
    offsetOrZulu separator ((if offset < 0 then '-' else '+') :: cs) =
      signedOffset separator ((if offset < 0 then '-' else '+') :: cs) := by
  split <;> rfl

theorem offsetOrZulu_offsetChars {separator : Reader Unit}
    (hs : ∀ {c : Char}, c.isDigit = true → ∀ cs, separator (':' :: c :: cs) = some ((), c :: cs))
    {offset : Int} (h : -86400 < offset ∧ offset < 86400) (hminute : offset % 60 = 0) :
    offsetOrZulu separator (offsetChars offset) = some (offset, []) := by
  unfold offsetChars
  split
  next h0 => rw [h0, offsetOrZulu]
  next =>
    rw [List.cons_append, offsetOrZulu_sign]
    exact signedOffset_offset hs h hminute

/-- An offset starts with a character that ends whatever was read before. -/
theorem offsetChars_cons (offset : Int) : ∃ c cs, offsetChars offset = c :: cs ∧
    (c.isDigit = false ∧ c ≠ '.') ∧ Unicode.trimLeft (c :: cs) = c :: cs ∧
      startsWithName "utc".toList (c :: cs) = false := by
  unfold offsetChars
  split
  next =>
    have hz := trimLeft_cons (Unicode.isBlank_of_graphic (c := 'Z') (by decide)) []
    exact ⟨'Z', [], rfl, by decide, hz, rfl⟩
  next =>
    split
    next => exact ⟨'-', _, rfl, by decide, trimLeft_hyphen _, rfl⟩
    next => exact ⟨'+', _, rfl, by decide, trimLeft_plus _, rfl⟩

/-- The characters of a time of day. -/
def clockChars (m : Moment) : List Char :=
  paddedDigits 2 (m.second / 3600) ++ ':' :: (paddedDigits 2 (m.second / 60 % 60) ++
    ':' :: (paddedDigits 2 (m.second % 60 + m.nano / 1000000000) ++
      (Moment.fractionText (m.nano % 1000000000)).toList))

/-- A fraction of a second stops where the offset starts. -/
theorem noDigit_fraction (nano : Nat) {c : Char} (hc : c.isDigit = false) (cs : List Char) :
    NoDigit ((Moment.fractionText nano).toList ++ c :: cs) := by
  unfold Moment.fractionText
  split
  next => exact noDigit_cons hc cs
  next =>
    split
    next => simpa using noDigit_cons (by decide) _
    next => split <;> simpa using noDigit_cons (by decide) _

/-- The numbers of a time of day have two digits, also that of an inserted second. -/
theorem clock_lt (m : Moment) : m.second / 3600 < 100 ∧ m.second / 60 % 60 < 100 ∧
    m.second % 60 + m.nano / 1000000000 < 100 := by
  have hsecond := m.second_lt
  have hnano : m.nano < 2000000000 := by
    have hlimit := m.nano_lt
    split at hlimit <;> omega
  omega

theorem readParts_clock (m : Moment) (fields : Fields) {c : Char} {cs : List Char}
    (hc : c.isDigit = false ∧ c ≠ '.') (htrim : Unicode.trimLeft (c :: cs) = c :: cs) :
    readParts [.hour, .blank, .text ":", .minute, .blank, .text ":", .second, .fraction, .blank]
      fields (clockChars m ++ c :: cs) =
        some ({ fields with
          hour := m.second / 3600
          minute := m.second / 60 % 60
          second := m.second % 60 + m.nano / 1000000000
          nano := m.nano % 1000000000 }, c :: cs) := by
  obtain ⟨hhour, hminute, hsecond⟩ := clock_lt m
  simp only [clockChars, List.append_assoc, List.cons_append]
  rw [readParts_cons (read_hour hhour (noDigit_colon _)),
    readParts_cons (read_blank (trimLeft_colon _)), readParts_cons read_colon,
    readParts_cons (read_minute hminute (noDigit_colon _)),
    readParts_cons (read_blank (trimLeft_colon _)), readParts_cons read_colon,
    readParts_cons (read_second hsecond (noDigit_fraction _ hc.1 _)),
    readParts_cons (read_fraction (Nat.mod_lt m.nano (by omega)) hc),
    readParts_cons (read_blank htrim)]
  rfl

/-- The fields of a moment make it up. -/
theorem moment?_fields (m : Moment) :
    Fields.moment? ⟨m.date.year, m.date.month, m.date.day, m.second / 3600, m.second / 60 % 60,
      m.second % 60 + m.nano / 1000000000, m.nano % 1000000000, m.offset⟩ = some m := by
  have hsecond := m.second_lt
  have hnano := m.nano_lt
  have hlimit : m.nano < 1000000000 ∨ m.nano < 2000000000 ∧ m.second % 60 = 59 := by
    split at hnano <;> omega
  have hclock : m.second / 3600 < 24 ∧ m.second / 60 % 60 < 60 ∧
      m.second % 60 + m.nano / 1000000000 ≤ 60 := by omega
  have hwhole : m.second / 3600 * 3600 + m.second / 60 % 60 * 60 +
      (if m.second % 60 + m.nano / 1000000000 = 60 then 59
        else m.second % 60 + m.nano / 1000000000) = m.second := by
    split <;> omega
  have hrest : m.nano % 1000000000 +
      (if m.second % 60 + m.nano / 1000000000 = 60 then 1000000000 else 0) = m.nano := by
    split <;> omega
  have hof : Moment.of? m.date m.second m.nano m.offset = some m := by
    rw [Moment.of?, dif_pos m.second_lt, dif_pos m.nano_lt, dif_pos m.offset_mem, dif_pos m.day_mem]
  have hdate : Fields.date? ⟨m.date.year, m.date.month, m.date.day, m.second / 3600,
      m.second / 60 % 60, m.second % 60 + m.nano / 1000000000, m.nano % 1000000000, m.offset⟩ =
        some m.date := date_of? m.date
  unfold Fields.moment?
  rw [hdate]
  simp only [Option.bind_eq_bind, Option.bind_some, hclock, and_self, ↓reduceIte, hwhole, hrest,
    hof]

end Conform.Calendar
