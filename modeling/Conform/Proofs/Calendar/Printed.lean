import Conform.Proofs.Family.Dates
import Conform.Proofs.Registry.Identifier
import Conform.Proofs.Value.Word

/-!
Dates and moments are read back from their own texts. No layout that is tried earlier misreads such
a text: a date is in the first layout of dates, and a moment in the strict form, which takes years
of four digits only. The text of a moment of any other year, which has a sign, is in no layout at
all.
-/

namespace Conform

namespace Unicode

theorem trim_of_not_blank {cs : List Char} (h : ∀ c ∈ cs, isBlank c = false) : trim cs = cs := by
  have hlast : trimLeft cs.reverse = cs.reverse :=
    trimLeft_of_first fun c hc => h c (List.mem_reverse.mp (List.mem_of_mem_head? hc))
  rw [trim, trimLeft_of_first fun c hc => h c (List.mem_of_mem_head? hc), hlast,
    List.reverse_reverse]

end Unicode

namespace Calendar

open Text

theorem isBlank_marks : marks.all (fun c => !Unicode.isBlank c) = true := by
  decide +kernel

/-- There is no white space in the texts of dates and moments. -/
theorem trim_marked {cs : List Char} (h : DigitsOr marks cs) : Unicode.trim cs = cs := by
  apply Unicode.trim_of_not_blank
  intro c hc
  rcases h c hc with hdigit | hmark
  · exact Unicode.isBlank_of_isDigit hdigit
  · simpa using List.all_eq_true.mp isBlank_marks c hmark

theorem trim_dateText (d : Date) : Unicode.trim d.text.toList = d.text.toList :=
  trim_marked ((digitsOr_dateText d).1.mono (by simp [marks]))

theorem trim_momentText (m : Moment) : Unicode.trim m.text.toList = m.text.toList :=
  trim_marked (digitsOr_momentText m).1

/-- What the text of a date says. -/
def dateFields (d : Date) : Fields :=
  { year := d.year, month := d.month, day := d.day }

theorem date?_dateFields (d : Date) : (dateFields d).date? = some d :=
  date_of? d

/-- A date at the start of a text is read up to its end, whatever sign its year has. -/
theorem readParts_yearMonthDay (d : Date) (parts : List Part) {cs : List Char}
    (hrest : NoDigit cs) :
    readParts (yearMonthDay "-" ++ parts) {} (d.text.toList ++ cs) =
      readParts parts (dateFields d) cs := by
  obtain ⟨hmonth, hday⟩ := lt_of_daysInMonth d.day_mem
  simp only [toList_dateText, dateTail, yearMonthDay, List.append_assoc, List.cons_append,
    List.nil_append]
  rw [readParts_cons (read_year d.year (noDigit_hyphen _)), readParts_cons read_hyphen,
    readParts_cons (read_month hmonth (noDigit_hyphen _)), readParts_cons read_hyphen,
    readParts_cons (read_day hday hrest)]
  rfl

/-- A date is read back from its text, in the layout that is tried first. -/
theorem date?_text (d : Date) : date? d.text = some d := by
  have hparts : readParts (yearMonthDay "-") {} d.text.toList = some (dateFields d, []) := by
    have hread := readParts_yearMonthDay d [] noDigit_nil
    rwa [List.append_nil, List.append_nil] at hread
  have hlayout : dateLayout? d.text.toList = some d := by
    rw [dateLayout?, dateLayouts, List.findSome?_cons, readAll, hparts, Option.bind_some,
      date?_dateFields]
  rw [date?, trim_dateText, hlayout, Option.some_or]

section

variable {width n : Nat} {cs : List Char}

theorem number_exactly (hw : 0 < width) (hn : n < 10 ^ width) (hrest : NoDigit cs) :
    number width width (paddedDigits width n ++ cs) = some (n, cs) :=
  number_padded hw hn (Nat.le_refl width) (Nat.le_refl width) hrest

theorem literal_hyphen (cs : List Char) : literal ['-'] ('-' :: cs) = some ((), cs) := by
  simp [literal]

theorem colon_cons (cs : List Char) : colon (':' :: cs) = some ((), cs) := by
  simp [colon, literal]

end

/-- The offset at the end of a text starts with a sign. -/
theorem offsetText_cons (offset : Int) :
    ∃ c cs, (Moment.offsetText offset).toList = c :: cs ∧ c.isDigit = false ∧ c ≠ '.' :=
  ⟨_, _, toList_offsetText offset, by split <;> decide⟩

theorem offsetOrZulu_offsetText {offset : Int} (h : -86400 < offset ∧ offset < 86400)
    (hminute : offset % 60 = 0) :
    offsetOrZulu colon (Moment.offsetText offset).toList = some (offset, []) := by
  rw [toList_offsetText, offsetOrZulu_sign]
  exact signedOffset_offset (fun _ cs => colon_cons _) h hminute

/-- A moment of a year with four digits is in the strict form. -/
theorem strict?_text {m : Moment} (hyear : 0 ≤ m.date.year ∧ m.date.year ≤ 9999)
    (hm : m.onMinute = true) : strict? m.text.toList = some m := by
  obtain ⟨hmonth, hday⟩ := lt_of_daysInMonth m.date.day_mem
  obtain ⟨hhour, hminute, hsecond⟩ := clock_lt m
  obtain ⟨c, cs, hchars, hc⟩ := offsetText_cons m.offset
  have hoffset := offsetOrZulu_offsetText m.offset_mem (of_decide_eq_true hm)
  rw [hchars] at hoffset
  have hfraction : fraction ((Moment.fractionText (m.nano % 1000000000)).toList ++ c :: cs) =
      some (m.nano % 1000000000, c :: cs) :=
    fraction_fractionText (Nat.mod_lt m.nano (by omega)) hc
  have hfour : yearChars m.date.year = paddedDigits 4 m.date.year.toNat := if_pos hyear
  have hvalue : (m.date.year.toNat : Int) = m.date.year := Int.toNat_of_nonneg hyear.1
  have htwo : ∀ {n : Nat} {rest : List Char}, n < 100 → NoDigit rest →
      number 2 2 (paddedDigits 2 n ++ rest) = some (n, rest) :=
    fun hn hrest => number_exactly (by omega) hn hrest
  rw [toList_momentText, toList_dateText, hfour, hchars, dateTail, clockChars]
  simp only [List.append_assoc, List.cons_append]
  unfold strict?
  refine Option.bind_eq_some_iff.mpr
    ⟨_, number_exactly (by omega) (by omega) (noDigit_hyphen _), ?_⟩
  refine Option.bind_eq_some_iff.mpr ⟨_, literal_hyphen _, ?_⟩
  refine Option.bind_eq_some_iff.mpr ⟨_, htwo hmonth (noDigit_hyphen _), ?_⟩
  refine Option.bind_eq_some_iff.mpr ⟨_, literal_hyphen _, ?_⟩
  refine Option.bind_eq_some_iff.mpr ⟨_, htwo hday (noDigit_cons (by decide) _), ?_⟩
  refine Option.bind_eq_some_iff.mpr ⟨((), _), rfl, ?_⟩
  refine Option.bind_eq_some_iff.mpr ⟨_, htwo hhour (noDigit_colon _), ?_⟩
  refine Option.bind_eq_some_iff.mpr ⟨_, colon_cons _, ?_⟩
  refine Option.bind_eq_some_iff.mpr ⟨_, htwo hminute (noDigit_colon _), ?_⟩
  refine Option.bind_eq_some_iff.mpr ⟨_, colon_cons _, ?_⟩
  refine Option.bind_eq_some_iff.mpr ⟨_, htwo hsecond (noDigit_fraction _ hc.1 _), ?_⟩
  refine Option.bind_eq_some_iff.mpr ⟨_, hfraction, ?_⟩
  refine Option.bind_eq_some_iff.mpr ⟨_, hoffset, ?_⟩
  rw [hvalue]
  exact moment?_fields m

/-- A year has a sign where it has not four digits. -/
theorem strict?_text_signed {m : Moment} (hyear : ¬(0 ≤ m.date.year ∧ m.date.year ≤ 9999)) :
    strict? m.text.toList = none := by
  have hchars : yearChars m.date.year =
      (if m.date.year < 0 then '-' else '+') :: paddedDigits 4 m.date.year.natAbs := if_neg hyear
  have hsign : (if m.date.year < 0 then '-' else '+' : Char).isDigit = false := by
    split <;> rfl
  have hnumber : number 4 4 m.text.toList = none := by
    rw [toList_momentText, toList_dateText, hchars, number]
    simp [hsign]
  rw [strict?, hnumber]
  rfl

/-- Parts stand at the start of a text that goes on after them. -/
def LeaveOver (parts : List Part) (fields : Fields) (cs : List Char) : Prop :=
  ∃ fields' c rest, readParts parts fields cs = some (fields', c :: rest)

section

variable {fields : Fields} {parts : List Part} {cs : List Char}

theorem LeaveOver.readAll_eq (h : LeaveOver parts {} cs) : readAll parts cs = none := by
  obtain ⟨_, _, _, hread⟩ := h
  rw [readAll, hread]

theorem read_mark : (Part.text "T").read fields ('T' :: cs) = some (fields, cs) := by
  simp [Part.read, literal]

theorem LeaveOver.mark (h : LeaveOver parts fields cs) :
    LeaveOver (.text "T" :: parts) fields ('T' :: cs) := by
  obtain ⟨_, _, _, hread⟩ := h
  exact ⟨_, _, _, (readParts_cons read_mark).trans hread⟩

/-- No time of day starts with the mark between date and time. -/
theorem readParts_hour_mark (fields : Fields) (parts : List Part) (cs : List Char) :
    readParts (.blank :: .hour :: parts) fields ('T' :: cs) = none := by
  have htrim : Unicode.trimLeft ('T' :: cs) = 'T' :: cs :=
    trimLeft_cons (Unicode.isBlank_of_graphic (by decide)) cs
  rw [readParts_cons (read_blank htrim), readParts, Part.read, htrim]
  rfl

theorem readParts_hourMinute (m : Moment) (fields : Fields) (parts : List Part) (cs : List Char) :
    readParts (clock ++ parts) fields (clockChars m ++ cs) =
      readParts parts { fields with hour := m.second / 3600, minute := m.second / 60 % 60 }
        (':' :: (paddedDigits 2 (m.second % 60 + m.nano / 1000000000) ++
          ((Moment.fractionText (m.nano % 1000000000)).toList ++ cs))) := by
  obtain ⟨hhour, hminute, -⟩ := clock_lt m
  simp only [clockChars, List.append_assoc, List.cons_append, clock, List.nil_append]
  rw [readParts_cons (read_hour hhour (noDigit_colon _)), readParts_cons read_colon,
    readParts_cons (read_minute hminute (noDigit_colon _))]

/-- The seconds are left over where the layout has none. -/
theorem clock_leavesOver (m : Moment) (fields : Fields) (cs : List Char) :
    LeaveOver clock fields (clockChars m ++ cs) := by
  have hread := readParts_hourMinute m fields [] cs
  rw [List.append_nil] at hread
  exact ⟨_, _, _, hread⟩

/-- The offset is left over where the layout has none. -/
theorem fullClock_leavesOver (m : Moment) (fields : Fields) :
    LeaveOver fullClock fields (clockChars m ++ (Moment.offsetText m.offset).toList) := by
  obtain ⟨c, cs, hchars, hc⟩ := offsetText_cons m.offset
  obtain ⟨-, -, hsecond⟩ := clock_lt m
  have hread := readParts_hourMinute m fields [.text ":", .second, .fraction] (c :: cs)
  rw [readParts_cons read_colon,
    readParts_cons (read_second hsecond (noDigit_fraction _ hc.1 _)),
    readParts_cons (read_fraction (Nat.mod_lt m.nano (by omega)) hc)] at hread
  rw [hchars]
  exact ⟨_, c, cs, hread⟩

end

section

variable (m : Moment) {parts : List Part}

/-- What the text of a moment has after its date. -/
def timeChars : List Char :=
  'T' :: (clockChars m ++ (Moment.offsetText m.offset).toList)

theorem readParts_momentText (parts : List Part) :
    readParts (yearMonthDay "-" ++ parts) {} m.text.toList =
      readParts parts (dateFields m.date) (timeChars m) := by
  rw [toList_momentText]
  exact readParts_yearMonthDay m.date parts (noDigit_cons (by decide) _)

theorem dated_momentText : Dated m.text.toList := by
  have hread := readParts_momentText m []
  rw [List.append_nil] at hread
  exact ⟨_, _, hread, by simp [timeChars]⟩

theorem readAll_momentText
    (h : readParts parts (dateFields m.date) (timeChars m) = none ∨
      LeaveOver parts (dateFields m.date) (timeChars m)) :
    readAll (yearMonthDay "-" ++ parts) m.text.toList = none := by
  rcases h with hnone | ⟨fields, c, rest, hrest⟩
  · rw [readAll, readParts_momentText, hnone]
  · exact LeaveOver.readAll_eq ⟨fields, c, rest, (readParts_momentText m parts).trans hrest⟩

/-- No layout has room for all that the text of a moment says. -/
theorem layouts_momentText : momentLayout? offsetLayouts m.text.toList = none ∧
    momentLayout? localLayouts m.text.toList = none ∧ dateLayout? m.text.toList = none := by
  have hblank : ∀ parts, readAll (yearMonthDay "-" ++ (.blank :: .hour :: parts)) m.text.toList =
      none := fun parts => readAll_momentText m (.inl (readParts_hour_mark _ _ _))
  have hoffset : ∀ parts ∈ offsetLayouts, readAll parts m.text.toList = none := by
    simp only [offsetLayouts, List.forall_mem_cons, List.append_assoc]
    exact ⟨hblank _, hblank _, List.forall_mem_nil _⟩
  have hlocal : ∀ parts ∈ localLayouts, readAll parts m.text.toList = none := by
    simp only [localLayouts, List.forall_mem_cons, List.append_assoc]
    exact ⟨readAll_momentText m (.inr (fullClock_leavesOver m _).mark), hblank _,
      readAll_momentText m (.inr (clock_leavesOver m _ _).mark), hblank _, List.forall_mem_nil _⟩
  have hdate : ∀ parts ∈ dateLayouts, readAll parts m.text.toList = none := by
    intro parts hparts
    refine Option.eq_none_iff_forall_ne_some.mpr fun f hread => ?_
    exact not_dated_of_date hparts hread (dated_momentText m)
  refine ⟨?_, ?_, ?_⟩
  · exact List.findSome?_eq_none_iff.mpr fun parts hparts => by rw [hoffset parts hparts]; rfl
  · exact List.findSome?_eq_none_iff.mpr fun parts hparts => by rw [hlocal parts hparts]; rfl
  · exact List.findSome?_eq_none_iff.mpr fun parts hparts => by rw [hdate parts hparts]; rfl

end

/-- The moments that are read back from their texts are those of years with four digits. -/
theorem moment?_text {m : Moment} (h : m.onMinute = true) : moment? m.text =
    if 0 ≤ m.date.year ∧ m.date.year ≤ 9999 then some m else none := by
  obtain ⟨hoffset, hlocal, hdate⟩ := layouts_momentText m
  unfold moment?
  dsimp only
  rw [trim_momentText, hoffset, hlocal, hdate]
  split
  next hyear => rw [strict?_text hyear h, Option.some_or]
  next hyear => rw [strict?_text_signed hyear]; rfl

end Calendar

namespace Family

/-- A date is converted back from its text. So is a moment with an offset of whole minutes, offset
and inserted second included, if its year has four digits; the text of another year is not taken for
one. -/
theorem texts_read_back (d : Date) (m : Moment) :
    (Coercible.string (.date d) >>= Params.date) = .ok (.date d) ∧
      (m.onMinute = true → (Coercible.string (.dateTime m) >>= Params.dateTime) =
        if 0 ≤ m.date.year ∧ m.date.year ≤ 9999 then .ok (.dateTime m)
        else .error (.coercion (.string m.text) "invalid date-time")) := by
  have hdate : Coercible.string (.date d) = .ok (.string d.text) := rfl
  have hmoment : Coercible.string (.dateTime m) = .ok (.string m.text) := rfl
  rw [hdate, hmoment, ok_bind, ok_bind]
  constructor
  · exact Params.date_string_eq_ok_iff.mpr ⟨d, Calendar.date?_text d, rfl⟩
  · intro h
    have hread := Calendar.moment?_text h
    unfold Params.dateTime
    dsimp only
    split at hread
    next hyear => rw [hread, if_pos hyear]
    next hyear => rw [hread, if_neg hyear]

/-- The middle of an inserted second, shown half an hour past a full one. -/
def insertedSecond : Moment where
  date := { year := 2017, month := 1, day := 1 }
  second := 19799
  nano := 1500000000
  offset := 19800

theorem insertedSecond_read_back :
    insertedSecond.onMinute = true ∧
    (Coercible.string (.date insertedSecond.date) >>= Params.date) =
      .ok (.date insertedSecond.date) ∧
    (Coercible.string (.dateTime insertedSecond) >>= Params.dateTime) =
      .ok (.dateTime insertedSecond) := by
  have hyear : 0 ≤ insertedSecond.date.year ∧ insertedSecond.date.year ≤ 9999 := by decide
  obtain ⟨hdate, hmoment⟩ := texts_read_back insertedSecond.date insertedSecond
  rw [if_pos hyear] at hmoment
  have hminute : insertedSecond.onMinute = true := by decide
  exact ⟨hminute, hdate, hmoment hminute⟩

end Family

end Conform
