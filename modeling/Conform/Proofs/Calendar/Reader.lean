import Conform.Calendar.Reader
import Conform.Proofs.Calendar.Layout
import Mathlib.Order.Monotone.Basic

/-!
Texts that are read as dates are those that are read as moments. The readers try their layouts in
different orders, which makes no difference: in the layouts of moments, something follows a year, a
month and a day that are joined by hyphens, and no date is written so.
-/

namespace Conform

namespace Date

theorem daysBeforeMonth_succ (year : Int) (month : Nat) :
    daysBeforeMonth year (month + 1) = daysBeforeMonth year month + daysInMonth year month := by
  simp [daysBeforeMonth, List.range_succ]

theorem daysBeforeMonth_mono (year : Int) : Monotone (daysBeforeMonth year) := by
  apply monotone_nat_of_le_succ
  intro month
  rw [daysBeforeMonth_succ]
  omega

/-- The months of a year take up all of its days. -/
theorem daysBeforeYear_succ (year : Int) :
    daysBeforeYear (year + 1) = daysBeforeYear year + daysBeforeMonth year 13 := by
  have hmonths : daysBeforeMonth year 13 = if isLeapYear year = true then 366 else 365 := by
    cases hleap : isLeapYear year with
    | true => simp [daysBeforeMonth, List.range, List.range.loop, daysInMonth, hleap]
    | false => simp [daysBeforeMonth, List.range, List.range.loop, daysInMonth, hleap]
  rw [hmonths]
  simp only [daysBeforeYear, isLeapYear, Bool.and_eq_true, Bool.or_eq_true, decide_eq_true_eq]
  split <;> omega

theorem daysBeforeYear_mono {year other : Int} (h : year ≤ other) :
    daysBeforeYear year ≤ daysBeforeYear other := by
  simp only [daysBeforeYear]
  omega

theorem dayNumber_mem (d : Date) : firstDay ≤ d.dayNumber ∧ d.dayNumber ≤ lastDay := by
  have hfirst := daysBeforeYear_mono d.year_mem.1
  have hlast := daysBeforeYear_mono (show d.year + 1 ≤ lastYear + 1 by have := d.year_mem.2; omega)
  have hmonth : d.month + 1 ≤ 13 := by
    have hday := d.day_mem
    simp only [daysInMonth] at hday
    by_contra hlarge
    rw [if_neg (by omega), if_neg (by omega), if_neg (by omega)] at hday
    omega
  have hwhole := daysBeforeMonth_mono d.year hmonth
  have hday := d.day_mem
  rw [daysBeforeMonth_succ] at hwhole
  rw [daysBeforeYear_succ] at hlast
  simp only [firstDay, lastDay, dayNumber]
  omega

/-- Every day has a first moment. -/
theorem exists_midnight (d : Date) : ∃ m, d.midnight? = some m ∧ m.date = d := by
  have hday : firstDay ≤ (d.dayNumber * 86400 + (0 : Nat) - 0) / 86400 ∧
      (d.dayNumber * 86400 + (0 : Nat) - 0) / 86400 ≤ lastDay := by
    have hsame : (d.dayNumber * 86400 + (0 : Nat) - 0) / 86400 = d.dayNumber := by omega
    rw [hsame]
    exact d.dayNumber_mem
  refine ⟨⟨d, 0, 0, 0, by decide, by decide, by decide, hday⟩, ?_, rfl⟩
  rw [midnight?, Moment.of?, dif_pos (by decide), dif_pos (by decide), dif_pos (by decide),
    dif_pos hday]

end Date

namespace Calendar

section

variable {least most n : Nat} {cs rest : List Char} {fields : Fields} {parts more : List Part}

theorem number_split (h : number least most cs = some (n, rest)) :
    ∃ ds, cs = ds ++ rest ∧ (∀ c ∈ ds, c.isDigit = true) ∧ least ≤ ds.length := by
  simp only [number] at h
  split at h
  next => cases h
  next hlen =>
    obtain ⟨-, rfl⟩ := Prod.mk.inj (Option.some.inj h)
    have hprefix : (cs.takeWhile Char.isDigit).take most <+: cs :=
      (List.take_prefix _ _).trans (List.takeWhile_prefix _)
    refine ⟨(cs.takeWhile Char.isDigit).take most, ?_, ?_, by omega⟩
    · obtain ⟨others, hothers⟩ := hprefix
      have hdrop := congrArg (List.drop ((cs.takeWhile Char.isDigit).take most).length) hothers
      rw [List.drop_left] at hdrop
      rw [← hdrop, hothers]
    · intro c hc
      have hall := List.all_takeWhile (p := Char.isDigit) (l := cs)
      exact List.all_eq_true.mp hall c (List.mem_of_mem_take hc)

theorem number_of_le {fewer : Nat} (h : number least most cs = some (n, rest))
    (hle : fewer ≤ least) :
    number fewer most cs = some (n, rest) := by
  simp only [number] at h ⊢
  split at h
  next => cases h
  next hlen =>
    rw [if_neg (by omega)]
    exact h

theorem starts_with_digit (h : number least most cs = some (n, rest)) (hpos : 0 < least) :
    ∃ c tail, cs = c :: tail ∧ c.isDigit = true := by
  obtain ⟨ds, rfl, hds, hlen⟩ := number_split h
  obtain ⟨c, ds, rfl⟩ := List.exists_cons_of_length_pos (show 0 < ds.length by omega)
  exact ⟨c, ds ++ rest, rfl, hds c List.mem_cons_self⟩

theorem readParts_append (fields : Fields) (cs : List Char) :
    readParts (parts ++ more) fields cs =
      (readParts parts fields cs).bind fun r => readParts more r.1 r.2 := by
  induction parts generalizing fields cs with
  | nil => rfl
  | cons part parts ih =>
    rw [List.cons_append, readParts, readParts, Option.bind_assoc]
    apply Option.bind_congr
    intro r _
    exact ih r.1 r.2

theorem readParts_cons_eq_some {part : Part} {r : Fields × List Char}
    (h : readParts (part :: parts) fields cs = some r) :
    ∃ fields' rest, part.read fields cs = some (fields', rest) ∧
      readParts parts fields' rest = some r := by
  obtain ⟨⟨fields', rest⟩, hread, hrest⟩ := Option.bind_eq_some_iff.mp h
  exact ⟨fields', rest, hread, hrest⟩

theorem readAll_eq_some {f : Fields} (h : readAll parts cs = some f) :
    readParts parts {} cs = some (f, []) := by
  unfold readAll at h
  split at h
  next hsome =>
    obtain rfl := Option.some.inj h
    exact hsome
  next => cases h

/-- A year, a month and a day, joined by hyphens, stand at the start of a text that goes on. -/
def Dated (cs : List Char) : Prop :=
  ∃ fields rest, readParts (yearMonthDay "-") {} cs = some (fields, rest) ∧ rest ≠ []

theorem dated_of_layout {layouts : List (List Part)} {m : Moment}
    (hl : ∀ parts ∈ layouts, ∃ more, parts = yearMonthDay "-" ++ more ∧
      ∀ fields, readParts more fields [] = none)
    (h : momentLayout? layouts cs = some m) : Dated cs := by
  obtain ⟨parts, hparts, hread⟩ := List.exists_of_findSome?_eq_some h
  obtain ⟨fields, hall, -⟩ := Option.bind_eq_some_iff.mp hread
  obtain ⟨more, rfl, hmore⟩ := hl parts hparts
  have hwhole := readAll_eq_some hall
  rw [readParts_append] at hwhole
  obtain ⟨⟨front, rest⟩, hfront, hrest⟩ := Option.bind_eq_some_iff.mp hwhole
  refine ⟨front, rest, hfront, ?_⟩
  rintro rfl
  rw [hmore front] at hrest
  cases hrest

theorem offsetLayouts_go_on : ∀ parts ∈ offsetLayouts, ∃ more, parts = yearMonthDay "-" ++ more ∧
    ∀ fields, readParts more fields [] = none := by
  simp only [offsetLayouts, List.forall_mem_cons, List.append_assoc]
  exact ⟨⟨_, rfl, fun _ => rfl⟩, ⟨_, rfl, fun _ => rfl⟩, by simp⟩

theorem localLayouts_go_on : ∀ parts ∈ localLayouts, ∃ more, parts = yearMonthDay "-" ++ more ∧
    ∀ fields, readParts more fields [] = none := by
  simp only [localLayouts, List.forall_mem_cons, List.append_assoc]
  exact ⟨⟨_, rfl, fun _ => rfl⟩, ⟨_, rfl, fun _ => rfl⟩, ⟨_, rfl, fun _ => rfl⟩,
    ⟨_, rfl, fun _ => rfl⟩, by simp⟩

/-- What is read with its full width is read without it too. -/
theorem number_short (h : number 2 2 cs = some (n, rest)) :
    number 1 2 (Unicode.trimLeft cs) = some (n, rest) := by
  obtain ⟨c, tail, rfl, hc⟩ := starts_with_digit h (by omega)
  rw [trimLeft_cons (Unicode.isBlank_of_isDigit hc)]
  exact number_of_le h (by omega)

theorem year_short (h : number 4 4 cs = some (n, rest)) :
    year (Unicode.trimLeft cs) = some ((n : Int), rest) := by
  obtain ⟨c, tail, rfl, hc⟩ := starts_with_digit h (by omega)
  rw [trimLeft_cons (Unicode.isBlank_of_isDigit hc), year_of_isDigit hc,
    number_of_le h (by omega), Option.map_some]

theorem dated_of_strict {m : Moment} (h : strict? cs = some m) : Dated cs := by
  unfold strict? at h
  obtain ⟨⟨y, afterYear⟩, hyear, h⟩ := Option.bind_eq_some_iff.mp h
  obtain ⟨⟨_, fromMonth⟩, hfirst, h⟩ := Option.bind_eq_some_iff.mp h
  obtain ⟨⟨month, afterMonth⟩, hmonth, h⟩ := Option.bind_eq_some_iff.mp h
  obtain ⟨⟨_, fromDay⟩, hsecond, h⟩ := Option.bind_eq_some_iff.mp h
  obtain ⟨⟨day, rest⟩, hday, h⟩ := Option.bind_eq_some_iff.mp h
  obtain ⟨_, hmark, -⟩ := Option.bind_eq_some_iff.mp h
  have hread : ∀ {cs rest : List Char} (fields : Fields), literal ['-'] cs = some ((), rest) →
      (Part.text "-").read fields cs = some (fields, rest) := by
    intro cs rest fields hliteral
    have hhyphen : "-".toList = ['-'] := rfl
    simp only [Part.read, hhyphen, hliteral, Option.map_some]
  have hyearRead : Part.year.read {} cs = some ({ year := y }, afterYear) := by
    simp only [Part.read, year_short hyear, Option.map_some]
  have hmonthRead : Part.month.read { year := y } fromMonth =
      some ({ year := y, month := month }, afterMonth) := by
    simp only [Part.read, number_short hmonth, Option.map_some]
  have hdayRead : Part.day.read { year := y, month := month } fromDay =
      some ({ year := y, month := month, day := day }, rest) := by
    simp only [Part.read, number_short hday, Option.map_some]
  have hparts : readParts (yearMonthDay "-") {} cs =
      some ({ year := y, month := month, day := day }, rest) := by
    rw [yearMonthDay, readParts_cons hyearRead, readParts_cons (hread _ hfirst),
      readParts_cons hmonthRead, readParts_cons (hread _ hsecond), readParts_cons hdayRead]
    rfl
  refine ⟨_, rest, hparts, ?_⟩
  rintro rfl
  cases hmark

/-- A character is neither a letter nor white space. -/
def Plain (c : Char) : Prop :=
  c.isAlpha = false ∧ Unicode.isBlank c = false

theorem plain_of_isDigit {c : Char} (h : c.isDigit = true) : Plain c := by
  have hrange : 48 ≤ c.toNat ∧ c.toNat ≤ 57 := by
    simpa [Char.isDigit, UInt32.le_iff_toNat_le] using h
  have hall : ∀ n ≤ 57, (Char.ofNat n).isAlpha = false := by decide
  have hchar := hall c.toNat hrange.2
  rw [Char.ofNat_toNat] at hchar
  exact ⟨hchar, Unicode.isBlank_of_isDigit h⟩

theorem plain_hyphen : Plain '-' :=
  ⟨by decide, Unicode.isBlank_of_graphic (by decide)⟩

theorem plain_plus : Plain '+' :=
  ⟨by decide, Unicode.isBlank_of_graphic (by decide)⟩

theorem plain_of_number (h : number least most cs = some (n, rest)) :
    ∃ ds, cs = ds ++ rest ∧ ∀ c ∈ ds, Plain c := by
  obtain ⟨ds, hcs, hds, -⟩ := number_split h
  exact ⟨ds, hcs, fun c hc => plain_of_isDigit (hds c hc)⟩

theorem year_split {y : Int} (h : year cs = some (y, rest)) :
    ∃ front, cs = front ++ rest ∧ ∀ c ∈ front, Plain c := by
  unfold year at h
  split at h
  all_goals
    obtain ⟨⟨n, after⟩, hn, heq⟩ := Option.map_eq_some_iff.mp h
    obtain ⟨-, rfl⟩ := Prod.mk.inj heq
    obtain ⟨ds, rfl, hds⟩ := plain_of_number hn
  · exact ⟨'-' :: ds, rfl, List.forall_mem_cons.mpr ⟨plain_hyphen, hds⟩⟩
  · exact ⟨'+' :: ds, rfl, List.forall_mem_cons.mpr ⟨plain_plus, hds⟩⟩
  · exact ⟨ds, rfl, hds⟩

/-- A year is followed by a hyphen where a text is dated. -/
theorem Dated.hyphen (h : Dated cs) : ∃ fields front tail,
    Part.year.read {} cs = some (fields, '-' :: tail) ∧
      Unicode.trimLeft cs = front ++ '-' :: tail ∧ ∀ c ∈ front, Plain c := by
  obtain ⟨_, _, hparts, -⟩ := h
  obtain ⟨fields, afterYear, hyear, hparts⟩ := readParts_cons_eq_some hparts
  obtain ⟨_, afterHyphen, hhyphen, -⟩ := readParts_cons_eq_some hparts
  have hcons : ∃ tail, afterYear = '-' :: tail := by
    obtain ⟨_, hliteral, -⟩ := Option.map_eq_some_iff.mp hhyphen
    simp only [literal] at hliteral
    split at hliteral
    next hprefix =>
      obtain ⟨tail, rfl⟩ := List.isPrefixOf_iff_prefix.mp hprefix
      exact ⟨tail, rfl⟩
    next => cases hliteral
  obtain ⟨tail, rfl⟩ := hcons
  obtain ⟨⟨y, after⟩, hy, heq⟩ := Option.map_eq_some_iff.mp hyear
  obtain ⟨-, rfl⟩ := Prod.mk.inj heq
  obtain ⟨front, hfront, hplain⟩ := year_split hy
  exact ⟨fields, front, tail, hyear, hfront, hplain⟩

theorem isAlpha_of_startsWithName {name : List Char} (h : startsWithName name cs = true)
    (hname : name.head?.any Char.isLower = true) : ∃ c tail, cs = c :: tail ∧ c.isAlpha = true := by
  cases name with
  | nil => cases hname
  | cons e es =>
    cases cs with
    | nil => cases h
    | cons c tail =>
      refine ⟨c, tail, rfl, ?_⟩
      have hlower : e.isLower = true := hname
      have hsame : e = c.toLower := by
        simp only [startsWithName, List.map_cons, List.isPrefixOf_cons_cons, Bool.and_eq_true,
          beq_iff_eq] at h
        exact h.1
      unfold Char.toLower at hsame
      split at hsame
      next hrange =>
        have hupper := Unicode.isUpper_iff.mpr (by simpa [UInt32.le_iff_toNat_le] using hrange)
        exact Unicode.isAlpha_iff.mpr (.inl hupper)
      next =>
        subst hsame
        exact Unicode.isAlpha_iff.mpr (.inr hlower)

theorem monthNames_lower :
    monthNames.all (fun name => name.1.toList.head?.any Char.isLower) = true := by
  decide +kernel

/-- Where the name of a month is read, there is a letter. -/
theorem isAlpha_of_name {part : Part} (hp : part = .monthName ∨ part = .shortMonthName)
    {r : Fields × List Char} (h : part.read fields cs = some r) :
    ∃ c tail, cs = c :: tail ∧ c.isAlpha = true := by
  have hletter : ∀ name, monthNames.zipIdx.find?
      (fun name => startsWithName name.1.1.toList cs) = some name →
        ∃ c tail, cs = c :: tail ∧ c.isAlpha = true := by
    intro name hfound
    have hmem := List.mem_of_find?_eq_some hfound
    have hname := List.all_eq_true.mp monthNames_lower name.1 (List.fst_mem_of_mem_zipIdx hmem)
    have hstarts := List.find?_some hfound
    exact isAlpha_of_startsWithName hstarts hname
  rcases hp with rfl | rfl
  · obtain ⟨_, hlong, -⟩ := Option.map_eq_some_iff.mp h
    obtain ⟨name, hfound, -⟩ := Option.map_eq_some_iff.mp hlong
    exact hletter name hfound
  · obtain ⟨_, hshort, -⟩ := Option.map_eq_some_iff.mp h
    obtain ⟨name, hfound, -⟩ := Option.map_eq_some_iff.mp hshort
    exact hletter name hfound

theorem isBlank_of_isAlpha {c : Char} (h : c.isAlpha = true) : Unicode.isBlank c = false := by
  have hrange : (65 ≤ c.toNat ∧ c.toNat ≤ 90) ∨ (97 ≤ c.toNat ∧ c.toNat ≤ 122) :=
    (Unicode.isAlpha_iff.mp h).imp Unicode.isUpper_iff.mp Unicode.isLower_iff.mp
  exact Unicode.isBlank_of_graphic (by omega)

theorem not_dated_of_name {part : Part} (hp : part = .monthName ∨ part = .shortMonthName)
    {r : Fields × List Char} (h : part.read fields cs = some r) : ¬Dated cs := by
  intro hdated
  obtain ⟨c, tail, rfl, hc⟩ := isAlpha_of_name hp h
  obtain ⟨_, front, rest, -, htrim, hfront⟩ := hdated.hyphen
  rw [trimLeft_cons (isBlank_of_isAlpha hc)] at htrim
  have hplain : Plain c := by
    cases front with
    | nil =>
      obtain ⟨rfl, -⟩ := List.cons.inj htrim
      exact plain_hyphen
    | cons e front =>
      obtain ⟨rfl, -⟩ := List.cons.inj htrim
      exact hfront c List.mem_cons_self
  rw [hplain.1] at hc
  cases hc

/-- After a day, more digits or a hyphen come before any name. -/
theorem not_dated_of_day {part : Part} (hp : part = .monthName ∨ part = .shortMonthName)
    {r : Fields × List Char} (h : readParts (.day :: .blank :: part :: parts) fields cs = some r) :
    ¬Dated cs := by
  intro hdated
  obtain ⟨_, afterDay, hday, h⟩ := readParts_cons_eq_some h
  obtain ⟨_, afterBlank, hblank, h⟩ := readParts_cons_eq_some h
  obtain ⟨_, _, hname, -⟩ := readParts_cons_eq_some h
  obtain ⟨-, rfl⟩ := Prod.mk.inj (Option.some.inj hblank)
  obtain ⟨c, tail, hletter, hc⟩ := isAlpha_of_name hp hname
  obtain ⟨⟨n, after⟩, hn, heq⟩ := Option.map_eq_some_iff.mp hday
  obtain ⟨-, rfl⟩ := Prod.mk.inj heq
  obtain ⟨ds, hds, hdigits, -⟩ := number_split hn
  obtain ⟨_, front, rest, -, htrim, hfront⟩ := hdated.hyphen
  have hplain : ∃ e others, after = e :: others ∧ Plain e := by
    rw [htrim] at hds
    rcases List.append_eq_append_iff.mp hds with ⟨middle, hlong, hrest⟩ | ⟨middle, hlong, hrest⟩
    · cases middle with
      | nil => exact ⟨'-', rest, hrest.symm, plain_hyphen⟩
      | cons e others =>
        obtain ⟨rfl, -⟩ := List.cons.inj hrest
        have hdigit := hdigits '-' (by simp [hlong])
        cases hdigit
    · cases middle with
      | nil => exact ⟨'-', rest, hrest, plain_hyphen⟩
      | cons e others =>
        have he := hfront e (by simp [hlong])
        exact ⟨e, others ++ '-' :: rest, hrest, he⟩
  obtain ⟨e, others, rfl, hplain⟩ := hplain
  rw [trimLeft_cons hplain.2] at hletter
  obtain ⟨rfl, -⟩ := List.cons.inj hletter
  rw [hplain.1] at hc
  cases hc

theorem not_dated_of_date {f : Fields} (hparts : parts ∈ dateLayouts)
    (h : readAll parts cs = some f) : ¬Dated cs := by
  have hread := readAll_eq_some h
  simp only [dateLayouts, List.mem_cons, List.not_mem_nil, or_false] at hparts
  rcases hparts with rfl | rfl | rfl | rfl | rfl
  · rintro ⟨_, rest, hdated, hrest⟩
    rw [hdated] at hread
    exact hrest (Prod.mk.inj (Option.some.inj hread)).2
  · intro hdated
    obtain ⟨_, _, _, hyear, -⟩ := hdated.hyphen
    rw [yearMonthDay, readParts_cons hyear] at hread
    cases hread
  · exact not_dated_of_day (.inl rfl) hread
  · obtain ⟨_, _, hname, -⟩ := readParts_cons_eq_some hread
    exact not_dated_of_name (.inl rfl) hname
  · exact not_dated_of_day (.inr rfl) hread

/-- A text that is read as a date in one of its layouts is in no layout of moments. -/
theorem moment?_of_dateLayout? {s : String} {d : Date}
    (h : dateLayout? (Unicode.trim s.toList) = some d) : moment? s = d.midnight? := by
  have hnot : ¬Dated (Unicode.trim s.toList) := by
    obtain ⟨parts, hparts, hread⟩ := List.exists_of_findSome?_eq_some h
    obtain ⟨f, hall, -⟩ := Option.bind_eq_some_iff.mp hread
    exact not_dated_of_date hparts hall
  have hstrict : strict? (Unicode.trim s.toList) = none := by
    apply Option.eq_none_iff_forall_ne_some.mpr
    intro m hm
    exact hnot (dated_of_strict hm)
  have hoffset : momentLayout? offsetLayouts (Unicode.trim s.toList) = none := by
    apply Option.eq_none_iff_forall_ne_some.mpr
    intro m hm
    exact hnot (dated_of_layout offsetLayouts_go_on hm)
  have hlocal : momentLayout? localLayouts (Unicode.trim s.toList) = none := by
    apply Option.eq_none_iff_forall_ne_some.mpr
    intro m hm
    exact hnot (dated_of_layout localLayouts_go_on hm)
  simp only [moment?, hstrict, hoffset, hlocal, h, Option.none_or, Option.bind_some]

/-- A text is read as the date of the moment that it is read as. -/
theorem date?_eq (s : String) : date? s = (moment? s).map Moment.date := by
  cases h : dateLayout? (Unicode.trim s.toList) with
  | none => simp only [date?, h, Option.none_or]
  | some d =>
    obtain ⟨m, hm, rfl⟩ := d.exists_midnight
    rw [moment?_of_dateLayout? h, hm]
    simp only [date?, h, Option.some_or, Option.map_some]

end

end Calendar

end Conform
