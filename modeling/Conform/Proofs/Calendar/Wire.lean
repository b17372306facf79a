import Conform.Calendar.Reader
import Conform.Proofs.Calendar.Clock

namespace Conform.Calendar

open Text

/-- A date is read back from its text. -/
theorem wireDate?_text (d : Date) : wireDate? d.text = some d := by
  have hread : readParts [.year, .blank, .text "-", .month, .blank, .text "-", .day, .blank] {}
      (d.text.toList ++ []) = some ({ year := d.year, month := d.month, day := d.day }, []) :=
    readParts_dateText d noDigit_nil
  rw [List.append_nil] at hread
  unfold wireDate? readAll
  rw [hread]
  exact date_of? d

theorem toList_shortText (m : Moment) :
    m.shortText.toList = m.date.text.toList ++ 'T' :: (clockChars m ++ offsetChars m.offset) := by
  have hoffset : (if m.offset = 0 then "Z" else Moment.offsetText m.offset).toList =
      offsetChars m.offset := by
    unfold offsetChars
    split
    · rfl
    · unfold Moment.offsetText
      split <;> simp [toList_padded]
  rw [Moment.shortText, String.toList_append, hoffset]
  simp [Moment.localText, clockChars, toList_padded]

/-- A moment is read back from its text, if that tells the offset. -/
theorem wireMoment?_shortText {m : Moment} (h : m.onMinute = true) :
    wireMoment? m.shortText = some m := by
  obtain ⟨c, cs, hchars, hc, htrim, hutc⟩ := offsetChars_cons m.offset
  have hoffset := offsetOrZulu_offsetChars looseColon_colon m.offset_mem (of_decide_eq_true h)
  have hdate : readParts [.year, .blank, .text "-", .month, .blank, .text "-", .day] {}
      m.shortText.toList = some
        ({ year := m.date.year, month := m.date.month, day := m.date.day },
          'T' :: (clockChars m ++ c :: cs)) := by
    rw [toList_shortText, hchars]
    exact readParts_dateText m.date (noDigit_cons (by decide) _)
  have hmark : dateTimeMark ('T' :: (clockChars m ++ c :: cs)) =
      some ((), clockChars m ++ c :: cs) := rfl
  rw [hchars] at hoffset
  unfold wireMoment?
  rw [hdate]
  simp only [Option.bind_eq_bind, Option.bind_some, hmark]
  rw [readParts_clock m _ hc htrim]
  simp only [Option.bind_some, hutc, Bool.false_eq_true, ↓reduceIte, hoffset]
  exact moment?_fields m

theorem toList_offsetText (offset : Int) : (Moment.offsetText offset).toList =
    (if offset < 0 then '-' else '+') :: (paddedDigits 2 (Moment.minutes offset / 60) ++
      ':' :: paddedDigits 2 (Moment.minutes offset % 60)) := by
  unfold Moment.offsetText
  split <;> simp [toList_padded]

section

variable {a b : Int}

end

end Conform.Calendar
