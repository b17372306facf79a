import Conform.CharSet.Named
import Conform.Unicode.Blank
import Conform.Unicode.Derived
import Conform.Unicode.Emoji
import Conform.Unicode.Script

namespace Conform.Unicode

def jamoLeads : CharSet := .written "1100-115F A960-A97C"

def jamoVowels : CharSet := .written "1160-11A7 D7B0-D7C6 16D63 16D67-16D6A"

def jamoTails : CharSet := .written "11A8-11FF D7CB-D7FB"

/-- Syllables without a consonant at the end. -/
def openSyllables : CharSet := .written "AC00-D788/1C"

def closedSyllables : CharSet := .written "AC00-D7A3" \ openSyllables

/-- What the grapheme after it belongs to. -/
def prepended : CharSet := .written "
  600-605 6DD 70F 890-891 8E2 D4E 110BD 110CD 111C2-111C3 113D1 1193F 11941 11A3A 11A84-11A89
  11D46 11F02"

/-- Marks that take space and do not belong to the grapheme before them. -/
def looseMarks : CharSet := .written "
  102B-102C 1038 1062-1064 1067-106D 1083 1087-108C 108F 109A-109C 1A61 1A63-1A64 AA7B AA7D
  11720-11721"

def graphemeClasses : List NamedSet :=
  let joined := (extending ∪ emojiModifiers) \ .one '\u200d'
  let layout :=
    .unions [lineSeparators, paragraphSeparators, controls, unassigned ∩ ignorable, formats]
  [(["cr"], .one '\r'), (["lf"], .one '\n'), (["zwj"], .one '\u200d'),
   (["control", "cn"], layout \ .unions [.written "A D 200C-200D", prependedMarks, joined]),
   (["extend", "ex"], joined),
   (["spacingmark", "sm"], (spacingMarks ∪ .written "E33 EB3") \ (joined ∪ looseMarks)),
   (["prepend", "pp"], prepended), (["regionalindicator", "ri"], regionalIndicators),
   (["l"], jamoLeads), (["v"], jamoVowels), (["t"], jamoTails),
   (["lv"], openSyllables), (["lvt"], closedSyllables)]

/-- Marks, and what else extends the word or the sentence before it. -/
def attached : CharSet := extending ∪ spacingMarks

def wordNumbers : CharSet := digits ∪ (prependedMarks \ .written "70F") ∪ .written "66B 19DA"

/-- What is a letter within words though it is not alphabetic. -/
def letterlike : CharSet := .written "
  B8 2C2-2C5 2D2-2D7 2DE-2DF 2E5-2EB 2ED 2EF-2FF 55A-55C 55E 58A 5F3 70F A708-A716 A720-A721
  A789-A78A AB5B"

/-- Letters of scripts that leave no space between words. -/
def unspaced : CharSet := .written "
  E01-E30 E32-E33 E40-E46 E81-E82 E84 E86-E8A E8C-EA3 EA5 EA7-EB0 EB2-EB3 EBD EC0-EC4 EC6 EDC-EDF
  1000-102A 103F 1050-1055 105A-105D 1061 1065-1066 106E-1070 1075-1081 108E 1780-17B3 17D7 17DC
  1950-196D 1970-1974 1980-19AB 19B0-19C9 1A20-1A54 1AA7 A9E0-A9E4 A9E6-A9EF A9FA-A9FE AA60-AA76
  AA7A AA7E-AAAF AAB1 AAB5-AAB6 AAB9-AABD AAC0 AAC2 AADB-AADD 11700-1171A 11740-11746"

def wordClasses : List NamedSet :=
  let joined := (attached ∪ emojiModifiers) \ .one '\u200d'
  let own (name : String) := ((Script.named? name).map Script.own).getD .none
  let hebrew := own "hebrew" ∩ otherLetters
  let katakana := own "katakana" ∪ .written "3031-3035 309B-309C 30A0 30FC FF70"
  let other := .unions [ideographic, katakana, own "hiragana", hebrew, joined, unspaced]
  [(["cr"], .one '\r'), (["lf"], .one '\n'), (["zwj"], .one '\u200d'),
   (["newline", "nl"], .written "B-C 85 2028-2029"),
   (["wsegspace"], .written "20 1680 2000-2006 2008-200A 205F 3000"),
   (["extend"], joined),
   (["format", "fo"], formats \ .unions [.written "200B-200D", prependedMarks, joined]),
   (["regionalindicator", "ri"], regionalIndicators),
   (["aletter", "le"], (alphabetic \ other) ∪ letterlike),
   (["hebrewletter", "hl"], hebrew), (["katakana", "ka"], katakana),
   (["numeric", "nu"], wordNumbers),
   (["singlequote", "sq"], .one '\x27'), (["doublequote", "dq"], .one '"'),
   (["midletter", "ml"], midLetters), (["midnumlet", "mb"], midBoth),
   (["midnum", "mn"], midNumbers),
   (["extendnumlet", "ex"], .written "5F 202F 203F-2040 2054 FE33-FE34 FE4D-FE4F FF3F")]

def continuing : CharSet := .written "
  2C-2D 3A-3B 37E 55D 60C-60D 7F8 1802 1808 2013-2014 3001 FE10-FE11 FE13-FE14 FE31-FE32 FE50-FE51
  FE54-FE55 FE58 FE63 FF0C-FF0D FF1A-FF1B FF64"

def sentenceClasses : List NamedSet :=
  let joined := attached ∪ .one '\u200d'
  let numbers := wordNumbers ∪ .written "66C"
  let lower := (lowercase \ extending) \ .written "10D0-10FA 10FD-10FF"
  let upper := (uppercase ∪ titleLetters) \ .written "1C90-1CBA 1CBD-1CBF"
  let stops : CharSet := .written "2E 2024 FE52 FF0E"
  [(["cr"], .one '\r'), (["lf"], .one '\n'), (["sep", "se"], .written "85 2028-2029"),
   (["sp"], blanks \ .written "A D 85 2028-2029"), (["extend", "ex"], joined),
   (["format", "fo"], formats \ .unions [.written "200C-200D", joined, numbers]),
   (["lower", "lo"], lower), (["upper", "up"], upper),
   (["oletter", "le"], (alphabetic \ .unions [lower, upper, joined]) ∪ .written "5F3"),
   (["numeric", "nu"], numbers), (["aterm", "at"], stops),
   (["sterm", "st"], sentenceTerminals \ stops), (["scontinue", "sc"], continuing),
   (["close", "cl"], .unions [openings, closings, initialQuotes, finalQuotes,
      .written "22 27 275B-2760 2E00-2E01 2E06-2E08 2E0B 1F676-1F678"])]

end Conform.Unicode
