import Conform.Unicode.Age
import Conform.Unicode.Segment

namespace Conform.Unicode

def categories : List NamedSet := [
  (["any"], .all), (["ascii"], .range 0 0x7F), (["assigned"], unassigned.compl),
  (["l", "letter"], letters), (["lc", "casedletter"], casedLetters),
  (["lu", "uppercaseletter"], upperLetters), (["ll", "lowercaseletter"], lowerLetters),
  (["lt", "titlecaseletter"], titleLetters), (["lm", "modifierletter"], modifierLetters),
  (["lo", "otherletter"], otherLetters),
  (["m", "mark", "combiningmark"], marks), (["mn", "nonspacingmark"], nonspacingMarks),
  (["mc", "spacingmark"], spacingMarks), (["me", "enclosingmark"], enclosingMarks),
  (["n", "number"], numbers), (["nd", "decimalnumber", "digit"], digits),
  (["nl", "letternumber"], letterNumbers), (["no", "othernumber"], otherNumbers),
  (["p", "punctuation", "punct"], punctuation), (["pc", "connectorpunctuation"], connectors),
  (["pd", "dashpunctuation"], dashPunctuation), (["ps", "openpunctuation"], openings),
  (["pe", "closepunctuation"], closings), (["pi", "initialpunctuation"], initialQuotes),
  (["pf", "finalpunctuation"], finalQuotes), (["po", "otherpunctuation"], otherPunctuation),
  (["s", "symbol"], symbols), (["sm", "mathsymbol"], mathSymbols),
  (["sc", "currencysymbol"], currencySymbols), (["sk", "modifiersymbol"], modifierSymbols),
  (["so", "othersymbol"], otherSymbols),
  (["z", "separator"], separators), (["zs", "spaceseparator"], spaceSeparators),
  (["zl", "lineseparator"], lineSeparators), (["zp", "paragraphseparator"], paragraphSeparators),
  (["c", "other"], others), (["cc", "control", "cntrl"], controls), (["cf", "format"], formats),
  (["cn", "unassigned"], unassigned), (["co", "privateuse"], privateUse)]

def properties : List NamedSet := [
  (["asciihexdigit", "ahex"], asciiHexDigits), (["alphabetic", "alpha"], alphabetic),
  (["bidicontrol", "bidic"], bidiControls), (["bidimirrored", "bidim"], bidiMirrored),
  (["caseignorable", "ci"], caseIgnorable), (["cased"], cased),
  (["changeswhencasefolded", "cwcf"], changedByFolding),
  (["changeswhencasemapped", "cwcm"], changedByCase),
  (["changeswhenlowercased", "cwl"], changedByLower),
  (["changeswhentitlecased", "cwt"], changedByTitle),
  (["changeswhenuppercased", "cwu"], changedByUpper),
  (["dash"], dashes), (["defaultignorablecodepoint", "di"], ignorable),
  (["deprecated", "dep"], deprecated), (["diacritic", "dia"], diacritics), (["emoji"], emoji),
  (["emojicomponent", "ecomp"], emojiParts), (["emojimodifier", "emod"], emojiModifiers),
  (["emojimodifierbase", "ebase"], emojiBases), (["emojipresentation", "epres"], emojiPictures),
  (["extendedpictographic", "extpict"], pictographs), (["extender", "ext"], extenders),
  (["graphemebase", "grbase"], graphemeBases), (["graphemeextend", "grext"], extending),
  (["graphemelink", "grlink"], graphemeLinks), (["hexdigit", "hex"], hexDigits),
  (["hyphen"], hyphens), (["idsbinaryoperator", "idsb"], binaryDescriptions),
  (["idstrinaryoperator", "idst"], trinaryDescriptions),
  (["idsunaryoperator", "idsu"], unaryDescriptions),
  (["idcompatmathcontinue"], mathNameParts), (["idcompatmathstart"], mathNameStarts),
  (["idcontinue", "idc"], nameParts), (["idstart", "ids"], nameStarts),
  (["ideographic", "ideo"], ideographic), (["joincontrol", "joinc"], joinControls),
  (["logicalorderexception", "loe"], writtenBefore), (["lowercase", "lower"], lowercase),
  (["math"], math), (["modifiercombiningmark", "mcm"], modifierMarks),
  (["noncharactercodepoint", "nchar"], noncharacters),
  (["otheralphabetic", "oalpha"], extraAlphabetic),
  (["otherdefaultignorablecodepoint", "odi"], extraIgnorable),
  (["othergraphemeextend", "ogrext"], extraExtending),
  (["otheridcontinue", "oidc"], extraNameParts), (["otheridstart", "oids"], extraNameStarts),
  (["otherlowercase", "olower"], extraLower), (["othermath", "omath"], extraMath),
  (["otheruppercase", "oupper"], extraUpper), (["patternsyntax", "patsyn"], patternSyntax),
  (["patternwhitespace", "patws"], patternBlanks),
  (["prependedconcatenationmark", "pcm"], prependedMarks),
  (["quotationmark", "qmark"], quotationMarks),
  (["radical"], radicals), (["regionalindicator", "ri"], regionalIndicators),
  (["sentenceterminal", "sterm"], sentenceTerminals), (["softdotted", "sd"], softDotted),
  (["terminalpunctuation", "term"], terminalPunctuation),
  (["unifiedideograph", "uideo"], unifiedIdeographs), (["uppercase", "upper"], uppercase),
  (["variationselector", "vs"], variationSelectors), (["whitespace", "wspace", "space"], blanks),
  (["xidcontinue", "xidc"], stableNameParts), (["xidstart", "xids"], stableNameStarts)]

/-- A name in lower case, without what may be left out of it: a first word `is`, blanks, hyphens,
low lines and all that is not ASCII. One name would be taken for another without its first word. -/
def plainName (name : String) : String :=
  let plain (cs : List Char) :=
    cs.filter fun c => c.toNat < 0x80 && c ≠ ' ' && c ≠ '-' && c ≠ '_'
  String.ofList
    (match name.toList.map Char.toLower with
    | 'i' :: 's' :: rest => if plain rest = ['c'] then ['i', 's', 'c'] else plain rest
    | cs => plain cs)

/-- The characters with a property, in a category or of a script. -/
def ofName? (name : String) : Option CharSet :=
  let plain := plainName name
  ((NamedSet.find? properties plain).or (NamedSet.find? categories plain)).or
    ((Script.named? plain).map Script.own)

/-- The characters for which a property has a value. -/
def ofValue? (name value : String) : Option CharSet :=
  let value := plainName value
  match plainName name with
  | "gc" | "generalcategory" => NamedSet.find? categories value
  | "sc" | "script" => (Script.named? value).map Script.own
  | "scx" | "scriptextensions" => (Script.named? value).map Script.used
  | "age" => since? value
  | "gcb" | "graphemeclusterbreak" => NamedSet.find? graphemeClasses value
  | "wb" | "wordbreak" => NamedSet.find? wordClasses value
  | "sb" | "sentencebreak" => NamedSet.find? sentenceClasses value
  | _ => none

end Conform.Unicode
