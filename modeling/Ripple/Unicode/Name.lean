import Ripple.Unicode.Break

/-!
Properties by name. Names are compared without regard to case, blanks, hyphens, underscores and a
leading `is`. A name alone is a binary property, a general category or a script; a name with a value
is a general category, a script, a list of scripts, an age or a break property.
-/

namespace Ripple.CharSet

open Unicode

/-- The binary properties, each with its names in normal form. -/
def binaryProperties : List (List String × CharSet) :=
  [(["alpha", "alphabetic"], alphabetic),
   (["ci", "caseignorable"],
     union (categories [.mn, .me, .cf, .lm, .sk]) (listed Listed.caseIgnorablePunctuation)),
   (["cased"], cased),
   (["di", "defaultignorablecodepoint"], defaultIgnorable),
   (["grbase", "graphemebase"],
     compl (union (categories [.cc, .cf, .cs, .co, .cn, .zl, .zp]) graphemeExtend)),
   (["grext", "graphemeextend"], graphemeExtend),
   (["grlink", "graphemelink"], listed Listed.graphemeLink),
   (["idc", "idcontinue"], idContinue),
   (["ids", "idstart"], idStart),
   (["joinc", "joincontrol"], listed Listed.joinControl),
   (["lower", "lowercase"], lowercase),
   (["math"], union (category .sm) (listed Listed.otherMath)),
   (["oalpha", "otheralphabetic"], listed Listed.otherAlphabetic),
   (["odi", "otherdefaultignorablecodepoint"], listed Listed.otherDefaultIgnorable),
   (["ogrext", "othergraphemeextend"], listed Listed.otherGraphemeExtend),
   (["oidc", "otheridcontinue"], listed Listed.otherIdContinue),
   (["oids", "otheridstart"], listed Listed.otherIdStart),
   (["olower", "otherlowercase"], listed Listed.otherLowercase),
   (["omath", "othermath"], listed Listed.otherMath),
   (["oupper", "otheruppercase"], listed Listed.otherUppercase),
   (["upper", "uppercase"], uppercase),
   (["wspace", "whitespace", "space"], listed Listed.whiteSpace),
   (["xidc", "xidcontinue"], diff idContinue (listed Listed.unstableIdContinue)),
   (["xids", "xidstart"], diff idStart (listed Listed.unstableIdStart)),
   (["ahex", "asciihexdigit"], listed Listed.asciiHexDigit),
   (["bidic", "bidicontrol"], listed Listed.bidiControl),
   (["bidim", "bidimirrored"], listed Listed.bidiMirrored),
   (["cwcf", "changeswhencasefolded"], listed Listed.changesWhenCasefolded),
   (["cwcm", "changeswhencasemapped"], listed Listed.changesWhenCasemapped),
   (["cwl", "changeswhenlowercased"], listed Listed.changesWhenLowercased),
   (["cwt", "changeswhentitlecased"], listed Listed.changesWhenTitlecased),
   (["cwu", "changeswhenuppercased"], listed Listed.changesWhenUppercased),
   (["dash"], listed Listed.dash),
   (["dep", "deprecated"], listed Listed.deprecated),
   (["dia", "diacritic"], listed Listed.diacritic),
   (["emoji"], listed Listed.emoji),
   (["ecomp", "emojicomponent"], listed Listed.emojiComponent),
   (["emod", "emojimodifier"], listed Listed.emojiModifier),
   (["ebase", "emojimodifierbase"], listed Listed.emojiModifierBase),
   (["epres", "emojipresentation"], listed Listed.emojiPresentation),
   (["extpict", "extendedpictographic"], listed Listed.extendedPictographic),
   (["ext", "extender"], listed Listed.extender),
   (["hex", "hexdigit"], listed Listed.hexDigit),
   (["hyphen"], listed Listed.hyphen),
   (["idcompatmathcontinue"], listed Listed.idCompatMathContinue),
   (["idcompatmathstart"], listed Listed.idCompatMathStart),
   (["idsb", "idsbinaryoperator"], listed Listed.idsBinaryOperator),
   (["idst", "idstrinaryoperator"], listed Listed.idsTrinaryOperator),
   (["idsu", "idsunaryoperator"], listed Listed.idsUnaryOperator),
   (["ideo", "ideographic"], listed Listed.ideographic),
   (["loe", "logicalorderexception"], listed Listed.logicalOrderException),
   (["mcm", "modifiercombiningmark"], listed Listed.modifierCombiningMark),
   (["nchar", "noncharactercodepoint"], listed Listed.noncharacterCodePoint),
   (["patsyn", "patternsyntax"], listed Listed.patternSyntax),
   (["patws", "patternwhitespace"], listed Listed.patternWhiteSpace),
   (["pcm", "prependedconcatenationmark"], listed Listed.prependedConcatenationMark),
   (["qmark", "quotationmark"], listed Listed.quotationMark),
   (["radical"], listed Listed.radical),
   (["ri", "regionalindicator"], listed Listed.regionalIndicator),
   (["sterm", "sentenceterminal"], listed Listed.sentenceTerminal),
   (["sd", "softdotted"], listed Listed.softDotted),
   (["term", "terminalpunctuation"], listed Listed.terminalPunctuation),
   (["uideo", "unifiedideograph"], listed Listed.unifiedIdeograph),
   (["vs", "variationselector"], listed Listed.variationSelector)
]

/-- The general categories and their groups, each with its names in normal form. -/
def generalCategories : List (List String × CharSet) :=
  [(["any"], any),
   (["ascii"], range '\x00' '\x7F'),
   (["assigned"], compl (category .cn)),
   (["c", "other"], categories [.cc, .cf, .cn, .co, .cs]),
   (["cc", "control", "cntrl"], category .cc),
   (["cf", "format"], category .cf),
   (["cn", "unassigned"], category .cn),
   (["co", "privateuse"], category .co),
   (["l", "letter"], categories [.lu, .ll, .lt, .lm, .lo]),
   (["lc", "casedletter"], categories [.lu, .ll, .lt]),
   (["ll", "lowercaseletter"], category .ll),
   (["lm", "modifierletter"], category .lm),
   (["lo", "otherletter"], category .lo),
   (["lt", "titlecaseletter"], category .lt),
   (["lu", "uppercaseletter"], category .lu),
   (["m", "mark", "combiningmark"], categories [.mn, .mc, .me]),
   (["mc", "spacingmark"], category .mc),
   (["me", "enclosingmark"], category .me),
   (["mn", "nonspacingmark"], category .mn),
   (["n", "number"], categories [.nd, .nl, .no]),
   (["nd", "decimalnumber", "digit"], category .nd),
   (["nl", "letternumber"], category .nl),
   (["no", "othernumber"], category .no),
   (["p", "punctuation", "punct"], categories [.pc, .pd, .ps, .pe, .pi, .pf, .po]),
   (["pc", "connectorpunctuation"], category .pc),
   (["pd", "dashpunctuation"], category .pd),
   (["pe", "closepunctuation"], category .pe),
   (["pf", "finalpunctuation"], category .pf),
   (["pi", "initialpunctuation"], category .pi),
   (["po", "otherpunctuation"], category .po),
   (["ps", "openpunctuation"], category .ps),
   (["s", "symbol"], categories [.sm, .sc, .sk, .so]),
   (["sc", "currencysymbol"], category .sc),
   (["sk", "modifiersymbol"], category .sk),
   (["sm", "mathsymbol"], category .sm),
   (["so", "othersymbol"], category .so),
   (["z", "separator"], categories [.zs, .zl, .zp]),
   (["zl", "lineseparator"], category .zl),
   (["zp", "paragraphseparator"], category .zp),
   (["zs", "spaceseparator"], category .zs)]

/-- The normal form of a name. The abbreviation `isc` is kept, as its tail names a category. -/
def normalName (name : String) : String :=
  let (stripped, tail) := match name.toList with
    | i :: s :: tail =>
      if (i = 'i' || i = 'I') && (s = 's' || s = 'S') then (true, tail) else (false, name.toList)
    | short => (false, short)
  let kept := tail.filter fun c => c.toNat < 128 && c != ' ' && c != '_' && c != '-'
  let lower := kept.map Char.toLower
  if stripped && lower = ['c'] then "isc" else String.ofList lower

def findNamed (table : List (List String × CharSet)) (name : String) : Option CharSet :=
  (table.find? fun row => row.1.contains name).map Prod.snd

/-- The four-letter code of a script given by any of its names, in normal form. -/
def scriptCode? (name : String) : Option String :=
  (Script.names.find? fun names => names.any fun n => normalName n = name).bind List.head?

/-- The set that a property name alone stands for. Three abbreviations name both a category and a
property with values; they stand for the category. -/
def ofProperty? (name : String) : Option CharSet :=
  let name := normalName name
  let asBinary :=
    if name = "cf" || name = "sc" || name = "lc" then Option.none
    else findNamed binaryProperties name
  asBinary.or (findNamed generalCategories name) |>.or ((scriptCode? name).map script)

/-- The set of characters whose property `name` has the given value. -/
def ofPropertyValue? (name value : String) : Option CharSet :=
  let name := normalName name
  let value := normalName value
  if name = "gc" || name = "generalcategory" then findNamed generalCategories value
  else if name = "sc" || name = "script" then (scriptCode? value).map script
  else if name = "scx" || name = "scriptextensions" then (scriptCode? value).map scriptExtension
  else if name = "age" then
    (Age.versions.find? fun v =>
      v = value || "v" ++ String.ofList (v.toList.filter (· != '.')) = value).map age
  else if name = "gcb" || name = "graphemeclusterbreak" then findNamed graphemeBreaks value
  else if name = "wb" || name = "wordbreak" then findNamed wordBreaks value
  else if name = "sb" || name = "sentencebreak" then findNamed sentenceBreaks value
  else Option.none

end Ripple.CharSet
