import Ripple.Unicode.Derived

/-!
Break properties: the classes of characters from which the standard decides where a grapheme, a word
and a sentence ends. Each table gives the classes with their names in normal form; a character in no
class of a table is an ordinary one.
-/

namespace Ripple.CharSet

open Unicode

/-- The set of one code point. -/
def point (x : Nat) : CharSet := single (Char.ofNat x)

/-- The code points in words `lo-hi` or `lo`, in hexadecimal digits and ascending order. -/
def points (lines : List String) : CharSet := listed (Table.ofRanges lines)

def graphemeBreakExtend : CharSet := union graphemeExtend (listed Listed.emojiModifier)

/-- Letters that belong to the grapheme of the letter behind them. -/
def graphemeBreakPrepend : CharSet :=
  union (listed Listed.prependedConcatenationMark)
    (points ["d4e 111c2-111c3 113d1 1193f 11941 11a3a 11a84-11a89 11d46 11f02"])

/-- Spacing marks that do not belong to the grapheme before them. -/
def separateSpacingMarks : CharSet :=
  points
    ["102b-102c 1038 1062-1064 1067-106d 1083 1087-108c 108f 109a-109c 1a61 1a63-1a64 aa7b aa7d",
     "11720-11721"]

/-- The syllables of a leading consonant and a vowel, every 28th of the block. -/
def hangulOpenSyllables : CharSet :=
  listed ((List.range 399).map fun k => (0xAC00 + 28 * k, 0xAC00 + 28 * k)).toArray

def graphemeBreaks : List (List String × CharSet) :=
  [(["cn", "control"],
     diff (union (categories [.cc, .cf, .zl, .zp]) (inter (category .cn) defaultIgnorable))
       (unions [point 0xA, point 0xD, listed Listed.joinControl, graphemeBreakExtend,
         listed Listed.prependedConcatenationMark])),
   (["cr"], point 0xD),
   (["ex", "extend"], graphemeBreakExtend),
   (["l"], points ["1100-115f a960-a97c"]),
   (["lf"], point 0xA),
   (["lv"], hangulOpenSyllables),
   (["lvt"], diff (points ["ac00-d7a3"]) hangulOpenSyllables),
   (["pp", "prepend"], graphemeBreakPrepend),
   (["ri", "regionalindicator"], listed Listed.regionalIndicator),
   (["sm", "spacingmark"],
     diff (union (category .mc) (points ["e33 eb3"]))
       (union graphemeBreakExtend separateSpacingMarks)),
   (["t"], points ["11a8-11ff d7cb-d7fb"]),
   (["v"], points ["1160-11a7 d7b0-d7c6 16d63 16d67-16d6a"]),
   (["zwj"], point 0x200D)]

/-- Marks that belong to the word or the sentence of the character before them. -/
def textBreakExtend : CharSet := union graphemeExtend (category .mc)

/-- Digits, and the signs that introduce or divide numbers. -/
def textBreakNumeric : CharSet :=
  unions [category .nd, points ["66b-66c 19da"],
    diff (listed Listed.prependedConcatenationMark) (point 0x70F)]

def wordBreakExtend : CharSet := union textBreakExtend (listed Listed.emojiModifier)

def wordBreakKatakana : CharSet :=
  diff (union (script "Kana") (points ["3031-3035 309b-309c 30a0 30fc ff70"])) wordBreakExtend

def hebrewLetters : CharSet := inter (script "Hebr") (category .lo)

/-- Letters of scripts that put no blanks between words. -/
def unspacedLetters : CharSet :=
  points
    ["e01-e3a e40-e4e e81-e82 e84 e86-e8a e8c-ea3 ea5 ea7-ebd ec0-ec4 ec6 ec8-ece edc-edf",
     "1000-103f 1050-108f 109a-109f 1780-17d3 17d7 17dc-17dd 1950-196d 1970-1974 1980-19ab",
     "19b0-19c9 19de-19df 1a20-1a5e 1a60-1a7c 1aa0-1aad a9e0-a9ef a9fa-a9fe aa60-aac2 aadb-aadf",
     "11700-1171a 1171d-1172b 1173a-1173b 1173f-11746"]

/-- Signs that count as letters of a word. -/
def letterLikeSigns : CharSet :=
  points
    ["b8 2c2-2c5 2d2-2d7 2de-2df 2e5-2eb 2ed 2ef-2ff 55a-55c 55e 58a 5f3 70f a708-a716",
     "a720-a721 a789-a78a ab5b"]

def wordBreaks : List (List String × CharSet) :=
  [(["le", "aletter"],
     diff (union alphabetic letterLikeSigns)
       (unions [listed Listed.ideographic, wordBreakKatakana, script "Hira", unspacedLetters,
         wordBreakExtend, hebrewLetters])),
   (["cr"], point 0xD),
   (["dq", "doublequote"], point 0x22),
   (["extend"], wordBreakExtend),
   (["ex", "extendnumlet"], union (category .pc) (point 0x202F)),
   (["fo", "format"],
     diff (category .cf)
       (unions [points ["200b-200d"], graphemeExtend,
         listed Listed.prependedConcatenationMark])),
   (["hl", "hebrewletter"], hebrewLetters),
   (["ka", "katakana"], wordBreakKatakana),
   (["lf"], point 0xA),
   (["ml", "midletter"], points ["3a b7 387 55f 5f4 2027 fe13 fe55 ff1a"]),
   (["mn", "midnum"],
     points ["2c 3b 37e 589 60c-60d 66c 7f8 2044 fe10 fe14 fe50 fe54 ff0c ff1b"]),
   (["mb", "midnumlet"], points ["2e 2018-2019 2024 fe52 ff07 ff0e"]),
   (["nl", "newline"], points ["b-c 85 2028-2029"]),
   (["nu", "numeric"], diff textBreakNumeric (point 0x66C)),
   (["ri", "regionalindicator"], listed Listed.regionalIndicator),
   (["sq", "singlequote"], point 0x27),
   (["wsegspace"], points ["20 1680 2000-2006 2008-200a 205f 3000"]),
   (["zwj"], point 0x200D)]

/-- Capital letters of a script without capitals at the head of a sentence. -/
def uniformCapitals : CharSet := points ["1c90-1cba 1cbd-1cbf"]

/-- The letters beside these capitals. -/
def uniformSmalls : CharSet := points ["10d0-10fa 10fd-10ff"]

def sentenceBreakLower : CharSet := diff lowercase (union graphemeExtend uniformSmalls)

def sentenceBreakUpper : CharSet := diff (union uppercase (category .lt)) uniformCapitals

def sentenceBreakExtend : CharSet := union textBreakExtend (point 0x200D)

/-- Full stops that may also end an abbreviation. -/
def ambiguousStops : CharSet := points ["2e 2024 fe52 ff0e"]

def sentenceBreaks : List (List String × CharSet) :=
  [(["at", "aterm"], ambiguousStops),
   (["cl", "close"],
     points
       ["22 27-29 5b 5d 7b 7d ab bb f3a-f3d 169b-169c 2018-201f 2039-203a 2045-2046 207d-207e",
        "208d-208e 2308-230b 2329-232a 275b-2760 2768-2775 27c5-27c6 27e6-27ef 2983-2998 29d8-29db",
        "29fc-29fd 2e00-2e0d 2e1c-2e1d 2e20-2e29 2e42 2e55-2e5c 3008-3011 3014-301b 301d-301f",
        "fd3e-fd3f fe17-fe18 fe35-fe44 fe47-fe48 fe59-fe5e ff08-ff09 ff3b ff3d ff5b ff5d ff5f-ff60",
        "ff62-ff63 1f676-1f678"]),
   (["cr"], point 0xD),
   (["ex", "extend"], sentenceBreakExtend),
   (["fo", "format"],
     diff (category .cf)
       (unions [sentenceBreakExtend,
         diff (listed Listed.prependedConcatenationMark) (point 0x70F)])),
   (["lf"], point 0xA),
   (["lo", "lower"], sentenceBreakLower),
   (["nu", "numeric"], textBreakNumeric),
   (["le", "oletter"],
     diff (union alphabetic (point 0x5F3))
       (unions [sentenceBreakLower, sentenceBreakUpper, sentenceBreakExtend])),
   (["sc", "scontinue"],
     points
       ["2c-2d 3a-3b 37e 55d 60c-60d 7f8 1802 1808 2013-2014 3001 fe10-fe11 fe13-fe14 fe31-fe32",
        "fe50-fe51 fe54-fe55 fe58 fe63 ff0c-ff0d ff1a-ff1b ff64"]),
   (["se", "sep"], points ["85 2028-2029"]),
   (["sp"], diff (listed Listed.whiteSpace) (points ["a d 85 2028-2029"])),
   (["st", "sterm"], diff (listed Listed.sentenceTerminal) ambiguousStops),
   (["up", "upper"], sentenceBreakUpper)]

end Ripple.CharSet
