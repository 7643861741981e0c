import Ripple.Unicode.CharSet

/-!
Properties that the standard builds from the general categories and from listed code points.
-/

namespace Ripple.CharSet

open Unicode

def uppercase : CharSet := union (category .lu) (listed Listed.otherUppercase)

def lowercase : CharSet := union (category .ll) (listed Listed.otherLowercase)

def cased : CharSet := unions [uppercase, lowercase, category .lt]

def alphabetic : CharSet :=
  unions [uppercase, lowercase, categories [.lt, .lm, .lo, .nl], listed Listed.otherAlphabetic]

def graphemeExtend : CharSet :=
  union (categories [.mn, .me]) (listed Listed.otherGraphemeExtend)

def idStart : CharSet :=
  union (listed Listed.otherIdStart)
    (diff (categories [.lu, .ll, .lt, .lm, .lo, .nl])
      (union (listed Listed.patternSyntax) (listed Listed.patternWhiteSpace)))

def idContinue : CharSet :=
  unions [idStart, categories [.mn, .mc, .nd, .pc], listed Listed.otherIdContinue]

/-- Format characters and variation selectors that may be left out of a display, and the code
points reserved for such. -/
def defaultIgnorable : CharSet :=
  union (listed Listed.otherDefaultIgnorable)
    (diff (union (category .cf) (listed Listed.variationSelector))
      (unions [listed Listed.whiteSpace, listed Listed.prependedConcatenationMark,
        range '\uFFF9' '\uFFFB', range (Char.ofNat 0x13430) (Char.ofNat 0x13440)]))

end Ripple.CharSet
