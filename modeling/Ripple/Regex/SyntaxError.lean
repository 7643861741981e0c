/-!
What can be wrong with a pattern.
-/

namespace Ripple.Regex

/-- The reason for which a pattern is refused. -/
inductive SyntaxError where
  | classUnclosed
  | classEscapeInvalid
  | classRangeInvalid
  | classRangeLiteral
  | countEmpty
  | countInvalid
  | countOutOfOrder
  | countUnclosed
  | escapeIncomplete
  | escapeUnrecognized
  | hexEmpty
  | hexDigitInvalid
  | hexInvalid
  | flagUnrecognized
  | flagDuplicate
  | flagRepeatedNegation
  | flagDanglingNegation
  | flagsIncomplete
  | groupNameEmpty
  | groupNameInvalid
  | groupNameIncomplete
  | groupNameDuplicate
  | groupUnclosed
  | groupUnopened
  | nestingTooDeep
  | repetitionMissing
  | backreference
  | lookAround
  | propertyInvalid
  | propertyNotFound
  | unicodeNotAllowed
  | notText
  | wordBoundaryUnclosed
  | wordBoundaryUnrecognized
  | wordBoundaryIncomplete
  | tooBig
  deriving DecidableEq, Repr

def SyntaxError.message : SyntaxError → String
  | classUnclosed => "unclosed character class"
  | classEscapeInvalid => "invalid escape sequence found in character class"
  | classRangeInvalid => "invalid character class range, the start must be <= the end"
  | classRangeLiteral => "invalid range boundary, must be a literal"
  | countEmpty => "repetition quantifier expects a valid decimal"
  | countInvalid => "decimal literal invalid"
  | countOutOfOrder => "invalid repetition count range, the start must be <= the end"
  | countUnclosed => "unclosed counted repetition"
  | escapeIncomplete =>
    "incomplete escape sequence, reached end of pattern prematurely"
  | escapeUnrecognized => "unrecognized escape sequence"
  | hexEmpty => "hexadecimal literal empty"
  | hexDigitInvalid => "invalid hexadecimal digit"
  | hexInvalid => "hexadecimal literal is not a Unicode scalar value"
  | flagUnrecognized => "unrecognized flag"
  | flagDuplicate => "duplicate flag"
  | flagRepeatedNegation => "flag negation operator repeated"
  | flagDanglingNegation => "dangling flag negation operator"
  | flagsIncomplete => "expected flag but got end of regex"
  | groupNameEmpty => "empty capture group name"
  | groupNameInvalid => "invalid capture group character"
  | groupNameIncomplete => "unclosed capture group name"
  | groupNameDuplicate => "duplicate capture group name"
  | groupUnclosed => "unclosed group"
  | groupUnopened => "unopened group"
  | nestingTooDeep => "exceed the maximum number of nested parentheses/brackets (250)"
  | repetitionMissing => "repetition operator missing expression"
  | backreference => "backreferences are not supported"
  | lookAround => "look-around, including look-ahead and look-behind, is not supported"
  | propertyInvalid => "invalid Unicode character class"
  | propertyNotFound => "Unicode property not found"
  | unicodeNotAllowed => "Unicode not allowed here"
  | notText => "pattern can match invalid UTF-8"
  | wordBoundaryUnclosed =>
    "special word boundary assertion is either unclosed or contains an invalid character"
  | wordBoundaryUnrecognized => "unrecognized special word boundary assertion"
  | wordBoundaryIncomplete =>
    "found either the beginning of a special word boundary or a bounded repetition without an end"
  | tooBig => "Compiled regex exceeds size limit of 10485760 bytes."

end Ripple.Regex
