import Lockout.Pattern.Span
/-!
# What can be wrong with a pattern

A fault has a cause and a place. Some causes are found while a pattern is read, the others when it is asked
what the pattern stands for.
-/

namespace Lockout.Pattern

inductive Cause
  -- escapes
  | escapeUnfinished
  | escapeUnknown
  | hexEmpty
  | hexDigit
  | hexOutOfRange
  | backReference
  | propertyName
  -- sets in brackets
  | setUnclosed
  | setEscape
  | rangeEnd
  | rangeReversed
  -- groups and their flags
  | groupUnclosed
  | groupUnopened
  | lookAround
  | nameEmpty
  | nameCharacter
  | nameUnclosed
  | nameRepeated
  | flagUnknown
  | flagRepeated
  | flagsUnclosed
  | negationRepeated
  | negationDangling
  -- repetitions and word boundaries
  | repetitionMissing
  | countUnclosed
  | countEmpty
  | countOutOfRange
  | countReversed
  | braceUnclosed
  | boundaryUnclosed
  | boundaryUnknown
  | nesting
  -- meaning
  | beyondAscii
  | beyondText
  | propertyTable
  | shorthandTable
  | caseTable
  deriving DecidableEq, Repr

def Cause.text : Cause → String
  | escapeUnfinished => "incomplete escape sequence, reached end of pattern prematurely"
  | escapeUnknown => "unrecognized escape sequence"
  | hexEmpty => "hexadecimal literal empty"
  | hexDigit => "invalid hexadecimal digit"
  | hexOutOfRange => "hexadecimal literal is not a Unicode scalar value"
  | backReference => "backreferences are not supported"
  | propertyName => "invalid Unicode character class"
  | setUnclosed => "unclosed character class"
  | setEscape => "invalid escape sequence found in character class"
  | rangeEnd => "invalid range boundary, must be a literal"
  | rangeReversed => "invalid character class range, the start must be <= the end"
  | groupUnclosed => "unclosed group"
  | groupUnopened => "unopened group"
  | lookAround => "look-around, including look-ahead and look-behind, is not supported"
  | nameEmpty => "empty capture group name"
  | nameCharacter => "invalid capture group character"
  | nameUnclosed => "unclosed capture group name"
  | nameRepeated => "duplicate capture group name"
  | flagUnknown => "unrecognized flag"
  | flagRepeated => "duplicate flag"
  | flagsUnclosed => "expected flag but got end of regex"
  | negationRepeated => "flag negation operator repeated"
  | negationDangling => "dangling flag negation operator"
  | repetitionMissing => "repetition operator missing expression"
  | countUnclosed => "unclosed counted repetition"
  | countEmpty => "repetition quantifier expects a valid decimal"
  | countOutOfRange => "decimal literal invalid"
  | countReversed => "invalid repetition count range, the start must be <= the end"
  | braceUnclosed =>
    "found either the beginning of a special word boundary or a bounded repetition on a \\b with an " ++
      "opening brace, but no closing brace"
  | boundaryUnclosed =>
    "special word boundary assertion is either unclosed or contains an invalid character"
  | boundaryUnknown =>
    "unrecognized special word boundary assertion, valid choices are: start, end, start-half or end-half"
  | nesting => "exceed the maximum number of nested parentheses/brackets (250)"
  | beyondAscii => "Unicode not allowed here"
  | beyondText => "pattern can match invalid UTF-8"
  | propertyTable => "Unicode property not found"
  | shorthandTable =>
    "Unicode-aware Perl class not found (make sure the unicode-perl feature is enabled)"
  | caseTable =>
    "Unicode-aware case insensitivity matching is not available " ++
      "(make sure the unicode-case feature is enabled)"

structure Fault where
  cause : Cause
  span : Span
  /-- What stood there before, where a fault is that something stands twice. -/
  earlier : Option Span := none
  deriving DecidableEq, Repr

end Lockout.Pattern
