/-!
# Places in a pattern

A pattern is a text of its own, with lines and columns. Every part that is read from it keeps the stretch it
was written on, so that a fault can be pointed at.
-/

namespace Lockout.Pattern

/-- A place between two characters. Lines and columns count from one. -/
structure Position where
  /-- How many characters stand before the place. -/
  index : Nat := 0
  line : Nat := 1
  column : Nat := 1
  deriving DecidableEq, Repr

def Position.after (place : Position) (c : Char) : Position :=
  if c = '\n' then ⟨place.index + 1, place.line + 1, 1⟩ else ⟨place.index + 1, place.line, place.column + 1⟩

structure Span where
  first : Position
  last : Position
  deriving DecidableEq, Repr

namespace Span

def isOneLine (span : Span) : Bool := span.first.line = span.last.line

/-- The stretch that holds both and all between them. -/
def through (span other : Span) : Span := ⟨span.first, other.last⟩

/-- What begins first goes first, and of two that begin together the shorter. -/
def before (span other : Span) : Bool :=
  span.first.index < other.first.index ||
    (span.first.index = other.first.index && span.last.index ≤ other.last.index)

end Span

end Lockout.Pattern
