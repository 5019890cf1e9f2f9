import Lockout.Pattern.CharSet
import Lockout.Pattern.Tree
/-!
# Patterns and where they match

A pattern stands for the stretches of a text that it can take up. From a set of places, `reach` gives all the
places where a stretch that begins at one of them can end; so a pattern occurs in a text when anything can be
reached from anywhere. Of two ways to match neither is preferred, as nobody asks which stretch it was.
-/

namespace Lockout

namespace Pattern

/-- A demand on the characters before and behind a place. -/
inductive Assertion
  | textStart
  | textEnd
  | lineStart
  | lineEnd
  /-- As `lineStart`, with lines that end in a carriage return, a line feed or both. -/
  | lineStartReturns
  | lineEndReturns
  /-- Whether `ascii` alone decides what belongs to a word. -/
  | word (ascii : Bool) (side : WordSide)
  deriving DecidableEq, Repr

end Pattern

inductive Pattern
  | empty
  | chars (set : Pattern.CharSet)
  | assertion (assertion : Pattern.Assertion)
  | sequence (first second : Pattern)
  | choice (left right : Pattern)
  | repetition (least : Nat) (most : Option Nat) (body : Pattern)
  /-- A group whose match would be kept. -/
  | capture (body : Pattern)
  deriving DecidableEq, Repr

namespace Pattern

/-- The characters of words: letters, digits and the low line of ASCII. -/
def isWordChar (c : Char) : Bool := c.isAlphanum || c = '_'

def WordSide.holds (side : WordSide) (before behind : Bool) : Bool :=
  match side with
  | edge => before != behind
  | noEdge => before = behind
  | start => !before && behind
  | stop => before && !behind
  | startHalf => !before
  | stopHalf => !behind

def Assertion.holds (before behind : Option Char) : Assertion → Bool
  | textStart => before.isNone
  | textEnd => behind.isNone
  | lineStart => before.all (· = '\n')
  | lineEnd => behind.all (· = '\n')
  | lineStartReturns => before.all (· = '\n') || (before = some '\r' && behind != some '\n')
  | lineEndReturns => behind.all (· = '\r') || (behind = some '\n' && before != some '\r')
  | word _ side => side.holds (before.any isWordChar) (behind.any isWordChar)

/-- A set of places in a text: one mark for each, from the one before the first character to the one behind
the last. -/
abbrev Marks := List Bool

namespace Marks

def union (a b : Marks) : Marks := List.zipWith (· || ·) a b

/-- `step` done `count` times. Once it changes nothing there is no need to go on. -/
def iterate (step : Marks → Marks) : Nat → Marks → Marks
  | 0, marks => marks
  | count + 1, marks =>
    let next := step marks
    if next = marks then marks else iterate step count next

/-- The places reached by `step` together with those it starts from. -/
def widen (step : Marks → Marks) (marks : Marks) : Marks := union marks (step marks)

end Marks

def surroundings (text : List Char) : List (Option Char × Option Char) :=
  (none :: text.map some).zip (text.map some ++ [none])

/-- Where stretches can end that begin at one of the marked places. A repetition without an upper bound needs
no more rounds than there are places, since each round that matters adds a place. -/
def reach (text : List Char) : Pattern → Marks → Marks
  | empty, marks => marks
  | chars set, marks => false :: List.zipWith (fun marked c => marked && set.contains c.toNat) marks text
  | assertion a, marks =>
    List.zipWith (fun marked (before, behind) => marked && a.holds before behind) marks (surroundings text)
  | sequence first second, marks => second.reach text (first.reach text marks)
  | choice left right, marks => Marks.union (left.reach text marks) (right.reach text marks)
  | repetition least most body, marks =>
    let further := match most with
      | some most => most - least
      | none => text.length + 1
    Marks.iterate (Marks.widen (body.reach text)) further (Marks.iterate (body.reach text) least marks)
  | capture body, marks => body.reach text marks

def occursIn (pattern : Pattern) (text : String) : Bool :=
  (pattern.reach text.toList (List.replicate (text.toList.length + 1) true)).any id

/-- Whether the pattern can take up nothing but the empty text. -/
def isWidthless : Pattern → Bool
  | empty => true
  | chars _ => false
  | assertion _ => true
  | sequence first second => first.isWidthless && second.isWidthless
  | choice left right => left.isWidthless && right.isWidthless
  | repetition _ _ body => body.isWidthless
  | capture body => body.isWidthless

/-- Whether words are asked for beyond ASCII, of which no table is kept. -/
def needsWordTable : Pattern → Bool
  | empty => false
  | chars _ => false
  | assertion (.word ascii _) => !ascii
  | assertion _ => false
  | sequence first second => first.needsWordTable || second.needsWordTable
  | choice left right => left.needsWordTable || right.needsWordTable
  | repetition _ _ body => body.needsWordTable
  | capture body => body.needsWordTable

/-- What is repeated without width is repeated once at most, what is repeated never is left out, and what is
repeated exactly once stands for itself. -/
def repeated (least : Nat) (most : Option Nat) (body : Pattern) : Pattern :=
  let (least, most) :=
    if body.isWidthless then (min least 1, some (most.elim 1 (min · 1))) else (least, most)
  if most = some 0 then empty
  else if least = 1 ∧ most = some 1 then body
  else repetition least most body

def isChoice : Pattern → Bool
  | choice _ _ => true
  | _ => false

/-- How many bytes a set of characters takes up: one state for a single character of each of its bytes, and for
other sets a table, which is larger beyond ASCII. -/
def CharSet.room (set : CharSet) : Nat :=
  match set.changes with
  | [first, last] =>
    if last = first + 1 then 32 * (Char.ofNat first).utf8Size
    else if set.isAscii then 72 else 424
  | _ => if set.isAscii then 64 + 8 * set.ranges else 424

/-- How many bytes the pattern takes up when every repetition is written out. -/
def room : Pattern → Nat
  | empty => 32
  | chars set => set.room
  | assertion _ => 32
  | sequence first second => first.room + second.room
  | choice left right => left.room + right.room + 4 + (if right.isChoice then 0 else 68)
  | repetition least none body => max least 1 * body.room + (if least = 0 then 72 else 40)
  | repetition least (some most) body =>
    least * body.room + (if most ≤ least then 0 else (most - least) * (body.room + 40) + 32)
  | capture body => body.room + 64

def roomLimit : Nat := 10485760

end Pattern

end Lockout
