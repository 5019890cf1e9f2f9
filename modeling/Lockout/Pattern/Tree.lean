import Lockout.Pattern.CharSet
import Lockout.Pattern.Span
/-!
# Patterns as they are written

What is read from the text of a pattern, part by part and each with its span. Nothing is decided here about
what a part stands for, since that depends on the flags in force.
-/

namespace Lockout.Pattern

structure Literal where
  span : Span
  char : Char
  /-- Written by two hexadecimal digits, as a byte would be. -/
  byte : Bool := false
  deriving DecidableEq, Repr

/-- Sets with a letter of their own behind a backslash. -/
inductive Shorthand
  | digit
  | space
  | word
  deriving DecidableEq, Repr

inductive WordSide
  /-- Either end of a word. -/
  | edge
  /-- Neither end of a word. -/
  | noEdge
  | start
  | stop
  /-- Nothing of a word before. -/
  | startHalf
  /-- Nothing of a word behind. -/
  | stopHalf
  deriving DecidableEq, Repr

/-- A demand on a place, which takes up no characters. -/
inductive Anchor
  | caret
  | dollar
  | textStart
  | textEnd
  | word (side : WordSide)
  deriving DecidableEq, Repr

/-- The parts that hold no others. -/
inductive Atom
  | literal (literal : Literal)
  | dot (span : Span)
  | anchor (span : Span) (anchor : Anchor)
  | shorthand (span : Span) (kind : Shorthand) (negated : Bool)
  /-- A set of characters that is named for a property. -/
  | property (span : Span)
  deriving DecidableEq, Repr

def Atom.span : Atom → Span
  | literal l => l.span
  | dot span => span
  | anchor span _ => span
  | shorthand span _ _ => span
  | property span => span

inductive SetOperation
  | inter
  | diff
  | symmDiff
  deriving DecidableEq, Repr

inductive SetTree
  | empty (span : Span)
  | literal (literal : Literal)
  | range (span : Span) (first last : Literal)
  | named (span : Span) (name : NamedSet) (negated : Bool)
  | shorthand (span : Span) (kind : Shorthand) (negated : Bool)
  | property (span : Span)
  | bracketed (span : Span) (negated : Bool) (body : SetTree)
  | union (span : Span) (items : List SetTree)
  | operation (span : Span) (operation : SetOperation) (left right : SetTree)
  deriving Repr

def SetTree.span : SetTree → Span
  | empty span => span
  | literal l => l.span
  | range span _ _ => span
  | named span _ _ => span
  | shorthand span _ _ => span
  | property span => span
  | bracketed span _ _ => span
  | union span _ => span
  | operation span _ _ _ => span

/-- What can be switched on and off within a pattern. -/
inductive Flag
  | insensitive
  | multiLine
  | dotAll
  /-- Repetitions take as few as they can; which strings match stays the same. -/
  | swapGreed
  | unicode
  /-- Lines end in a carriage return too. -/
  | returns
  /-- Blanks and remarks may stand between the parts. -/
  | verbose
  deriving DecidableEq, Repr

def Flag.ofChar? : Char → Option Flag
  | 'i' => some insensitive
  | 'm' => some multiLine
  | 's' => some dotAll
  | 'U' => some swapGreed
  | 'u' => some unicode
  | 'R' => some returns
  | 'x' => some verbose
  | _ => none

structure Switch where
  flag : Flag
  on : Bool
  deriving DecidableEq, Repr

inductive Tree
  | empty (span : Span)
  | atom (atom : Atom)
  | set (set : SetTree)
  /-- Flags for all that follows in the same group. -/
  | setting (span : Span) (switches : List Switch)
  /-- At least and at most so many times; without an upper bound if there is none. -/
  | repetition (span : Span) (least : Nat) (most : Option Nat) (body : Tree)
  | group (span : Span) (captures : Bool) (switches : List Switch) (body : Tree)
  | sequence (span : Span) (items : List Tree)
  | choice (span : Span) (branches : List Tree)
  deriving Repr

def Tree.span : Tree → Span
  | empty span => span
  | atom a => a.span
  | set s => s.span
  | setting span _ => span
  | repetition span _ _ _ => span
  | group span _ _ _ => span
  | sequence span _ => span
  | choice span _ => span

/-- How deep the parts of a pattern may stand in one another. -/
def nestingLimit : Nat := 250

mutual

/-- The first part that stands too deep, `depth` parts being around the set. -/
def SetTree.tooDeep? (depth : Nat) : SetTree → Option Span
  | .bracketed span _ body => if nestingLimit ≤ depth then some span else body.tooDeep? (depth + 1)
  | .union span items => if nestingLimit ≤ depth then some span else SetTree.anyTooDeep? (depth + 1) items
  | .operation span _ left right =>
    if nestingLimit ≤ depth then some span
    else (left.tooDeep? (depth + 1)).or (right.tooDeep? (depth + 1))
  | _ => none

def SetTree.anyTooDeep? (depth : Nat) : List SetTree → Option Span
  | [] => none
  | item :: items => (item.tooDeep? depth).or (SetTree.anyTooDeep? depth items)

end

mutual

/-- The first part that stands too deep, `depth` parts being around it. -/
def Tree.tooDeep? (depth : Nat) : Tree → Option Span
  | .set s => s.tooDeep? depth
  | .repetition span _ _ body => if nestingLimit ≤ depth then some span else body.tooDeep? (depth + 1)
  | .group span _ _ body => if nestingLimit ≤ depth then some span else body.tooDeep? (depth + 1)
  | .sequence span items => if nestingLimit ≤ depth then some span else Tree.anyTooDeep? (depth + 1) items
  | .choice span branches =>
    if nestingLimit ≤ depth then some span else Tree.anyTooDeep? (depth + 1) branches
  | _ => none

def Tree.anyTooDeep? (depth : Nat) : List Tree → Option Span
  | [] => none
  | item :: items => (item.tooDeep? depth).or (Tree.anyTooDeep? depth items)

end

end Lockout.Pattern
