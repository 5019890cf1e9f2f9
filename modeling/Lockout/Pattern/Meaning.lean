import Lockout.Pattern.Basic
import Lockout.Pattern.Fault
/-!
# What the parts of a pattern stand for

The flags in force decide what a part means. They hold from where they are set to the end of the group. No
tables of Unicode are kept, so that everything which would need one is a fault: properties, the short sets
unless they are limited to ASCII, and the other case of a character. Without the flag for Unicode a pattern
must still not match half a character, which rules out what such a set leaves open beyond ASCII.
-/

namespace Lockout.Pattern

structure Flags where
  insensitive : Bool := false
  multiLine : Bool := false
  dotAll : Bool := false
  unicode : Bool := true
  returns : Bool := false
  deriving DecidableEq, Repr

namespace Flags

def set (flags : Flags) (switch : Switch) : Flags :=
  match switch.flag with
  | .insensitive => { flags with insensitive := switch.on }
  | .multiLine => { flags with multiLine := switch.on }
  | .dotAll => { flags with dotAll := switch.on }
  | .unicode => { flags with unicode := switch.on }
  | .returns => { flags with returns := switch.on }
  | .swapGreed => flags
  | .verbose => flags

def apply (flags : Flags) (switches : List Switch) : Flags := switches.foldl set flags

end Flags

/-- A fault of meaning has one place only. -/
def Fault.at (cause : Cause) (span : Span) : Fault := { cause, span }

/-- The set joined by the other case of its characters, where the flags ask for that. -/
def CharSet.folded (flags : Flags) (span : Span) (set : CharSet) : Except Fault CharSet :=
  if !flags.insensitive || set.isEmpty then .ok set
  else if flags.unicode then .error (.at .caseTable span)
  else .ok set.withAsciiCase

/-- All other characters. Those beyond ASCII are bytes without the flag for Unicode. -/
def CharSet.negated (flags : Flags) (span : Span) (set : CharSet) : Except Fault CharSet :=
  if flags.unicode then .ok set.compl else .error (.at .beyondText span)

/-- A set with the case of its characters and its negation seen to, in this order. -/
def CharSet.settled (flags : Flags) (span : Span) (negated : Bool) (set : CharSet) : Except Fault CharSet := do
  let set ← set.folded flags span
  if negated then set.negated flags span else return set

/-- A character is no half of another one. -/
def Literal.checked (flags : Flags) (literal : Literal) : Except Fault Char :=
  if !flags.unicode && literal.byte && 0x80 ≤ literal.char.toNat then
    .error (.at .beyondText literal.span)
  else .ok literal.char

/-- A character within brackets, where those beyond ASCII need the flag for Unicode. -/
def Literal.member (flags : Flags) (literal : Literal) : Except Fault Nat := do
  let c ← literal.checked flags
  if !flags.unicode && 0x80 ≤ c.toNat then throw (.at .beyondAscii literal.span)
  return c.toNat

def Shorthand.members : Shorthand → CharSet
  | digit => NamedSet.digit.members
  | space => NamedSet.space.members
  | word => NamedSet.word.members

def Shorthand.meaning (flags : Flags) (span : Span) (kind : Shorthand) (negated : Bool) :
    Except Fault CharSet :=
  if flags.unicode then .error (.at .shorthandTable span)
  else if negated then kind.members.negated flags span
  else .ok kind.members

def propertyMeaning (flags : Flags) (span : Span) : Except Fault CharSet :=
  .error (.at (if flags.unicode then .propertyTable else .beyondAscii) span)

def SetOperation.apply : SetOperation → CharSet → CharSet → CharSet
  | inter => CharSet.inter
  | diff => CharSet.diff
  | symmDiff => CharSet.symmDiff

mutual

def SetTree.meaning (flags : Flags) : SetTree → Except Fault CharSet
  | .empty _ => .ok .empty
  | .literal l => return .range (← l.member flags) (← l.member flags)
  | .range _ first last => return .range (← first.member flags) (← last.member flags)
  | .named span name negated => name.members.settled flags span negated
  | .shorthand span kind negated => kind.meaning flags span negated
  | .property span => propertyMeaning flags span
  | .bracketed span negated body => do (← body.meaning flags).settled flags span negated
  | .union _ items => SetTree.unionMeaning flags items
  | .operation _ how left right => do
    let a ← left.meaning flags
    let b ← right.meaning flags
    let b ← b.folded flags right.span
    let a ← a.folded flags left.span
    return how.apply a b

def SetTree.unionMeaning (flags : Flags) : List SetTree → Except Fault CharSet
  | [] => .ok .empty
  | item :: items => return (← item.meaning flags).union (← SetTree.unionMeaning flags items)

end

/-- All characters, or all but the ends of lines. -/
def dotMeaning (flags : Flags) : CharSet :=
  if flags.dotAll then .all
  else if flags.returns then (CharSet.ofRanges [('\n', '\n'), ('\r', '\r')]).compl
  else (CharSet.ofChar '\n').compl

def Anchor.meaning (flags : Flags) : Anchor → Assertion
  | caret => if !flags.multiLine then .textStart else if flags.returns then .lineStartReturns else .lineStart
  | dollar => if !flags.multiLine then .textEnd else if flags.returns then .lineEndReturns else .lineEnd
  | textStart => .textStart
  | textEnd => .textEnd
  | word side => .word (!flags.unicode) side

def Atom.meaning (flags : Flags) : Atom → Except Fault Pattern
  | literal l => do
    let c ← l.checked flags
    return .chars (← if flags.unicode || c.toNat < 0x80 then (CharSet.ofChar c).folded flags l.span
      else .ok (.ofChar c))
  | dot span => if flags.unicode then .ok (.chars (dotMeaning flags)) else .error (.at .beyondText span)
  | anchor _ a => .ok (.assertion (a.meaning flags))
  | shorthand span kind negated => return .chars (← kind.meaning flags span negated)
  | property span => return .chars (← propertyMeaning flags span)

mutual

/-- What a part stands for, and the flags in force behind it. -/
def Tree.meaning (flags : Flags) : Tree → Except Fault (Pattern × Flags)
  | .empty _ => .ok (.empty, flags)
  | .atom a => return (← a.meaning flags, flags)
  | .set s => return (.chars (← s.meaning flags), flags)
  | .setting _ switches => .ok (.empty, flags.apply switches)
  | .repetition _ least most body => do
    let (pattern, flags) ← body.meaning flags
    return (.repeated least most pattern, flags)
  | .group _ captures switches body => do
    let (pattern, _) ← body.meaning (flags.apply switches)
    return (if captures then .capture pattern else pattern, flags)
  | .sequence _ items => Tree.sequenceMeaning flags items
  | .choice _ branches => Tree.choiceMeaning flags branches

def Tree.sequenceMeaning (flags : Flags) : List Tree → Except Fault (Pattern × Flags)
  | [] => .ok (.empty, flags)
  | item :: items => do
    let (first, flags) ← item.meaning flags
    let (second, flags) ← Tree.sequenceMeaning flags items
    return (if items.isEmpty then first else .sequence first second, flags)

/-- A branch leaves its flags to the next. -/
def Tree.choiceMeaning (flags : Flags) : List Tree → Except Fault (Pattern × Flags)
  | [] => .ok (.empty, flags)
  | branch :: branches => do
    let (left, flags) ← branch.meaning flags
    let (right, flags) ← Tree.choiceMeaning flags branches
    return (if branches.isEmpty then left else .choice left right, flags)

end

end Lockout.Pattern
