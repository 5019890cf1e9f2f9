/-!
# Sets of characters

A set of code points is kept as the points where membership changes, in ascending order: from the first of
them on everything is in the set, from the second on nothing, and so on. All that is done with two sets is
done by one function, which looks at the changes of both.
-/

namespace Lockout.Pattern

structure CharSet where
  /-- Ascending, without repetition. -/
  changes : List Nat
  deriving DecidableEq, Repr

namespace CharSet

/-- A point is in the set when an odd number of changes lies at it or below. -/
def contains (set : CharSet) (point : Nat) : Bool :=
  set.changes.countP (· ≤ point) % 2 = 1

def empty : CharSet := ⟨[]⟩

/-- The first number that is no code point. -/
def limit : Nat := 0x110000

def all : CharSet := ⟨[0, limit]⟩

/-- The points from `first` to `last`, both of them included. -/
def range (first last : Nat) : CharSet := if first ≤ last then ⟨[first, last + 1]⟩ else empty

def ofChar (c : Char) : CharSet := range c.toNat c.toNat

/-- Keeps those of `points` where `rule` answers differently than at the point before. -/
def changesOf (rule : Nat → Bool) : Bool → List Nat → List Nat
  | _, [] => []
  | inside, point :: points =>
    if rule point = inside then changesOf rule inside points
    else point :: changesOf rule (rule point) points

def insertPoint (point : Nat) : List Nat → List Nat
  | [] => [point]
  | p :: ps =>
    if point < p then point :: p :: ps
    else if point = p then p :: ps
    else p :: insertPoint point ps

/-- The points of which `rule` accepts the two memberships. A point outside of both must not be accepted. -/
def combine (rule : Bool → Bool → Bool) (a b : CharSet) : CharSet :=
  ⟨changesOf (fun point => rule (a.contains point) (b.contains point)) false
    (a.changes.foldr insertPoint b.changes)⟩

def union : CharSet → CharSet → CharSet := combine (· || ·)

def inter : CharSet → CharSet → CharSet := combine (· && ·)

def diff : CharSet → CharSet → CharSet := combine fun x y => x && !y

def symmDiff : CharSet → CharSet → CharSet := combine (· != ·)

def compl (set : CharSet) : CharSet := all.diff set

def isEmpty (set : CharSet) : Bool := set.changes.isEmpty

def isAscii (set : CharSet) : Bool := set.changes.all (· ≤ 0x80)

/-- How many unbroken ranges the set consists of. -/
def ranges (set : CharSet) : Nat := set.changes.length / 2

/-- The letters of ASCII are joined by their other case. -/
def withAsciiCase (set : CharSet) : CharSet :=
  let upper := set.inter (range 65 90)
  let lower := set.inter (range 97 122)
  (set.union ⟨upper.changes.map (· + 32)⟩).union ⟨lower.changes.map (· - 32)⟩

def ofRanges (pairs : List (Char × Char)) : CharSet :=
  pairs.foldl (fun set (first, last) => set.union (range first.toNat last.toNat)) empty

end CharSet

inductive NamedSet
  | alnum
  | alpha
  | ascii
  | blank
  | cntrl
  | digit
  | graph
  | lower
  | print
  | punct
  | space
  | upper
  | word
  | xdigit
  deriving DecidableEq, Repr

namespace NamedSet

def ofName? : String → Option NamedSet
  | "alnum" => some alnum
  | "alpha" => some alpha
  | "ascii" => some ascii
  | "blank" => some blank
  | "cntrl" => some cntrl
  | "digit" => some digit
  | "graph" => some graph
  | "lower" => some lower
  | "print" => some print
  | "punct" => some punct
  | "space" => some space
  | "upper" => some upper
  | "word" => some word
  | "xdigit" => some xdigit
  | _ => none

def members : NamedSet → CharSet
  | alnum => .ofRanges [('0', '9'), ('A', 'Z'), ('a', 'z')]
  | alpha => .ofRanges [('A', 'Z'), ('a', 'z')]
  | ascii => .range 0 0x7F
  | blank => .ofRanges [('\t', '\t'), (' ', ' ')]
  | cntrl => (CharSet.range 0 0x1F).union (.range 0x7F 0x7F)
  | digit => .ofRanges [('0', '9')]
  | graph => .ofRanges [('!', '~')]
  | lower => .ofRanges [('a', 'z')]
  | print => .ofRanges [(' ', '~')]
  | punct => .ofRanges [('!', '/'), (':', '@'), ('[', '\x60'), ('\x7b', '~')]
  | space => (CharSet.range 9 13).union (.ofChar ' ')
  | upper => .ofRanges [('A', 'Z')]
  | word => .ofRanges [('0', '9'), ('A', 'Z'), ('_', '_'), ('a', 'z')]
  | xdigit => .ofRanges [('0', '9'), ('A', 'F'), ('a', 'f')]

end NamedSet

end Lockout.Pattern
