import Lockout.Pattern.Escape
/-!
# Reading sets in brackets

Between brackets stand characters, ranges, named sets and further brackets, one after the other. Two signs of
a kind between two such rows make an intersection, a difference or a symmetric difference of them; these
bind equally and to the left.
-/

namespace Lockout.Pattern

/-- A named set in brackets and colons at the beginning of a text, with its length. -/
def namedSet? : List Char → Option (NamedSet × Bool × Nat)
  | '[' :: ':' :: cs =>
    let negated := cs.head? = some '^'
    let cs := if negated then cs.drop 1 else cs
    let name := cs.takeWhile (· != ':')
    if [':', ']'].isPrefixOf (cs.drop name.length) then
      (NamedSet.ofName? (String.ofList name)).map fun set =>
        (set, negated, name.length + (if negated then 5 else 4))
    else none
  | _ => none

def SetOperation.ofChar? : Char → Option SetOperation
  | '&' => some inter
  | '-' => some diff
  | '~' => some symmDiff
  | _ => none

/-- A set that has been opened and not closed yet. -/
structure OpenSet where
  /-- The opening bracket with all that belongs to it. -/
  span : Span
  negated : Bool
  /-- What is left of the last sign for an operation, and that sign. -/
  left : Option (SetTree × SetOperation) := none
  /-- Where the row begins that is being read. -/
  rowFrom : Position
  /-- The row that is being read, the last item first. -/
  row : List SetTree := []

namespace OpenSet

def push (set : OpenSet) (item : SetTree) : OpenSet := { set with row := item :: set.row }

def rowTree (set : OpenSet) : SetTree :=
  match set.row.reverse with
  | [] => .empty ⟨set.rowFrom, set.rowFrom⟩
  | [item] => item
  | item :: items => .union (item.span.through (items.getLastD item).span) (item :: items)

def tree (set : OpenSet) : SetTree :=
  match set.left with
  | some (left, operation) => .operation (left.span.through set.rowTree.span) operation left set.rowTree
  | none => set.rowTree

end OpenSet

namespace Reader

/-- Hyphens at the beginning stand for themselves. -/
def leadingHyphens (bracket : Position) : Nat → Reader (List SetTree)
  | 0 => return []
  | fuel + 1 => do
    if (← next?) = some '-' then
      let span ← charSpan
      advanceSkip
      if (← next?).isNone then refuse .setUnclosed ⟨bracket, bracket⟩
      return (← leadingHyphens bracket fuel) ++ [.literal { span, char := '-' }]
    else return []

/-- An opening bracket, with the caret that negates the set and the characters that only there stand for
themselves: hyphens, or else a closing bracket. -/
def openSet : Reader OpenSet := do
  let bracket ← place
  let demandMore : Reader Unit := do
    if (← next?).isNone then refuse .setUnclosed (← since bracket)
  advanceSkip
  demandMore
  let negated := (← next?) = some '^'
  if negated then
    advanceSkip
    demandMore
  let rowFrom ← place
  let mut row ← leadingHyphens bracket (← remaining)
  if row.isEmpty && (← next?) = some ']' then
    let span ← charSpan
    advanceSkip
    demandMore
    row := [.literal { span, char := ']' }]
  return { span := ← since bracket, negated, rowFrom, row }

/-- A character for a set or one end of a range. -/
def setAtom (c : Char) : Reader Atom := if c = '\\' then escape else plain c

def itemOf : Atom → Reader SetTree
  | .literal l => return .literal l
  | .shorthand span kind negated => return .shorthand span kind negated
  | .property span => return .property span
  | atom => refuse .setEscape atom.span

def rangeEndOf : Atom → Reader Literal
  | .literal l => return l
  | atom => refuse .rangeEnd atom.span

/-- A character or a range, `c` coming next in the set that `opened` opens. -/
def setItem (opened : Span) (c : Char) : Reader SetTree := do
  let first ← setAtom c
  skip
  match ← next? with
  | none => refuse .setUnclosed opened
  | some sign =>
    let behind ← peekSkip?
    if sign != '-' || behind = some ']' || behind = some '-' then itemOf first
    else
      advanceSkip
      match ← next? with
      | none => refuse .setUnclosed opened
      | some c =>
        let last ← setAtom c
        let span := first.span.through last.span
        let low ← rangeEndOf first
        let high ← rangeEndOf last
        if high.char < low.char then refuse .rangeReversed span
        return .range span low high

/-- The sign for an operation, which is written twice. -/
def operation? (c : Char) : Reader (Option SetOperation) := do
  if (← peek?) = some c then return SetOperation.ofChar? c else return none

/-- What follows an opening bracket, with the closing one. Every step reads a character at least, so that as
many steps are enough as there are characters left. -/
def setBody : Nat → OpenSet → Reader SetTree
  | 0, set => refuse .setUnclosed set.span
  | fuel + 1, set => do
    skip
    match ← next? with
    | none => refuse .setUnclosed set.span
    | some '[' =>
      match namedSet? (← get).rest with
      | some (name, negated, length) =>
        let first ← place
        (List.replicate length ()).forM fun _ => advance
        setBody fuel (set.push (.named (← since first) name negated))
      | none =>
        let inner ← setBody fuel (← openSet)
        setBody fuel (set.push inner)
    | some ']' =>
      advance
      return .bracketed (← since set.span.first) set.negated set.tree
    | some c =>
      match ← operation? c with
      | some operation =>
        advance
        advance
        setBody fuel { set with left := some (set.tree, operation), rowFrom := ← place, row := [] }
      | none =>
        let item ← setItem set.span c
        setBody fuel (set.push item)

def bracketed : Reader SetTree := do
  let set ← openSet
  setBody ((← remaining) + 1) set

end Reader

end Lockout.Pattern
