import Lockout.Pattern.SetReader
/-!
# Reading patterns

A pattern is a choice between sequences, a sequence a row of parts, and a part a character, a set, a demand on
a place, a group or one of these repeated. Reading ends in the first fault from the left; only what stands too
deep is looked for afterwards.
-/

namespace Lockout.Pattern

/-- A letter beyond ASCII, in the scripts of Europe and the larger ones of Asia. -/
def isForeignLetter (c : Char) : Bool :=
  let n := c.toNat
  n = 0xAA || n = 0xB5 || n = 0xBA || (0xC0 ≤ n && n ≤ 0x2C1 && n != 0xD7 && n != 0xF7) ||
    (0x370 ≤ n && n ≤ 0x556 && n != 0x37E && n != 0x387 && n != 0x482) || (0x5D0 ≤ n && n ≤ 0x5EA) ||
    (0x620 ≤ n && n ≤ 0x64A) || (0x904 ≤ n && n ≤ 0x939) || (0x10A0 ≤ n && n ≤ 0x10FA) ||
    (0x1E00 ≤ n && n ≤ 0x1FBC) || (0x3041 ≤ n && n ≤ 0x3096) || (0x30A1 ≤ n && n ≤ 0x30FA) ||
    (0x3400 ≤ n && n ≤ 0x9FFF) || (0xAC00 ≤ n && n ≤ 0xD7A3) || (0x20000 ≤ n && n ≤ 0x323AF)

def beginsName (c : Char) : Bool := c = '_' || c.isAlpha || isForeignLetter c

def continuesName (c : Char) : Bool := beginsName c || c.isDigit || c = '.' || c = '[' || c = ']'

/-- A flag as it is written, or the sign that switches off what follows it. -/
structure FlagItem where
  span : Span
  flag : Option Flag

def switchesOf (items : List FlagItem) : List Switch :=
  let on := items.takeWhile fun item => item.flag.isSome
  let off := items.dropWhile fun item => item.flag.isSome
  (on.filterMap (·.flag)).map (⟨·, true⟩) ++ (off.filterMap (·.flag)).map (⟨·, false⟩)

/-- The setting of `flag` after `switches`, which may leave it as it is. -/
def settingOf (flag : Flag) (switches : List Switch) (setting : Bool) : Bool :=
  match switches.find? fun switch => switch.flag = flag with
  | some switch => switch.on
  | none => setting

/-- What an opening parenthesis begins: a group, or nothing but a change of flags. -/
inductive Opening
  | group (captures : Bool) (switches : List Switch)
  | setting (span : Span) (switches : List Switch)

structure Count where
  least : Nat
  most : Option Nat

/-- Counts are kept in 32 bits. -/
def countLimit : Nat := 4294967296

def sequenceOf (span : Span) : List Tree → Tree
  | [] => .empty span
  | [item] => item
  | items => .sequence span items

def choiceOf (span : Span) : List Tree → Tree
  | [branch] => branch
  | branches => .choice span branches

def Tree.isRepeatable : Tree → Bool
  | .empty _ => false
  | .setting _ _ => false
  | _ => true

namespace Reader

/-- Flags up to a colon or a closing parenthesis, the last one first. -/
def flagItems : Nat → List FlagItem → Reader (List FlagItem)
  | 0, seen => return seen
  | fuel + 1, seen => do
    match ← next? with
    | none => refuse .flagsUnclosed (← spot)
    | some c =>
      if c = ':' || c = ')' then return seen
      let span ← charSpan
      let flag := Flag.ofChar? c
      if c != '-' && flag.isNone then refuse .flagUnknown span
      match seen.find? fun item => item.flag = flag with
      | some item =>
        refuseAgain (if flag.isNone then .negationRepeated else .flagRepeated) span item.span
      | none =>
        advance
        flagItems fuel (⟨span, flag⟩ :: seen)

def switches : Reader (List FlagItem) := do
  let seen ← flagItems ((← remaining) + 1) []
  match seen with
  | ⟨span, none⟩ :: _ => refuse .negationDangling span
  | _ => return seen.reverse

def nameChars (isFirst : Bool) : Nat → Reader (List Char)
  | 0 => return []
  | fuel + 1 => do
    match ← next? with
    | none => refuse .nameUnclosed (← spot)
    | some c =>
      if c = '>' then return []
      if !(if isFirst then beginsName c else continuesName c) then refuse .nameCharacter (← charSpan)
      advance
      return c :: (← nameChars false fuel)

/-- The name of a group, which no other group may have. -/
def groupName : Reader Unit := do
  let first ← place
  let name := String.ofList (← nameChars true ((← remaining) + 1))
  let span ← since first
  advance
  if name.isEmpty then refuse .nameEmpty ⟨first, first⟩
  match (← get).names.lookup name with
  | some earlier => refuseAgain .nameRepeated span earlier
  | none => modify fun scan => { scan with names := (name, span) :: scan.names }

/-- An opening parenthesis with all that says what it opens. -/
def opening : Reader Opening := do
  let paren ← charSpan
  advanceSkip
  for sign in ["?=", "?!", "?<=", "?<!"] do
    if ← take? sign then refuse .lookAround (← since paren.first)
  let inner ← spot
  if (← take? "?P<") || (← take? "?<") then
    groupName
    return .group true []
  if !(← take? "?") then return .group true []
  if (← next?).isNone then refuse .groupUnclosed paren
  let items ← switches
  let closes := (← next?) = some ')'
  advance
  if !closes then return .group false (switchesOf items)
  if items.isEmpty then refuse .repetitionMissing inner
  return .setting (← since paren.first) (switchesOf items)

/-- What an operator behind `done` repeats, and what stands before that. -/
def operand (done : List Tree) : Reader (Tree × List Tree) := do
  match done with
  | tree :: done => if tree.isRepeatable then return (tree, done) else refuse .repetitionMissing (← spot)
  | [] => refuse .repetitionMissing (← spot)

/-- A question mark behind an operator asks for as few repetitions as will do. -/
def lazyMark : Reader Unit := do
  if (← next?) = some '?' then advance

/-- A number in a count. Blanks are allowed on both sides of it even where they count elsewhere. -/
def countNumber : Reader (Except Fault Nat) := do
  let _ ← takeWhile Text.isBlank
  let first ← place
  let digits ← takeSpaced Char.isDigit (← remaining)
  let span ← since first
  let _ ← takeSpaced Text.isBlank (← remaining)
  let n := valueOf 10 (digits.map fun c => c.toNat - 48)
  if digits.isEmpty then return .error { cause := .countEmpty, span }
  else if countLimit ≤ n then return .error { cause := .countOutOfRange, span }
  else return .ok n

/-- A count in braces. That it does not end is told before that its first number is missing. -/
def count : Reader Count := do
  let brace ← place
  let demandMore : Reader Unit := do
    if (← next?).isNone then refuse .countUnclosed (← since brace)
  advanceSkip
  demandMore
  let first ← countNumber
  demandMore
  let count ← do
    if (← next?) = some ',' then
      advanceSkip
      demandMore
      let least ← first
      if (← next?) = some '\x7d' then pure (Count.mk least none)
      else pure (Count.mk least (some (← (← countNumber))))
    else
      let times ← first
      pure (Count.mk times (some times))
  if (← next?) != some '\x7d' then refuse .countUnclosed (← since brace)
  advanceSkip
  lazyMark
  if count.most.any (· < count.least) then refuse .countReversed (← since brace)
  return count

/-- The count that `c` asks for, if it is an operator. -/
def operator? (c : Char) : Reader (Option Count) := do
  match c with
  | '?' => simple ⟨0, some 1⟩
  | '*' => simple ⟨0, none⟩
  | '+' => simple ⟨1, none⟩
  | '\x7b' => return some (← count)
  | _ => return none
where
  simple (count : Count) : Reader (Option Count) := do
    advance
    lazyMark
    return some count

def isOperator (c : Char) : Bool := c = '?' || c = '*' || c = '+' || c = '\x7b'

/-- A part that is neither group nor bracket. -/
def atom (c : Char) : Reader Atom := do
  let span ← charSpan
  match c with
  | '\\' => escape
  | '.' => advance; return .dot span
  | '^' => advance; return .anchor span .caret
  | '$' => advance; return .anchor span .dollar
  | c => plain c

mutual

/-- The parts up to a bar, a closing parenthesis or the end, behind those that are `done` already, with the
last one first. A step takes a character at least, and a group takes its opening parenthesis for two. -/
def parts : Nat → List Tree → Reader (List Tree)
  | 0, done => return done
  | fuel + 1, done => do
    skip
    match ← next? with
    | none => return done
    | some c =>
      if c = '|' || c = ')' then return done
      else if c = '(' then
        let paren ← charSpan
        let verbose := (← get).verbose
        match ← opening with
        | .setting span switches =>
          modify fun scan => { scan with verbose := settingOf .verbose switches verbose }
          parts fuel (.setting span switches :: done)
        | .group captures switches =>
          modify fun scan => { scan with verbose := settingOf .verbose switches verbose }
          let body ← branches fuel
          if (← next?).isNone then refuse .groupUnclosed paren
          modify fun scan => { scan with verbose }
          advance
          parts fuel (.group (← since paren.first) captures switches body :: done)
      else if c = '[' then
        let set ← bracketed
        parts fuel (.set set :: done)
      else if isOperator c then
        let (tree, done) ← operand done
        match ← operator? c with
        | some count =>
          parts fuel (.repetition (← since tree.span.first) count.least count.most tree :: done)
        | none => return done
      else
        let atom ← atom c
        parts fuel (.atom atom :: done)

/-- A choice, up to a closing parenthesis or the end. -/
def branches : Nat → Reader Tree
  | 0 => return .empty (← spot)
  | fuel + 1 => do
    let first ← place
    let all ← branchList fuel
    return choiceOf (← since first) all

def branchList : Nat → Reader (List Tree)
  | 0 => return []
  | fuel + 1 => do
    let first ← place
    let done ← parts fuel []
    let branch := sequenceOf (← since first) done.reverse
    if (← next?) = some '|' then
      advance
      return branch :: (← branchList fuel)
    else return [branch]

end

/-- A whole pattern, with nothing behind it. -/
def whole : Reader Tree := do
  let tree ← branches (4 * (← remaining) + 4)
  if (← next?).isSome then refuse .groupUnopened (← charSpan)
  match tree.tooDeep? 0 with
  | some span => refuse .nesting span
  | none => return tree

end Reader

/-- The parts of a pattern, or the fault that keeps it from being read. -/
def Tree.parse (text : String) : Except Fault Tree := Reader.whole.run' { rest := text.toList }

end Lockout.Pattern
