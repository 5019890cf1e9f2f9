import Lockout.Pattern.Fault
import Lockout.Pattern.Tree
import Lockout.Text
/-!
# Moving through the text of a pattern

Reading goes forward one character at a time and remembers the place. Where the flag for it is on, blanks and
remarks between the parts are passed over.
-/

namespace Lockout.Pattern

/-- What is left to read, and what has been seen that later parts depend on. -/
structure Scan where
  rest : List Char
  place : Position := {}
  verbose : Bool := false
  /-- The names given to groups so far, and where. -/
  names : List (String × Span) := []

/-- Reading succeeds or ends in the first fault. -/
abbrev Reader := StateT Scan (Except Fault)

namespace Reader

variable {α : Type}

def place : Reader Position := return (← get).place

def next? : Reader (Option Char) := return (← get).rest.head?

/-- How many characters are left, which bounds what reading can still do. -/
def remaining : Reader Nat := return (← get).rest.length

def refuse (cause : Cause) (span : Span) : Reader α := throw { cause, span }

/-- The fault that something at `span` stood at `earlier` before. -/
def refuseAgain (cause : Cause) (span earlier : Span) : Reader α :=
  throw { cause, span, earlier := some earlier }

/-- The stretch from `first` to where reading has got. -/
def since (first : Position) : Reader Span := return ⟨first, ← place⟩

/-- The stretch without width where reading has got. -/
def spot : Reader Span := do since (← place)

def charSpan : Reader Span := do
  let first ← place
  match ← next? with
  | some c => return ⟨first, first.after c⟩
  | none => return ⟨first, first⟩

def advance : Reader Unit :=
  modify fun scan =>
    match scan.rest with
    | c :: rest => { scan with rest, place := scan.place.after c }
    | [] => scan

/-- Goes forward by `text` if that is what comes next. -/
def take? (text : String) : Reader Bool := do
  if text.toList.isPrefixOf (← get).rest then
    text.toList.forM fun _ => advance
    return true
  else return false

/-- Passes blanks and remarks, which go from a number sign to the end of the line. -/
def passBlanks (inRemark : Bool) : List Char → Position → List Char × Position
  | [], place => ([], place)
  | c :: cs, place =>
    if inRemark then passBlanks (c != '\n') cs (place.after c)
    else if Text.isBlank c then passBlanks false cs (place.after c)
    else if c = '#' then passBlanks true cs (place.after c)
    else (c :: cs, place)

def skip : Reader Unit :=
  modify fun scan =>
    if scan.verbose then
      let (rest, place) := passBlanks false scan.rest scan.place
      { scan with rest, place }
    else scan

def advanceSkip : Reader Unit := do advance; skip

def takeWhile (accepts : Char → Bool) : Reader (List Char) :=
  modifyGet fun scan =>
    let taken := scan.rest.takeWhile accepts
    (taken, { scan with rest := scan.rest.dropWhile accepts, place := taken.foldl Position.after scan.place })

/-- As `takeWhile`, for at most `fuel` characters, what `skip` passes being allowed behind each. -/
def takeSpaced (accepts : Char → Bool) : Nat → Reader (List Char)
  | 0 => return []
  | fuel + 1 => do
    match ← next? with
    | some c =>
      if accepts c then
        advanceSkip
        return c :: (← takeSpaced accepts fuel)
      else return []
    | none => return []

/-- The character after the next one that is no blank, where those are passed. A number sign is passed once,
and its remark counts as read with the first character that is no blank. -/
def peekSkip? : Reader (Option Char) := do
  let scan ← get
  let behind := scan.rest.drop 1
  if scan.verbose then
    let shown := behind.dropWhile Text.isBlank
    let shown := if shown.head? = some '#' then (shown.drop 1).dropWhile Text.isBlank else shown
    return (shown.head?).or behind.head?
  else return behind.head?

def peek? : Reader (Option Char) := return ((← get).rest.drop 1).head?

end Reader

end Lockout.Pattern
