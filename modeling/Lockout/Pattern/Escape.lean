import Lockout.Pattern.Scan
/-!
# Reading single characters and escapes

An escape begins with a backslash. It stands for a character, a set of characters or a demand on a place;
those are the same inside and outside of brackets, and who asks decides which of them he can use.
-/

namespace Lockout.Pattern

open Reader

def valueOf (base : Nat) (digits : List Nat) : Nat :=
  digits.foldl (fun value digit => base * value + digit) 0

def hexDigit? (c : Char) : Option Nat :=
  if c.isDigit then some (c.toNat - 48)
  else if 'a' ≤ c ∧ c ≤ 'f' then some (c.toNat - 87)
  else if 'A' ≤ c ∧ c ≤ 'F' then some (c.toNat - 55)
  else none

def isHexDigit (c : Char) : Bool := (hexDigit? c).isSome

def charOfHex? (digits : List Char) : Option Char :=
  let n := valueOf 16 (digits.filterMap hexDigit?)
  if n.isValidChar then some (Char.ofNat n) else none

/-- The characters that mean something of their own unless they are escaped. -/
def isMeta (c : Char) : Bool := "\\.+*?()|[]\x7b\x7d^$#&-~".toList.contains c

/-- What a backslash before it only makes plain: signs of ASCII, but neither letters nor digits. -/
def isEscapable (c : Char) : Bool :=
  isMeta c || (c.toNat < 0x80 && !c.isAlphanum && c != '<' && c != '>')

def control? : Char → Option Char
  | 'a' => some '\x07'
  | 'f' => some '\x0c'
  | 't' => some '\t'
  | 'n' => some '\n'
  | 'r' => some '\r'
  | 'v' => some '\x0b'
  | _ => none

def Shorthand.ofChar? : Char → Option (Shorthand × Bool)
  | 'd' => some (digit, false)
  | 'D' => some (digit, true)
  | 's' => some (space, false)
  | 'S' => some (space, true)
  | 'w' => some (word, false)
  | 'W' => some (word, true)
  | _ => none

/-- The demands on a place that are one letter or sign behind a backslash. -/
def Anchor.ofChar? : Char → Option Anchor
  | 'A' => some textStart
  | 'z' => some textEnd
  | 'b' => some (word .edge)
  | 'B' => some (word .noEdge)
  | '<' => some (word .start)
  | '>' => some (word .stop)
  | _ => none

/-- The demands on a place that are named in braces. -/
def WordSide.ofName? : String → Option WordSide
  | "start" => some start
  | "end" => some stop
  | "start-half" => some startHalf
  | "end-half" => some stopHalf
  | _ => none

namespace Reader

/-- Exactly so many hexadecimal digits, reading being at the first of them. -/
def hexDigits : Nat → Reader (List Char)
  | 0 => return []
  | count + 1 => do
    match ← next? with
    | none => refuse .escapeUnfinished (← spot)
    | some c =>
      if isHexDigit c then
        advanceSkip
        return c :: (← hexDigits count)
      else refuse .hexDigit (← charSpan)

/-- A character by its number, in as many digits as the letter before asks for, or in braces. -/
def hexLiteral (first : Position) (count : Nat) : Reader Literal := do
  advanceSkip
  match ← next? with
  | none => refuse .escapeUnfinished (← spot)
  | some '\x7b' =>
    let brace ← place
    let digitsFrom := (← charSpan).last
    advanceSkip
    let digits ← takeSpaced isHexDigit (← remaining)
    match ← next? with
    | none => refuse .escapeUnfinished (← since brace)
    | some '\x7d' =>
      let digitsSpan ← since digitsFrom
      advanceSkip
      if digits.isEmpty then refuse .hexEmpty (← since brace)
      match charOfHex? digits with
      | some c => return { span := ← since first, char := c }
      | none => refuse .hexOutOfRange digitsSpan
    | some _ => refuse .hexDigit (← charSpan)
  | some _ =>
    let digitsFrom ← place
    let digits ← hexDigits count
    match charOfHex? digits with
    | some c => return { span := ← since first, char := c, byte := count = 2 }
    | none => refuse .hexOutOfRange (← since digitsFrom)

/-- A set named for a property: one letter, or a name in braces. -/
def property (first : Position) : Reader Atom := do
  advanceSkip
  match ← next? with
  | none => refuse .escapeUnfinished (← spot)
  | some '\x7b' =>
    advanceSkip
    let _ ← takeSpaced (· != '\x7d') (← remaining)
    if (← next?).isNone then refuse .escapeUnfinished (← spot)
    advance
  | some c =>
    if c = '\\' then refuse .propertyName (← charSpan)
    advanceSkip
  return .property (← since first)

/-- A name in braces behind the sign for a word edge, if there is one. Braces that hold anything but letters
and hyphens belong to a repetition of the edge, and nothing is read of them. -/
def wordSide? (first : Position) : Reader (Option WordSide) := do
  if (← next?) != some '\x7b' then return none
  let before ← get
  let brace ← place
  advanceSkip
  match ← next? with
  | none => refuse .braceUnclosed (← since first)
  | some c =>
    let named (c : Char) : Bool := c.isAlpha || c = '-'
    if !named c then
      set before
      return none
    let nameFrom ← place
    let name ← takeSpaced named (← remaining)
    if (← next?) != some '\x7d' then refuse .boundaryUnclosed (← since brace)
    let nameSpan ← since nameFrom
    advance
    match WordSide.ofName? (String.ofList name) with
    | some side => return some side
    | none => refuse .boundaryUnknown nameSpan

/-- What the character behind a backslash makes of it, where it is not one of the longer forms. -/
def shortEscape (first : Position) (c : Char) : Reader Atom := do
  advance
  let span ← since first
  if isEscapable c then return .literal { span, char := c }
  match control? c, Shorthand.ofChar? c, Anchor.ofChar? c with
  | some char, _, _ => return .literal { span, char }
  | _, some (kind, negated), _ => return .shorthand span kind negated
  | _, _, some anchor =>
    if c = 'b' then
      match ← wordSide? first with
      | some side => return .anchor (← since first) (.word side)
      | none => return .anchor span anchor
    else return .anchor span anchor
  | _, _, _ => refuse .escapeUnknown span

def escape : Reader Atom := do
  let first ← place
  advance
  match ← next? with
  | none => refuse .escapeUnfinished (← since first)
  | some c =>
    if c.isDigit then refuse .backReference (.through ⟨first, first⟩ (← charSpan))
    match c with
    | 'x' => return .literal (← hexLiteral first 2)
    | 'u' => return .literal (← hexLiteral first 4)
    | 'U' => return .literal (← hexLiteral first 8)
    | 'p' | 'P' => property first
    | c => shortEscape first c

/-- The next character for itself. -/
def plain (c : Char) : Reader Atom := do
  let span ← charSpan
  advance
  return .literal { span, char := c }

end Reader

end Lockout.Pattern
