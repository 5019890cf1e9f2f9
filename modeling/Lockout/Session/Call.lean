import Lockout.Config
import Lockout.Dialogue
import Lockout.Log
/-!
# What a session asks of its surroundings

A session reaches the console one bit at a time, and the cartridge's services one call at a time. Every
call that blocks ends once the bit has crossed the bus, or with an error that ends the session.
-/

namespace Lockout

/-- A question that a session puts to its surroundings. -/
inductive Call
  /-- Block until the console is powered and out of reset. -/
  | awaitPower
  /-- Leave DATA alone for one clock and return the level on it. -/
  | read
  /-- Drive a bit for one clock; a one leaves DATA released. -/
  | write (bit : Bool)
  /-- Probe for a genuine chip on the next rising clock edge. -/
  | probe
  /-- Start the deadline. While it is armed and has passed, reads and writes report a timeout. -/
  | setDeadline (duration : UInt32)
  | dropDeadline
  /-- Block until the armed deadline has passed. -/
  | awaitDeadline
  /-- Whether the console still keeps RESET released. -/
  | consoleUp
  /-- Pull DATA low until the next bit releases it. -/
  | holdData
  | config
  | region
  | storeRegion (region : Region)
  | startBlink
  | log (message : Message)
  deriving DecidableEq, Repr

abbrev Call.Answer : Call → Type
  | read => Except SessionError Bool
  | write _ => Except SessionError Unit
  | awaitDeadline => Except SessionError Unit
  | consoleUp => Bool
  | config => Config
  | region => Region
  | _ => Unit

/-- A part of a session that cannot fail. -/
abbrev Talk := Dialogue Call.Answer

abbrev Exchange := ExceptT SessionError Talk

abbrev Surroundings (m : Type → Type) := (c : Call) → m c.Answer

namespace Exchange

def ask (c : Call) : Exchange c.Answer := ExceptT.lift (.ask c .done)

def readBit : Exchange Bool := ExceptT.mk (.ask .read .done)

def writeBit (bit : Bool) : Exchange Unit := ExceptT.mk (.ask (.write bit) .done)

def awaitDeadline : Exchange Unit := ExceptT.mk (.ask .awaitDeadline .done)

def log (message : Message) : Exchange Unit := ask (.log message)

/-- `n` bits, in the order they were read. -/
def readBits : Nat → Exchange (List Bool)
  | 0 => pure []
  | n + 1 => do
    let bit ← readBit
    let bits ← readBits n
    return bit :: bits

/-- Stops at the first bit that does not get through. -/
def writeBits : List Bool → Exchange Unit
  | [] => pure ()
  | bit :: bits => do
    writeBit bit
    writeBits bits

def readNibble : Exchange Nat := do
  let bits ← readBits 4
  return Nibble.ofBits bits

def readNibbles : Nat → Exchange (List Nat)
  | 0 => pure []
  | n + 1 => do
    let nibble ← readNibble
    let nibbles ← readNibbles n
    return nibble :: nibbles

/-- The low four bits of each value, one value after the other. -/
def writeNibbles (nibbles : List Nat) : Exchange Unit := writeBits (nibbles.flatMap Nibble.bits)

/-- The result of `x` as a value, so that what follows runs in either case. -/
def attempt {α : Type} (x : Exchange α) : Exchange (Except SessionError α) := ExceptT.lift x.run

/-- Ends like an earlier attempt did. -/
def conclude {α : Type} (r : Except SessionError α) : Exchange α := ExceptT.mk (.done r)

end Exchange

end Lockout
