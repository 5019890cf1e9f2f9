import Lockout.Pins
import Lockout.Session.Basic
/-!
# The busy-polling cartridge

Without a kernel the cartridge spins on the pins itself: it waits for CLOCK to fall, drives or samples DATA,
waits for CLOCK to rise and lets go. RESET and the deadline are looked at in every poll. A wait may last for
ever, so a run is followed for a number of polls only and then breaks off, which is not an answer.
-/

namespace Lockout

inductive Wire
  | reset
  | clock
  | data
  deriving DecidableEq, Repr

inductive Halt
  /-- It was followed for as long as was asked for. -/
  | unfinished
  /-- No reading of this wire is left. -/
  | exhausted (wire : Wire)
  /-- The console has gone for good. -/
  | gone
  deriving DecidableEq, Repr

/-- A run in a world `σ` that may break off. The world is kept either way. -/
abbrev Run (σ : Type) := ExceptT Halt (StateM σ)

namespace Polling

/-- What the cartridge spins on, in a world `σ`. -/
structure Hardware (σ : Type) where
  resetIsHigh : Run σ (Option Bool)
  clockIsHigh : Run σ (Option Bool)
  data : DataPin (Run σ)
  /-- A free-running time that wraps. -/
  now : Run σ UInt32
  services : Services (Run σ)
  config : Run σ Config
  log : Message → Run σ Unit
  /-- How many polls a single wait, and how many commands a session, are followed for. -/
  limit : Nat

/-- One full turn of the time: how far a run is followed when nothing else is asked for. -/
def fullTurn : Nat := 4294967296

structure Deadline where
  start : UInt32
  duration : UInt32
  deriving DecidableEq, Repr

structure State where
  deadline : Option Deadline := none
  /-- Look for a genuine chip at the end of the next bit. -/
  probing : Bool := false
  deriving DecidableEq, Repr

end Polling

abbrev Polling (σ : Type) := StateT Polling.State (Run σ)

namespace Polling

variable {σ : Type} (hw : Hardware σ)

/-- Whether an armed deadline has passed. The time is only read while one is armed. -/
def isLate : Polling σ Bool := do
  match (← get).deadline with
  | none => return false
  | some d =>
    let now ← hw.now
    return d.duration ≤ now - d.start

/-- Polls until CLOCK is at the level. An unreadable RESET counts as low, and an unreadable CLOCK as not
being there yet. -/
def awaitClock (high : Bool) : Nat → Polling σ (Except SessionError Unit)
  | 0 => throw .unfinished
  | polls + 1 => do
    let running ← hw.resetIsHigh
    if running.getD false then
      let late ← isLate hw
      if late then
        return .error .protocolTimeout
      else
        let level ← hw.clockIsHigh
        if level.getD (!high) = high then
          return .ok ()
        else
          awaitClock high polls
    else
      return .error .interrupted

/-- Lets go of DATA on the rising edge, and probes if that was asked for. -/
def endBit : Polling σ (Except SessionError Unit) := do
  match ← awaitClock hw true hw.limit with
  | .error e => return .error e
  | .ok () =>
    hw.data.release
    if (← get).probing then
      modify fun s => { s with probing := false }
      let low ← hw.data.isLow
      return if low.getD false then .error .detectionFailure else .ok ()
    else
      return .ok ()

/-- A level that cannot be read counts as released. -/
def readBit : Polling σ (Except SessionError Bool) := do
  match ← awaitClock hw false hw.limit with
  | .error e => return .error e
  | .ok () =>
    let level ← hw.data.isHigh
    match ← endBit hw with
    | .error e => return .error e
    | .ok () => return .ok (level.getD true)

/-- A one leaves DATA as it is. -/
def writeBit (bit : Bool) : Polling σ (Except SessionError Unit) := do
  match ← awaitClock hw false hw.limit with
  | .error e => return .error e
  | .ok () =>
    unless bit do
      hw.data.pullLow
    endBit hw

/-- Polls RESET until it is at the level; an unreadable one counts as low. -/
def awaitReset (high : Bool) : Nat → Polling σ Unit
  | 0 => throw .unfinished
  | polls + 1 => do
    let level ← hw.resetIsHigh
    if level.getD false = high then
      return ()
    else
      awaitReset high polls

/-- Polls the time until the deadline has passed, if there is one. -/
def awaitDeadline : Nat → Polling σ Unit
  | 0 => throw .unfinished
  | polls + 1 => do
    if (← get).deadline.isNone then
      return ()
    else
      let late ← isLate hw
      if late then
        return ()
      else
        awaitDeadline polls

def arm (duration : UInt32) : Polling σ Unit := do
  let start ← hw.now
  modify fun s => { s with deadline := some ⟨start, duration⟩ }

def disarm : Polling σ Unit := modify fun s => { s with deadline := none }

def link : Surroundings (Polling σ)
  | .awaitPower => awaitReset hw true hw.limit
  | .read => readBit hw
  | .write bit => writeBit hw bit
  | .probe => modify fun s => { s with probing := true }
  | .setDeadline duration => arm hw duration
  | .dropDeadline => disarm
  | .awaitDeadline => do
    awaitDeadline hw hw.limit
    return .ok ()
  | .consoleUp => do
    let level ← hw.resetIsHigh
    return level.getD false
  | .holdData => hw.data.pullLow
  | .config => hw.config
  | .region => hw.services.region
  | .storeRegion region => hw.services.storeRegion region
  | .startBlink => hw.services.startBlink
  | .log message => hw.log message

/-- One session to its end; the bus is released whatever ended it. -/
def serveSession : Polling σ Ending := do
  match ← Session.run (link hw) hw.limit with
  | .ok _ => throw .unfinished
  | .error ending =>
    disarm
    hw.data.release
    hw.log (.sessionEnded ending.phase ending.error)
    return ending

/-- Stays off the bus until the console drops RESET, then stops the error blink. -/
def standBy : Polling σ Unit := do
  awaitReset hw false hw.limit
  hw.services.stopBlink

/-- Serves one session after the other, up to a number of them. -/
def serveSessions : Nat → Polling σ Unit
  | 0 => throw .unfinished
  | sessions + 1 => do
    let ending ← serveSession hw
    unless ending.error.isRecoverable do
      hw.log (.awaitingReset ending.error)
    standBy hw
    serveSessions sessions

end Polling

end Lockout
