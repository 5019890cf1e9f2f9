import Lockout.Pins
/-!
# The simulated bus

The wires between a console and a cartridge, a clock that counts timer units, a one-shot timer, the stored
region and the status light. DATA is low as soon as the cartridge, the console or a genuine chip pulls it.
A genuine chip, once attached, pulls DATA low while CLOCK is high, from the first rising edge on.
-/

namespace Lockout

/-- The console's part in one bit cell. -/
inductive BitCell
  /-- Leave DATA alone and record the level on it. -/
  | listen
  | send (bit : Bool)
  deriving DecidableEq, Repr

/-- The simulated bus: the wires, who pulls DATA low, the clock and its timer, the board, and the console at its end. -/
structure Bus where
  resetHigh : Bool := false
  clockHigh : Bool := true
  cartridgeLow : Bool := false
  consoleLow : Bool := false
  foreignLow : Bool := false
  foreignAttached : Bool := false
  /-- Timer units in half a clock period. -/
  halfPeriod : UInt32 := 10
  now : UInt32 := 0
  /-- When the armed timer elapses. -/
  timer : Option UInt32 := none
  region : Region := .ntsc
  blinking : Bool := false
  /-- Bit cells that the console still has to play when CLOCK is polled. -/
  script : List BitCell := []
  listening : Bool := false
  received : Array Bool := #[]
  deriving DecidableEq, Repr

namespace Bus

def dataHigh (b : Bus) : Bool := !(b.cartridgeLow || b.consoleLow || b.foreignLow)

/-- CLOCK falls, and the console puts its bit on the line. -/
def clockFalls (b : Bus) (cell : BitCell) : Bus :=
  { b with
    clockHigh := false
    foreignLow := false
    consoleLow := cell = .send false
    listening := cell = .listen
    now := b.now + b.halfPeriod }

/-- A listening console samples, then everybody but the cartridge reacts to the rising CLOCK. -/
def clockRises (b : Bus) : Bus :=
  { b with
    received := if b.listening then b.received.push b.dataHigh else b.received
    clockHigh := true
    consoleLow := false
    listening := false
    foreignLow := b.foreignAttached
    now := b.now + b.halfPeriod }

/-- Plays the next edge of the script. A console that has nothing left to play drops RESET. -/
def nextEdge (b : Bus) : Bus :=
  if b.clockHigh then
    match b.script with
    | cell :: rest => { b with script := rest }.clockFalls cell
    | [] => { b with resetHigh := false }.clockFalls .listen
  else
    b.clockRises

/-- Whether the armed timer has elapsed. Times are compared around the wrap of the clock, so what lies less
than half a turn back has passed. -/
def timerDue (b : Bus) : Bool :=
  match b.timer with
  | some due => b.now - due < 0x80000000
  | none => false

/-! ## Pins and services -/

def data : DataPin (StateM Bus) where
  pullLow := modify fun b => { b with cartridgeLow := true }
  release := modify fun b => { b with cartridgeLow := false }
  isHigh := return some (← get).dataHigh
  isLow := return some !(← get).dataHigh

def resetIsHigh : StateM Bus (Option Bool) := return some (← get).resetHigh

/-- CLOCK under polling: every look plays one edge. -/
def clockIsHigh : StateM Bus (Option Bool) := do
  modify nextEdge
  return some (← get).clockHigh

/-- The time; looking at it takes one unit. -/
def readTime : StateM Bus UInt32 := do
  modify fun b => { b with now := b.now + 1 }
  return (← get).now

def startTimer (duration : UInt32) : StateM Bus Unit :=
  modify fun b => { b with timer := some (b.now + duration) }

def stopTimer : StateM Bus Unit := modify fun b => { b with timer := none }

def services : Services (StateM Bus) where
  region := return (← get).region
  storeRegion region := modify fun b => { b with region := region }
  startBlink := modify fun b => { b with blinking := true }
  stopBlink := modify fun b => { b with blinking := false }

/-! ## The console's side -/

def driveReset (high : Bool) : StateM Bus Unit := modify fun b => { b with resetHigh := high }

def pace (units : UInt32) : StateM Bus Unit := modify fun b => { b with halfPeriod := units }

def plugForeign : StateM Bus Unit := modify fun b => { b with foreignAttached := true }

def enqueue (cells : List BitCell) : StateM Bus Unit :=
  modify fun b => { b with script := b.script ++ cells }

/-- The recorded levels, oldest first; the record is emptied. -/
def takeReceived : StateM Bus (List Bool) := do
  let b ← get
  set { b with received := #[] }
  return b.received.toList

end Bus

end Lockout
