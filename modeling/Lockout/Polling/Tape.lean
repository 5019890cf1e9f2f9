import Lockout.Polling.Basic
/-!
# Polling a tape

Pins whose readings come from a tape, one entry per read, and a time that goes on by the same step at each
look. A run breaks off at the first read beyond the tape.
-/

namespace Lockout.Polling

/-- What was done to a pin or the time. A level is `none` if the pin could not be read. -/
inductive TapeMark
  | sensed (wire : Wire) (level : Option Bool)
  | pulledLow
  | released
  | looked (now : UInt32)
  deriving DecidableEq, Repr

namespace TapeMark

def wireLetter : Wire → String
  | .reset => "R"
  | .clock => "C"
  | .data => "D"

def levelLetter : Option Bool → String
  | some true => "1"
  | some false => "0"
  | none => "e"

def letters : TapeMark → String
  | sensed wire level => wireLetter wire ++ levelLetter level
  | pulledLow => "l"
  | released => "h"
  | looked now => "t" ++ toString now.toNat

def line (marks : List TapeMark) : String := String.join (marks.map letters)

end TapeMark

structure Tape where
  reset : List (Option Bool) := []
  clock : List (Option Bool) := []
  data : List (Option Bool) := []
  now : UInt32 := 0
  step : UInt32 := 0
  marks : Array TapeMark := #[]

namespace Tape

def note (mark : TapeMark) : Run Tape Unit := modify fun t => { t with marks := t.marks.push mark }

def readings (t : Tape) : Wire → List (Option Bool)
  | .reset => t.reset
  | .clock => t.clock
  | .data => t.data

def setReadings (t : Tape) (levels : List (Option Bool)) : Wire → Tape
  | .reset => { t with reset := levels }
  | .clock => { t with clock := levels }
  | .data => { t with data := levels }

def sense (wire : Wire) : Run Tape (Option Bool) := do
  let t ← get
  match t.readings wire with
  | [] => throw (.exhausted wire)
  | level :: levels =>
    set (t.setReadings levels wire)
    note (.sensed wire level)
    return level

/-- The record so far; a new one begins. -/
def takeMarks : StateM Tape (List TapeMark) := do
  let t ← get
  set { t with marks := #[] }
  return t.marks.toList

/-- Pins on a tape. The services of the cartridge are idle. -/
def hardware (limit : Nat) : Hardware Tape where
  resetIsHigh := sense .reset
  clockIsHigh := sense .clock
  data := {
    pullLow := note .pulledLow
    release := note .released
    isHigh := sense .data
    isLow := do
      let level ← sense .data
      return level.map not }
  now := do
    let t ← get
    let now := t.now + t.step
    set { t with now := now }
    note (.looked now)
    return now
  services := {
    region := return .ntsc
    storeRegion := fun _ => return ()
    startBlink := return ()
    stopBlink := return () }
  config := return .standard
  log _ := return ()
  limit := limit

end Tape

end Lockout.Polling
