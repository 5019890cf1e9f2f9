import Lockout.Handoff.Basic
import Lockout.Kernel.Scheduler
/-!
# A handoff on the work bench

A handoff wired to a DATA line that somebody else may hold low and whose pin may fail, with a record of
everything that is done to pins, services and kernel. While the pin fails, driving it has no effect.
-/

namespace Lockout

/-- One action on a pin, a service, the timer or the kernel. -/
inductive Mark
  | pulledLow
  | released
  | askedHigh
  | askedLow
  | woke (task : SlotId)
  | restarted (task : SlotId)
  | clearedError
  | blinkedError
  | readRegion
  | storedRegion (region : Region)
  | askedReset
  | armed (duration : UInt32)
  | disarmed
  | measuredStack (task : SlotId)
  | yielded
  | level (high : Bool)
  deriving DecidableEq, Repr

namespace Mark

def letters : Mark → String
  | pulledLow => "l"
  | released => "h"
  | askedHigh => "?"
  | askedLow => "!"
  | woke task => "k" ++ toString task.val
  | restarted task => "K" ++ toString task.val
  | clearedError => "C"
  | blinkedError => "B"
  | readRegion => "g"
  | storedRegion .ntsc => "GN"
  | storedRegion .pal => "GP"
  | askedReset => "H"
  | armed duration => "A" ++ toString duration.toNat
  | disarmed => "X"
  | measuredStack task => "W" ++ toString task.val
  | yielded => "/"
  | level high => if high then "1" else "0"

def line (marks : List Mark) : String := String.join (marks.map letters)

end Mark

structure Rig where
  task : SlotId
  handoff : Handoff := {}
  line : Line := {}
  /-- The DATA pin fails. -/
  failing : Bool := false
  stored : Region := .ntsc
  marks : Array Mark := #[]

namespace Rig

def note (mark : Mark) : StateM Rig Unit := modify fun r => { r with marks := r.marks.push mark }

/-- The record so far; a new one begins. -/
def takeMarks : StateM Rig (List Mark) := do
  let r ← get
  set { r with marks := #[] }
  return r.marks.toList

def drive (low : Bool) : StateM Rig Unit :=
  modify fun r => if r.failing then r else { r with line.ownLow := low }

def data : DataPin (StateM Rig) where
  pullLow := do
    note .pulledLow
    drive true
  release := do
    note .released
    drive false
  isHigh := do
    note .askedHigh
    let r ← get
    return if r.failing then none else some r.line.isHigh
  isLow := do
    note .askedLow
    let r ← get
    return if r.failing then none else some !r.line.isHigh

def services : Services (StateM Rig) where
  region := do
    note .readRegion
    return (← get).stored
  storeRegion region := do
    note (.storedRegion region)
    modify fun r => { r with stored := region }
  startBlink := note .blinkedError
  stopBlink := note .clearedError

def signal (s : Signal) : StateM Rig Unit := do
  match s with
  | .none => pure ()
  | .wake => note (.woke (← get).task)
  | .restart => note (.restarted (← get).task)

def setHandoff (h : Handoff) : StateM Rig Unit := modify fun r => { r with handoff := h }

/-- Lets an edge act on the handoff and signals the kernel. -/
def edge (act : Handoff → StateM Rig (Handoff × Signal)) : StateM Rig Unit := do
  let (h, s) ← act (← get).handoff
  setHandoff h
  signal s

def resetRises : StateM Rig Unit := edge fun h => return h.resetRises

def resetFalls : StateM Rig Unit := do
  setHandoff (← (← get).handoff.resetFalls data services)

def clockFalls : StateM Rig Unit := edge fun h => h.clockFalls data

def clockRises : StateM Rig Unit := edge fun h => h.clockRises data

def deadlinePasses : StateM Rig Unit := edge fun h => return h.deadlinePasses

def othersPull (low : Bool) : StateM Rig Unit := modify fun r => { r with line.othersLow := low }

def setFailing (failing : Bool) : StateM Rig Unit := modify fun r => { r with failing := failing }

def taskSide (f : Handoff → Handoff) : StateM Rig Unit :=
  modify fun r => { r with handoff := f r.handoff }

def collect : StateM Rig (Option Bool) := do
  let (bit, h) := (← get).handoff.collect
  setHandoff h
  return bit

/-- Enabled, foreign chip found, deadline passed, line pulled low by the cartridge. -/
def flags (r : Rig) : List Bool := [r.handoff.enabled, r.handoff.foreign, r.handoff.expired, r.line.ownLow]

end Rig

end Lockout
