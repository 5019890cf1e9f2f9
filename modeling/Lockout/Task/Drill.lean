import Lockout.Handoff.Rig
import Lockout.Task.Basic
/-!
# Drills of the task

The task on a work bench. Each time it rests, the next group of stimuli is played and the task is woken,
whatever they were. The record is cut after every group; it ends when no group is left.
-/

namespace Lockout

inductive Stimulus
  /-- A whole bit cell in which somebody drives the bit. -/
  | cell (bit : Bool)
  | clockFalls
  | clockRises
  | deadlinePasses
  /-- The deadline passes if the timer runs. -/
  | timerElapses
  | resetRises
  | resetFalls
  | othersPull (low : Bool)
  | dataFails (failing : Bool)
  /-- The level of the RESET pin from now on; `none` if it cannot be read. -/
  | resetLevel (level : Option Bool)
  | nothing
  deriving DecidableEq, Repr

structure Drill where
  rig : Rig
  config : Config := .standard
  resetLevel : Option Bool := some true
  timerArmed : Bool := false
  stackWords : Option Nat := none
  segments : Array (List Mark) := #[]
  messages : Array Message := #[]

namespace Drill

def onRig {α : Type} (x : StateM Rig α) : StateM Drill α := fun d =>
  let (a, rig) := x d.rig
  (a, { d with rig := rig })

def note (mark : Mark) : StateM Drill Unit := onRig (Rig.note mark)

def station : Station (StateM Drill) where
  holdData := onRig Rig.data.pullLow
  resetIsHigh := do
    note .askedReset
    return (← get).resetLevel
  startTimer duration := do
    note (.armed duration)
    modify fun d => { d with timerArmed := true }
  stopTimer := do
    note .disarmed
    modify fun d => { d with timerArmed := false }
  services := {
    region := onRig Rig.services.region
    storeRegion := fun region => onRig (Rig.services.storeRegion region)
    startBlink := onRig Rig.services.startBlink
    stopBlink := onRig Rig.services.stopBlink }
  config := return (← get).config
  stackHighWater := do
    note (.measuredStack SlotId.cic)
    return (← get).stackWords
  log message := modify fun d => { d with messages := d.messages.push message }

/-- A falling edge, and the level it leaves on the line. -/
def clockFalls : StateM Drill Unit := do
  onRig Rig.clockFalls
  note (.level (← get).rig.line.isHigh)

def deadlinePasses : StateM Drill Unit := do
  modify fun d => { d with timerArmed := false }
  onRig Rig.deadlinePasses

def play : Stimulus → StateM Drill Unit
  | .cell bit => do
    onRig (Rig.othersPull !bit)
    clockFalls
    onRig (Rig.othersPull false)
    onRig Rig.clockRises
  | .clockFalls => clockFalls
  | .clockRises => onRig Rig.clockRises
  | .deadlinePasses => deadlinePasses
  | .timerElapses => do
    if (← get).timerArmed then deadlinePasses
  | .resetRises => onRig Rig.resetRises
  | .resetFalls => onRig Rig.resetFalls
  | .othersPull low => onRig (Rig.othersPull low)
  | .dataFails failing => onRig (Rig.setFailing failing)
  | .resetLevel level => modify fun d => { d with resetLevel := level }
  | .nothing => pure ()

def cut : StateM Drill Unit := do
  let marks ← onRig Rig.takeMarks
  modify fun d => { d with segments := d.segments.push marks }

def wake (task : Task) : StateM Drill Task := do
  let (h, task) ← Task.resume station (← get).rig.handoff task
  onRig (Rig.setHandoff h)
  return task

def rounds : List (List Stimulus) → Task → StateM Drill Task
  | [], task => return task
  | group :: groups, task => do
    note .yielded
    group.forM play
    cut
    rounds groups (← wake task)

/-- A whole drill from the task's entry. Unless `off`, RESET has risen before the task starts. -/
def run (groups : List (List Stimulus)) (off : Bool) : StateM Drill Unit := do
  unless off do
    onRig Rig.resetRises
  let (h, task) ← Task.start station (← get).rig.handoff
  onRig (Rig.setHandoff h)
  let _ ← rounds groups task
  cut

end Drill

end Lockout
