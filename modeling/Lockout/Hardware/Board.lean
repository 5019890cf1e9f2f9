import Lockout.Hardware.Memory
import Lockout.Handoff.Basic
/-!
# The cartridge board

Register access for an STM32F401. RESET is PA0 and CLOCK is PA1, both inputs with an interrupt on either
edge; DATA is PA2, an open-drain output that idles high; the status light is PC13, active low. TIM2 is the
one-shot deadline timer at one tick a microsecond. The region lives in bit 0 of a backup register.
-/

namespace Lockout

/-- System clock, in Hertz. -/
def systemClock : UInt32 := 16000000

/-- Timer units in a second. -/
def timerRate : UInt32 := 1000000

/-- Toggles of the status light in a second while an error is shown. -/
def blinkRate : UInt32 := 4

namespace Register

def ahb1Enable : Address := 0x40023830
def apb1Enable : Address := 0x40023840
def apb2Enable : Address := 0x40023844
def powerControl : Address := 0x40007000
def backup : Address := 0x40002850

def gpioA : Address := 0x40020000
def gpioC : Address := 0x40020800

/-- Offsets within a block of pins: mode, output type, input, set and reset. -/
def mode (block : Address) : Address := block
def outputType (block : Address) : Address := block + 0x04
def input (block : Address) : Address := block + 0x10
def setReset (block : Address) : Address := block + 0x18

def edgeMask : Address := 0x40013C00
def edgeRising : Address := 0x40013C08
def edgeFalling : Address := 0x40013C0C
def edgePending : Address := 0x40013C14

def timerControl : Address := 0x40000000
def timerInterrupt : Address := 0x4000000C
def timerStatus : Address := 0x40000010
def timerEvent : Address := 0x40000014
def timerCount : Address := 0x40000024
def timerPrescaler : Address := 0x40000028
def timerReload : Address := 0x4000002C

def tickControl : Address := 0xE000E010
def tickReload : Address := 0xE000E014
def tickCurrent : Address := 0xE000E018

def interruptEnable : Address := 0xE000E100
def interruptPriority : Address := 0xE000E400

end Register

/-- The interrupts that the board uses, by vector position. -/
inductive Interrupt
  | resetEdge
  | clockEdge
  | timer
  deriving DecidableEq, Repr

namespace Interrupt

def position : Interrupt → Nat
  | resetEdge => 6
  | clockEdge => 7
  | timer => 28

/-- Edges go before the timer. -/
def priority : Interrupt → UInt8
  | resetEdge => 0x40
  | clockEdge => 0x40
  | timer => 0x80

end Interrupt

/-- A board as its firmware sees it: the registers, and whether the error light blinks. -/
structure Board where
  memory : Memory := {}
  blinking : Bool := false
  deriving DecidableEq, Repr

namespace Board

def bit (n : Word) : Word := 1 <<< n

def resetPin : Word := 0
def clockPin : Word := 1
def dataPin : Word := 2
def lightPin : Word := 13

/-- Only a counter overflow raises the update interrupt. -/
def timerIdle : Word := bit 2

/-- As `timerIdle`, counting once. -/
def timerRunning : Word := timerIdle ||| bit 3 ||| bit 0

def read (a : Address) : StateM Board Word := return (← get).memory.read a

def write (a : Address) (v : Word) : StateM Board Unit :=
  modify fun b => { b with memory := b.memory.write a v }

def update (a : Address) (clear set : Word) : StateM Board Unit :=
  modify fun b => { b with memory := b.memory.modify a clear set }

def pinIsHigh (block : Address) (pin : Word) : StateM Board Bool := do
  return (← read (Register.input block)) &&& bit pin != 0

/-- The lower half of the register sets pins, the upper half resets them. -/
def drivePin (block : Address) (pin : Word) (high : Bool) : StateM Board Unit :=
  write (Register.setReset block) (if high then bit pin else bit (pin + 16))

/-- The two mode bits of a pin, with a mode in place. -/
def pinMode (pin mode : Word) : Word := mode <<< (pin * 2)

def acknowledgeEdge (pin : Word) : StateM Board Unit := write Register.edgePending (bit pin)

/-- Acknowledges a timer update; answers whether one was pending. -/
def acknowledgeTimer : StateM Board Bool := do
  let status ← read Register.timerStatus
  write Register.timerStatus 0
  return status &&& 1 != 0

def enableInterrupt (i : Interrupt) : StateM Board Unit :=
  write (Register.interruptEnable + 4 * (i.position / 32).toUInt32) (bit (i.position % 32).toUInt32)

def setPriority (i : Interrupt) : StateM Board Unit :=
  modify fun b => { b with memory := b.memory.writeByte Register.interruptPriority i.position i.priority }

def initClocks : StateM Board Unit := do
  update Register.ahb1Enable 0 (bit 0 ||| bit 2)
  update Register.apb1Enable 0 (bit 0 ||| bit 28)
  update Register.apb2Enable 0 (bit 14)
  update Register.powerControl 0 (bit 8)

/-- DATA is released before it becomes an output, and the light is off before it does. -/
def initPins : StateM Board Unit := do
  drivePin Register.gpioA dataPin true
  update (Register.outputType Register.gpioA) 0 (bit dataPin)
  update (Register.mode Register.gpioA) (pinMode dataPin 3) (pinMode dataPin 1)
  update (Register.mode Register.gpioA) (pinMode resetPin 3 ||| pinMode clockPin 3) 0
  drivePin Register.gpioC lightPin true
  update (Register.mode Register.gpioC) (pinMode lightPin 3) (pinMode lightPin 1)

def initEdges : StateM Board Unit := do
  let lines : Word := bit resetPin ||| bit clockPin
  update Register.edgeRising 0 lines
  update Register.edgeFalling 0 lines
  write Register.edgePending lines
  update Register.edgeMask 0 lines

/-- The deadline timer ticks in timer units. -/
def initTimer : StateM Board Unit := do
  write Register.timerControl timerIdle
  write Register.timerPrescaler (systemClock / timerRate - 1)

/-- The system tick at the rate of the blink. -/
def initTick : StateM Board Unit := do
  update Register.tickControl 0 (bit 2)
  write Register.tickReload (systemClock / blinkRate - 1)
  write Register.tickCurrent 0
  update Register.tickControl 0 (bit 1)
  update Register.tickControl 0 (bit 0)

def initInterrupts : StateM Board Unit := do
  setPriority .resetEdge
  setPriority .clockEdge
  setPriority .timer
  enableInterrupt .resetEdge
  enableInterrupt .clockEdge
  enableInterrupt .timer

/-- Bringing up, with the code that sets up the core's own system tick and interrupt controller. -/
def bringUpWith (core : StateM Board Unit) : StateM Board Unit := do
  initClocks
  initPins
  initEdges
  initTimer
  core

/-- The core's own part of bringing up. -/
def startCore : StateM Board Unit := do
  initTick
  initInterrupts

def bringUp : StateM Board Unit := bringUpWith startCore

def data : DataPin (StateM Board) where
  pullLow := drivePin Register.gpioA dataPin false
  release := drivePin Register.gpioA dataPin true
  isHigh := return some (← pinIsHigh Register.gpioA dataPin)
  isLow := return some !(← pinIsHigh Register.gpioA dataPin)

def resetIsHigh : StateM Board Bool := pinIsHigh Register.gpioA resetPin

def clockIsHigh : StateM Board Bool := pinIsHigh Register.gpioA clockPin

/-- Starts the deadline timer afresh; the forced update latches the prescaler and raises no interrupt. -/
def startTimer (duration : UInt32) : StateM Board Unit := do
  write Register.timerControl timerIdle
  write Register.timerReload duration
  write Register.timerCount 0
  write Register.timerEvent 1
  write Register.timerStatus 0
  write Register.timerInterrupt 1
  write Register.timerControl timerRunning

def stopTimer : StateM Board Unit := do
  write Register.timerControl timerIdle
  write Register.timerInterrupt 0
  write Register.timerStatus 0

def region : StateM Board Region := do
  return if (← read Register.backup) &&& 1 != 0 then .pal else .ntsc

/-- Bits 31 to 1 of the backup register stay. -/
def storeRegion (r : Region) : StateM Board Unit :=
  update Register.backup 1 (if r = .pal then 1 else 0)

def services : Services (StateM Board) where
  region := region
  storeRegion := storeRegion
  startBlink := modify fun b => { b with blinking := true }
  stopBlink := modify fun b => { b with blinking := false }

/-- Toggles the status light while an error is shown, else keeps it off. -/
def tick : StateM Board Unit := do
  if (← get).blinking then
    let high ← pinIsHigh Register.gpioC lightPin
    drivePin Register.gpioC lightPin !high
  else
    drivePin Register.gpioC lightPin true

/-- The registers whose bits act when they are written. -/
def strobes : List Address :=
  [Register.setReset Register.gpioA, Register.setReset Register.gpioC,
    Register.edgePending, Register.timerEvent]

/-- Zeroes the strobes, so that their next values tell what was written since. -/
def clearStrobes : StateM Board Unit := strobes.forM fun a => write a 0

end Board

/-- A board together with the handoff that its interrupts serve. -/
structure Controller where
  board : Board := {}
  handoff : Handoff := {}

namespace Controller

def onBoard {α : Type} (x : StateM Board α) : StateM Controller α := fun c =>
  let (a, board) := x c.board
  (a, { c with board := board })

instance : MonadLift (StateM Board) (StateM Controller) := ⟨onBoard⟩

def setHandoff (h : Handoff) : StateM Controller Unit := modify fun c => { c with handoff := h }

/-- Lets an edge act on the handoff; the signal is for the kernel. -/
def edge (act : Handoff → StateM Controller (Handoff × Signal)) : StateM Controller Signal := do
  let (h, signal) ← act (← get).handoff
  setHandoff h
  return signal

def resetRises : StateM Controller Signal := edge fun h => return h.resetRises

def resetFalls : StateM Controller Unit := do
  setHandoff (← (← get).handoff.resetFalls Board.data.lift Board.services.lift)

def clockFalls : StateM Controller Signal := edge fun h => h.clockFalls Board.data.lift

def clockRises : StateM Controller Signal := edge fun h => h.clockRises Board.data.lift

def taskSide (f : Handoff → Handoff) : StateM Controller Unit :=
  modify fun c => { c with handoff := f c.handoff }

def collect : StateM Controller (Option Bool) := do
  let (bit, h) := (← get).handoff.collect
  setHandoff h
  return bit

end Controller

end Lockout
