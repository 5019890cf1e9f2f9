import Lockout.Bench.Bus
import Lockout.Kernel.Basic
import Lockout.Task.Basic
/-!
# A console and its scheduled cartridge

The whole system on the simulated bus: the cartridge's task on the kernel, woken by the edges that the
console plays through the handoff and by the timer. After every edge the kernel runs until it is idle.
-/

namespace Lockout

/-- The cartridge apart from its kernel. -/
structure Cartridge where
  bus : Bus
  handoff : Handoff := {}
  config : Config := .standard
  messages : Array Message := #[]

namespace Cartridge

def onBus {α : Type} (x : StateM Bus α) : StateM Cartridge α := fun c =>
  let (a, bus) := x c.bus
  (a, { c with bus := bus })

instance : MonadLift (StateM Bus) (StateM Cartridge) := ⟨onBus⟩

def setHandoff (h : Handoff) : StateM Cartridge Unit := modify fun c => { c with handoff := h }

def report (message : Message) : StateM Cartridge Unit :=
  modify fun c => { c with messages := c.messages.push message }

/-- The simulation has no stack to measure. -/
def station : Station (StateM Cartridge) where
  holdData := Bus.data.pullLow
  resetIsHigh := Bus.resetIsHigh
  startTimer duration := Bus.startTimer duration
  stopTimer := Bus.stopTimer
  services := Bus.services.lift
  config := return (← get).config
  stackHighWater := return none
  log := report

/-- Lets an edge act on the handoff; what it asks of the kernel is left to the caller. -/
def edge (act : Handoff → StateM Cartridge (Handoff × Signal)) : StateM Cartridge Signal := do
  let (h, signal) ← act (← get).handoff
  setHandoff h
  return signal

def resetRises : StateM Cartridge Signal := edge fun h => return h.resetRises

def resetFalls : StateM Cartridge Unit := do
  setHandoff (← (← get).handoff.resetFalls Bus.data.lift Bus.services.lift)

def clockFalls : StateM Cartridge Signal := edge fun h => h.clockFalls Bus.data.lift

def clockRises : StateM Cartridge Signal := edge fun h => h.clockRises Bus.data.lift

def deadlinePasses : StateM Cartridge Signal := edge fun h => return h.deadlinePasses

inductive Body
  | entry
  | resting (task : Task)

def runBody (body : Body) : StateM Cartridge Body := do
  let h := (← get).handoff
  let (h, task) ← match body with
    | .entry => Task.start station h
    | .resting task => Task.resume station h task
  setHandoff h
  return .resting task

/-- The kernel's view of the cartridge: its only body does nothing but rest. -/
def host : Host (StateM Cartridge) Body where
  step _ body := return .yield (← runBody body)
  log := report

end Cartridge

/-- Stack of the cartridge's task, in words. -/
def taskStack : Nat := 512

/-- A cartridge on the simulated bus, and the kernel that runs its task. -/
structure Console where
  cartridge : Cartridge
  kernel : Kernel Cartridge.Body := {}

namespace Console

def onCartridge {α : Type} (x : StateM Cartridge α) : StateM Console α := fun c =>
  let (a, cartridge) := x c.cartridge
  (a, { c with cartridge := cartridge })

instance : MonadLift (StateM Cartridge) (StateM Console) := ⟨onCartridge⟩

/-- Kernel steps after an edge. A body that only rests is switched to once per slot, runs to its rest once,
and a last look finds nothing to do. -/
def settleSteps : Nat := 2 * slotCount + 1

def settle : StateM Console Unit := do
  let (kernel, _) ← onCartridge ((← get).kernel.run Cartridge.host settleSteps)
  modify fun c => { c with kernel := kernel }

def signal : Signal → StateM Console Unit
  | .none => pure ()
  | .wake => modify fun c => { c with kernel := c.kernel.wake SlotId.cic }
  | .restart => modify fun c => { c with kernel := c.kernel.restart SlotId.cic }

def ringTimer : StateM Console Unit := do
  if (← get).cartridge.bus.timerDue then
    Bus.stopTimer
    signal (← Cartridge.deadlinePasses)
    settle

def switchOn : StateM Console Unit := do
  Bus.driveReset true
  signal (← Cartridge.resetRises)
  settle

def switchOff : StateM Console Unit := do
  Bus.driveReset false
  Cartridge.resetFalls
  settle

/-- One bit cell. The level is the one at the sample point. -/
def play (cell : BitCell) : StateM Console Bool := do
  Cartridge.onBus (modify fun b => b.clockFalls cell)
  signal (← Cartridge.clockFalls)
  let level := (← get).cartridge.bus.dataHigh
  settle
  ringTimer
  Cartridge.onBus (modify Bus.clockRises)
  signal (← Cartridge.clockRises)
  settle
  ringTimer
  return level

def elapse (units : UInt32) : StateM Console Unit := do
  Cartridge.onBus (modify fun b => { b with now := b.now + units })
  ringTimer

def playAll (cells : List BitCell) : StateM Console (List Bool) := cells.mapM play

def listenBits (count : Nat) : StateM Console (List Bool) := playAll (List.replicate count .listen)

def listenNibble : StateM Console Nat := do
  return Nibble.ofBits (← listenBits 4)

def listenNibbles (count : Nat) : StateM Console (List Nat) :=
  (List.replicate count ()).mapM fun _ => listenNibble

def tellBits (bits : List Bool) : StateM Console Unit := do
  let _ ← playAll (bits.map .send)

def tellNibbles (nibbles : List Nat) : StateM Console Unit := tellBits (nibbles.flatMap Nibble.bits)

def setConfig (config : Config) : StateM Console Unit :=
  modify fun c => { c with cartridge.config := config }

/-- What was reported so far; the record is emptied. -/
def takeMessages : StateM Console (List Message) := do
  let c ← get
  set { c with cartridge.messages := #[] }
  return c.cartridge.messages.toList

/-- Creates the cartridge's task and lets it come to its first rest. -/
def boot : StateM Console Unit := do
  let (_, kernel) ← onCartridge ((← get).kernel.createLogged Cartridge.host SlotId.cic taskStack .entry)
  modify fun c => { c with kernel := kernel }
  settle

/-- A console that is switched off, with a cartridge in it. -/
def fresh (config : Config) (region : Region) : Console :=
  (boot.run { cartridge := { bus := { region := region }, config := config } }).2

def cartridgeEnabled (c : Console) : Bool := c.cartridge.handoff.enabled

def taskReady (c : Console) : Bool := c.kernel.isReady SlotId.cic

end Console

end Lockout
