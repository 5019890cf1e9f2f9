import Lockout.Bench.Standalone
/-!
# Session after session

A polling cartridge that serves for ever, visited by one console session after the other. A session is over
when the cartridge has seen RESET low and stops its error blink; it is then put on record and the next one
begins. A console gives up when RESET alone has been watched eight times in a row.
-/

namespace Lockout

/-- One session of the console: what is changed before it, and the bit cells it plays. -/
structure Visit where
  config : Option Config := none
  halfPeriod : Option UInt32 := none
  foreign : Bool := false
  cells : List BitCell := []

/-- A session that is over: what the console received, the bus at that moment, what was reported. -/
structure VisitRecord where
  received : List Bool
  bus : Bus
  messages : List Message

structure Marathon where
  cartridge : Standalone
  /-- Reads of RESET since CLOCK was last read or the session began. -/
  watched : Nat := 0
  upcoming : List Visit := []
  records : Array VisitRecord := #[]

namespace Marathon

/-- How often RESET is watched before the console drops it. -/
def patience : Nat := 8

def onCartridge {α : Type} (x : StateM Standalone α) : StateM Marathon α := fun m =>
  let (a, cartridge) := x m.cartridge
  (a, { m with cartridge := cartridge })

instance : MonadLift (StateM Standalone) (StateM Marathon) := ⟨onCartridge⟩

def openVisit (visit : Visit) : StateM Marathon Unit := do
  modify fun m => { m with watched := 0 }
  if let some config := visit.config then
    Standalone.setConfig config
  if let some units := visit.halfPeriod then
    Bus.pace units
  if visit.foreign then
    Bus.plugForeign
  Bus.enqueue visit.cells
  Bus.driveReset true

def record : StateM Marathon Unit := do
  let received ← Bus.takeReceived
  modify fun m =>
    let entry := ⟨received, m.cartridge.bus, m.cartridge.messages.toList⟩
    { m with records := m.records.push entry, cartridge.messages := #[] }

/-- The next session begins, unless there is none. -/
def proceed : Run Marathon Unit := do
  match (← get).upcoming with
  | [] => throw .gone
  | visit :: rest =>
    modify fun m => { m with upcoming := rest }
    openVisit visit

def watchReset : StateM Marathon (Option Bool) := do
  modify fun m => { m with watched := m.watched + 1 }
  if patience ≤ (← get).watched then
    Bus.driveReset false
  Bus.resetIsHigh

def pollClock : StateM Marathon (Option Bool) := do
  modify fun m => { m with watched := 0 }
  Bus.clockIsHigh

def hardware (limit : Nat) : Polling.Hardware Marathon where
  resetIsHigh := liftM watchReset
  clockIsHigh := liftM pollClock
  data := Bus.data.lift
  now := liftM Bus.readTime
  services := { Bus.services.lift with
    stopBlink := do
      record
      Bus.services.stopBlink
      proceed }
  config := return (← get).cartridge.config
  log message := liftM (Standalone.report message)
  limit := limit

/-- Serves all visits, following each wait for at most `limit` polls. -/
def run (limit : Nat) (m : Marathon) : Marathon :=
  let serve : Run Marathon Unit := do
    proceed
    let sessions := (← get).upcoming.length + 1
    let _ ← (Polling.serveSessions (hardware limit) sessions).run {}
  (serve.run.run m).2

end Marathon

end Lockout
